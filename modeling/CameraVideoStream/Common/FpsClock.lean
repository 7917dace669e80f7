import CameraVideoStream.Common.TestFps

/-!
# The frame rate on a clock that runs forward

As long as the clock is not stepped back and the counter does not wrap, `test_fps` cuts its calls
into windows greedily: a window goes on as long as the calls come within three seconds of its first
one, and the first call after that ends it and prints a third of the number of its calls. So the
calls alone determine what is printed, and it is printed at most once in `3001` milliseconds
(`Common.FpsRun.clocked_run`).

## Main definitions

* `Common.FpsWindow.Greedy`: a window that has been ended by the first call after three seconds.
* `Common.FpsRun.Clocked`: what holds on such a clock.

## Main results

* `Common.FpsRun.clocked_step`, `Common.FpsRun.greedy_of_sorted`.
-/

namespace Common

/-- All calls but the last come within three seconds of the first one, the last one does not, and
the number printed is a third of the number of the calls. -/
def FpsWindow.Greedy (w : FpsWindow) : Prop :=
  ∃ first mid last, w.readings = first :: (mid ++ [last]) ∧
    (∀ r ∈ mid, r.toInt - first.toInt ≤ 3000) ∧ 3000 < last.toInt - first.toInt ∧
    w.fps.toNat = w.readings.length / 3

namespace FpsRun

variable {m : FpsRun} {nowValue : Int64}

/-- Every call of `test_fps` reads the clock once. -/
theorem readings_step (m : FpsRun) (nowValue : Int64) :
    (m.step nowValue).readings = m.readings ++ [nowValue] := by
  simp only [FpsRun.step]
  cases (testFps m.statics nowValue).1 with
  | none => simp only
  | some fps => simp only

/-- The windows that have ended had the time up to the reading `r`. -/
def EndedBy (m : FpsRun) (r : Int64) : Prop :=
  ∀ first ∈ m.readings.head?, 3001 * (m.ended.length : ℤ) ≤ r.toInt - first.toInt

/-- What holds on a clock that runs forward. -/
structure Clocked (m : FpsRun) : Prop where
  windows : m.ended.flatMap FpsWindow.readings ++ m.current = m.readings
  counted : m.statics.count.toNat = m.current.length
  keepsFirst : m.KeepsFirst
  within : ∀ first rest, m.current = first :: rest → ∀ r ∈ rest, r.toInt - first.toInt ≤ 3000
  greedy : ∀ w ∈ m.ended, w.Greedy
  start : m.readings = [] → m.ended = []
  current : ∀ r ∈ m.current, m.EndedBy r
  last : ∀ r ∈ m.readings.getLast?, m.EndedBy r

theorem clocked_init : Clocked {} where
  windows := rfl
  counted := rfl
  keepsFirst := by simp [KeepsFirst]
  within := by simp
  greedy := by simp
  start _ := rfl
  current := by simp
  last := by simp

/-- The reading of the next call is not before the windows that have ended. -/
theorem Clocked.endedBy_next (h : m.Clocked) (hnow : ∀ r ∈ m.readings, r.toInt ≤ nowValue.toInt) :
    ∀ first ∈ (m.readings ++ [nowValue]).head?,
      3001 * (m.ended.length : ℤ) ≤ nowValue.toInt - first.toInt := by
  intro first hfirst
  cases hreadings : m.readings.getLast? with
  | none =>
    rw [List.getLast?_eq_none_iff] at hreadings
    obtain rfl : nowValue = first := by simpa [hreadings] using hfirst
    simp [h.start hreadings]
  | some r =>
    have hmem := List.mem_of_getLast? hreadings
    have hne : m.readings ≠ [] := List.ne_nil_of_mem hmem
    rw [List.head?_append_of_ne_nil _ hne] at hfirst
    have hended := h.last r hreadings first hfirst
    have hle := hnow r hmem
    omega

theorem Clocked.windows_append (h : m.Clocked) (nowValue : Int64) :
    m.ended.flatMap FpsWindow.readings ++ (m.current ++ [nowValue]) =
      m.readings ++ [nowValue] := by
  rw [← List.append_assoc, h.windows]

theorem Clocked.mem_readings (h : m.Clocked) {r : Int64} (hr : r ∈ m.current) :
    r ∈ m.readings := by
  rw [← h.windows]
  exact List.mem_append_right _ hr

/-- The first call of a window. -/
theorem Clocked.step_first (h : m.Clocked) (hcurrent : m.current = [])
    (hnow : ∀ r ∈ m.readings, r.toInt ≤ nowValue.toInt) : (m.step nowValue).Clocked := by
  have hcount : m.statics.count = 0 := by
    rw [← UInt32.toNat_inj, h.counted, hcurrent]
    rfl
  have hended := h.endedBy_next hnow
  rw [FpsRun.step_first hcount]
  refine ⟨h.windows_append nowValue, by simp [hcurrent], fun first rest hfirst => ?_,
    fun first rest hfirst => ?_, h.greedy, by simp, ?_, ?_⟩
  · obtain ⟨rfl, -⟩ : nowValue = first ∧ [] = rest := by simpa [hcurrent] using hfirst
    rfl
  · obtain ⟨-, rfl⟩ : nowValue = first ∧ [] = rest := by simpa [hcurrent] using hfirst
    simp
  · simpa [hcurrent, EndedBy] using hended
  · simpa [EndedBy] using hended

/-- A call within three seconds of the first one of its window. -/
theorem Clocked.step_between (h : m.Clocked) {first : Int64} {rest : List Int64}
    (hcurrent : m.current = first :: rest) (hcount : m.statics.count ≠ 0)
    (hnow : ∀ r ∈ m.readings, r.toInt ≤ nowValue.toInt) (hlt : rest.length + 2 < 2 ^ 32)
    (helapsed : ¬ nowValue.toUInt64 - m.statics.lastMs > 3000)
    (hwithin : nowValue.toInt - first.toInt ≤ 3000) : (m.step nowValue).Clocked := by
  have hcounted : m.statics.count.toNat = rest.length + 1 := by
    rw [h.counted, hcurrent]
    rfl
  have hinc := (TestFps.count_increment_iff hcounted).mpr hlt
  have hended := h.endedBy_next hnow
  have hne : m.readings ≠ [] := List.ne_nil_of_mem (h.mem_readings (hcurrent ▸ List.mem_cons_self))
  rw [FpsRun.step_between hcount helapsed]
  refine ⟨h.windows_append nowValue, ?_, fun first' rest' hfirst => ?_,
    fun first' rest' hfirst r hr => ?_, h.greedy, by simp, fun r hr => ?_, ?_⟩
  · rw [List.length_append, hcurrent]
    exact hinc
  · obtain ⟨rfl, -⟩ : first = first' ∧ rest ++ [nowValue] = rest' := by
      simpa [hcurrent] using hfirst
    exact h.keepsFirst first rest hcurrent
  · obtain ⟨rfl, rfl⟩ : first = first' ∧ rest ++ [nowValue] = rest' := by
      simpa [hcurrent] using hfirst
    rcases List.mem_append.mp hr with hr | hr
    · exact h.within first rest hcurrent r hr
    · rwa [List.mem_singleton.mp hr]
  · rcases List.mem_append.mp hr with hr | hr
    · intro first' hfirst'
      rw [List.head?_append_of_ne_nil _ hne] at hfirst'
      exact h.current r hr first' hfirst'
    · rw [List.mem_singleton.mp hr]
      exact hended
  · simpa [EndedBy] using hended

/-- The first call after three seconds. -/
theorem Clocked.step_last (h : m.Clocked) {first : Int64} {rest : List Int64}
    (hcurrent : m.current = first :: rest) (hcount : m.statics.count ≠ 0)
    (hlt : rest.length + 2 < 2 ^ 32) (helapsed : nowValue.toUInt64 - m.statics.lastMs > 3000)
    (hthree : 3000 < nowValue.toInt - first.toInt) : (m.step nowValue).Clocked := by
  have hcounted : m.statics.count.toNat = rest.length + 1 := by
    rw [h.counted, hcurrent]
    rfl
  have hinc := (TestFps.count_increment_iff hcounted).mpr hlt
  have hmem : first ∈ m.current := hcurrent ▸ List.mem_cons_self
  have hne : m.readings ≠ [] := List.ne_nil_of_mem (h.mem_readings hmem)
  rw [FpsRun.step_last hcount helapsed]
  refine ⟨?_, rfl, by simp [KeepsFirst], by simp, fun w hw => ?_, by simp, by simp,
    fun r hr first' hfirst' => ?_⟩
  · simpa using h.windows_append nowValue
  · rcases List.mem_append.mp hw with hw | hw
    · exact h.greedy w hw
    · rw [List.mem_singleton.mp hw]
      refine ⟨first, rest, nowValue, by simp [hcurrent], h.within first rest hcurrent, hthree, ?_⟩
      rw [UInt32.toNat_div, hinc, hcurrent, List.length_append]
      rfl
  · rw [List.head?_append_of_ne_nil _ hne] at hfirst'
    obtain rfl : nowValue = r := by simpa using hr
    have hended := h.current first hmem first' hfirst'
    simp only [List.length_append, List.length_singleton]
    push_cast
    omega

/-- **What a call keeps** on a clock that runs forward. -/
theorem clocked_step (h : m.Clocked) (hnow : ∀ r ∈ m.readings, r.toInt ≤ nowValue.toInt)
    (hlt : m.readings.length + 1 < 2 ^ 32) : (m.step nowValue).Clocked := by
  cases hcurrent : m.current with
  | nil => exact h.step_first hcurrent hnow
  | cons first rest =>
    have hlen : rest.length + 1 ≤ m.readings.length := by
      rw [← h.windows, hcurrent, List.length_append, List.length_cons]
      omega
    have hcount : m.statics.count ≠ 0 := by
      intro hzero
      have hcounted := h.counted
      rw [hzero, hcurrent] at hcounted
      cases hcounted
    have hfirst := hnow first (h.mem_readings (hcurrent ▸ List.mem_cons_self))
    have hends := elapsed_gt_iff first nowValue
    rw [← h.keepsFirst first rest hcurrent] at hends
    by_cases helapsed : nowValue.toUInt64 - m.statics.lastMs > 3000
    · have hcases := hends.mp helapsed
      exact h.step_last hcurrent hcount (by omega) helapsed (by omega)
    · have hstays := hends.not.mp helapsed
      exact h.step_between hcurrent hcount hnow (by omega) helapsed (by omega)

theorem clocked_run {readings : List Int64}
    (hsorted : readings.Pairwise fun x y => x.toInt ≤ y.toInt) (hlt : readings.length < 2 ^ 32) :
    (Transition.run step {} readings).Clocked ∧
      (Transition.run step {} readings).readings = readings := by
  induction readings using List.reverseRecOn with
  | nil => exact ⟨clocked_init, rfl⟩
  | append_singleton readings nowValue ih =>
    obtain ⟨hsorted, -, hnow⟩ := List.pairwise_append.mp hsorted
    rw [List.length_append, List.length_singleton] at hlt
    obtain ⟨h, hreadings⟩ := ih hsorted (by omega)
    rw [Transition.run_append, Transition.run_cons, Transition.run_nil]
    refine ⟨clocked_step h ?_ (by rwa [hreadings]), ?_⟩
    · rw [hreadings]
      simpa using hnow
    · rw [readings_step, hreadings]

/-- **The frame rate on a clock that runs forward.** For every sequence of fewer than `2^32` calls
with readings that do not decrease: the windows that have ended and the current one are the calls,
in order; every window that has ended goes as far as the first call after three seconds and prints a
third of the number of its calls, the current one has not come to such a call yet; and from the
first call to the last there is time for the numbers printed at one in `3001` milliseconds. -/
theorem greedy_of_sorted {readings : List Int64}
    (hsorted : readings.Pairwise fun x y => x.toInt ≤ y.toInt) (hlt : readings.length < 2 ^ 32) :
    let m := Transition.run step {} readings
    m.ended.flatMap FpsWindow.readings ++ m.current = readings ∧ (∀ w ∈ m.ended, w.Greedy) ∧
      (∀ first rest, m.current = first :: rest → ∀ r ∈ rest, r.toInt - first.toInt ≤ 3000) ∧
      ∀ first ∈ readings.head?, ∀ last ∈ readings.getLast?,
        3001 * (m.ended.length : ℤ) ≤ last.toInt - first.toInt := by
  intro m
  obtain ⟨h, hreadings⟩ := clocked_run hsorted hlt
  have hlast := h.last
  simp only [EndedBy, hreadings] at hlast
  exact ⟨h.windows.trans hreadings, h.greedy, h.within,
    fun first hfirst last hl => hlast last hl first hfirst⟩

/-- Two windows, the second of which has begun. -/
theorem greedy_of_sorted_two :
    let m := Transition.run step {} [0, 1000, 3000, 3001, 3002, 6002]
    m.ended.flatMap FpsWindow.readings ++ m.current = [0, 1000, 3000, 3001, 3002, 6002] ∧
      (∀ w ∈ m.ended, w.Greedy) ∧
      (∀ first rest, m.current = first :: rest → ∀ r ∈ rest, r.toInt - first.toInt ≤ 3000) ∧
      ∀ first ∈ [(0 : Int64), 1000, 3000, 3001, 3002, 6002].head?,
        ∀ last ∈ [(0 : Int64), 1000, 3000, 3001, 3002, 6002].getLast?,
          3001 * (m.ended.length : ℤ) ≤ last.toInt - first.toInt :=
  greedy_of_sorted (by decide) (by decide)

end FpsRun

end Common
