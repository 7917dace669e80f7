import CameraVideoStream.Foundation.Transition
import Mathlib.Algebra.Order.Field.Basic
import Mathlib.Algebra.Order.Ring.Rat
import Mathlib.Tactic.Linarith
import Mathlib.Tactic.Positivity

/-!
# The frame rate

The display thread calls `test_fps` (`common/common.cc`) after every image that it has shown. The
first call of a measuring window keeps its reading of the clock in `last_ms`; the first later call
whose reading lies more than three seconds after that prints a third of the calls counted, and the
next call begins a new window. The difference of the readings is taken modulo `2^64`, the calls are
counted modulo `2^32`, and the number printed is that of a window of exactly three seconds, however
long it has lasted. So the frame rate is right exactly if the clock is not stepped back behind the
first reading of a window, no window has `2^32` calls, and none lasts much longer than three seconds
(`Common.FpsRun.ratesRight_iff_meets`).

## Main definitions

* `Common.testFps`: a call, with the static variables `Common.TestFps`.
* `Common.FpsRun`: a run of calls, with the measuring windows.
* `Common.FpsRun.RatesRight`: every call is counted in one window, and every number printed is
  right.
* `Common.FpsRun.longest`, `Common.FpsRun.Timely`: the condition on the readings.

## Main results

* `Common.abs_div_sub_le_one_iff`: how long a window may last.
* `Common.FpsRun.ratesRight_iff_meets`.
-/

namespace Common

/-- The static variables of `test_fps`. -/
structure TestFps where
  lastMs : UInt64 := 0
  count : UInt32 := 0
  deriving DecidableEq

/-- `count++`. -/
def TestFps.increment (s : TestFps) : TestFps := { s with count := s.count + 1 }

/-- `test_fps()` with the clock at `nowValue` milliseconds, which is a `long`: the number printed,
and the static variables after the call. -/
def testFps (s : TestFps) (nowValue : Int64) : Option UInt32 × TestFps :=
  if s.count = 0 then
    (none, { lastMs := nowValue.toUInt64, count := 1 })
  else
    let s := s.increment
    if nowValue.toUInt64 - s.lastMs > 3000 then
      (some (s.count / 3), { lastMs := nowValue.toUInt64, count := 0 })
    else
      (none, s)

/-- A measuring window that has ended: the readings of its calls, the last of which has printed
`fps`, with `count` calls counted. -/
structure FpsWindow where
  readings : List Int64
  count : UInt32
  fps : UInt32
  deriving DecidableEq

/-- A run of calls: the readings of all of them, the windows that have ended, and the readings since
the last of these has ended. -/
structure FpsRun where
  statics : TestFps := {}
  readings : List Int64 := []
  ended : List FpsWindow := []
  current : List Int64 := []
  deriving DecidableEq

/-- All calls of the window have been counted, and the number printed is right up to one: that of
the calls in the time between the first and the last of them, which is more than three seconds. -/
structure FpsWindow.RateRight (w : FpsWindow) : Prop where
  counted : w.count.toNat = w.readings.length
  rate : ∃ first rest last, w.readings = first :: (rest ++ [last]) ∧
    3000 < last.toInt - first.toInt ∧
    |(w.fps.toNat : ℚ) - 1000 * w.readings.length / (last.toInt - first.toInt : ℤ)| ≤ 1

namespace FpsRun

/-- The run after one more call. -/
def step (m : FpsRun) (nowValue : Int64) : FpsRun :=
  let r := testFps m.statics nowValue
  match r.1 with
  | none =>
    { m with
      statics := r.2
      readings := m.readings ++ [nowValue]
      current := m.current ++ [nowValue] }
  | some fps =>
    { statics := r.2
      readings := m.readings ++ [nowValue]
      ended := m.ended ++ [⟨m.current ++ [nowValue], m.statics.increment.count, fps⟩]
      current := [] }

/-- Every call is counted in exactly one window, and every number printed is right. -/
structure RatesRight (m : FpsRun) : Prop where
  windows : m.ended.flatMap FpsWindow.readings ++ m.current = m.readings
  counted : m.statics.count.toNat = m.current.length
  rates : ∀ w ∈ m.ended, w.RateRight

/-- How long a window with that many calls may last, in milliseconds. With fewer than six calls it
may last for ever. -/
def longest (calls : ℕ) : ℕ := 1000 * calls / (calls / 3 - 1)

/-- After the calls of the window so far the call comes in time: it is the first one; or the window
has fewer than `2^32` calls, the clock has not been stepped back behind the first reading (unless by
about `2^64` milliseconds), and a window that has lasted more than three seconds has fewer than six
calls or has not lasted too long. -/
def TimelyAfter : List Int64 → Int64 → Prop
  | [], _ => True
  | first :: rest, nowValue =>
    let calls := rest.length + 2
    let elapsed := nowValue.toInt - first.toInt
    calls < 2 ^ 32 ∧ (elapsed < 0 → elapsed + 2 ^ 64 ≤ 3000) ∧
      (3000 < elapsed → calls < 6 ∨ elapsed ≤ longest calls)

/-- The call comes in time. -/
def Timely (m : FpsRun) (nowValue : Int64) : Prop := TimelyAfter m.current nowValue

instance : (current : List Int64) → (nowValue : Int64) → Decidable (TimelyAfter current nowValue)
  | [], _ => inferInstanceAs (Decidable True)
  | _ :: _, _ => inferInstanceAs (Decidable (_ ∧ _ ∧ _))

instance (m : FpsRun) (nowValue : Int64) : Decidable (m.Timely nowValue) :=
  inferInstanceAs (Decidable (TimelyAfter m.current nowValue))

/-- `last_ms` is the first reading of the window. -/
def KeepsFirst (m : FpsRun) : Prop :=
  ∀ first rest, m.current = first :: rest → m.statics.lastMs = first.toUInt64

end FpsRun

/-! ### The elapsed time -/

theorem toNat_toUInt64_emod (x : Int64) : (x.toUInt64.toNat : ℤ) = x.toInt % 2 ^ 64 := by
  have hlt := x.toUInt64.toNat_lt
  have hint : x.toInt = if 2 * x.toUInt64.toNat < 2 ^ 64 then (x.toUInt64.toNat : ℤ)
      else (x.toUInt64.toNat : ℤ) - (2 ^ 64 : ℕ) := BitVec.toInt_eq_toNat_cond x.toBitVec
  rw [hint]
  split_ifs <;> omega

/-- The difference that the code compares with `3000`. -/
theorem toNat_elapsed (first now : Int64) :
    ((now.toUInt64 - first.toUInt64).toNat : ℤ) = (now.toInt - first.toInt) % 2 ^ 64 := by
  have hfirst := toNat_toUInt64_emod first
  have hnow := toNat_toUInt64_emod now
  have hlt := first.toUInt64.toNat_lt
  rw [UInt64.toNat_sub]
  omega

/-- A call ends the window if more than three seconds have elapsed, or the clock has been stepped
back behind the first reading. -/
theorem elapsed_gt_iff (first now : Int64) :
    now.toUInt64 - first.toUInt64 > 3000 ↔
      3000 < now.toInt - first.toInt ∨
        now.toInt - first.toInt < 0 ∧ 3000 < now.toInt - first.toInt + 2 ^ 64 := by
  have helapsed := toNat_elapsed first now
  have hfirst := first.toInt_lt
  have hfirst' := first.le_toInt
  have hnow := now.toInt_lt
  have hnow' := now.le_toInt
  rw [gt_iff_lt, UInt64.lt_iff_toNat_lt]
  have hthree : (3000 : UInt64).toNat = 3000 := rfl
  rw [hthree]
  omega

/-- **How long a window may last.** The number `c / k` for `c` calls in more than `k` seconds is
right up to one exactly if they have taken no longer than at one call a second less than that. -/
theorem abs_div_sub_le_one_iff {c k : ℕ} {e : ℤ} (hk : 0 < k) (he : 1000 * k < e) :
    |((c / k : ℕ) : ℚ) - 1000 * c / e| ≤ 1 ↔ (((c / k : ℕ) : ℤ) - 1) * e ≤ 1000 * c := by
  have hc : c < k * (c / k + 1) := Nat.lt_mul_div_succ c hk
  generalize c / k = q at hc ⊢
  have hpos : (0 : ℚ) < e := by
    have hposInt : (0 : ℤ) < e := by omega
    exact_mod_cast hposInt
  -- the rate is less than that in a window of `k` seconds
  have hupper : (1000 * c : ℚ) / e ≤ q + 1 := by
    have hcalls : (c : ℤ) ≤ k * (q + 1) := by exact_mod_cast hc.le
    have hlasts : ((q : ℤ) + 1) * (1000 * k) ≤ (q + 1) * e :=
      mul_le_mul_of_nonneg_left he.le (by positivity)
    have hle : 1000 * (c : ℤ) ≤ (q + 1) * e := by linarith
    rw [div_le_iff₀ hpos]
    exact_mod_cast hle
  have hlower : (q : ℚ) - 1 ≤ 1000 * c / e ↔ ((q : ℤ) - 1) * e ≤ 1000 * c := by
    rw [le_div_iff₀ hpos]
    exact_mod_cast Iff.rfl
  rw [abs_le, ← hlower]
  constructor
  · rintro ⟨-, h⟩
    linarith
  · intro h
    exact ⟨by linarith, by linarith⟩

/-! ### What a call does -/

theorem TestFps.count_increment_iff {s : TestFps} {n : ℕ} (hn : s.count.toNat = n) :
    s.increment.count.toNat = n + 1 ↔ n + 1 < 2 ^ 32 := by
  have hone : (1 : UInt32).toNat = 1 := rfl
  rw [increment, UInt32.toNat_add, hn, hone]
  omega

namespace FpsRun

variable {m : FpsRun} {nowValue : Int64}

theorem step_first (hcount : m.statics.count = 0) (nowValue : Int64) :
    m.step nowValue =
      { m with
        statics := ⟨nowValue.toUInt64, 1⟩
        readings := m.readings ++ [nowValue]
        current := m.current ++ [nowValue] } := by
  simp [step, testFps, hcount]

theorem step_between (hcount : m.statics.count ≠ 0)
    (helapsed : ¬ nowValue.toUInt64 - m.statics.lastMs > 3000) :
    m.step nowValue =
      { m with
        statics := m.statics.increment
        readings := m.readings ++ [nowValue]
        current := m.current ++ [nowValue] } := by
  have hcall : testFps m.statics nowValue = (none, m.statics.increment) := by
    rw [testFps, if_neg hcount]
    exact if_neg helapsed
  simp only [step, hcall]

theorem step_last (hcount : m.statics.count ≠ 0)
    (helapsed : nowValue.toUInt64 - m.statics.lastMs > 3000) :
    m.step nowValue =
      { statics := ⟨nowValue.toUInt64, 0⟩
        readings := m.readings ++ [nowValue]
        ended := m.ended ++ [⟨m.current ++ [nowValue], m.statics.increment.count,
          m.statics.increment.count / 3⟩]
        current := [] } := by
  have hcall : testFps m.statics nowValue =
      (some (m.statics.increment.count / 3), ⟨nowValue.toUInt64, 0⟩) := by
    rw [testFps, if_neg hcount]
    exact if_pos helapsed
  simp only [step, hcall]

/-- The window is empty exactly if the counter is zero. -/
theorem RatesRight.count_eq_zero_iff (h : m.RatesRight) :
    m.statics.count = 0 ↔ m.current = [] := by
  rw [← UInt32.toNat_inj, h.counted, UInt32.toNat_zero, List.length_eq_zero_iff]

/-- One more call is one more reading of the windows. -/
theorem RatesRight.windows_append (h : m.RatesRight) (nowValue : Int64) :
    m.ended.flatMap FpsWindow.readings ++ (m.current ++ [nowValue]) =
      m.readings ++ [nowValue] := by
  rw [← List.append_assoc, h.windows]

theorem le_longest_iff {calls : ℕ} {e : ℤ} (he : 0 < e) :
    (((calls / 3 : ℕ) : ℤ) - 1) * e ≤ 1000 * calls ↔ calls < 6 ∨ e ≤ longest calls := by
  rcases Nat.lt_or_ge calls 6 with hfew | hmany
  · have hquotient : ((calls / 3 : ℕ) : ℤ) - 1 ≤ 0 := by omega
    have hle := mul_nonpos_of_nonpos_of_nonneg hquotient he.le
    exact iff_of_true (by omega) (.inl hfew)
  · have hpos : 0 < ((calls / 3 - 1 : ℕ) : ℤ) := by omega
    have hcast : ((calls / 3 : ℕ) : ℤ) - 1 = (calls / 3 - 1 : ℕ) := by omega
    rw [or_iff_right (by omega), longest, Int.natCast_ediv (1000 * calls),
      Int.le_ediv_iff_mul_le hpos, hcast, mul_comm, Nat.cast_mul]
    rfl

/-- The window that a call ends is right exactly if the counter has not wrapped and the call comes
more than three seconds after the first one, but not too long. -/
theorem rateRight_iff {first : Int64} {rest : List Int64} {s : TestFps}
    (hcount : s.count.toNat = rest.length + 1) :
    FpsWindow.RateRight ⟨first :: (rest ++ [nowValue]), s.increment.count, s.increment.count / 3⟩ ↔
      rest.length + 2 < 2 ^ 32 ∧ 3000 < nowValue.toInt - first.toInt ∧
        (rest.length + 2 < 6 ∨ nowValue.toInt - first.toInt ≤ longest (rest.length + 2)) := by
  have hinc := TestFps.count_increment_iff hcount
  have hlen : (first :: (rest ++ [nowValue])).length = rest.length + 2 := by simp
  have hfps (hlt : rest.length + 2 < 2 ^ 32) :
      (s.increment.count / 3).toNat = (rest.length + 2) / 3 := by
    rw [UInt32.toNat_div, hinc.mpr hlt]
    rfl
  constructor
  · rintro ⟨hcounted, first', rest', last, hreadings, hthree, hrate⟩
    obtain ⟨rfl, htail⟩ := List.cons.inj hreadings
    obtain ⟨rfl, hlast⟩ := List.append_inj' htail rfl
    obtain rfl : nowValue = last := List.singleton_inj.mp hlast
    rw [hlen] at hcounted
    have hlt := hinc.mp hcounted
    refine ⟨hlt, hthree, ?_⟩
    simp only [hlen, hfps hlt] at hrate
    rw [abs_div_sub_le_one_iff (by omega) (by simpa using hthree)] at hrate
    exact (le_longest_iff (by omega)).mp hrate
  · rintro ⟨hlt, hthree, hsoon⟩
    refine ⟨by rw [hlen]; exact hinc.mpr hlt, first, rest, nowValue, rfl, hthree, ?_⟩
    simp only [hlen, hfps hlt]
    rw [abs_div_sub_le_one_iff (by omega) (by simpa using hthree)]
    exact (le_longest_iff (by omega)).mpr hsoon

/-- The first call of a window keeps everything right. -/
theorem RatesRight.step_first (h : m.RatesRight) (hcurrent : m.current = []) (nowValue : Int64) :
    (m.step nowValue).RatesRight ∧ (m.step nowValue).KeepsFirst := by
  rw [FpsRun.step_first (h.count_eq_zero_iff.mpr hcurrent)]
  refine ⟨⟨h.windows_append nowValue, by simp [hcurrent], h.rates⟩, fun first rest hfirst => ?_⟩
  obtain ⟨rfl, -⟩ : nowValue = first ∧ [] = rest := by simpa [hcurrent] using hfirst
  rfl

/-- A call that does not end the window is counted exactly if the counter does not wrap. -/
theorem RatesRight.step_between_iff (h : m.RatesRight) (hcount : m.statics.count ≠ 0)
    (helapsed : ¬ nowValue.toUInt64 - m.statics.lastMs > 3000) :
    (m.step nowValue).RatesRight ↔ m.current.length + 1 < 2 ^ 32 := by
  have hinc := TestFps.count_increment_iff h.counted
  rw [step_between hcount helapsed]
  constructor
  · intro h'
    have hcounted := h'.counted
    simp only [List.length_append, List.length_singleton] at hcounted
    exact hinc.mp hcounted
  · intro hlt
    exact ⟨h.windows_append nowValue, by simpa using hinc.mpr hlt, h.rates⟩

theorem KeepsFirst.step_between (hfirst : m.KeepsFirst) (hcurrent : m.current ≠ [])
    (hcount : m.statics.count ≠ 0) (helapsed : ¬ nowValue.toUInt64 - m.statics.lastMs > 3000) :
    (m.step nowValue).KeepsFirst := by
  obtain ⟨first, rest, hcurrent⟩ := List.exists_cons_of_ne_nil hcurrent
  rw [FpsRun.step_between hcount helapsed]
  intro first' rest' hc
  obtain ⟨rfl, -⟩ : first = first' ∧ rest ++ [nowValue] = rest' := by simpa [hcurrent] using hc
  exact hfirst first rest hcurrent

/-- A call that ends the window keeps everything right exactly if it prints the right number. -/
theorem RatesRight.step_last_iff (h : m.RatesRight) (hcount : m.statics.count ≠ 0)
    (helapsed : nowValue.toUInt64 - m.statics.lastMs > 3000) :
    ((m.step nowValue).RatesRight ↔
      FpsWindow.RateRight ⟨m.current ++ [nowValue], m.statics.increment.count,
        m.statics.increment.count / 3⟩) ∧ (m.step nowValue).KeepsFirst := by
  rw [step_last hcount helapsed]
  refine ⟨⟨fun h' => h'.rates _ (by simp), fun hright => ⟨?_, rfl, ?_⟩⟩, by simp [KeepsFirst]⟩
  · simpa using h.windows_append nowValue
  · intro w hw
    rcases List.mem_append.mp hw with hw | hw
    · exact h.rates w hw
    · rw [List.mem_singleton.mp hw]
      exact hright

/-- **What a call keeps.** As long as everything is right, a call keeps it so exactly if it is
timely. -/
theorem ratesRight_step (h : m.RatesRight) (hfirst : m.KeepsFirst) (nowValue : Int64) :
    ((m.step nowValue).RatesRight ↔ m.Timely nowValue) ∧ (m.step nowValue).KeepsFirst := by
  cases hcurrent : m.current with
  | nil =>
    obtain ⟨hright, hkeeps⟩ := h.step_first hcurrent nowValue
    exact ⟨iff_of_true hright (by simp [Timely, TimelyAfter, hcurrent]), hkeeps⟩
  | cons first rest =>
    have hcounted : m.statics.count.toNat = rest.length + 1 := by
      rw [h.counted, hcurrent]
      rfl
    have hcount : m.statics.count ≠ 0 := by simp [h.count_eq_zero_iff, hcurrent]
    have hends := elapsed_gt_iff first nowValue
    rw [← hfirst first rest hcurrent] at hends
    simp only [Timely, TimelyAfter, hcurrent]
    by_cases helapsed : nowValue.toUInt64 - m.statics.lastMs > 3000
    · obtain ⟨hiff, hkeeps⟩ := h.step_last_iff hcount helapsed
      refine ⟨?_, hkeeps⟩
      rw [hiff, hcurrent, List.cons_append, rateRight_iff hcounted]
      have hcases := hends.mp helapsed
      refine and_congr_right fun _ => ⟨fun ⟨hthree, hsoon⟩ => ⟨by omega, fun _ => hsoon⟩, ?_⟩
      rintro ⟨hback, hsoon⟩
      have hthree : 3000 < nowValue.toInt - first.toInt := by omega
      exact ⟨hthree, hsoon hthree⟩
    · refine ⟨?_, hfirst.step_between (by simp [hcurrent]) hcount helapsed⟩
      have hstays := hends.not.mp helapsed
      rw [h.step_between_iff hcount helapsed, hcurrent, List.length_cons]
      refine ⟨fun hlt => ⟨by omega, by omega, fun hthree => absurd (.inl hthree) hstays⟩, ?_⟩
      rintro ⟨hlt, -⟩
      omega

/-- **When the frame rate is right.** For every sequence of calls, with any readings of the clock:
every call is counted in exactly one window, every number is printed more than three seconds after
the first call of its window and right up to one, exactly when every call is timely. -/
theorem ratesRight_iff_meets (readings : List Int64) :
    Transition.Throughout step RatesRight {} readings ↔
      Transition.Meets step Timely {} readings :=
  Transition.throughout_iff_meets (J := KeepsFirst) (L := fun _ _ => True)
    (fun _ nowValue hfirst h _ _ => (ratesRight_step h hfirst nowValue).2)
    (fun _ nowValue hfirst h _ => (ratesRight_step h hfirst nowValue).1)
    (by simp [KeepsFirst]) ⟨rfl, rfl, by simp⟩ (Transition.meets_iff_forall.mpr fun _ _ => trivial)

/-- Five calls in four seconds are timely, ten of which the last comes after a hundred seconds are
not. -/
example :
    Transition.Meets step Timely {} [0, 1000, 2000, 3000, 4000] ∧
      ¬ Transition.Meets step Timely {} [0, 1, 2, 3, 4, 5, 6, 7, 8, 100000] := by
  decide

/-- The clock is stepped back by a second: a rate is printed at once. -/
theorem not_ratesRight :
    ¬ ∀ readings, Transition.Throughout step RatesRight {} readings := by
  intro h
  have hright := h [5000, 4000] _ List.prefix_rfl
  obtain ⟨first, rest, last, hreadings, hthree, -⟩ :=
    (hright.rates ⟨[5000, 4000], 2, 0⟩ (by decide)).rate
  have htail : [] ++ [4000] = rest ++ [last] := (List.cons.inj hreadings).2
  obtain ⟨-, hlast⟩ := List.append_inj' htail rfl
  obtain rfl : (5000 : Int64) = first := (List.cons.inj hreadings).1
  obtain rfl : (4000 : Int64) = last := List.singleton_inj.mp hlast
  exact absurd hthree (by decide)

end FpsRun

end Common
