import CameraVideoStream.Server.Mappings

/-!
# What a `cam_init` that fails leaves

Wherever `cam_init` gives up it closes the descriptor, and in the loops over the buffers it also
frees `camera.buffers` and the planes that it has allocated for the request that failed. It never
unmaps: what has been mapped for the buffers before stays mapped, and nothing points to it any more.
So a failed `cam_init` releases everything exactly if nothing had been mapped when it failed
(`CameraApp.released_iff`).

## Main definitions

* `CameraApp.Released`: everything that has been acquired since has been released, once.
* `CameraApp.MapsNothing`: no mapping succeeds before a call fails.
* `CameraApp.failedCalls`: the calls for a buffer whose request fails.
* `CameraApp.Leaves`: only some mappings are left of what has been acquired.

## Main results

* `CameraApp.setUp_fails`: what each failure leaves.
* `CameraApp.released_iff`.
-/

open V4l2

namespace CameraApp

/-- The device is not open, and everything that has been acquired since `m` has been released; each
resource as often as it has been acquired. -/
structure Released (m m' : CameraApp) : Prop where
  devOpen : m'.devOpen = false
  held : V4l2.held (m'.callsSince m) = some 0
  balanced : ∀ r, ((m'.callsSince m).flatMap Event.entries).count (.acquire r) =
    ((m'.callsSince m).flatMap Event.entries).count (.release r)

/-- If the loops over the buffers are reached, no plane of a buffer is mapped as long as
`VIDIOC_QUERYBUF` succeeds. -/
def MapsNothing (a : InitAnswers) : Prop :=
  0 ≤ a.videofd → a.Reaches → ∀ n < reqCount a, (∀ i ≤ n, (a.queryBuf i).isSome = true) →
    ∀ j < a.numPlanes, a.mmap n j = mapFailed

/-- The calls for a buffer whose `request` fails, with the planes at `ptr`. -/
def failedCalls (m : CameraApp) (ptr : UInt64) (request : Ioctl) : List Event :=
  m.mplaneCall (.calloc ptr) ++ [.ioctl m.camera.videofd request false] ++
    m.mplaneCall (.free ptr) ++ [.free m.camera.buffers, .close m.camera.videofd]

/-- Of what has been acquired from `m` to `m'`, where the device is open and closed, only the
mappings of `ss` are left. -/
def Leaves (ss : List Slot) (m m' : CameraApp) : Prop :=
  ∃ es, m'.trace = m.trace ++ es ∧
    ∀ t, V4l2.held t = some {.descriptor m.camera.videofd} →
      V4l2.held (t ++ es) = some (mappings ss)

/-! ### Requests that fail -/

theorem SameDevice.failedCalls {m m' : CameraApp} (h : SameDevice m m') (ptr : UInt64)
    (request : Ioctl) : m'.failedCalls ptr request = m.failedCalls ptr request := by
  rw [CameraApp.failedCalls, CameraApp.failedCalls, h.mplaneCall, h.mplaneCall, h.videofd,
    h.buffers]

theorem bufType_callocPlanes (m : CameraApp) (ptr : UInt64) :
    (m.callocPlanes ptr).bufType = m.bufType := by
  rw [callocPlanes]
  split_ifs <;> rfl

/-- How both loops give up. -/
theorem trace_fail (m : CameraApp) (ptr : UInt64) (request : Ioctl) :
    let m' := (m.callocPlanes ptr).ioctl request false
    ((m'.freePlanes ptr).sys (.free m'.camera.buffers)).closeAndFail.Sat (fun _ => False)
      (fun _ m'' => m''.trace = m.trace ++ m.failedCalls ptr request) := by
  by_cases hmplane : m.camera.driverType = .videoCaptureMplane
  · simp [callocPlanes, freePlanes, ioctl, sys, closeAndFail, failedCalls, mplaneCall, hmplane]
  · simp [callocPlanes, freePlanes, ioctl, sys, closeAndFail, failedCalls, mplaneCall, hmplane]

theorem queryBuffer_fails (a : InitAnswers) (n : ℕ) (m : CameraApp) :
    (queryBuffer a n m).Sat (fun _ => (a.queryBuf n).isSome = true)
      (fun r m' => r = some (-1) → a.queryBuf n = none ∧
        m'.trace = m.trace ++ m.failedCalls (a.callocQuery n) (.queryBuf m.bufType n)) := by
  cases hquery : a.queryBuf n with
  | none =>
    simp only [queryBuffer, hquery, bufType_callocPlanes]
    exact (trace_fail m (a.callocQuery n) (.queryBuf m.bufType n)).mono (fun _ h => h.elim)
      fun _ _ h _ => ⟨trivial, h⟩
  | some planes =>
    have hpersists := persists_queryBuffer (a := a) (n := n) (by rw [hquery]; rfl) m
    exact Outcome.Sat.mono hpersists (fun _ _ => by simp) fun _ _ hr h => absurd h hr

theorem queueBuffer_fails (a : InitAnswers) (n : ℕ) (m : CameraApp) :
    (queueBuffer a n m).Sat (fun _ => True)
      (fun _ m' =>
        m'.trace = m.trace ++ m.failedCalls (a.callocQueue n) (.qBuf m.bufType n)) := by
  cases hqueue : a.qBuf n with
  | true => simp [queueBuffer, hqueue]
  | false =>
    simp only [queueBuffer, hqueue, bufType_callocPlanes]
    exact (trace_fail m (a.callocQueue n) (.qBuf m.bufType n)).mono (fun _ h => h.elim)
      fun _ _ h => h

/-- The loop with `VIDIOC_QUERYBUF`: it has queried all buffers, or failed for one of them. -/
theorem queryLoop_fails (a : InitAnswers) (k : ℕ) (m : CameraApp) :
    (Outcome.iterate (queryBuffer a) 0 k m).Sat
      (fun m' => TableFilled a k ((List.range k).flatMap (queryCalls a m)) m m' ∧
        ∀ i < k, (a.queryBuf i).isSome = true)
      (fun r m' => r = some (-1) → ∃ n < k, (∀ i < n, (a.queryBuf i).isSome = true) ∧
        a.queryBuf n = none ∧
        m'.trace = m.trace ++ (List.range n).flatMap (queryCalls a m) ++
          m.failedCalls (a.callocQuery n) (.queryBuf m.bufType n)) := by
  refine Outcome.sat_iterate
    (I := fun n m' => TableFilled a n ((List.range n).flatMap (queryCalls a m)) m m' ∧
      ∀ i < n, (a.queryBuf i).isSome = true)
    (fun n m₁ hn ⟨h, hsome⟩ => ?_) ⟨tableFilled_refl a m, by simp⟩
  refine (h.queryBuffer.and (queryBuffer_fails a n m₁)).mono (fun m₂ ⟨h₂, hquery⟩ => ?_)
    fun r m₂ ⟨_, hfail⟩ hr => ?_
  · refine ⟨h₂, fun i hi => ?_⟩
    by_cases hin : i = n
    · rwa [hin]
    · exact hsome i (by omega)
  · obtain ⟨hnone, htrace⟩ := hfail hr
    rw [h.failedCalls, h.bufType, h.trace] at htrace
    exact ⟨n, hn, hsome, hnone, htrace⟩

/-- The loop with `VIDIOC_QBUF`: it has queued all buffers, or failed for one of them. -/
theorem queueLoop_fails (a : InitAnswers) (k : ℕ) (m : CameraApp) :
    (Outcome.iterate (queueBuffer a) 0 k m).Sat (fun _ => True)
      (fun _ m' => ∃ n, m'.trace = m.trace ++ (List.range n).flatMap (queueCalls a m) ++
        m.failedCalls (a.callocQueue n) (.qBuf m.bufType n)) := by
  have hloop : (Outcome.iterate (queueBuffer a) 0 k m).Sat
      (TableKept ((List.range k).flatMap (queueCalls a m)) m)
      (fun _ m' => ∃ n, m'.trace = m.trace ++ (List.range n).flatMap (queueCalls a m) ++
        m.failedCalls (a.callocQueue n) (.qBuf m.bufType n)) := by
    refine Outcome.sat_iterate
      (I := fun n => TableKept ((List.range n).flatMap (queueCalls a m)) m)
      (fun n m₁ _ h => ?_) (tableKept_refl m)
    refine (h.queueBuffer.and (queueBuffer_fails a n m₁)).mono (fun _ h₂ => h₂.1)
      fun _ m₂ ⟨_, htrace⟩ => ⟨n, ?_⟩
    rw [htrace, h.failedCalls, h.bufType, h.trace]
  exact hloop.mono (fun _ _ => trivial) fun _ _ h => h

/-! ### What is left -/

/-- A failed request releases the descriptor and `camera.buffers`, and nothing else. -/
theorem held_failedCalls (m : CameraApp) (ptr : UInt64) (request : Ioctl) {trace : List Event}
    {h : Multiset Resource}
    (hheld : V4l2.held trace =
      some (blocks m.camera.buffers + ({.descriptor m.camera.videofd} + h))) :
    V4l2.held (trace ++ m.failedCalls ptr request) = some h := by
  have hrequest (t : List Event) (k : Multiset Resource)
      (ht : V4l2.held t = some (k + (blocks m.camera.buffers +
        ({.descriptor m.camera.videofd} + h)))) :
      V4l2.held (t ++ [.ioctl m.camera.videofd request false]) =
        some (k + (blocks m.camera.buffers + ({.descriptor m.camera.videofd} + h))) := by
    rw [held_append_of_entries (by simp [Event.entries]), ht]
  have hfree := held_free (held_mplaneCalls m ptr hheld hrequest)
  have hcalls : trace ++ m.failedCalls ptr request =
      trace ++ (m.mplaneCall (.calloc ptr) ++ [.ioctl m.camera.videofd request false] ++
        m.mplaneCall (.free ptr)) ++ [.free m.camera.buffers] ++ [.close m.camera.videofd] := by
    simp [failedCalls]
  rw [hcalls, held_concat, hfree]
  exact Ledger.post_release h _

/-- If the first `k` buffers are those that `VIDIOC_QUERYBUF` succeeds for, no mapping is left of
them exactly if none succeeds. -/
theorem acquired_planesOf_iff {a : InitAnswers} (hfd : 0 ≤ a.videofd) (ha : a.Reaches) {k : ℕ}
    (hk : ∀ n, n < k ↔ n < reqCount a ∧ ∀ i ≤ n, (a.queryBuf i).isSome = true) :
    acquired (planesOf a k) = [] ↔ MapsNothing a := by
  rw [acquired_eq_nil_iff]
  constructor
  · intro h _ _ n hn hsome j hj
    exact h (slot a n j) (mem_planesOf.mpr ⟨n, (hk n).mpr ⟨hn, hsome⟩, j, hj, rfl⟩)
  · rintro h s hs
    obtain ⟨n, hn, j, hj, rfl⟩ := mem_planesOf.mp hs
    obtain ⟨hcount, hsome⟩ := (hk n).mp hn
    exact h hfd ha n hcount hsome j hj

/-- A device that is only asked and closed leaves nothing. -/
theorem GaveUp.leaves {a : InitAnswers} {m m' : CameraApp} {r : Option ℤ} (h : GaveUp a m r m') :
    Leaves [] m m' := by
  obtain ⟨-, -, m₁, hasked, rfl⟩ := h
  obtain ⟨setup, hsetup, htrace⟩ := hasked.trace
  refine ⟨setup ++ [.close m₁.camera.videofd], ?_, fun t ht => ?_⟩
  · rw [sys, htrace, List.append_assoc]
  · rw [← List.append_assoc, held_concat,
      held_append_of_entries (fun e he => (hsetup e he).entries) t, ht, hasked.videofd]
    exact Ledger.post_release 0 _

/-- A request that fails after `k` buffers have been mapped, and `n` of them queued, leaves the
mappings of these. -/
theorem Allocated.leaves {a : InitAnswers} {m m₁ m' : CameraApp} (h : Allocated a m m₁)
    (hplanes : m₁.planeCount = a.numPlanes) {k n : ℕ} {ptr : UInt64} {request : Ioctl}
    (htrace : m'.trace = m₁.trace ++ ((List.range k).flatMap (queryCalls a m₁) ++
      ((List.range n).flatMap (queueCalls a m₁) ++ m₁.failedCalls ptr request))) :
    Leaves (acquired (planesOf a k)) m m' := by
  obtain ⟨setup, hsetup, hprepared⟩ := h.trace
  rw [hprepared, List.append_assoc, List.append_assoc] at htrace
  refine ⟨_, htrace, fun t ht => ?_⟩
  have hask := (held_append_of_entries (fun e he => (hsetup e he).entries) t).trans ht
  have hquery := held_queryLoop hplanes k (held_calloc hask a.callocBuffers)
  have hqueue := held_queueLoop a m₁ n hquery
  rw [add_comm, add_assoc, ← h.buffers, ← h.videofd] at hqueue
  have hfail := held_failedCalls m₁ ptr request hqueue
  rw [h.buffers] at hfail
  simpa only [List.append_assoc] using hfail

/-- **What a failure leaves.** The mappings that have been made so far. -/
theorem setUp_fails {a : InitAnswers} (hfd : 0 ≤ a.videofd) (m : CameraApp) :
    (setUp a m).Sat (fun _ => True)
      (fun r m' => r = some (-1) → ∃ ss, Leaves ss m m' ∧ (ss = [] ↔ MapsNothing a)) := by
  have hprepare : (prepare a m).Sat
      (fun m' => (a.Reaches ∧ Allocated a m m') ∧ m'.planeCount = a.numPlanes)
      (fun r m' => r = some (-1) → ∃ ss, Leaves ss m m' ∧ (ss = [] ↔ MapsNothing a)) := by
    refine ((prepare_sat a m).and (planeCount_prepare a m)).mono (fun _ h => h)
      fun _ _ ⟨h, _⟩ _ => ⟨[], h.leaves, ?_⟩
    exact iff_of_true rfl fun _ ha => absurd ha h.1
  rw [setUp_eq]
  refine hprepare.bind fun m₁ ⟨⟨ha, halloc⟩, hplanes⟩ => ?_
  have hquery : (Outcome.iterate (queryBuffer a) 0 (reqCount a) m₁).Sat
      (fun m' => TableFilled a (reqCount a)
        ((List.range (reqCount a)).flatMap (queryCalls a m₁)) m₁ m' ∧
        ∀ i < reqCount a, (a.queryBuf i).isSome = true)
      (fun r m' => r = some (-1) → ∃ ss, Leaves ss m m' ∧ (ss = [] ↔ MapsNothing a)) := by
    refine (queryLoop_fails a (reqCount a) m₁).mono (fun _ h => h) fun r m₂ h hr => ?_
    obtain ⟨k, hk, hsome, hnone, htrace⟩ := h hr
    have hleaves : Leaves (acquired (planesOf a k)) m m₂ :=
      halloc.leaves (n := 0) hplanes (by rw [htrace, List.append_assoc]; rfl)
    refine ⟨_, hleaves, acquired_planesOf_iff hfd ha fun n => ⟨fun hn => ?_, fun hn => ?_⟩⟩
    · exact ⟨by omega, fun i hi => hsome i (by omega)⟩
    · by_contra hlt
      have hfirst := hn.2 k (by omega)
      simp [hnone] at hfirst
  refine hquery.bind fun m₂ ⟨hfilled, hsome⟩ => ?_
  refine (queueLoop_fails a (reqCount a) m₂).mono (fun _ _ => trivial) fun r m₃ ⟨n, htrace⟩ _ => ?_
  rw [hfilled.trace, hfilled.queueCalls, hfilled.failedCalls, List.append_assoc,
    List.append_assoc] at htrace
  refine ⟨_, halloc.leaves hplanes htrace,
    acquired_planesOf_iff hfd ha fun n => ⟨fun hn => ?_, fun hn => hn.1⟩⟩
  exact ⟨hn, fun i hi => hsome i (by omega)⟩

/-! ### The whole of `cam_init` -/

/-- What a `cam_init` that returns `-1` leaves, on a device that is not open. -/
theorem camInit_fails {a : InitAnswers} {index width height : ℤ} {m : CameraApp}
    (hfail : (m.camInit a index width height).1 = some (-1)) :
    (m.camInit a index width height).2.devOpen = m.devOpen ∧
      ∃ ss, V4l2.held ((m.camInit a index width height).2.callsSince m) = some (mappings ss) ∧
        (ss = [] ↔ MapsNothing a) := by
  rcases camInit_cases a index width height m with
    ⟨hfd, hr⟩ | ⟨hfd, ⟨m₁, -, -, hr⟩ | ⟨r, m₁, hset, hclosed, hr⟩⟩
  · rw [hr]
    refine ⟨rfl, [], ?_, iff_of_true rfl fun hopen => absurd hfd (Int.not_lt.mpr hopen)⟩
    have hcalls : (m.openDevice a index width height).trace = m.trace ++ [.openDevice a.videofd] :=
      rfl
    rw [callsSince_eq hcalls]
    simp [V4l2.held, Event.entries, Int.not_le.mpr hfd]
  · rw [hr] at hfail
    simp at hfail
  · rw [hr] at hfail ⊢
    have hsat := setUp_fails hfd (m.openDevice a index width height)
    rw [hset] at hsat
    obtain ⟨ss, ⟨es, htrace, hheld⟩, hiff⟩ := hsat hfail
    refine ⟨?_, ss, ?_, hiff⟩
    · rcases hclosed with ⟨hdead, -⟩ | ⟨-, m₂, hquiet, rfl⟩
      · rw [hdead] at hfail
        simp at hfail
      · exact hquiet.devOpen
    · have hopen : V4l2.held [.openDevice a.videofd] = some {.descriptor a.videofd} := by
        simp [V4l2.held, Event.entries, hfd]
      have hcalls : m₁.trace = m.trace ++ ([.openDevice a.videofd] ++ es) := by
        rw [htrace, ← List.append_assoc]
        rfl
      rw [callsSince_eq hcalls]
      exact hheld _ hopen

/-- **When a failed `cam_init` releases everything.** Starting with no device open, whatever kind of
device it is, however many buffers and planes it has and whichever calls fail: if `cam_init` returns
`-1`, then `devOpen` is still `0` and everything that it has acquired has been released, once,
exactly when no mapping has succeeded before the failure. -/
theorem released_iff {a : InitAnswers} {index width height : ℤ} {m : CameraApp}
    (hoff : m.devOpen = false) (hfail : (m.camInit a index width height).1 = some (-1)) :
    Released m (m.camInit a index width height).2 ↔ MapsNothing a := by
  obtain ⟨hopen, ss, hheld, hiff⟩ := camInit_fails hfail
  rw [← hiff]
  constructor
  · intro h
    exact mappings_eq_zero.mp (Option.some.inj (hheld.symm.trans h.held))
  · rintro rfl
    exact ⟨hopen.trans hoff, hheld, Ledger.count_eq_count hheld⟩

/-- `VIDIOC_QUERYBUF` fails for the first of two buffers. -/
theorem released_iff_first :
    let a : InitAnswers := { InitAnswers.singlePlanar 2 100 with queryBuf := fun _ => none }
    Released {} (({} : CameraApp).camInit a 0 1920 1080).2 ↔ MapsNothing a := by
  intro a
  exact released_iff rfl (by decide)

/-- `VIDIOC_QUERYBUF` fails for the second of two buffers: the mapping of the first one is left. -/
theorem not_released :
    ¬ ∀ a index width height (m : CameraApp), m.devOpen = false →
      (m.camInit a index width height).1 = some (-1) →
      Released m (m.camInit a index width height).2 := by
  intro h
  let a : InitAnswers :=
    { InitAnswers.singlePlanar 2 100 with
      queryBuf := fun n => if n = 0 then some fun _ => ⟨100, 0⟩ else none }
  have hreleased := h a 0 1920 1080 {} rfl (by decide)
  exact absurd hreleased.held (by decide)

end CameraApp
