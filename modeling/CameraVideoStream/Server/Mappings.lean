import CameraVideoStream.Server.Buffers

/-!
# What `cam_init` acquires

The ledger after the loops of `cam_init`: they leave nothing of the heap blocks for the planes of a
request, and the mappings that have succeeded. So after a successful `cam_init` as many bytes can be
read through `start[0]` of a buffer as the driver has said that its first plane is long, if the
plane could be mapped, and otherwise none (`CameraApp.Initialised.le_mappedLength`,
`CameraApp.Initialised.mappedLength_of_failed`).

## Main definitions

* `CameraApp.mappings`: the mappings of a list of slots.
* `CameraApp.acquired`, `CameraApp.planesOf`: the planes that could be mapped, and all of them.

## Main results

* `CameraApp.Initialised.held`: what is held after a successful `cam_init`.
* `CameraApp.Initialised.le_mappedLength`: what can be read through the table.
-/

open V4l2

/-- The mapping of a slot. -/
def Slot.mapping (s : Slot) : Resource := .mapping s.start s.length

namespace CameraApp

/-- The mappings of the slots `ss`. -/
def mappings (ss : List Slot) : Multiset Resource := ↑(ss.map Slot.mapping)

@[simp] theorem mappings_nil : mappings [] = 0 := rfl

@[simp] theorem mappings_append (ss ts : List Slot) :
    mappings (ss ++ ts) = mappings ss + mappings ts := by
  simp [mappings]

theorem mappings_eq_zero {ss : List Slot} : mappings ss = 0 ↔ ss = [] := by
  rw [mappings, Multiset.coe_eq_zero, List.map_eq_nil_iff]

/-! ### The loops over the buffers -/

/-- The slots whose mapping has succeeded. -/
def acquired (ss : List Slot) : List Slot := ss.filter fun s => s.start ≠ mapFailed

theorem acquired_append (ss ts : List Slot) : acquired (ss ++ ts) = acquired ss ++ acquired ts :=
  List.filter_append ss ts

theorem acquired_eq_nil_iff {ss : List Slot} :
    acquired ss = [] ↔ ∀ s ∈ ss, s.start = mapFailed := by
  simp [acquired]

theorem acquired_eq_self {ss : List Slot} (h : ∀ s ∈ ss, s.start ≠ mapFailed) :
    acquired ss = ss := by
  simpa [acquired] using h

theorem entries_mmapCalls (a : InitAnswers) (n : ℕ) (js : List ℕ) :
    (js.map (mmapCall a n)).flatMap Event.entries =
      ((acquired (js.map (slot a n))).map Slot.mapping).map .acquire := by
  induction js with
  | nil => rfl
  | cons j js ih =>
    rw [List.map_cons, List.flatMap_cons, ih, List.map_cons]
    by_cases hfail : a.mmap n j = mapFailed
    · simp [acquired, mmapCall, slot, Event.entries, hfail]
    · simp [acquired, mmapCall, slot, Event.entries, hfail, Slot.mapping]

theorem held_mmapCalls (a : InitAnswers) (n k : ℕ) {trace : List Event} {h : Multiset Resource}
    (hheld : V4l2.held trace = some h) :
    V4l2.held (trace ++ (List.range k).map (mmapCall a n)) =
      some (mappings (acquired ((List.range k).map (slot a n))) + h) := by
  rw [held_append, hheld, entries_mmapCalls, Ledger.replay_acquire, mappings]

theorem held_munmapCalls {ss : List Slot} {trace : List Event} {h : Multiset Resource}
    (hheld : V4l2.held trace = some (mappings ss + h)) :
    V4l2.held (trace ++ ss.map fun s => .munmap s.start s.length) = some h := by
  have hentries : (ss.map fun s => Event.munmap s.start s.length).flatMap Event.entries =
      (ss.map Slot.mapping).map .release := by
    rw [List.flatMap_map, List.map_map, List.map_eq_flatMap]
    rfl
  rw [held_append, hheld, hentries, mappings, Ledger.replay_release]

/-- The planes of a multi-planar device are acquired and released around other calls. -/
theorem held_mplaneCalls (m : CameraApp) (ptr : UInt64) {es trace : List Event}
    {h h' : Multiset Resource} (hheld : V4l2.held trace = some h)
    (hes : ∀ t k, V4l2.held t = some (k + h) → V4l2.held (t ++ es) = some (k + h')) :
    V4l2.held (trace ++ (m.mplaneCall (.calloc ptr) ++ es ++ m.mplaneCall (.free ptr))) =
      some h' := by
  rw [mplaneCall, mplaneCall]
  split_ifs
  · have hcalloc := held_calloc hheld ptr
    have hfree := held_free (hes _ _ hcalloc)
    simpa using hfree
  · simpa using hes trace 0 (by simpa using hheld)

theorem held_queryCalls (a : InitAnswers) (m : CameraApp) (n : ℕ) {trace : List Event}
    {h : Multiset Resource} (hheld : V4l2.held trace = some h) :
    V4l2.held (trace ++ queryCalls a m n) =
      some (mappings (acquired ((List.range m.planeCount).map (slot a n))) + h) := by
  rw [queryCalls, List.append_assoc (m.mplaneCall _)]
  refine held_mplaneCalls m (a.callocQuery n) hheld fun t k ht => ?_
  have hentries : ∀ e ∈ [Event.ioctl m.camera.videofd (.queryBuf m.bufType n) true],
      e.entries = [] := by
    simp [Event.entries]
  have hquery := (held_append_of_entries hentries t).trans ht
  rw [← List.append_assoc, held_mmapCalls a n _ hquery, add_left_comm]

theorem held_queueCalls (a : InitAnswers) (m : CameraApp) (n : ℕ) {trace : List Event}
    {h : Multiset Resource} (hheld : V4l2.held trace = some h) :
    V4l2.held (trace ++ queueCalls a m n) = some h := by
  rw [queueCalls]
  refine held_mplaneCalls m (a.callocQueue n) hheld fun t k ht => ?_
  rw [held_append_of_entries (by simp [Event.entries]) t, ht]

/-- The planes of the first `k` buffers. -/
def planesOf (a : InitAnswers) (k : ℕ) : List Slot :=
  (List.range k).flatMap fun n => (List.range a.numPlanes).map (slot a n)

theorem planesOf_succ (a : InitAnswers) (k : ℕ) :
    planesOf a (k + 1) = planesOf a k ++ (List.range a.numPlanes).map (slot a k) := by
  rw [planesOf, List.range_succ, List.flatMap_append, List.flatMap_singleton, planesOf]

theorem mem_planesOf {a : InitAnswers} {k : ℕ} {s : Slot} :
    s ∈ planesOf a k ↔ ∃ n < k, ∃ j < a.numPlanes, slot a n j = s := by
  simp [planesOf]

theorem held_queryLoop {a : InitAnswers} {m : CameraApp} (hplanes : m.planeCount = a.numPlanes)
    (k : ℕ) {trace : List Event} {h : Multiset Resource} (hheld : V4l2.held trace = some h) :
    V4l2.held (trace ++ (List.range k).flatMap (queryCalls a m)) =
      some (mappings (acquired (planesOf a k)) + h) := by
  induction k with
  | zero => simpa [planesOf, acquired] using hheld
  | succ k ih =>
    rw [List.range_succ, List.flatMap_append, List.flatMap_singleton, ← List.append_assoc,
      held_queryCalls a m k ih, hplanes, planesOf_succ, acquired_append, mappings_append,
      ← add_assoc, add_comm (mappings _)]

theorem held_queueLoop (a : InitAnswers) (m : CameraApp) (k : ℕ) {trace : List Event}
    {h : Multiset Resource} (hheld : V4l2.held trace = some h) :
    V4l2.held (trace ++ (List.range k).flatMap (queueCalls a m)) = some h := by
  induction k with
  | zero => simpa using hheld
  | succ k ih =>
    rw [List.range_succ, List.flatMap_append, List.flatMap_singleton, ← List.append_assoc]
    exact held_queueCalls a m k ih

/-! ### A successful `cam_init` -/

/-- What is held after `cam_init`. -/
theorem Initialised.held {a : InitAnswers} {index : ℤ} {m m' : CameraApp}
    (h : Initialised a index m m') (hheld : m.held = some 0) :
    m'.held = some (mappings (acquired (planesOf a (reqCount a))) +
      (blocks a.callocBuffers + {.descriptor a.videofd})) := by
  obtain ⟨setup, hsetup, htrace⟩ := h.trace
  have hopen : V4l2.held (m.trace ++ [.openDevice a.videofd]) = some {.descriptor a.videofd} := by
    rw [held_concat, show V4l2.held m.trace = some 0 from hheld, Event.entries,
      if_pos h.videofd_nonneg]
    rfl
  have hask := (held_append_of_entries (fun e he => (hsetup e he).entries) _).trans hopen
  have halloc := held_calloc hask a.callocBuffers
  have hqueue := held_queueLoop a m' (reqCount a) (held_queryLoop h.planeCount (reqCount a) halloc)
  rw [CameraApp.held, htrace, hqueue]

/-- As many bytes can be read through the table as the driver has said. -/
theorem Initialised.le_mappedLength {a : InitAnswers} {index : ℤ} {m m' : CameraApp}
    (h : Initialised a index m m') (htrace : m.trace = []) (hplanes : 0 < a.numPlanes) {n : ℕ}
    (hn : n < reqCount a) (hmap : a.mmap n 0 ≠ mapFailed) :
    (planeInfo a n 0).length.toNat ≤ m'.mappedLength n := by
  rw [← h.planeCount] at hplanes
  rw [mappedLength, h.start hplanes n hn]
  refine le_mappedAt (fun e he start length => ?_)
    (List.mem_of_mem_drop (h.mmapCall_mem hn hplanes)) hmap
  rcases h.initial e he with hold | hinitial
  · simp [htrace] at hold
  · rintro rfl
    exact hinitial

/-- Where `mmap` has failed nothing can be read. -/
theorem Initialised.mappedLength_of_failed {a : InitAnswers} {index : ℤ} {m m' : CameraApp}
    (h : Initialised a index m m') (hplanes : 0 < a.numPlanes) {n : ℕ} (hn : n < reqCount a)
    (hfail : a.mmap n 0 = mapFailed) : m'.mappedLength n = 0 := by
  rw [mappedLength, h.start (h.planeCount ▸ hplanes) n hn, hfail, mappedAt_mapFailed]

end CameraApp
