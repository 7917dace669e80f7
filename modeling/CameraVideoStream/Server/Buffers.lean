import CameraVideoStream.Server.CamInit
import Mathlib.Data.List.Range

/-!
# What a successful `cam_init` leaves

The calls that a successful `cam_init` makes are known exactly, but for the requests that ask and
set up the device: the loop over the buffers makes the calls `queryCalls` for each of them, and
fills the table of `camera.buffers`; the second loop makes the calls `queueCalls`.

With no more than four planes the table is what has been entered. With more of them the planes of a
buffer are entered over each other and over the next buffer, but always behind the address of the
plane before: so `start[0]` of every buffer stays what has been entered, however many planes there
are.

## Main definitions

* `InitAnswers.numPlanes`: the number of planes of a buffer, as the device says.
* `CameraApp.slot`, `CameraApp.queryCalls`, `CameraApp.queueCalls`.
* `CameraApp.Initialised`: the state after a successful `cam_init`.

## Main results

* `CameraApp.initialised_of_camInit`.
-/

open V4l2

namespace CameraApp

/-- What `VIDIOC_QUERYBUF` answers for plane `j` of buffer `n`. -/
def planeInfo (a : InitAnswers) (n j : ℕ) : PlaneInfo :=
  match a.queryBuf n with
  | none => ⟨0, 0⟩
  | some planes => planes j

/-- What `cam_init` stores for plane `j` of buffer `n`. -/
def slot (a : InitAnswers) (n j : ℕ) : Slot := ⟨a.mmap n j, (planeInfo a n j).length.toNat⟩

/-- The call that maps plane `j` of buffer `n`. -/
def mmapCall (a : InitAnswers) (n j : ℕ) : Event :=
  .mmap (a.mmap n j) (planeInfo a n j).length.toNat (planeInfo a n j).offset

/-- A call that is made on a multi-planar device only. -/
def mplaneCall (m : CameraApp) (e : Event) : List Event :=
  if m.camera.driverType = .videoCaptureMplane then [e] else []

theorem mem_mplaneCall {m : CameraApp} {e e' : Event} (h : e' ∈ m.mplaneCall e) : e' = e := by
  rw [mplaneCall] at h
  split_ifs at h
  · exact List.mem_singleton.mp h
  · simp at h

/-- The calls for the buffer `n` in the loop with `VIDIOC_QUERYBUF`, on the device of `m`. -/
def queryCalls (a : InitAnswers) (m : CameraApp) (n : ℕ) : List Event :=
  m.mplaneCall (.calloc (a.callocQuery n)) ++
    [.ioctl m.camera.videofd (.queryBuf m.bufType n) true] ++
    (List.range m.planeCount).map (mmapCall a n) ++ m.mplaneCall (.free (a.callocQuery n))

/-- The calls for the buffer `n` in the loop with `VIDIOC_QBUF`, on the device of `m`. -/
def queueCalls (a : InitAnswers) (m : CameraApp) (n : ℕ) : List Event :=
  m.mplaneCall (.calloc (a.callocQueue n)) ++ [.ioctl m.camera.videofd (.qBuf m.bufType n) true] ++
    m.mplaneCall (.free (a.callocQueue n))

/-! ### The words of the table -/

/-- The plane that is entered is found again. -/
theorem table_setSlot {s : Slot} (hs : s.length < 2 ^ 64) (n j : ℕ) (m : CameraApp) :
    (m.setSlot n j s).camera.table n j = s := by
  have hlength : (UInt64.ofNat s.length).toNat = s.length := UInt64.toNat_ofNat_of_lt' hs
  simp [CameraHandle.table, setSlot, setCamera, -UInt64.toNat_ofNat', hlength]

/-- What is in front of it stays. -/
theorem words_setSlot {n j w : ℕ} (hw : w < 8 * n + j) (s : Slot) (m : CameraApp) :
    (m.setSlot n j s).camera.words w = m.camera.words w := by
  have hstart : w ≠ 8 * n + j := by omega
  have hlength : w ≠ 8 * n + 4 + j := by omega
  simp [setSlot, setCamera, hstart, hlength]

/-- With four planes for each buffer no plane is entered over another. -/
theorem table_setSlot_of_ne {n j i k : ℕ} (hj : j < 4) (hk : k < 4) (hne : i ≠ n ∨ k ≠ j)
    (s : Slot) (m : CameraApp) :
    (m.setSlot n j s).camera.table i k = m.camera.table i k := by
  have hstart : 8 * i + k ≠ 8 * n + j ∧ 8 * i + k ≠ 8 * n + 4 + j := by omega
  have hlength : 8 * i + 4 + k ≠ 8 * n + j ∧ 8 * i + 4 + k ≠ 8 * n + 4 + j := by omega
  simp [CameraHandle.table, setSlot, setCamera, hstart, hlength]

/-- What the driver answers fits a `size_t`. -/
theorem length_slot_lt (a : InitAnswers) (n j : ℕ) : (slot a n j).length < 2 ^ 64 := by
  have hlt := (planeInfo a n j).length.toNat_lt
  exact hlt.trans (by decide)

/-! ### The loop over the buffers -/

/-- `m` and `m'` are on the same device with as many buffers and planes, and have the same `vbuf`
and the same `data`. -/
structure SameDevice (m m' : CameraApp) : Prop where
  videofd : m'.camera.videofd = m.camera.videofd
  driverType : m'.camera.driverType = m.camera.driverType
  nplanes : m'.camera.nplanes = m.camera.nplanes
  bufCount : m'.camera.bufCount = m.camera.bufCount
  buffers : m'.camera.buffers = m.camera.buffers
  vbuf : m'.vbuf = m.vbuf
  data : m'.data = m.data

theorem SameDevice.refl (m : CameraApp) : SameDevice m m := ⟨rfl, rfl, rfl, rfl, rfl, rfl, rfl⟩

theorem SameDevice.trans {m₁ m₂ m₃ : CameraApp} (h : SameDevice m₁ m₂) (h' : SameDevice m₂ m₃) :
    SameDevice m₁ m₃ where
  videofd := h'.videofd.trans h.videofd
  driverType := h'.driverType.trans h.driverType
  nplanes := h'.nplanes.trans h.nplanes
  bufCount := h'.bufCount.trans h.bufCount
  buffers := h'.buffers.trans h.buffers
  vbuf := h'.vbuf.trans h.vbuf
  data := h'.data.trans h.data

/-- As many planes. -/
theorem SameDevice.planeCount {m m' : CameraApp} (h : SameDevice m m') :
    m'.planeCount = m.planeCount := by
  rw [CameraApp.planeCount, CameraApp.planeCount, h.driverType, h.nplanes]

theorem SameDevice.bufType {m m' : CameraApp} (h : SameDevice m m') : m'.bufType = m.bufType := by
  rw [CameraApp.bufType, CameraApp.bufType, h.driverType]

theorem SameDevice.mplaneCall {m m' : CameraApp} (h : SameDevice m m') (e : Event) :
    m'.mplaneCall e = m.mplaneCall e := by
  rw [CameraApp.mplaneCall, CameraApp.mplaneCall, h.driverType]

/-- The calls of the first loop depend on the device alone. -/
theorem SameDevice.queryCalls {m m' : CameraApp} (h : SameDevice m m') (a : InitAnswers) :
    queryCalls a m' = queryCalls a m := by
  funext n
  simp only [CameraApp.queryCalls, h.videofd, h.mplaneCall, h.planeCount, h.bufType]

/-- And so do those of the second one. -/
theorem SameDevice.queueCalls {m m' : CameraApp} (h : SameDevice m m') (a : InitAnswers) :
    queueCalls a m' = queueCalls a m := by
  funext n
  simp only [CameraApp.queueCalls, h.videofd, h.mplaneCall, h.bufType]

/-- From `m` to `m'` the calls `es` have been made, and the first `k` planes of buffer `n` have been
entered in the table. -/
structure Filled (a : InitAnswers) (n k : ℕ) (es : List Event) (m m' : CameraApp) : Prop
    extends SameDevice m m' where
  trace : m'.trace = m.trace ++ es
  row : k ≤ 4 → ∀ j < k, m'.camera.table n j = slot a n j
  /-- `start[0]` is entered first, and nothing is entered over it. -/
  first : 0 < k → m'.camera.words (8 * n) = a.mmap n 0
  others : k ≤ 4 → ∀ i ≠ n, ∀ j < 4, m'.camera.table i j = m.camera.table i j
  before : ∀ w < 8 * n, m'.camera.words w = m.camera.words w
  words : k = 0 → m'.camera.words = m.camera.words
  allocated : 0 < k → m.camera.buffers ≠ 0
  overrun : k ≤ 4 → m'.overrun = m.overrun

/-- Before the first plane. -/
theorem filled_refl (a : InitAnswers) (n : ℕ) (m : CameraApp) : Filled a n 0 [] m m where
  toSameDevice := .refl m
  trace := by simp
  row := by simp
  first hk := absurd hk (Nat.lt_irrefl 0)
  others _ _ _ _ _ := rfl
  before _ _ := rfl
  words _ := rfl
  allocated hk := absurd hk (Nat.lt_irrefl 0)
  overrun _ := rfl

/-- A call that is made enters nothing. -/
theorem Filled.sys {a : InitAnswers} {n k : ℕ} {es : List Event} {m m' : CameraApp}
    (h : Filled a n k es m m') (e : Event) : Filled a n k (es ++ [e]) m (m'.sys e) :=
  { h with trace := by rw [CameraApp.sys, h.trace, List.append_assoc] }

theorem Filled.callocPlanes {a : InitAnswers} {n k : ℕ} {es : List Event} {m m' : CameraApp}
    (h : Filled a n k es m m') (ptr : UInt64) :
    Filled a n k (es ++ m.mplaneCall (.calloc ptr)) m (m'.callocPlanes ptr) := by
  rw [← h.mplaneCall, CameraApp.mplaneCall, CameraApp.callocPlanes]
  split_ifs
  · exact h.sys _
  · simpa using h

theorem Filled.freePlanes {a : InitAnswers} {n k : ℕ} {es : List Event} {m m' : CameraApp}
    (h : Filled a n k es m m') (ptr : UInt64) :
    Filled a n k (es ++ m.mplaneCall (.free ptr)) m (m'.freePlanes ptr) := by
  rw [← h.mplaneCall, CameraApp.mplaneCall, CameraApp.freePlanes]
  split_ifs
  · exact h.sys _
  · simpa using h

/-- **The next plane is mapped and entered**, behind those of its buffer. -/
theorem Filled.mapPlane {a : InitAnswers} {planes : ℕ → PlaneInfo} {n k : ℕ} {es : List Event}
    {m m' : CameraApp} (hplanes : a.queryBuf n = some planes) (h : Filled a n k es m m') :
    (mapPlane a planes n k m').Sat (Filled a n (k + 1) (es ++ [mmapCall a n k]) m)
      (fun _ _ => True) := by
  have hinfo : planes k = planeInfo a n k := by rw [planeInfo, hplanes]
  rw [CameraApp.mapPlane, hinfo]
  split_ifs with hnull
  · trivial
  · refine { h.sys (mmapCall a n k) with
      row := ?_, first := ?_, others := ?_, before := ?_, words := ?_, allocated := ?_,
      overrun := ?_ }
    · intro hk j hj
      by_cases hjk : j = k
      · rw [hjk]
        exact table_setSlot (length_slot_lt a n k) n k _
      · rw [table_setSlot_of_ne (by omega) (by omega) (.inr hjk)]
        exact h.row (by omega) j (by omega)
    · intro _
      rcases Nat.eq_zero_or_pos k with rfl | hpos
      · simp [setSlot, setCamera]
      · rw [words_setSlot (by omega)]
        exact h.first hpos
    · intro hk i hi j hj
      rw [table_setSlot_of_ne (by omega) hj (.inl hi)]
      exact h.others (by omega) i hi j hj
    · intro w hw
      rw [words_setSlot (by omega)]
      exact h.before w hw
    · omega
    · intro _
      rwa [← h.buffers]
    · intro hk
      have hlt : ¬ 4 ≤ k := by omega
      simpa [setSlot, setCamera, CameraApp.sys, hlt] using h.overrun (by omega)

/-- All planes of the buffer. -/
theorem Filled.mapBuffer {a : InitAnswers} {planes : ℕ → PlaneInfo} {n : ℕ} {es : List Event}
    {m m' : CameraApp} (hplanes : a.queryBuf n = some planes) (h : Filled a n 0 es m m') :
    (mapBuffer a planes n m').Sat
      (Filled a n m.planeCount (es ++ (List.range m.planeCount).map (mmapCall a n) ++
        m.mplaneCall (.free (a.callocQuery n))) m) (fun _ _ => True) := by
  rw [← h.planeCount, CameraApp.mapBuffer]
  split_ifs with hmplane
  · have hloop : (Outcome.iterate (mapMplane a planes n) 0 m'.camera.nplanes m').Sat
        (Filled a n m'.camera.nplanes
          (es ++ (List.range m'.camera.nplanes).map (mmapCall a n)) m) (fun _ _ => True) := by
      refine Outcome.sat_iterate
        (I := fun k => Filled a n k (es ++ (List.range k).map (mmapCall a n)) m)
        (fun k m₁ _ h => ?_) (by simpa using h)
      rw [mapMplane]
      split_ifs
      · trivial
      · simpa [List.range_succ] using h.mapPlane hplanes
    rw [planeCount, if_pos hmplane]
    refine hloop.bind fun m₁ h => ?_
    simpa using h.freePlanes (a.callocQuery n)
  · have hmap := h.mapPlane hplanes
    rw [h.driverType] at hmplane
    simpa [planeCount, mplaneCall, h.driverType, hmplane] using hmap

/-- One turn of the loop with `VIDIOC_QUERYBUF`. -/
theorem filled_queryBuffer (a : InitAnswers) (n : ℕ) (m : CameraApp) :
    (queryBuffer a n m).Sat (Filled a n m.planeCount (queryCalls a m n) m) (fun _ _ => True) := by
  rw [queryBuffer]
  cases hplanes : a.queryBuf n with
  | none => trivial
  | some planes =>
    have hcalloc := (filled_refl a n m).callocPlanes (a.callocQuery n)
    have hquery := hcalloc.sys (.ioctl m.camera.videofd (.queryBuf m.bufType n) true)
    rw [← hcalloc.videofd, ← hcalloc.bufType] at hquery
    rw [queryCalls, ← hcalloc.videofd, ← hcalloc.bufType]
    exact hquery.mapBuffer hplanes

/-- One turn of the loop with `VIDIOC_QBUF`, which enters nothing. -/
theorem filled_queueBuffer (a : InitAnswers) (n : ℕ) (m : CameraApp) :
    (queueBuffer a n m).Sat (Filled a n 0 (queueCalls a m n) m) (fun _ _ => True) := by
  have hcalloc := (filled_refl a n m).callocPlanes (a.callocQueue n)
  have hqueue := hcalloc.sys (.ioctl m.camera.videofd (.qBuf m.bufType n) true)
  rw [← hcalloc.videofd, ← hcalloc.bufType] at hqueue
  rw [queueCalls, ← hcalloc.videofd, ← hcalloc.bufType]
  cases hok : a.qBuf n with
  | false => simp [queueBuffer, hok, closeAndFail]
  | true =>
    simp only [queueBuffer, hok]
    exact hqueue.freePlanes (a.callocQueue n)

/-- From `m` to `m'` the calls `es` have been made, and the first `k` buffers have been entered in
the table. -/
structure TableFilled (a : InitAnswers) (k : ℕ) (es : List Event) (m m' : CameraApp) : Prop
    extends SameDevice m m' where
  trace : m'.trace = m.trace ++ es
  table : m.planeCount ≤ 4 → ∀ n < k, ∀ j < m.planeCount, m'.camera.table n j = slot a n j
  start : 0 < m.planeCount → ∀ n < k, m'.camera.words (8 * n) = a.mmap n 0
  allocated : 0 < k → 0 < m.planeCount → m.camera.buffers ≠ 0
  overrun : m.planeCount ≤ 4 → m'.overrun = m.overrun

theorem tableFilled_refl (a : InitAnswers) (m : CameraApp) : TableFilled a 0 [] m m where
  toSameDevice := .refl m
  trace := by simp
  table := by simp
  start := by simp
  allocated hk := absurd hk (Nat.lt_irrefl 0)
  overrun _ := rfl

/-- The next buffer is entered behind those before it. -/
theorem TableFilled.queryBuffer {a : InitAnswers} {n : ℕ} {m m₁ : CameraApp}
    (h : TableFilled a n ((List.range n).flatMap (queryCalls a m)) m m₁) :
    (queryBuffer a n m₁).Sat
      (TableFilled a (n + 1) ((List.range (n + 1)).flatMap (queryCalls a m)) m)
      (fun _ _ => True) := by
  refine (filled_queryBuffer a n m₁).mono (fun m₂ h₂ => ?_) fun _ _ _ => trivial
  have hcount := h.planeCount
  refine ⟨h.toSameDevice.trans h₂.toSameDevice, ?_, fun hle i hi j hj => ?_, fun hpos i hi => ?_,
    fun _ hpos => ?_, fun hle => ?_⟩
  · rw [h₂.trace, h.trace, h.queryCalls, List.range_succ, List.flatMap_append,
      List.flatMap_singleton, List.append_assoc]
  · by_cases hin : i = n
    · rw [hin]
      exact h₂.row (hcount ▸ hle) j (hcount ▸ hj)
    · rw [h₂.others (hcount ▸ hle) i hin j (by omega)]
      exact h.table hle i (by omega) j hj
  · by_cases hin : i = n
    · rw [hin]
      exact h₂.first (hcount ▸ hpos)
    · rw [h₂.before (8 * i) (by omega)]
      exact h.start hpos i (by omega)
  · rw [← h.buffers]
    exact h₂.allocated (hcount ▸ hpos)
  · rw [h₂.overrun (hcount ▸ hle), h.overrun hle]

/-- The loop with `VIDIOC_QUERYBUF`. -/
theorem tableFilled_queryLoop (a : InitAnswers) (k : ℕ) (m : CameraApp) :
    (Outcome.iterate (queryBuffer a) 0 k m).Sat
      (TableFilled a k ((List.range k).flatMap (queryCalls a m)) m) (fun _ _ => True) :=
  Outcome.sat_iterate
    (I := fun n => TableFilled a n ((List.range n).flatMap (queryCalls a m)) m)
    (fun _ _ _ h => h.queryBuffer) (tableFilled_refl a m)

/-- From `m` to `m'` the calls `es` have been made, and the table is the same. -/
structure TableKept (es : List Event) (m m' : CameraApp) : Prop extends SameDevice m m' where
  trace : m'.trace = m.trace ++ es
  words : m'.camera.words = m.camera.words
  overrun : m'.overrun = m.overrun

theorem tableKept_refl (m : CameraApp) : TableKept [] m m where
  toSameDevice := .refl m
  trace := by simp
  words := rfl
  overrun := rfl

/-- The next buffer is queued. -/
theorem TableKept.queueBuffer {a : InitAnswers} {n : ℕ} {m m₁ : CameraApp}
    (h : TableKept ((List.range n).flatMap (queueCalls a m)) m m₁) :
    (queueBuffer a n m₁).Sat (TableKept ((List.range (n + 1)).flatMap (queueCalls a m)) m)
      (fun _ _ => True) := by
  refine (filled_queueBuffer a n m₁).mono (fun m₂ h₂ => ?_) fun _ _ _ => trivial
  refine ⟨h.toSameDevice.trans h₂.toSameDevice, ?_, ?_, ?_⟩
  · rw [h₂.trace, h.trace, h.queueCalls, List.range_succ, List.flatMap_append,
      List.flatMap_singleton, List.append_assoc]
  · rw [h₂.words rfl, h.words]
  · rw [h₂.overrun (Nat.zero_le 4), h.overrun]

theorem tableKept_queueLoop (a : InitAnswers) (k : ℕ) (m : CameraApp) :
    (Outcome.iterate (queueBuffer a) 0 k m).Sat
      (TableKept ((List.range k).flatMap (queueCalls a m)) m) (fun _ _ => True) :=
  Outcome.sat_iterate (I := fun n => TableKept ((List.range n).flatMap (queueCalls a m)) m)
    (fun _ _ _ h => h.queueBuffer) (tableKept_refl m)

/-! ### The number of planes -/

/-- The part of `cam_init` on an open device before the loops over the buffers. -/
def prepare (a : InitAnswers) (m : CameraApp) : Stage :=
  (queryCap a m).bind fun m =>
  (setInput a m).bind fun m =>
  (setParm a m).bind fun m =>
  (setFormat a m).bind fun m =>
  requestBuffers a m

theorem setUp_eq (a : InitAnswers) (m : CameraApp) :
    setUp a m = (prepare a m).bind fun m =>
      (Outcome.iterate (queryBuffer a) 0 (reqCount a) m).bind fun m =>
      Outcome.iterate (queueBuffer a) 0 (reqCount a) m := by
  simp only [setUp, prepare, Outcome.bind_assoc]

end CameraApp

/-- The number of planes of a buffer: one, unless the device is multi-planar. -/
def InitAnswers.numPlanes (a : InitAnswers) : ℕ :=
  if a.queryCap.getD 0 &&& capVideoCaptureMplane ≠ 0 then
    (a.gFmt.or a.sFmt).elim 0 fun fmt => fmt.numPlanes.toNat
  else
    1

namespace CameraApp

/-- `camera.driver_type` is that of the device. -/
def HasType (a : InitAnswers) (m : CameraApp) : Prop :=
  m.camera.driverType = .videoCaptureMplane ↔ a.queryCap.getD 0 &&& capVideoCaptureMplane ≠ 0

theorem hasType_queryCap (a : InitAnswers) (m : CameraApp) :
    (queryCap a m).Sat (HasType a) (fun _ _ => True) := by
  simp only [queryCap]
  split_ifs with hnone hmplane
  · trivial
  · exact iff_of_true rfl hmplane
  · exact iff_of_false (by simp [setCamera]) hmplane
  · trivial

/-- A request that is checked leaves `driver_type`. -/
theorem HasType.check {a : InitAnswers} {m : CameraApp} (h : HasType a m) (request : Ioctl)
    (ok : Bool) : (check request ok m).Sat (HasType a) (fun _ _ => True) := by
  rw [CameraApp.check]
  split_ifs
  · exact h
  · trivial

theorem HasType.getFormat {a : InitAnswers} {m : CameraApp} (h : HasType a m) {fmt : Format}
    (hfmt : a.sFmt = some fmt) : (m.getFormat a fmt).planeCount = a.numPlanes := by
  rw [CameraApp.getFormat, InitAnswers.numPlanes, hfmt]
  split_ifs with hmplane hcap hcap
  · rw [planeCount, if_pos (by exact hmplane)]
    cases hget : a.gFmt <;> simp [setCamera]
  · exact absurd (h.mp hmplane) hcap
  · exact absurd (h.mpr hcap) hmplane
  · rw [planeCount, if_neg hmplane]

/-- The number of planes is the one that the device has chosen. -/
theorem HasType.setFormat {a : InitAnswers} {m : CameraApp} (h : HasType a m) :
    (setFormat a m).Sat (fun m' => m'.planeCount = a.numPlanes) (fun _ _ => True) := by
  rw [CameraApp.setFormat]
  cases hfmt : a.sFmt with
  | none => trivial
  | some fmt =>
    rw [Outcome.sat_next]
    refine HasType.getFormat ?_ hfmt
    exact h

theorem planeCount_requestBuffers (a : InitAnswers) (m : CameraApp) :
    (requestBuffers a m).Sat (fun m' => m'.planeCount = m.planeCount) (fun _ _ => True) := by
  rw [requestBuffers]
  cases a.reqBufs with
  | none => trivial
  | some count => rfl

theorem planeCount_prepare (a : InitAnswers) (m : CameraApp) :
    (prepare a m).Sat (fun m' => m'.planeCount = a.numPlanes) (fun _ _ => True) := by
  refine (hasType_queryCap a m).bind fun m h => ?_
  refine (h.check _ _).bind fun m h => ?_
  refine (h.check _ _).bind fun m h => ?_
  refine h.setFormat.bind fun m h => ?_
  exact (planeCount_requestBuffers a m).mono (fun _ h₁ => h₁.trans h) fun _ _ _ => trivial

/-- The number of planes after all of `cam_init`. -/
theorem planeCount_setUp (a : InitAnswers) (m : CameraApp) :
    (setUp a m).Sat (fun m' => m'.planeCount = a.numPlanes) (fun _ _ => True) := by
  rw [setUp_eq]
  refine (planeCount_prepare a m).bind fun m₁ h₁ => ?_
  refine (tableFilled_queryLoop a _ m₁).bind fun m₂ h₂ => ?_
  refine (tableKept_queueLoop a _ m₂).mono (fun m₃ h₃ => ?_) fun _ _ _ => trivial
  rw [h₃.planeCount, h₂.planeCount, h₁]

/-! ### The whole of `cam_init` -/

/-- From `m` to `m'` the device has only been asked and set up. -/
structure Asked (m m' : CameraApp) : Prop where
  videofd : m'.camera.videofd = m.camera.videofd
  vbuf : m'.vbuf = m.vbuf
  data : m'.data = m.data
  overrun : m'.overrun = m.overrun
  trace : ∃ setup, (∀ e ∈ setup, e.Plain) ∧ m'.trace = m.trace ++ setup

theorem Asked.refl (m : CameraApp) : Asked m m := ⟨rfl, rfl, rfl, rfl, [], by simp, by simp⟩

/-- One more request that only asks or sets up. -/
theorem Asked.ioctl {m m' : CameraApp} (h : Asked m m') {request : Ioctl} (hplain : request.Plain)
    (ok : Bool) : Asked m (m'.ioctl request ok) := by
  obtain ⟨setup, hsetup, htrace⟩ := h.trace
  refine ⟨h.videofd, h.vbuf, h.data, h.overrun, setup ++ [.ioctl m'.camera.videofd request ok],
    ?_, ?_⟩
  · simpa [or_imp, forall_and, Event.Plain] using ⟨hsetup, hplain⟩
  · rw [CameraApp.ioctl, sys, htrace, List.append_assoc]

theorem Asked.setCamera {m m' : CameraApp} (h : Asked m m') {camera : CameraHandle}
    (hfd : camera.videofd = m'.camera.videofd) : Asked m (m'.setCamera camera) :=
  { h with videofd := hfd.trans h.videofd }

end CameraApp

/-- No call before the loops over the buffers makes `cam_init` give up. -/
structure InitAnswers.Reaches (a : InitAnswers) : Prop where
  queryCap : (a.queryCap.getD 0) &&& (capVideoCapture ||| capVideoCaptureMplane) ≠ 0
  sInput : a.sInput = true
  sParm : a.sParm = true
  sFmt : a.sFmt.isSome = true
  reqBufs : a.reqBufs.isSome = true

namespace CameraApp

/-- The device has only been asked and set up, has not given what `cam_init` needs, and has been
closed. -/
def GaveUp (a : InitAnswers) (m : CameraApp) (r : Option ℤ) (m' : CameraApp) : Prop :=
  ¬ a.Reaches ∧ r = some (-1) ∧ ∃ m₁, Asked m m₁ ∧ m' = m₁.sys (.close m₁.camera.videofd)

/-- A device that has only been asked is closed again. -/
theorem Asked.gaveUp {a : InitAnswers} {m m' : CameraApp} (h : Asked m m') (ha : ¬ a.Reaches) :
    GaveUp a m (some (-1)) (m'.sys (.close m'.camera.videofd)) :=
  ⟨ha, rfl, m', h, rfl⟩

/-- A request that is to succeed: it has, or the device has been given up. -/
theorem Asked.check {a : InitAnswers} {m m' : CameraApp} (h : Asked m m') {request : Ioctl}
    (hplain : request.Plain) {ok : Bool} (hok : a.Reaches → ok = true) :
    (check request ok m').Sat (fun m'' => ok = true ∧ Asked m m'') (GaveUp a m) := by
  rw [CameraApp.check]
  split_ifs with hcase
  · exact ⟨hcase, h.ioctl hplain ok⟩
  · exact (h.ioctl hplain ok).gaveUp fun ha => hcase (hok ha)

theorem Asked.queryCap {m m' : CameraApp} (h : Asked m m') (a : InitAnswers) :
    (queryCap a m').Sat
      (fun m'' => (a.queryCap.getD 0) &&& (capVideoCapture ||| capVideoCaptureMplane) ≠ 0 ∧
        Asked m m'') (GaveUp a m) := by
  have hquery : Asked m (m'.ioctl .queryCap a.queryCap.isSome) := h.ioctl (by trivial) _
  simp only [CameraApp.queryCap, le_zero_iff]
  split_ifs with hnone hmplane hcapture
  · exact hquery.gaveUp fun ha => ha.queryCap hnone
  · exact ⟨hnone, hquery.setCamera rfl⟩
  · exact ⟨hnone, hquery.setCamera rfl⟩
  · exact absurd (capture_eq_zero (not_not.mp hmplane) (not_not.mp hcapture)) hnone

theorem Asked.getFormat {m m' : CameraApp} (h : Asked m m') (a : InitAnswers) (fmt : Format) :
    Asked m (m'.getFormat a fmt) := by
  rw [CameraApp.getFormat]
  split_ifs
  · have hget : Asked m (m'.ioctl .gFmt a.gFmt.isSome) := h.ioctl (by trivial) _
    exact hget.setCamera rfl
  · exact h

theorem Asked.setFormat {m m' : CameraApp} (h : Asked m m') (a : InitAnswers) :
    (setFormat a m').Sat (fun m'' => a.sFmt.isSome = true ∧ Asked m m'') (GaveUp a m) := by
  have hset (ok : Bool) :
      Asked m (m'.ioctl (.sFmt m'.bufType m'.camera.winWidth m'.camera.winHeight) ok) :=
    h.ioctl (by trivial) ok
  rw [CameraApp.setFormat]
  cases hfmt : a.sFmt with
  | none => exact (hset false).gaveUp fun ha => absurd ha.sFmt (by simp [hfmt])
  | some fmt =>
    refine ⟨rfl, Asked.getFormat (Asked.setCamera (hset true) ?_) a fmt⟩
    rfl

/-- From `m` to `m'` the device has been set up, and `camera.buffers` has been allocated. -/
structure Allocated (a : InitAnswers) (m m' : CameraApp) : Prop where
  videofd : m'.camera.videofd = m.camera.videofd
  vbuf : m'.vbuf = m.vbuf
  data : m'.data = m.data
  overrun : m'.overrun = m.overrun
  bufCount : m'.camera.bufCount = toInt (a.reqBufs.getD 0)
  buffers : m'.camera.buffers = a.callocBuffers
  trace : ∃ setup, (∀ e ∈ setup, e.Plain) ∧
    m'.trace = m.trace ++ setup ++ [.calloc a.callocBuffers]

/-- The buffers are requested: `camera.buffers` is allocated, or the device is given up. -/
theorem Asked.requestBuffers {m m' : CameraApp} (h : Asked m m') (a : InitAnswers) :
    (requestBuffers a m').Sat (fun m'' => a.reqBufs.isSome = true ∧ Allocated a m m'')
      (GaveUp a m) := by
  have hreq (ok : Bool) : Asked m (m'.ioctl (.reqBufs m'.bufType 4) ok) := h.ioctl (by trivial) ok
  rw [CameraApp.requestBuffers]
  cases hcount : a.reqBufs with
  | none => exact (hreq false).gaveUp fun ha => absurd ha.reqBufs (by simp [hcount])
  | some count =>
    obtain ⟨setup, hsetup, htrace⟩ := (hreq true).trace
    refine ⟨rfl, (hreq true).videofd, (hreq true).vbuf, (hreq true).data, (hreq true).overrun, ?_,
      rfl, setup, hsetup, ?_⟩
    · simp only [CameraApp.setCamera, hcount, Option.getD_some]
    · rw [← htrace]
      rfl

/-- The loops over the buffers are reached, or the device has been given up. -/
theorem prepare_sat (a : InitAnswers) (m : CameraApp) :
    (prepare a m).Sat (fun m' => a.Reaches ∧ Allocated a m m') (GaveUp a m) := by
  refine ((Asked.refl m).queryCap a).bind fun m₁ ⟨hcap, h₁⟩ => ?_
  refine (h₁.check (by trivial) fun ha => ha.sInput).bind fun m₂ ⟨hinput, h₂⟩ => ?_
  refine (h₂.check (by trivial) fun ha => ha.sParm).bind fun m₃ ⟨hparm, h₃⟩ => ?_
  refine (h₃.setFormat a).bind fun m₄ ⟨hfmt, h₄⟩ => ?_
  exact (h₄.requestBuffers a).mono
    (fun _ ⟨hreq, h₅⟩ => ⟨⟨hcap, hinput, hparm, hfmt, hreq⟩, h₅⟩) fun _ _ h => h

/-- What a successful `cam_init` of the device `index` leaves of the state `m`. -/
structure Initialised (a : InitAnswers) (index : ℤ) (m m' : CameraApp) : Prop where
  devOpen : m'.devOpen = true
  streamOn : m'.streamOn = m.streamOn
  crashed : m'.crashed = m.crashed
  videofd_nonneg : 0 ≤ a.videofd
  videofd : m'.camera.videofd = a.videofd
  vbuf : m'.vbuf = m.vbuf
  data : m'.data = m.data
  bufCount : m'.camera.bufCount = toInt (a.reqBufs.getD 0)
  buffers : m'.camera.buffers = a.callocBuffers
  planeCount : m'.planeCount = a.numPlanes
  table : m'.planeCount ≤ 4 →
    ∀ n < reqCount a, ∀ j < m'.planeCount, m'.camera.table n j = slot a n j
  start : 0 < m'.planeCount → ∀ n < reqCount a, (m'.camera.table n 0).start = a.mmap n 0
  allocated : 0 < reqCount a → 0 < m'.planeCount → a.callocBuffers ≠ 0
  overrun : m'.planeCount ≤ 4 → m'.overrun = (m.overrun || !decide (PathFits index))
  trace : ∃ setup, (∀ e ∈ setup, e.Plain) ∧
    m'.trace = m.trace ++ [.openDevice a.videofd] ++ setup ++ [.calloc a.callocBuffers] ++
      (List.range (reqCount a)).flatMap (queryCalls a m') ++
      (List.range (reqCount a)).flatMap (queueCalls a m')

/-- From `m` to `m'` a device that is open has been set up and its buffers mapped and queued. -/
structure SetUp (a : InitAnswers) (m m' : CameraApp) : Prop where
  videofd : m'.camera.videofd = m.camera.videofd
  vbuf : m'.vbuf = m.vbuf
  data : m'.data = m.data
  bufCount : m'.camera.bufCount = toInt (a.reqBufs.getD 0)
  buffers : m'.camera.buffers = a.callocBuffers
  table : m'.planeCount ≤ 4 →
    ∀ n < reqCount a, ∀ j < m'.planeCount, m'.camera.table n j = slot a n j
  start : 0 < m'.planeCount → ∀ n < reqCount a, (m'.camera.table n 0).start = a.mmap n 0
  allocated : 0 < reqCount a → 0 < m'.planeCount → a.callocBuffers ≠ 0
  overrun : m'.planeCount ≤ 4 → m'.overrun = m.overrun
  trace : ∃ setup, (∀ e ∈ setup, e.Plain) ∧
    m'.trace = m.trace ++ setup ++ [.calloc a.callocBuffers] ++
      (List.range (reqCount a)).flatMap (queryCalls a m') ++
      (List.range (reqCount a)).flatMap (queueCalls a m')

/-- All of `cam_init` after `open`, if it succeeds. -/
theorem setUp_sat (a : InitAnswers) (m : CameraApp) :
    (setUp a m).Sat (SetUp a m) (fun _ _ => True) := by
  have hprepare : (prepare a m).Sat (Allocated a m) (fun _ _ => True) :=
    (prepare_sat a m).mono (fun _ h => h.2) fun _ _ _ => trivial
  rw [setUp_eq]
  refine hprepare.bind fun m₁ h => ?_
  refine (tableFilled_queryLoop a _ m₁).bind fun m₂ h₂ => ?_
  refine (tableKept_queueLoop a _ m₂).mono (fun m₃ h₃ => ?_) fun _ _ _ => trivial
  have hsame := h₂.toSameDevice.trans h₃.toSameDevice
  obtain ⟨setup, hsetup, htrace⟩ := h.trace
  refine ⟨?_, ?_, ?_, ?_, ?_, fun hle => ?_, fun hpos => ?_, fun hcount hpos => ?_, fun hle => ?_,
    setup, hsetup, ?_⟩
  · rw [hsame.videofd, h.videofd]
  · rw [hsame.vbuf, h.vbuf]
  · rw [hsame.data, h.data]
  · rw [hsame.bufCount, h.bufCount]
  · rw [hsame.buffers, h.buffers]
  · rw [hsame.planeCount] at hle ⊢
    simpa only [CameraHandle.table, h₃.words] using h₂.table hle
  · rw [hsame.planeCount] at hpos
    simpa only [CameraHandle.table, h₃.words, Nat.add_zero] using h₂.start hpos
  · rw [hsame.planeCount] at hpos
    rw [← h.buffers]
    exact h₂.allocated hcount hpos
  · rw [hsame.planeCount] at hle
    rw [h₃.overrun, h₂.overrun hle, h.overrun]
  · rw [h₃.trace, h₂.trace, htrace, hsame.queryCalls, h₃.queueCalls]

/-- **What a successful `cam_init` leaves.** -/
theorem initialised_of_camInit {a : InitAnswers} {index width height : ℤ} {m : CameraApp}
    (h : (m.camInit a index width height).1 = some 0) :
    Initialised a index m (m.camInit a index width height).2 := by
  rcases camInit_cases a index width height m with
    ⟨-, hr⟩ | ⟨hfd, ⟨m₁, hset, hq, hr⟩ | ⟨r, m₁, -, hfail, hr⟩⟩
  · rw [hr] at h
    exact absurd h (by simp)
  · have hsat := setUp_sat a (m.openDevice a index width height)
    have hplanes := planeCount_setUp a (m.openDevice a index width height)
    rw [hset, Outcome.sat_next] at hsat hplanes
    obtain ⟨hvideofd, hvbuf, hdata, hbufCount, hbuffers, htable, hstart, hallocated, hoverrun,
      htrace⟩ := hsat
    rw [hr]
    exact ⟨rfl, hq.streamOn, hq.crashed, hfd, hvideofd, hvbuf, hdata, hbufCount, hbuffers, hplanes,
      htable, hstart, hallocated, hoverrun, htrace⟩
  · rw [hr] at h
    rcases hfail with ⟨hnone, -⟩ | ⟨hret, -⟩
    · simp [hnone] at h
    · simp [hret] at h

/-- The calls of a successful `cam_init`. -/
theorem Initialised.callsSince {a : InitAnswers} {index : ℤ} {m m' : CameraApp}
    (h : Initialised a index m m') :
    ∃ setup, (∀ e ∈ setup, e.KeepsQueue) ∧
      m'.callsSince m = .openDevice a.videofd :: (setup ++
        (List.range (reqCount a)).flatMap (queryCalls a m') ++
        (List.range (reqCount a)).flatMap (queueCalls a m')) := by
  obtain ⟨setup, hsetup, htrace⟩ := h.trace
  refine ⟨setup ++ [.calloc a.callocBuffers], fun e he => ?_, callsSince_eq ?_⟩
  · rcases List.mem_append.mp he with he | he
    · exact (hsetup e he).keepsQueue
    · rw [List.mem_singleton.mp he]
      trivial
  · rw [htrace]
    simp only [List.append_assoc, List.cons_append, List.nil_append]

/-- The call that maps a plane is one of those of `cam_init`. -/
theorem Initialised.mmapCall_mem {a : InitAnswers} {index : ℤ} {m m' : CameraApp}
    (h : Initialised a index m m') {n j : ℕ} (hn : n < reqCount a) (hj : j < m'.planeCount) :
    mmapCall a n j ∈ m'.callsSince m := by
  obtain ⟨setup, -, hcalls⟩ := h.callsSince
  have hmap : mmapCall a n j ∈ (List.range m'.planeCount).map (mmapCall a n) :=
    List.mem_map_of_mem (List.mem_range.mpr hj)
  have hquery : mmapCall a n j ∈ (List.range (reqCount a)).flatMap (queryCalls a m') :=
    List.mem_flatMap.mpr ⟨n, List.mem_range.mpr hn, by simp [queryCalls, hmap]⟩
  simp [hcalls, hquery]

/-- A successful `cam_init` neither copies nor starts or stops streaming, and takes no buffer
out. -/
theorem Initialised.initial {a : InitAnswers} {index : ℤ} {m m' : CameraApp}
    (h : Initialised a index m m') : ∀ e ∈ m'.trace, e ∈ m.trace ∨ e.Initial := by
  intro e he
  obtain ⟨setup, hsetup, htrace⟩ := h.trace
  simp only [htrace, List.mem_append, List.mem_singleton, List.mem_flatMap] at he
  rcases he with ((((he | rfl) | he) | rfl) | ⟨n, -, he⟩) | ⟨n, -, he⟩
  · exact .inl he
  · exact .inr trivial
  · exact .inr (hsetup e he).initial
  · exact .inr trivial
  · simp only [queryCalls, List.mem_append, List.mem_singleton, List.mem_map] at he
    rcases he with ((he | rfl) | ⟨j, -, rfl⟩) | he
    · exact .inr (mem_mplaneCall he ▸ trivial)
    · exact .inr trivial
    · exact .inr trivial
    · exact .inr (mem_mplaneCall he ▸ trivial)
  · simp only [queueCalls, List.mem_append, List.mem_singleton] at he
    rcases he with (he | rfl) | he
    · exact .inr (mem_mplaneCall he ▸ trivial)
    · exact .inr trivial
    · exact .inr (mem_mplaneCall he ▸ trivial)

end CameraApp
