import CameraVideoStream.Server.CameraApp

/-!
# What a `camera_capture` does

A call ends at once if the device is not open, and after `select` if the descriptor is not ready.
After that it goes through all of its steps whatever `VIDIOC_DQBUF` and `VIDIOC_QBUF` answer, unless
the copy between the two ends the process: `camera.buffers` may be null, and the length, which the
driver has reported, may be more than is mapped, or more than there is room for.

## Main definitions

* `CaptureAnswers.Ready`, `CaptureAnswers.fill`: what `select` and `VIDIOC_DQBUF` have said.
* `CameraApp.CopySurvives`: the copy does not end the process.
* `CameraApp.Captured`, `CameraApp.Died`: a call that has gone through all its steps, and one that
  has not.

## Main results

* `CameraApp.cameraCapture_of_closed`, `CameraApp.cameraCapture_of_not_ready`,
  `CameraApp.died_cameraCapture`, `CameraApp.captured_cameraCapture`: the four ways in which it
  ends.
-/

open V4l2

/-- `select` has found the descriptor ready. -/
def CaptureAnswers.Ready (c : CaptureAnswers) : Prop := c.select ≠ -1 ∧ c.select ≠ 0

/-- `vbuf` once `VIDIOC_DQBUF` has returned. -/
def CaptureAnswers.fill (c : CaptureAnswers) (vbuf : Vbuf) : Vbuf :=
  match c.dqBuf with
  | none => vbuf
  | some d =>
    { vbuf with index := d.index, bytesused := d.bytesused, planeBytesused := d.planeBytesused }

/-- `VIDIOC_DQBUF` leaves the planes where they are. -/
theorem CaptureAnswers.planes_fill (c : CaptureAnswers) (vbuf : Vbuf) :
    (c.fill vbuf).planes = vbuf.planes := by
  rw [CaptureAnswers.fill]
  split <;> rfl

/-- What `VIDIOC_DQBUF` says about the buffer that it takes out. -/
theorem CaptureAnswers.fill_of_dequeued {c : CaptureAnswers} {d : Dequeued} (hd : c.dqBuf = some d)
    (vbuf : Vbuf) : (c.fill vbuf).index = d.index ∧ (c.fill vbuf).bytesused = d.bytesused := by
  simp [CaptureAnswers.fill, hd]

namespace CameraApp

/-- A length that is stored in an `int` and read as a `size_t` is the length, or huge. -/
theorem toSize_toInt (x : UInt32) :
    toSize (toInt x) = x.toNat ∧ x.toNat < 2 ^ 31 ∨
      2 ^ 31 ≤ x.toNat ∧ x.toNat ≤ toSize (toInt x) := by
  have hlt := x.toNat_lt
  unfold toSize toInt
  rw [Int.bmod_def]
  split <;> omega

/-- A length that is not negative is its own `size_t`. -/
theorem toSize_natCast {n : ℕ} (h : n < 2 ^ 64) : toSize n = n := by
  unfold toSize
  omega

theorem length_bytesAt (memory : UInt64 → UInt8) (p : UInt64) (n : ℕ) :
    (bytesAt memory p n).length = n := by
  rw [bytesAt, List.length_map, List.length_range]

/-- A copy of `bytes` bytes from buffer `n` does not end the process: there is a table of buffers,
so many bytes are mapped, and there is room for them. -/
def CopyFits (m : CameraApp) (n : ℕ) (bytes : ℤ) : Prop :=
  m.camera.buffers ≠ 0 ∧ toSize bytes ≤ m.mappedLength n ∧ toSize bytes ≤ m.data.length

/-- The copy that a capture makes does not end the process. -/
def CopySurvives (m : CameraApp) (c : CaptureAnswers) : Prop :=
  m.CopyFits (c.fill m.vbuf).index.toNat (toInt (c.fill m.vbuf).bytesused)

instance (m : CameraApp) (c : CaptureAnswers) : Decidable (m.CopySurvives c) :=
  inferInstanceAs (Decidable (_ ∧ _ ∧ _))

/-- The calls of a `camera_capture` before the copy. -/
def fillCalls (m : CameraApp) (c : CaptureAnswers) : List Event :=
  [.select m.camera.videofd,
    .ioctl m.camera.videofd (.dqBuf m.vbuf.type (c.fill m.vbuf).index.toNat) c.dqBuf.isSome]

/-- The calls of a `camera_capture` that copies `bytes` bytes. -/
def captureCalls (m : CameraApp) (c : CaptureAnswers) (bytes : ℤ) : List Event :=
  m.fillCalls c ++ [.memcpy (c.fill m.vbuf).index.toNat bytes,
    .ioctl m.camera.videofd (.qBuf (c.fill m.vbuf).type (c.fill m.vbuf).index.toNat) c.qBuf]

/-- The calls of a `camera_capture` that dies of copying `bytes` bytes. -/
def fatalCalls (m : CameraApp) (c : CaptureAnswers) (bytes : ℤ) : List Event :=
  m.fillCalls c ++
    if m.camera.buffers = 0 then [] else [.memcpy (c.fill m.vbuf).index.toNat bytes]

/-- From `m` to `m'` a `camera_capture` has come to copy `bytes` bytes. -/
structure Copying (c : CaptureAnswers) (bytes : ℤ) (m m' : CameraApp) : Prop where
  camera : m'.camera = m.camera
  devOpen : m'.devOpen = m.devOpen
  streamOn : m'.streamOn = m.streamOn
  overrun : m'.overrun = m.overrun
  vbuf : m'.vbuf = c.fill m.vbuf
  len : m'.len = bytes

/-- From `m` to `m'` a `camera_capture` has gone through all its steps, and copied `bytes` bytes. -/
structure Captured (c : CaptureAnswers) (bytes : ℤ) (m m' : CameraApp) : Prop
    extends Copying c bytes m m' where
  crashed : m'.crashed = m.crashed
  data : m'.data =
    bytesAt c.memory (m.camera.table (c.fill m.vbuf).index.toNat 0).start (toSize bytes) ++
      m.data.drop (toSize bytes)
  trace : m'.trace = m.trace ++ m.captureCalls c bytes

/-- From `m` to `m'` a `camera_capture` has died of copying `bytes` bytes. -/
structure Died (c : CaptureAnswers) (bytes : ℤ) (m m' : CameraApp) : Prop
    extends Copying c bytes m m' where
  crashed : m'.crashed = true
  data : m'.data = m.data
  trace : m'.trace = m.trace ++ m.fatalCalls c bytes

/-- The room for the frame stays what it is. -/
theorem Captured.length_data {c : CaptureAnswers} {bytes : ℤ} {m m' : CameraApp}
    (h : Captured c bytes m m') (hroom : toSize bytes ≤ m.data.length) :
    m'.data.length = m.data.length := by
  rw [h.data, List.length_append, length_bytesAt, List.length_drop]
  omega

theorem dequeue_eq (c : CaptureAnswers) (m : CameraApp) :
    m.dequeue c = { m.ioctl (.dqBuf m.vbuf.type (c.fill m.vbuf).index.toNat) c.dqBuf.isSome with
      vbuf := c.fill m.vbuf } := by
  rw [dequeue, CaptureAnswers.fill]
  cases c.dqBuf with
  | none => rfl
  | some d => rfl

/-- The state before the copy. -/
def filled (m : CameraApp) (c : CaptureAnswers) : CameraApp :=
  { m with trace := m.trace ++ m.fillCalls c, vbuf := c.fill m.vbuf }

theorem dequeue_select (c : CaptureAnswers) (m : CameraApp) :
    (m.sys (.select m.camera.videofd)).dequeue c = m.filled c := by
  rw [dequeue_eq, filled]
  simp [ioctl, sys, fillCalls]

/-- The calls before the copy leave the mappings as they are. -/
theorem mappedLength_filled (m : CameraApp) (c : CaptureAnswers) (len : ℤ) (n : ℕ) :
    mappedLength { m.filled c with len := len } n = m.mappedLength n := by
  have hcalls : ∀ e ∈ m.fillCalls c, e.KeepsMemory := by
    simp [fillCalls, Event.KeepsMemory]
  exact mappedAt_append_of_keeps hcalls m.trace _

theorem cameraCapture_of_closed {m : CameraApp} (hopen : m.devOpen = false) (c : CaptureAnswers) :
    m.cameraCapture c = (some (-1), m) := by
  rw [cameraCapture, if_pos (by simp [hopen])]

theorem cameraCapture_of_not_ready {m : CameraApp} (hopen : m.devOpen = true) {c : CaptureAnswers}
    (hready : ¬ c.Ready) : m.cameraCapture c = (some (-1), m.sys (.select m.camera.videofd)) := by
  rw [cameraCapture, if_neg (by simp [hopen])]
  split_ifs with herror htimeout
  · rfl
  · rfl
  · exact absurd ⟨herror, htimeout⟩ hready

/-- After `select`. -/
theorem cameraCapture_of_ready {m : CameraApp} (hopen : m.devOpen = true) {c : CaptureAnswers}
    (hready : c.Ready) :
    m.cameraCapture c = (m.sys (.select m.camera.videofd)).captureReady c := by
  rw [cameraCapture, if_neg (by simp [hopen]), if_neg hready.1, if_neg hready.2]

/-- What `memcpy` does in the state before the copy. -/
theorem memcpy_eq {m : CameraApp} (hbuf : m.camera.buffers ≠ 0) (n : ℕ) (bytes : ℤ)
    (memory : UInt64 → UInt8) (p : UInt64) :
    (m.CopyFits n bytes → memcpy m.data memory p (m.mappedLength n) bytes =
      some (bytesAt memory p (toSize bytes) ++ m.data.drop (toSize bytes))) ∧
    (¬ m.CopyFits n bytes → memcpy m.data memory p (m.mappedLength n) bytes = none) :=
  ⟨fun h => if_pos h.2, fun h => if_neg fun hfits => h ⟨hbuf, hfits⟩⟩

/-- The copy, in the state before it. -/
theorem copyFrame_sat (c : CaptureAnswers) (bytes : ℤ) (m : CameraApp) :
    ((m.filled c).copyFrame c bytes).Sat
      (fun m' => m.CopyFits (c.fill m.vbuf).index.toNat bytes ∧ m'.vbuf = c.fill m.vbuf ∧
        Captured c bytes m (m'.ioctl
          (.qBuf (c.fill m.vbuf).type (c.fill m.vbuf).index.toNat) c.qBuf))
      (fun r m' => ¬ m.CopyFits (c.fill m.vbuf).index.toNat bytes ∧ r = none ∧
        Died c bytes m m') := by
  rw [copyFrame]
  by_cases hnull : m.camera.buffers = 0
  · rw [if_pos (by exact hnull)]
    refine ⟨fun h => h.1 hnull, rfl, ⟨rfl, rfl, rfl, rfl, rfl, rfl⟩, rfl, rfl, ?_⟩
    rw [fatalCalls, if_pos hnull, List.append_nil]
    rfl
  · obtain ⟨hsome, hnone⟩ := memcpy_eq hnull (c.fill m.vbuf).index.toNat bytes c.memory
      (m.camera.table (c.fill m.vbuf).index.toNat 0).start
    rw [if_neg (by exact hnull)]
    simp only [mappedLength_filled]
    by_cases hfits : m.CopyFits (c.fill m.vbuf).index.toNat bytes
    · simp only [filled, hsome hfits]
      refine ⟨hfits, rfl, ⟨rfl, rfl, rfl, rfl, rfl, rfl⟩, rfl, rfl, ?_⟩
      simp [ioctl, sys, captureCalls]
    · simp only [filled, hnone hfits]
      refine ⟨hfits, rfl, ⟨rfl, rfl, rfl, rfl, rfl, rfl⟩, rfl, rfl, ?_⟩
      rw [fatalCalls, if_neg hnull, ← List.append_assoc]
      rfl

/-- **What a capture does.** If the copy is survived, it goes through all its steps whatever
`VIDIOC_DQBUF` and `VIDIOC_QBUF` answer, and returns what `VIDIOC_DQBUF` has returned; otherwise it
dies, with the buffer taken out. -/
theorem cameraCapture_sat {m : CameraApp} (hopen : m.devOpen = true) {c : CaptureAnswers}
    (hready : c.Ready) :
    (m.CopySurvives c → (m.cameraCapture c).1 = (if c.dqBuf.isSome then some 0 else some (-1)) ∧
      Captured c (toInt (c.fill m.vbuf).bytesused) m (m.cameraCapture c).2) ∧
    (¬ m.CopySurvives c → (m.cameraCapture c).1 = none ∧
      Died c (toInt (c.fill m.vbuf).bytesused) m (m.cameraCapture c).2) := by
  have hvbuf : (m.filled c).vbuf = c.fill m.vbuf := rfl
  have hsat := copyFrame_sat c (toInt (c.fill m.vbuf).bytesused) m
  rw [cameraCapture_of_ready hopen hready, CopySurvives]
  simp only [captureReady, dequeue_select, hvbuf]
  generalize toInt (c.fill m.vbuf).bytesused = bytes at hsat ⊢
  cases hcopy : (m.filled c).copyFrame c bytes with
  | next m' =>
    rw [hcopy] at hsat
    obtain ⟨hfits, hvbuf', h⟩ := hsat
    refine ⟨fun _ => ⟨rfl, ?_⟩, fun hnot => absurd hfits hnot⟩
    simp only [hvbuf']
    exact h
  | exit r m' =>
    rw [hcopy] at hsat
    exact ⟨fun hfits => absurd hfits hsat.1, fun _ => hsat.2⟩

/-- A capture whose copy is survived. -/
theorem captured_cameraCapture {m : CameraApp} (hopen : m.devOpen = true) {c : CaptureAnswers}
    (hready : c.Ready) (hcopy : m.CopySurvives c) :
    (m.cameraCapture c).1 = (if c.dqBuf.isSome then some 0 else some (-1)) ∧
      Captured c (toInt (c.fill m.vbuf).bytesused) m (m.cameraCapture c).2 :=
  (cameraCapture_sat hopen hready).1 hcopy

/-- A capture whose copy ends the process. -/
theorem died_cameraCapture {m : CameraApp} (hopen : m.devOpen = true) {c : CaptureAnswers}
    (hready : c.Ready) (hcopy : ¬ m.CopySurvives c) :
    (m.cameraCapture c).1 = none ∧
      Died c (toInt (c.fill m.vbuf).bytesused) m (m.cameraCapture c).2 :=
  (cameraCapture_sat hopen hready).2 hcopy

/-- A capture succeeds if `select` and `VIDIOC_DQBUF` do, and it does not die. -/
theorem cameraCapture_eq_zero_iff {m : CameraApp} (hopen : m.devOpen = true) {c : CaptureAnswers} :
    (m.cameraCapture c).1 = some 0 ↔ c.Ready ∧ m.CopySurvives c ∧ c.dqBuf.isSome = true := by
  by_cases hready : c.Ready
  · by_cases hcopy : m.CopySurvives c
    · rw [(captured_cameraCapture hopen hready hcopy).1]
      split_ifs with hdq
      · simp [hready, hcopy, hdq]
      · simp [hdq]
    · rw [(died_cameraCapture hopen hready hcopy).1]
      simp [hcopy]
  · rw [cameraCapture_of_not_ready hopen hready]
    simp [hready]

end CameraApp
