import CameraVideoStream.Server.Streaming

/-!
# What `camera_capture` delivers

On a single-planar device `VIDIOC_DQBUF` reports the size of the frame in `vbuf.bytesused`, on a
multi-planar one in `vbuf.m.planes[0].bytesused`, and leaves `vbuf.bytesused` as the caller passed
it. `camera_capture` reads `vbuf.bytesused` on either. As `camera_streamon` has cleared `vbuf`, and
no capture writes into `vbuf.bytesused`, a multi-planar device delivers no byte of any frame
(`CameraApp.MplaneClear`). So a capture that is survived delivers the frame exactly if it is empty,
or the device is single-planar and the size of it fits an `int` (`CameraApp.delivers_iff_meets`).

## Main definitions

* `CameraApp.payload`: the size of the frame.
* `CameraApp.Delivers`: a capture that succeeds delivers the frame.
* `CameraApp.FillsVbuf`: what V4L2 promises about the report.
* `CameraApp.PlainPayload`: the condition on the frames.

## Main results

* `CameraApp.delivers_iff_meets`.
-/

open V4l2

namespace CameraApp

/-- The size of plane `0` of the buffer that has been taken out. -/
def payload (m : CameraApp) (d : Dequeued) : ℕ :=
  if m.camera.driverType = .videoCaptureMplane then d.planeBytesused.toNat else d.bytesused.toNat

/-- The frame in plane `0` of the buffer that has been taken out. -/
def planeBytes (m : CameraApp) (c : CaptureAnswers) (d : Dequeued) : Codec.Bytes :=
  bytesAt c.memory (m.camera.table d.index.toNat 0).start (m.payload d)

/-- If the call returns `0`, the size of the frame in plane `0` of the buffer that it has taken out
is in `*len`, and its bytes are in `data`. -/
def Delivers (m : CameraApp) (c : CaptureAnswers) : Prop :=
  (m.cameraCapture c).1 = some 0 → ∃ d, c.dqBuf = some d ∧
    (m.cameraCapture c).2.len = m.payload d ∧
    (m.cameraCapture c).2.data.take (m.payload d) = m.planeBytes c d

/-- On a multi-planar device `vbuf.bytesused` is left as it is. -/
def FillsVbuf (m : CameraApp) (c : CaptureAnswers) : Prop :=
  c.Ready → ∀ d, c.dqBuf = some d →
    m.camera.driverType = .videoCaptureMplane → d.bytesused = m.vbuf.bytesused

/-- If the copy is survived, the frame that the call takes out is empty, or the device is
single-planar and the size fits an `int`. -/
def PlainPayload (m : CameraApp) (c : CaptureAnswers) : Prop :=
  c.Ready → m.CopySurvives c → ∀ d, c.dqBuf = some d →
    m.payload d = 0 ∨ m.camera.driverType ≠ .videoCaptureMplane ∧ m.payload d < 2 ^ 31

/-- On a multi-planar device `vbuf.bytesused` is zero. -/
structure MplaneClear (m : CameraApp) : Prop where
  devOpen : m.devOpen = true
  bytesused : m.camera.driverType = .videoCaptureMplane → m.vbuf.bytesused = 0

theorem Started.mplaneClear {m : CameraApp} (h : m.Started) : m.MplaneClear :=
  ⟨h.clear.1, fun _ => h.clear.2⟩

theorem MplaneClear.fill {m : CameraApp} (hm : m.MplaneClear) {c : CaptureAnswers}
    (hready : c.Ready) (hlaw : m.FillsVbuf c)
    (hmplane : m.camera.driverType = .videoCaptureMplane) :
    (c.fill m.vbuf).bytesused = 0 := by
  rw [CaptureAnswers.fill]
  cases hd : c.dqBuf with
  | none => exact hm.bytesused hmplane
  | some d => exact (hlaw hready d hd hmplane).trans (hm.bytesused hmplane)

/-- No capture writes into `vbuf.bytesused` of a multi-planar device. -/
theorem MplaneClear.capture {m : CameraApp} (hm : m.MplaneClear) {c : CaptureAnswers}
    (hlaw : m.FillsVbuf c) : (m.capture c).MplaneClear := by
  obtain ⟨hcamera, hopen, hvbuf⟩ := capture_keeps hm.devOpen c
  refine ⟨hopen, fun hmplane => ?_⟩
  rw [hcamera] at hmplane
  rcases hvbuf with hsame | ⟨hready, hfill⟩
  · rw [hsame]
    exact hm.bytesused hmplane
  · rw [hfill]
    exact hm.fill hready hlaw hmplane

/-- The byte count that is stored is the size of the frame exactly if the frame is plain. -/
theorem MplaneClear.len_iff {m : CameraApp} (hm : m.MplaneClear) {d : Dequeued}
    (hlaw : m.camera.driverType = .videoCaptureMplane → d.bytesused = m.vbuf.bytesused) :
    toInt d.bytesused = m.payload d ↔
      m.payload d = 0 ∨ m.camera.driverType ≠ .videoCaptureMplane ∧ m.payload d < 2 ^ 31 := by
  rw [payload]
  split_ifs with hmplane
  · have hzero : d.bytesused = 0 := (hlaw hmplane).trans (hm.bytesused hmplane)
    have hint : toInt 0 = 0 := by decide
    rw [hzero, hint]
    simp only [hmplane, ne_eq, not_true_eq_false, false_and, or_false]
    omega
  · rcases toInt_cases d.bytesused with ⟨heq, hlt⟩ | ⟨hneg, hge⟩
    · exact iff_of_true heq (.inr ⟨hmplane, hlt⟩)
    · refine iff_of_false ?_ ?_
      · omega
      · omega

/-- A frame is delivered exactly if its size has been stored. -/
theorem delivers_iff_of_dequeued {m : CameraApp} (hopen : m.devOpen = true) {c : CaptureAnswers}
    (hready : c.Ready) (hcopy : m.CopySurvives c) {d : Dequeued} (hd : c.dqBuf = some d) :
    m.Delivers c ↔ toInt d.bytesused = m.payload d := by
  obtain ⟨-, h⟩ := captured_cameraCapture hopen hready hcopy
  obtain ⟨hindex, hbytes⟩ := c.fill_of_dequeued hd m.vbuf
  have hzero : (m.cameraCapture c).1 = some 0 :=
    (cameraCapture_eq_zero_iff hopen).mpr ⟨hready, hcopy, by rw [hd]; rfl⟩
  have hlen := h.len
  have hdata := h.data
  rw [hbytes] at hlen hdata
  rw [hindex] at hdata
  constructor
  · intro hdelivers
    obtain ⟨d', hd', hpayload, -⟩ := hdelivers hzero
    rw [hd, Option.some.injEq] at hd'
    rw [← hlen, hpayload, hd']
  · intro hpayload _
    refine ⟨d, hd, hlen.trans hpayload, ?_⟩
    have hlt : m.payload d < 2 ^ 64 := by
      rcases toInt_cases d.bytesused with ⟨heq, hlt⟩ | ⟨hneg, -⟩ <;> omega
    rw [hdata, hpayload, toSize_natCast hlt]
    exact List.take_left' (length_bytesAt _ _ _)

theorem delivers_iff {m : CameraApp} (hm : m.MplaneClear) {c : CaptureAnswers}
    (hlaw : m.FillsVbuf c) : m.Delivers c ↔ m.PlainPayload c := by
  constructor
  · intro hdelivers hready hcopy d hd
    have hiff := delivers_iff_of_dequeued hm.devOpen hready hcopy hd
    exact (hm.len_iff (hlaw hready d hd)).mp (hiff.mp hdelivers)
  · intro hplain hzero
    obtain ⟨hready, hcopy, hsome⟩ := (cameraCapture_eq_zero_iff hm.devOpen).mp hzero
    obtain ⟨d, hd⟩ := Option.isSome_iff_exists.mp hsome
    have hiff := delivers_iff_of_dequeued hm.devOpen hready hcopy hd
    exact hiff.mpr ((hm.len_iff (hlaw hready d hd)).mpr (hplain hready hcopy d hd)) hzero

/-- **When the frame is delivered.** After `cam_init` and `camera_streamon`, for either kind of
device and in every run of captures in which `VIDIOC_DQBUF` reports as V4L2 promises: every call
that returns `0` has stored the size of the frame and copied its bytes, exactly when every frame
whose copy is survived is empty, or the device is single-planar and the sizes fit an `int`. -/
theorem delivers_iff_meets {m : CameraApp} (hm : m.Started) {cs : List CaptureAnswers}
    (hlaw : Transition.Meets capture FillsVbuf m cs) :
    Transition.Meets capture Delivers m cs ↔ Transition.Meets capture PlainPayload m cs :=
  Transition.meets_iff_meets (J := MplaneClear) (fun _ _ hm hlaw _ => hm.capture hlaw)
    (fun _ _ hm hlaw => delivers_iff hm hlaw) hm.mplaneClear hlaw

/-- Two bytes are captured on a single-planar device. -/
theorem delivers_iff_meets_single :
    let m := ((atStart (List.replicate 50 0) (-1)).camInit (.singlePlanar 2 100) 0 1920
      1080).2.cameraStreamon ⟨true, 0⟩ |>.2
    let cs : List CaptureAnswers := [⟨1, some ⟨1, 2, 0⟩, fun p => p.toUInt8 + 7, true⟩]
    Transition.Meets capture Delivers m cs ↔ Transition.Meets capture PlainPayload m cs := by
  intro m cs
  refine delivers_iff_meets started_two ⟨fun _ d _ hmplane => ?_, trivial⟩
  exact absurd hmplane (by decide)

/-- A frame of two bytes on a multi-planar device: none is copied. -/
theorem not_delivers_mplane :
    ¬ ∀ (m : CameraApp) (cs : List CaptureAnswers), m.Started →
      Transition.Meets capture FillsVbuf m cs → Transition.Meets capture Delivers m cs := by
  intro h
  let a : InitAnswers :=
    { InitAnswers.singlePlanar 2 100 with
      queryCap := some capVideoCaptureMplane
      gFmt := some ⟨1920, 1080, 1⟩
      callocQuery := fun _ => 0x2000
      callocQueue := fun _ => 0x2000 }
  let m := ((atStart (List.replicate 50 0) (-1)).camInit a 0 1920 1080).2.cameraStreamon
    ⟨true, 0x3000⟩ |>.2
  let c : CaptureAnswers := ⟨1, some ⟨1, 0, 2⟩, fun p => p.toUInt8 + 7, true⟩
  have hstarted : Started m := ⟨_, a, 0, 1920, 1080, ⟨true, 0x3000⟩, by decide, by decide, rfl⟩
  have hlaw : Transition.Meets capture FillsVbuf m [c] := by
    refine ⟨fun _ d hd _ => ?_, trivial⟩
    rw [← Option.some.inj hd]
    decide
  obtain ⟨d, hd, hlen, -⟩ := (h m [c] hstarted hlaw).1 (by decide)
  rw [← Option.some.inj hd] at hlen
  exact absurd hlen (by decide)

end CameraApp
