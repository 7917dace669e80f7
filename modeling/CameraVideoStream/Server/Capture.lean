import CameraVideoStream.Foundation.Transition
import CameraVideoStream.Server.CameraCapture
import CameraVideoStream.Server.Frames
import CameraVideoStream.Server.Mappings

/-!
# What `camera_capture` copies

`camera_capture` copies as many bytes as the driver reports, into the buffer that `sendThreadFunc`
(`server/server.cc`) has allocated for `WIDTH*HEIGHT*3/2` bytes. Nothing relates the two: `cam_init`
takes any format and any length of a buffer, and the comparison with the length of the buffer in
`camera_capture` is commented out. Nor does `cam_init` look at what `mmap` gives. So a frame fits
exactly if the driver reports no more bytes than `sendThreadFunc` has allocated, and none from a
buffer that could not be mapped (`CameraApp.ReportFits`); then it also fits an `int`, and the bytes
of an earlier frame that are copied again when `VIDIOC_DQBUF` fails fit as they did before.

## Main definitions

* `CameraApp.CopiesFit`: every copy fits both its source and its destination.
* `CameraApp.Reports`: the driver reports no more bytes than the buffer is long.
* `CameraApp.ReportFits`: the condition on what the driver reports.

## Main results

* `CameraApp.copiesFit_iff_forall`.
-/

open V4l2

/-- The buffer that a call copies from, with the number of bytes. -/
def V4l2.Event.copy : Event → Option (ℕ × ℤ)
  | .memcpy index len => some (index, len)
  | _ => none

namespace CameraApp

/-- The copies made so far, the one included that has ended the process. -/
def copies (m : CameraApp) : List (ℕ × ℤ) := m.trace.filterMap Event.copy

/-- A copy of `p.2` bytes from buffer `p.1` is within the mapping and within what `sendThreadFunc`
has allocated. -/
def FitsIn (m : CameraApp) (p : ℕ × ℤ) : Prop :=
  0 ≤ p.2 ∧ p.2 ≤ m.mappedLength p.1 ∧ p.2 ≤ Server.captureCapacity

/-- Every copy fits, and the number of bytes of the last one is in `*len`. -/
structure CopiesFit (m : CameraApp) : Prop where
  fits : ∀ p ∈ m.copies, m.FitsIn p
  stored : ∀ p ∈ m.copies.getLast?, m.len = p.2

/-- The length of buffer `n` as the driver says, that of its first plane if it has one. -/
def bufferLength (a : InitAnswers) (n : ℕ) : ℕ :=
  if 0 < a.numPlanes then (planeInfo a n 0).length.toNat else 0

/-- The driver hands out a buffer that there is, and reports no more bytes than it is long. -/
def ReportsBuffer (a : InitAnswers) (c : CaptureAnswers) : Prop :=
  ∀ d, c.dqBuf = some d →
    d.index.toNat < reqCount a ∧ d.bytesused.toNat ≤ bufferLength a d.index.toNat

/-- The driver reports as it is to, and only the three functions of a device in use are called. -/
def Reports (a : InitAnswers) : Call → Prop
  | .cameraStreamon _ => True
  | .cameraCapture c => c.Ready → ReportsBuffer a c
  | .cameraStreamoff _ => True
  | _ => False

/-- The frame is no longer than what `sendThreadFunc` has allocated, and it is empty if its buffer
could not be mapped. -/
def FrameFits (a : InitAnswers) (c : CaptureAnswers) : Prop :=
  ∀ d, c.dqBuf = some d → d.bytesused.toNat ≤ Server.captureCapacity ∧
    (a.mmap d.index.toNat 0 = mapFailed → d.bytesused = 0)

/-- Every frame that the driver reports fits. -/
def ReportFits (a : InitAnswers) : Call → Prop
  | .cameraCapture c => c.Ready → FrameFits a c
  | _ => True

/-- The table of the buffers is as `cam_init` has left it, and `data` as `sendThreadFunc` has
allocated it. -/
structure InUse (a : InitAnswers) (m : CameraApp) : Prop where
  devOpen : m.devOpen = true
  allocated : 0 < reqCount a → 0 < a.numPlanes → m.camera.buffers ≠ 0
  room : m.data.length = Server.captureCapacity
  mapped : ∀ n < reqCount a, a.mmap n 0 ≠ mapFailed → bufferLength a n ≤ m.mappedLength n
  failed : ∀ n < reqCount a, 0 < a.numPlanes → a.mmap n 0 = mapFailed → m.mappedLength n = 0

/-- What the calls keep, as long as every copy fits. -/
structure CaptureInv (a : InitAnswers) (m : CameraApp) : Prop extends InUse a m where
  crashed : m.crashed = true → m.camera.buffers = 0
  copies : m.camera.buffers = 0 → m.copies = []
  bytesused : m.vbuf.bytesused.toNat ≤ m.mappedLength m.vbuf.index.toNat
  capacity : m.vbuf.bytesused.toNat ≤ Server.captureCapacity

/-! ### Calls that copy nothing -/

@[simp] theorem copies_sys (m : CameraApp) (e : Event) :
    (m.sys e).copies = m.copies ++ e.copy.toList := by
  cases e <;> simp [copies, sys, Event.copy]

/-- From `m` to `m'` nothing has been mapped or unmapped, and there is as much room as before. -/
structure SameMemory (m m' : CameraApp) : Prop where
  camera : m'.camera = m.camera
  devOpen : m'.devOpen = m.devOpen
  overrun : m'.overrun = m.overrun
  room : m'.data.length = m.data.length
  mapped : ∀ n, m'.mappedLength n = m.mappedLength n

/-- From `m` to `m'` nothing has been copied, and `vbuf` counts the same bytes or none. -/
structure Kept (m m' : CameraApp) : Prop extends SameMemory m m' where
  crashed : m'.crashed = m.crashed
  len : m'.len = m.len
  copies : m'.copies = m.copies
  vbuf : m'.vbuf.index = m.vbuf.index ∧ m'.vbuf.bytesused = m.vbuf.bytesused ∨ m'.vbuf.bytesused = 0

theorem SameMemory.refl (m : CameraApp) : SameMemory m m := ⟨rfl, rfl, rfl, rfl, fun _ => rfl⟩

theorem Kept.refl (m : CameraApp) : Kept m m := ⟨.refl m, rfl, rfl, rfl, .inl ⟨rfl, rfl⟩⟩

theorem mappedLength_sys (m : CameraApp) {e : Event} (he : e.KeepsMemory) (n : ℕ) :
    (m.sys e).mappedLength n = m.mappedLength n :=
  mappedAt_append_of_keeps (by simpa using he) m.trace _

theorem Kept.sys {m m' : CameraApp} (h : Kept m m') {e : Event} (he : e.KeepsMemory)
    (hcopy : e.copy = none) : Kept m (m'.sys e) :=
  { h with
    mapped := fun n => (mappedLength_sys m' he n).trans (h.mapped n)
    copies := by rw [copies_sys, hcopy, Option.toList_none, List.append_nil, h.copies] }

theorem Kept.freePlanes {m m' : CameraApp} (h : Kept m m') (ptr : UInt64) :
    Kept m (m'.freePlanes ptr) := by
  rw [CameraApp.freePlanes]
  split_ifs
  · exact h.sys trivial rfl
  · exact h

/-- What fits and what does not is known from the mappings. -/
theorem SameMemory.fitsIn_iff {m m' : CameraApp} (h : SameMemory m m') (p : ℕ × ℤ) :
    m'.FitsIn p ↔ m.FitsIn p := by
  rw [FitsIn, FitsIn, h.mapped]

theorem Kept.copiesFit {m m' : CameraApp} (h : Kept m m') (hm : m.CopiesFit) : m'.CopiesFit where
  fits p hp := (h.fitsIn_iff p).mpr (hm.fits p (h.copies ▸ hp))
  stored p hp := by
    rw [h.len]
    exact hm.stored p (h.copies ▸ hp)

theorem InUse.of_sameMemory {a : InitAnswers} {m m' : CameraApp} (hm : InUse a m)
    (h : SameMemory m m') : InUse a m' where
  devOpen := h.devOpen.trans hm.devOpen
  allocated := h.camera ▸ hm.allocated
  room := h.room.trans hm.room
  mapped n := by
    rw [h.mapped]
    exact hm.mapped n
  failed n := by
    rw [h.mapped]
    exact hm.failed n

theorem CaptureInv.of_kept {a : InitAnswers} {m m' : CameraApp} (hm : CaptureInv a m)
    (h : Kept m m') : CaptureInv a m' := by
  have hdead : m'.crashed = true → m'.camera.buffers = 0 := by
    rw [h.crashed, h.camera]
    exact hm.crashed
  have hcopies : m'.camera.buffers = 0 → m'.copies = [] := by
    rw [h.camera, h.copies]
    exact hm.copies
  refine ⟨hm.of_sameMemory h.toSameMemory, hdead, hcopies, ?_, ?_⟩ <;>
    rcases h.vbuf with ⟨hindex, hbytes⟩ | hzero
  · rw [h.mapped, hindex, hbytes]
    exact hm.bytesused
  · simp [hzero]
  · rw [hbytes]
    exact hm.capacity
  · simp [hzero]

theorem kept_cameraStreamon (a : StreamonAnswers) (m : CameraApp) :
    Kept m (m.cameraStreamon a).2 := by
  have h : Kept m (m.ioctl (.streamOn m.bufType) a.streamOn) := (Kept.refl m).sys trivial rfl
  rw [cameraStreamon]
  split_ifs
  · rw [prepareVbuf]
    split_ifs
    · exact { h.sys (e := .calloc a.calloc) trivial rfl with vbuf := .inr rfl }
    · exact { h with vbuf := .inr rfl }
  · exact h

theorem kept_cameraStreamoff (ok : Bool) (m : CameraApp) : Kept m (m.cameraStreamoff ok).2 := by
  have h : Kept m (m.ioctl (.streamOff m.bufType) ok) := (Kept.refl m).sys trivial rfl
  rw [cameraStreamoff]
  split_ifs
  · exact .refl m
  · exact { h.freePlanes m.vbuf.planes with }
  · exact h

/-! ### The copy -/

/-- A number of bytes fits an `int` if it is within the allocation. -/
theorem fitsIn_toInt_iff (m : CameraApp) (n : ℕ) (x : UInt32) :
    m.FitsIn (n, toInt x) ↔ x.toNat ≤ m.mappedLength n ∧ x.toNat ≤ Server.captureCapacity := by
  have hcap := Server.captureCapacity_eq
  rw [FitsIn]
  rcases toInt_cases x with ⟨heq, -⟩ | ⟨hneg, hge⟩ <;> dsimp only <;> omega

/-- Bytes that are mapped, and that there is room for, can be copied. -/
theorem copyFits_of_le {m : CameraApp} (hbuf : m.camera.buffers ≠ 0) {n : ℕ} {x : UInt32}
    (hmapped : x.toNat ≤ m.mappedLength n) (hroom : x.toNat ≤ m.data.length)
    (hint : x.toNat < 2 ^ 31) : m.CopyFits n (toInt x) := by
  have hsize : toSize (toInt x) = x.toNat := by
    rcases toSize_toInt x with ⟨heq, -⟩ | ⟨hge, -⟩ <;> omega
  rw [CopyFits, hsize]
  exact ⟨hbuf, hmapped, hroom⟩

/-- What `vbuf` counts once `VIDIOC_DQBUF` has returned fits exactly if the frame does. -/
theorem CaptureInv.fill_fits_iff {a : InitAnswers} {m : CameraApp} (hm : CaptureInv a m)
    {c : CaptureAnswers} (hlaw : ReportsBuffer a c) :
    (c.fill m.vbuf).bytesused.toNat ≤ m.mappedLength (c.fill m.vbuf).index.toNat ∧
        (c.fill m.vbuf).bytesused.toNat ≤ Server.captureCapacity ↔ FrameFits a c := by
  cases hd : c.dqBuf with
  | none =>
    have hstale : c.fill m.vbuf = m.vbuf := by simp [CaptureAnswers.fill, hd]
    rw [hstale]
    exact iff_of_true ⟨hm.bytesused, hm.capacity⟩ (by simp [FrameFits, hd])
  | some d =>
    obtain ⟨hindex, hbytes⟩ := c.fill_of_dequeued hd m.vbuf
    obtain ⟨hlt, hle⟩ := hlaw d hd
    have hfits : FrameFits a c ↔ d.bytesused.toNat ≤ Server.captureCapacity ∧
        (a.mmap d.index.toNat 0 = mapFailed → d.bytesused = 0) := by
      simp [FrameFits, hd]
    rw [hfits, hindex, hbytes, and_comm]
    refine and_congr_right fun _ => ⟨fun hmapped hfail => ?_, fun hempty => ?_⟩
    · by_cases hplanes : 0 < a.numPlanes
      · rw [hm.failed _ hlt hplanes hfail] at hmapped
        exact UInt32.toNat_inj.mp (Nat.le_zero.mp hmapped)
      · rw [bufferLength, if_neg hplanes] at hle
        exact UInt32.toNat_inj.mp (Nat.le_zero.mp hle)
    · by_cases hfail : a.mmap d.index.toNat 0 = mapFailed
      · simp [hempty hfail]
      · exact hle.trans (hm.mapped _ hlt hfail)

/-- Without a table of buffers there is nothing to capture. -/
theorem CaptureInv.frameFits_of_null {a : InitAnswers} {m : CameraApp} (hm : CaptureInv a m)
    (hnull : m.camera.buffers = 0) {c : CaptureAnswers} (hlaw : ReportsBuffer a c) :
    FrameFits a c := by
  intro d hd
  obtain ⟨hindex, hbytes⟩ := hlaw d hd
  have hplanes : ¬ 0 < a.numPlanes := fun hpos =>
    hm.allocated (Nat.zero_lt_of_lt hindex) hpos hnull
  rw [bufferLength, if_neg hplanes] at hbytes
  exact ⟨by omega, fun _ => UInt32.toNat_inj.mp (Nat.le_zero.mp hbytes)⟩

/-! ### Captures -/

theorem Captured.sameMemory {c : CaptureAnswers} {bytes : ℤ} {m m' : CameraApp}
    (h : Captured c bytes m m') (hroom : toSize bytes ≤ m.data.length) : SameMemory m m' where
  camera := h.camera
  devOpen := h.devOpen
  overrun := h.overrun
  room := h.length_data hroom
  mapped n := by
    have hcalls : ∀ e ∈ m.captureCalls c bytes, e.KeepsMemory := by
      simp [captureCalls, fillCalls, Event.KeepsMemory]
    rw [mappedLength, h.trace, h.camera]
    exact mappedAt_append_of_keeps hcalls m.trace _

theorem Died.sameMemory {c : CaptureAnswers} {bytes : ℤ} {m m' : CameraApp}
    (h : Died c bytes m m') : SameMemory m m' where
  camera := h.camera
  devOpen := h.devOpen
  overrun := h.overrun
  room := by rw [h.data]
  mapped n := by
    have hcalls : ∀ e ∈ m.fatalCalls c bytes, e.KeepsMemory := by
      rw [fatalCalls]
      split_ifs <;> simp [fillCalls, Event.KeepsMemory]
    rw [mappedLength, h.trace, h.camera]
    exact mappedAt_append_of_keeps hcalls m.trace _

/-- What can be copied is known from the mappings. -/
theorem SameMemory.copyFits_iff {m m' : CameraApp} (h : SameMemory m m') (n : ℕ) (bytes : ℤ) :
    m'.CopyFits n bytes ↔ m.CopyFits n bytes := by
  rw [CopyFits, CopyFits, h.camera, h.mapped, h.room]

/-- One more copy. -/
theorem SameMemory.copiesFit_iff {m m' : CameraApp} (h : SameMemory m m') (hm : m.CopiesFit)
    {n : ℕ} {bytes : ℤ} (hcopies : m'.copies = m.copies ++ [(n, bytes)]) (hlen : m'.len = bytes) :
    m'.CopiesFit ↔ m.FitsIn (n, bytes) := by
  constructor
  · intro hfit
    exact (h.fitsIn_iff _).mp (hfit.fits _ (by simp [hcopies]))
  · intro hp
    refine ⟨fun q hq => ?_, fun q hq => ?_⟩
    · rw [h.fitsIn_iff]
      rw [hcopies, List.mem_append, List.mem_singleton] at hq
      rcases hq with hq | rfl
      · exact hm.fits q hq
      · exact hp
    · rw [hcopies, List.getLast?_concat, Option.mem_some_iff] at hq
      rw [hlen, ← hq]

/-- What a capture that comes to the copy adds to the copies. -/
theorem copies_append (m : CameraApp) {m' : CameraApp} {c : CaptureAnswers} {bytes : ℤ}
    (htrace : m'.trace = m.trace ++ m.captureCalls c bytes ∨
      m.camera.buffers ≠ 0 ∧ m'.trace = m.trace ++ m.fatalCalls c bytes) :
    m'.copies = m.copies ++ [((c.fill m.vbuf).index.toNat, bytes)] := by
  rw [copies, copies]
  rcases htrace with htrace | ⟨hbuf, htrace⟩
  · rw [htrace, List.filterMap_append]
    rfl
  · rw [htrace, fatalCalls, if_neg hbuf, List.filterMap_append]
    rfl

/-- A capture of a device that has a table of buffers. -/
theorem CaptureInv.captured {a : InitAnswers} {m : CameraApp} (hm : CaptureInv a m)
    (hfit : m.CopiesFit) (hbuf : m.camera.buffers ≠ 0) {c : CaptureAnswers} (hready : c.Ready)
    (hlaw : ReportsBuffer a c) :
    ((m.cameraCapture c).2.CopiesFit ↔ FrameFits a c) ∧
      ((m.cameraCapture c).2.CopiesFit → CaptureInv a (m.cameraCapture c).2) := by
  have hfits := (fitsIn_toInt_iff m (c.fill m.vbuf).index.toNat (c.fill m.vbuf).bytesused).trans
    (hm.fill_fits_iff hlaw)
  by_cases hcopy : m.CopySurvives c
  · obtain ⟨-, h⟩ := captured_cameraCapture hm.devOpen hready hcopy
    have hsame := h.sameMemory hcopy.2.2
    have hiff := hsame.copiesFit_iff hfit (copies_append m (.inl h.trace)) h.len
    refine ⟨hiff.trans hfits, fun hnext => ?_⟩
    obtain ⟨hmapped, hcap⟩ := (hm.fill_fits_iff hlaw).mpr (hfits.mp (hiff.mp hnext))
    refine ⟨hm.of_sameMemory hsame, ?_, ?_, ?_, ?_⟩
    · rw [h.crashed, h.camera]
      exact hm.crashed
    · rw [h.camera]
      exact fun hnull => absurd hnull hbuf
    · rw [h.vbuf, hsame.mapped]
      exact hmapped
    · rw [h.vbuf]
      exact hcap
  · -- the copy that ends the process does not fit
    obtain ⟨-, h⟩ := died_cameraCapture hm.devOpen hready hcopy
    have hiff := h.sameMemory.copiesFit_iff hfit (copies_append m (.inr ⟨hbuf, h.trace⟩)) h.len
    refine ⟨hiff.trans hfits, fun hnext => absurd ?_ hcopy⟩
    obtain ⟨hmapped, hcapacity⟩ := (fitsIn_toInt_iff m _ _).mp (hiff.mp hnext)
    have hcap := Server.captureCapacity_eq
    exact copyFits_of_le hbuf hmapped (hcapacity.trans_eq hm.room.symm) (by omega)

theorem CaptureInv.cameraCapture {a : InitAnswers} {m : CameraApp} (hm : CaptureInv a m)
    (hfit : m.CopiesFit) {c : CaptureAnswers} (hlaw : Reports a (.cameraCapture c)) :
    ((m.cameraCapture c).2.CopiesFit ↔ ReportFits a (.cameraCapture c)) ∧
      ((m.cameraCapture c).2.CopiesFit → CaptureInv a (m.cameraCapture c).2) := by
  by_cases hready : c.Ready
  · have hreport : ReportFits a (.cameraCapture c) ↔ FrameFits a c := by
      simp [ReportFits, hready]
    rw [hreport]
    by_cases hnull : m.camera.buffers = 0
    · -- the process dies before the copy
      have hcopy : ¬ m.CopySurvives c := fun h => h.1 hnull
      obtain ⟨-, h⟩ := died_cameraCapture hm.devOpen hready hcopy
      have hfits := hm.frameFits_of_null hnull (hlaw hready)
      have hcopies : (m.cameraCapture c).2.copies = [] := by
        rw [CameraApp.copies, h.trace, fatalCalls, if_pos hnull, List.append_nil,
          List.filterMap_append, ← CameraApp.copies, hm.copies hnull]
        rfl
      have hsmall := (hm.fill_fits_iff (hlaw hready)).mpr hfits
      refine ⟨iff_of_true ⟨by simp [hcopies], by simp [hcopies]⟩ hfits, fun _ => ?_⟩
      refine ⟨hm.of_sameMemory h.sameMemory, ?_, fun _ => hcopies, ?_, ?_⟩
      · rw [h.camera]
        exact fun _ => hnull
      · rw [h.vbuf, h.sameMemory.mapped]
        exact hsmall.1
      · rw [h.vbuf]
        exact hsmall.2
    · exact hm.captured hfit hnull hready (hlaw hready)
  · have hselect : Kept m (m.sys (.select m.camera.videofd)) := (Kept.refl m).sys trivial rfl
    rw [cameraCapture_of_not_ready hm.devOpen hready]
    exact ⟨iff_of_true (hselect.copiesFit hfit) fun h => absurd h hready,
      fun _ => hm.of_kept hselect⟩

theorem step_capture {a : InitAnswers} {m : CameraApp} (hm : CaptureInv a m) (hfit : m.CopiesFit)
    {c : Call} (hlaw : Reports a c) :
    ((m.step c).CopiesFit ↔ ReportFits a c) ∧
      ((m.step c).CopiesFit → CaptureInv a (m.step c)) := by
  have hkept {m' : CameraApp} (h : Kept m m') : m'.CopiesFit ∧ CaptureInv a m' :=
    ⟨h.copiesFit hfit, hm.of_kept h⟩
  rw [step]
  split_ifs with hdead
  · refine ⟨iff_of_true hfit ?_, fun _ => hm⟩
    cases c with
    | cameraCapture c => exact fun hready => hm.frameFits_of_null (hm.crashed hdead) (hlaw hready)
    | _ => trivial
  · cases c with
    | camInit a index width height => exact hlaw.elim
    | cameraDeinit => exact hlaw.elim
    | cameraStreamon s =>
      obtain ⟨hfit', hm'⟩ := hkept (kept_cameraStreamon s m)
      exact ⟨iff_of_true hfit' trivial, fun _ => hm'⟩
    | cameraCapture c => exact hm.cameraCapture hfit hlaw
    | cameraStreamoff ok =>
      obtain ⟨hfit', hm'⟩ := hkept (kept_cameraStreamoff ok m)
      exact ⟨iff_of_true hfit' trivial, fun _ => hm'⟩

/-! ### Runs -/

/-- `cam_init` copies nothing. -/
theorem Initialised.copies {a : InitAnswers} {data : Codec.Bytes} {len index : ℤ} {m : CameraApp}
    (h : Initialised a index (atStart data len) m) : m.copies = [] := by
  refine List.filterMap_eq_nil_iff.mpr fun e he => ?_
  rcases h.initial e he with hnil | hinitial
  · simp at hnil
  · cases e with
    | memcpy index len => exact hinitial.elim
    | _ => rfl

theorem Initialised.captureInv {a : InitAnswers} {data : Codec.Bytes} {len index : ℤ}
    {m : CameraApp} (h : Initialised a index (atStart data len) m)
    (hdata : data.length = Server.captureCapacity) : CaptureInv a m where
  devOpen := h.devOpen
  allocated hcount hplanes := by
    rw [h.buffers]
    exact h.allocated hcount (h.planeCount ▸ hplanes)
  room := by rwa [h.data]
  mapped n hn hmap := by
    rw [bufferLength]
    split_ifs with hplanes
    · exact h.le_mappedLength (trace_atStart data len) hplanes hn hmap
    · exact Nat.zero_le _
  failed n hn hplanes hfail := h.mappedLength_of_failed hplanes hn hfail
  crashed := by simp [h.crashed, atStart]
  copies _ := h.copies
  bytesused := by simp [h.vbuf, atStart]
  capacity := by simp [h.vbuf, atStart]

/-- **A captured frame fits where it is copied.** After a successful `cam_init`, whatever formats
and lengths the driver has answered, with `data` as `sendThreadFunc` has allocated it, in every run
of the other functions in which the driver hands out buffers that there are and reports no more
bytes than they are long: every copy is within what is mapped for the buffer and within what
`sendThreadFunc` has allocated, exactly when no frame is longer than the latter, and every frame
from a buffer that could not be mapped is empty. -/
theorem copiesFit_iff_forall {a : InitAnswers} {data : Codec.Bytes} {len index width height : ℤ}
    (hdata : data.length = Server.captureCapacity)
    (hinit : ((atStart data len).camInit a index width height).1 = some 0) {cs : List Call}
    (hcs : ∀ c ∈ cs, Reports a c) :
    Transition.Throughout step CopiesFit ((atStart data len).camInit a index width height).2 cs ↔
      ∀ c ∈ cs, ReportFits a c := by
  have h := initialised_of_camInit hinit
  have hfit : ((atStart data len).camInit a index width height).2.CopiesFit :=
    ⟨by simp [h.copies], by simp [h.copies]⟩
  have hiff := Transition.throughout_iff_meets (J := CaptureInv a) (P := CopiesFit)
    (L := fun _ c => Reports a c) (C := fun _ c => ReportFits a c)
    (fun _ _ hm hfit hlaw => (step_capture hm hfit hlaw).2)
    (fun _ _ hm hfit hlaw => (step_capture hm hfit hlaw).1) (h.captureInv hdata) hfit
    (Transition.meets_iff_forall.mpr hcs)
  exact hiff.trans Transition.meets_iff_forall

/-- Two buffers of 100 bytes; 50 bytes are captured, and captured again when `VIDIOC_DQBUF`
fails. -/
theorem copiesFit_iff_forall_stale :
    let cs : List Call :=
      [.cameraStreamon ⟨true, 0⟩, .cameraCapture ⟨1, some ⟨1, 50, 0⟩, fun _ => 0, true⟩,
        .cameraCapture ⟨1, none, fun _ => 0, false⟩]
    Transition.Throughout step CopiesFit
        ((atStart (List.replicate Server.captureCapacity 0) (-1)).camInit
          (.singlePlanar 2 100) 0 1920 1080).2 cs ↔
      ∀ c ∈ cs, ReportFits (.singlePlanar 2 100) c := by
  intro cs
  refine copiesFit_iff_forall List.length_replicate (by decide) fun c hc => ?_
  simp only [cs, List.mem_cons, List.not_mem_nil, or_false] at hc
  rcases hc with rfl | rfl | rfl
  · trivial
  · rintro - d hd
    rw [← Option.some.inj hd]
    decide
  · rintro - d hd
    simp at hd

/-- A buffer of 4147200 bytes, two for each of the `WIDTH*HEIGHT` pixels, of which the driver
reports 4000000. -/
theorem not_copiesFit :
    ¬ ∀ a data len index width height cs, data.length = Server.captureCapacity →
      ((atStart data len).camInit a index width height).1 = some 0 → (∀ c ∈ cs, Reports a c) →
      Transition.Throughout step CopiesFit
        ((atStart data len).camInit a index width height).2 cs := by
  intro h
  let a : InitAnswers := .singlePlanar 1 4147200
  let c : CaptureAnswers := ⟨1, some ⟨0, 4000000, 0⟩, fun _ => 0, true⟩
  have hcapture : Reports a (.cameraCapture c) := by
    rintro - d hd
    rw [← Option.some.inj hd]
    decide
  have hlaw : ∀ e ∈ [.cameraStreamon ⟨true, 0⟩, .cameraCapture c], Reports a e := by
    simpa using ⟨trivial, hcapture⟩
  have hinit : ((atStart (List.replicate Server.captureCapacity 0) (-1)).camInit a 0 1920 1080).1 =
      some 0 := by decide
  have hrun := h a _ (-1) 0 1920 1080 _ List.length_replicate hinit hlaw
  rw [Transition.throughout_cons, Transition.throughout_cons, Transition.throughout_nil] at hrun
  obtain ⟨hfit, hfit₁, hfit₂⟩ := hrun
  -- the two calls keep the invariant as long as every copy fits
  have hinv := (initialised_of_camInit hinit).captureInv List.length_replicate
  have hinv₁ := (step_capture hinv hfit (c := .cameraStreamon ⟨true, 0⟩) trivial).2 hfit₁
  have hreport := (step_capture hinv₁ hfit₁ hcapture).1.mp hfit₂
  exact absurd (hreport ⟨by decide, by decide⟩ _ rfl).1 (by decide)

end CameraApp
