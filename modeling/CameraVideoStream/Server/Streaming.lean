import CameraVideoStream.Server.Queue
import Mathlib.Data.Finset.Card

/-!
# Captures in a row

After `cam_init` and `camera_streamon` the server calls `camera_capture` again and again. Once
`select` has returned, a call whose copy is survived goes through all of its steps whatever
`VIDIOC_DQBUF` and `VIDIOC_QBUF` answer: the result of `VIDIOC_DQBUF` is only returned, that of
`VIDIOC_QBUF` is dropped (`CameraApp.Captured`). So a call that fails acts on what an earlier one
has left in `vbuf`, unless it fails in `select` (`CameraApp.failsCleanly_iff_meets`), and a call
that succeeds loses the buffer that it has taken if it cannot queue it again, and so does a call
whose copy ends the process (`CameraApp.givesBack_iff_meets`).

## Main definitions

* `CameraApp.Started`: the states in which the first capture finds the module.
* `CameraApp.capture`: the step of a run of captures.
* `CameraApp.FailsCleanly`, `CameraApp.DequeuesIfReady`: a failed capture has no effect, and when.
* `CameraApp.GivesBack`, `CameraApp.RequeuesTaken`: a capture gives its buffer back, and when.

## Main results

* `CameraApp.failsCleanly_iff_meets`.
* `CameraApp.givesBack_iff_meets`.
-/

open V4l2

/-- The calls that `camera_capture` makes by the index or the byte count in `vbuf`. -/
def V4l2.Event.ActsOnVbuf : Event → Prop
  | .memcpy _ _ => True
  | .ioctl _ (.qBuf _ _) _ => True
  | _ => False

/-- The buffer that a `VIDIOC_DQBUF` takes out of the driver. -/
def V4l2.Event.taken : Event → Option (ℤ × ℕ)
  | .ioctl fd (.dqBuf _ index) true => some (fd, index)
  | _ => none

/-- The buffer that a `VIDIOC_QBUF` gives to the driver. -/
def V4l2.Event.given : Event → Option (ℤ × ℕ)
  | .ioctl fd (.qBuf _ index) true => some (fd, index)
  | _ => none

namespace CameraApp

/-- `cam_init` and then `camera_streamon` have succeeded. -/
def Started (m : CameraApp) : Prop :=
  ∃ (m₀ : CameraApp) (a : InitAnswers) (index width height : ℤ) (s : StreamonAnswers),
    (m₀.camInit a index width height).1 = some 0 ∧
    ((m₀.camInit a index width height).2.cameraStreamon s).1 = some 0 ∧
    m = ((m₀.camInit a index width height).2.cameraStreamon s).2

/-- A call of `camera_capture`. -/
def capture (m : CameraApp) (c : CaptureAnswers) : CameraApp := m.step (.cameraCapture c)

/-! ### What a capture keeps -/

/-- What a capture leaves as it is, however it ends. `vbuf` is what `VIDIOC_DQBUF` makes of it, if
it is reached. -/
theorem cameraCapture_keeps {m : CameraApp} (hopen : m.devOpen = true) (c : CaptureAnswers) :
    (m.cameraCapture c).2.camera = m.camera ∧ (m.cameraCapture c).2.devOpen = m.devOpen ∧
      ((m.cameraCapture c).2.vbuf = m.vbuf ∨
        c.Ready ∧ (m.cameraCapture c).2.vbuf = c.fill m.vbuf) := by
  by_cases hready : c.Ready
  · have hcopying : Copying c (toInt (c.fill m.vbuf).bytesused) m (m.cameraCapture c).2 := by
      by_cases hcopy : m.CopySurvives c
      · exact (captured_cameraCapture hopen hready hcopy).2.toCopying
      · exact (died_cameraCapture hopen hready hcopy).2.toCopying
    exact ⟨hcopying.camera, hcopying.devOpen, .inr ⟨hready, hcopying.vbuf⟩⟩
  · rw [cameraCapture_of_not_ready hopen hready]
    exact ⟨rfl, rfl, .inl rfl⟩

/-- The same for a step, which a process that has died does not make. -/
theorem capture_keeps {m : CameraApp} (hopen : m.devOpen = true) (c : CaptureAnswers) :
    (m.capture c).camera = m.camera ∧ (m.capture c).devOpen = true ∧
      ((m.capture c).vbuf = m.vbuf ∨ c.Ready ∧ (m.capture c).vbuf = c.fill m.vbuf) := by
  rw [capture, step]
  split_ifs with hdead
  · exact ⟨rfl, hopen, .inl rfl⟩
  · obtain ⟨hcamera, hdev, hvbuf⟩ := cameraCapture_keeps hopen c
    exact ⟨hcamera, hdev.trans hopen, hvbuf⟩

/-- `camera_streamon` that succeeds clears `vbuf`. -/
theorem cameraStreamon_clears {s : StreamonAnswers} {m : CameraApp}
    (hon : (m.cameraStreamon s).1 = some 0) :
    (m.cameraStreamon s).2.devOpen = m.devOpen ∧ (m.cameraStreamon s).2.vbuf.bytesused = 0 := by
  rw [cameraStreamon] at hon ⊢
  split_ifs at hon ⊢
  · rw [prepareVbuf]
    split_ifs
    · exact ⟨rfl, rfl⟩
    · exact ⟨rfl, rfl⟩
  · simp at hon

theorem Started.clear {m : CameraApp} (h : m.Started) :
    m.devOpen = true ∧ m.vbuf.bytesused = 0 := by
  obtain ⟨m₀, a, index, width, height, s, hinit, hon, rfl⟩ := h
  obtain ⟨hopen, hzero⟩ := cameraStreamon_clears hon
  exact ⟨hopen.trans (initialised_of_camInit hinit).devOpen, hzero⟩

/-! ### Captures that fail -/

/-- If the call returns a negative value, `*len` and `data` are as before, and neither the index nor
the byte count in `vbuf` has been acted on; in particular there is no `VIDIOC_QBUF`. -/
def FailsCleanly (m : CameraApp) (c : CaptureAnswers) : Prop :=
  ∀ r, (m.cameraCapture c).1 = some r → r < 0 →
    (m.cameraCapture c).2.len = m.len ∧ (m.cameraCapture c).2.data = m.data ∧
      ∀ e ∈ (m.cameraCapture c).2.callsSince m, ¬ e.ActsOnVbuf

/-- `VIDIOC_DQBUF` succeeds once `select` has found the descriptor ready, unless the copy is going
to end the process. -/
def DequeuesIfReady (m : CameraApp) (c : CaptureAnswers) : Prop :=
  c.Ready → m.CopySurvives c → c.dqBuf.isSome = true

theorem failsCleanly_iff {m : CameraApp} (hopen : m.devOpen = true) (c : CaptureAnswers) :
    m.FailsCleanly c ↔ m.DequeuesIfReady c := by
  by_cases hready : c.Ready
  · by_cases hcopy : m.CopySurvives c
    · obtain ⟨hret, h⟩ := captured_cameraCapture hopen hready hcopy
      constructor
      · intro hclean _ _
        by_contra hdq
        rw [if_neg hdq] at hret
        obtain ⟨-, -, hacts⟩ := hclean (-1) hret (by decide)
        rw [callsSince_eq h.trace] at hacts
        exact hacts (.ioctl m.camera.videofd
          (.qBuf (c.fill m.vbuf).type (c.fill m.vbuf).index.toNat) c.qBuf)
          (by simp [captureCalls]) trivial
      · intro hdq r hr hneg
        rw [hret, if_pos (hdq hready hcopy), Option.some.injEq] at hr
        omega
    · obtain ⟨hnone, -⟩ := died_cameraCapture hopen hready hcopy
      exact iff_of_true (fun r hr => by simp [hnone] at hr) fun _ hsurvives =>
        absurd hsurvives hcopy
  · refine iff_of_true (fun r _ _ => ?_) fun h => absurd h hready
    have htrace : (m.sys (.select m.camera.videofd)).trace =
      m.trace ++ [.select m.camera.videofd] := rfl
    rw [cameraCapture_of_not_ready hopen hready, callsSince_eq htrace]
    refine ⟨rfl, rfl, fun e he => ?_⟩
    rw [List.mem_singleton.mp he]
    exact not_false

/-- **When a failed capture has no effect.** After `cam_init` and `camera_streamon`, in every run of
captures, whatever `select`, `VIDIOC_DQBUF` and `VIDIOC_QBUF` answer: a call that returns a negative
value leaves `*len` and `data` as they are and queues nothing, exactly when `VIDIOC_DQBUF` succeeds
whenever `select` has found the descriptor ready and the copy is survived. -/
theorem failsCleanly_iff_meets {m : CameraApp} (hm : m.Started) (cs : List CaptureAnswers) :
    Transition.Meets capture FailsCleanly m cs ↔
      Transition.Meets capture DequeuesIfReady m cs :=
  Transition.meets_iff_meets (J := fun m => m.devOpen = true) (L := fun _ _ => True)
    (fun _ c hopen _ _ => (capture_keeps hopen c).2.1)
    (fun _ c hopen _ => failsCleanly_iff hopen c) hm.clear.1
    (Transition.meets_iff_forall.mpr fun _ _ => trivial)

/-- A device with two buffers of which streaming has been switched on, and room for fifty bytes. -/
theorem started_two :
    Started (((atStart (List.replicate 50 0) (-1)).camInit (.singlePlanar 2 100) 0 1920
      1080).2.cameraStreamon ⟨true, 0⟩).2 :=
  ⟨_, .singlePlanar 2 100, 0, 1920, 1080, ⟨true, 0⟩, by decide, by decide, rfl⟩

/-- Fifty bytes are captured, and then `select` times out. -/
theorem failsCleanly_iff_meets_timeout :
    let m := ((atStart (List.replicate 50 0) (-1)).camInit (.singlePlanar 2 100) 0 1920
      1080).2.cameraStreamon ⟨true, 0⟩ |>.2
    let cs : List CaptureAnswers :=
      [⟨1, some ⟨1, 50, 0⟩, fun _ => 0, true⟩, ⟨0, none, fun _ => 0, false⟩]
    Transition.Meets capture FailsCleanly m cs ↔ Transition.Meets capture DequeuesIfReady m cs :=
  failsCleanly_iff_meets started_two _

/-- Fifty bytes are captured, and then `VIDIOC_DQBUF` fails: the buffer is queued again. -/
theorem not_failsCleanly :
    ¬ ∀ (m : CameraApp) (cs : List CaptureAnswers), m.Started →
      Transition.Meets capture FailsCleanly m cs := by
  intro h
  have hrun := h _ [⟨1, some ⟨1, 50, 0⟩, fun _ => 0, true⟩, ⟨1, none, fun _ => 0, false⟩]
    started_two
  obtain ⟨-, -, hacts⟩ := hrun.2.1 (-1) (by decide) (by decide)
  exact hacts (.ioctl 3 (.qBuf (some .videoCapture) 1) false) (by decide) trivial

/-! ### Captures that succeed -/

/-- The number of buffers of the device that are queued in the driver. -/
def queuedCount (m : CameraApp) : ℕ :=
  (m.os.queued.filter (·.1 = m.camera.videofd)).card

/-- The buffers that the call takes out. -/
def taken (m : CameraApp) (c : CaptureAnswers) : List (ℤ × ℕ) :=
  ((m.cameraCapture c).2.callsSince m).filterMap Event.taken

/-- The buffers that the call queues. -/
def given (m : CameraApp) (c : CaptureAnswers) : List (ℤ × ℕ) :=
  ((m.cameraCapture c).2.callsSince m).filterMap Event.given

/-- If the call returns `0` it has taken one buffer out and queued the same one, and as many buffers
are queued as before; if it keeps a buffer that it has taken out it returns a negative value. -/
structure GivesBack (m : CameraApp) (c : CaptureAnswers) : Prop where
  back : (m.cameraCapture c).1 = some 0 → ∃ i, m.taken c = [(m.camera.videofd, i)] ∧
    m.given c = [(m.camera.videofd, i)] ∧ (m.cameraCapture c).2.queuedCount = m.queuedCount
  reports : (∃ p ∈ m.taken c, p ∉ m.given c) → ∃ r < 0, (m.cameraCapture c).1 = some r

/-- Every capture that is made gives its buffer back. -/
def CaptureGivesBack (m : CameraApp) (c : CaptureAnswers) : Prop :=
  m.crashed = false → m.GivesBack c

/-- `VIDIOC_DQBUF` takes out a buffer that is queued. -/
def TakesQueued (m : CameraApp) (c : CaptureAnswers) : Prop :=
  c.Ready → ∀ d, c.dqBuf = some d → m.Queued d.index.toNat

/-- After `VIDIOC_DQBUF` has succeeded the copy is survived, and `VIDIOC_QBUF` succeeds as well. -/
def RequeuesTaken (m : CameraApp) (c : CaptureAnswers) : Prop :=
  m.crashed = false → c.Ready → c.dqBuf.isSome = true → m.CopySurvives c ∧ c.qBuf = true

/-- What a capture that completes takes and gives. -/
theorem Captured.taken_given {m : CameraApp} {c : CaptureAnswers} {bytes : ℤ}
    (h : Captured c bytes m (m.cameraCapture c).2) {d : Dequeued} (hd : c.dqBuf = some d) :
    m.taken c = [(m.camera.videofd, d.index.toNat)] ∧
      m.given c = if c.qBuf then [(m.camera.videofd, d.index.toNat)] else [] := by
  have hindex := (c.fill_of_dequeued hd m.vbuf).1
  rw [taken, given, callsSince_eq h.trace, captureCalls, fillCalls, hindex, hd]
  cases c.qBuf with
  | true => exact ⟨rfl, rfl⟩
  | false => exact ⟨rfl, rfl⟩

/-- The buffer that has been taken out and queued again is where it was. -/
theorem Captured.queuedCount {m m' : CameraApp} {c : CaptureAnswers} {bytes : ℤ}
    (h : Captured c bytes m m') {d : Dequeued} (hd : c.dqBuf = some d) (hq : c.qBuf = true)
    (hqueued : m.Queued d.index.toNat) : m'.queuedCount = m.queuedCount := by
  have hindex := (c.fill_of_dequeued hd m.vbuf).1
  have hsame : m'.os.queued = m.os.queued := by
    have hinsert : insert (m.camera.videofd, d.index.toNat)
        (m.os.queued.erase (m.camera.videofd, d.index.toNat)) = m.os.queued :=
      Finset.insert_erase hqueued
    rw [← hinsert, os, h.trace, captureCalls, fillCalls, hindex, hd, hq]
    simp [Os.ofTrace, Os.issue, Os.serve, Os.use, os]
  rw [CameraApp.queuedCount, hsame, h.camera, CameraApp.queuedCount]

/-- A capture that fails may keep a buffer. -/
theorem givesBack_of_fails {m : CameraApp} {c : CaptureAnswers}
    (hret : (m.cameraCapture c).1 = some (-1)) : m.GivesBack c where
  back h := by simp [hret] at h
  reports _ := ⟨-1, by decide, hret⟩

/-- What a capture that dies takes and gives. -/
theorem Died.taken_given {m : CameraApp} {c : CaptureAnswers} {bytes : ℤ}
    (h : Died c bytes m (m.cameraCapture c).2) :
    m.taken c =
        (if c.dqBuf.isSome then [(m.camera.videofd, (c.fill m.vbuf).index.toNat)] else []) ∧
      m.given c = [] := by
  rw [taken, given, callsSince_eq h.trace, fatalCalls, fillCalls]
  by_cases hnull : m.camera.buffers = 0
  · rw [if_pos hnull]
    cases c.dqBuf.isSome <;> exact ⟨rfl, rfl⟩
  · rw [if_neg hnull]
    cases c.dqBuf.isSome <;> exact ⟨rfl, rfl⟩

/-- A capture that dies keeps the buffer that it has taken out. -/
theorem givesBack_of_died_iff {m : CameraApp} (hopen : m.devOpen = true) {c : CaptureAnswers}
    (hready : c.Ready) (hcopy : ¬ m.CopySurvives c) : m.GivesBack c ↔ c.dqBuf = none := by
  obtain ⟨hret, h⟩ := died_cameraCapture hopen hready hcopy
  obtain ⟨htaken, hgiven⟩ := h.taken_given
  constructor
  · intro hback
    by_contra hdq
    rw [if_pos (Option.isSome_iff_ne_none.mpr hdq)] at htaken
    obtain ⟨r, -, hr⟩ := hback.reports ⟨_, by rw [htaken]; exact List.mem_singleton_self _, by
      rw [hgiven]
      exact List.not_mem_nil⟩
    simp [hret] at hr
  · intro hdq
    refine ⟨fun hzero => by simp [hret] at hzero, fun hkeeps => ?_⟩
    obtain ⟨p, hp, -⟩ := hkeeps
    simp [htaken, hdq] at hp

theorem givesBack_of_dequeued_iff {m : CameraApp} (hopen : m.devOpen = true) {c : CaptureAnswers}
    (hready : c.Ready) (hcopy : m.CopySurvives c) {d : Dequeued} (hd : c.dqBuf = some d)
    (hqueued : m.Queued d.index.toNat) : m.GivesBack c ↔ c.qBuf = true := by
  obtain ⟨-, h⟩ := captured_cameraCapture hopen hready hcopy
  have hzero : (m.cameraCapture c).1 = some 0 :=
    (cameraCapture_eq_zero_iff hopen).mpr ⟨hready, hcopy, by rw [hd]; rfl⟩
  obtain ⟨htaken, hgiven⟩ := h.taken_given hd
  constructor
  · intro hback
    obtain ⟨i, -, hi, -⟩ := hback.back hzero
    by_contra hq
    simp [hi, hq] at hgiven
  · intro hq
    rw [if_pos hq] at hgiven
    refine ⟨fun _ => ⟨_, htaken, hgiven, h.queuedCount hd hq hqueued⟩, fun hkeeps => ?_⟩
    obtain ⟨p, hp, hnot⟩ := hkeeps
    rw [htaken] at hp
    rw [hgiven] at hnot
    exact absurd hp hnot

theorem captureGivesBack_iff {m : CameraApp} (hopen : m.devOpen = true) {c : CaptureAnswers}
    (hlaw : m.TakesQueued c) : m.CaptureGivesBack c ↔ m.RequeuesTaken c := by
  refine imp_congr_right fun _ => ?_
  by_cases hready : c.Ready
  · simp only [hready, forall_const]
    by_cases hcopy : m.CopySurvives c
    · cases hd : c.dqBuf with
      | none =>
        have hret := (captured_cameraCapture hopen hready hcopy).1
        rw [hd] at hret
        exact iff_of_true (givesBack_of_fails hret) (by simp)
      | some d =>
        rw [givesBack_of_dequeued_iff hopen hready hcopy hd (hlaw hready d hd)]
        simp [hcopy]
    · simp [givesBack_of_died_iff hopen hready hcopy, hcopy, Option.isSome_iff_ne_none]
  · refine iff_of_true (givesBack_of_fails ?_) fun h => absurd h hready
    rw [cameraCapture_of_not_ready hopen hready]

/-- **When a successful capture gives its buffer back.** After `cam_init` and `camera_streamon`, in
every run of captures in which `VIDIOC_DQBUF` takes out buffers that are queued, whatever else the
calls answer: a call that returns `0` has taken out one buffer and queued the same one, so as many
are queued as before, and a call that keeps a buffer reports an error, exactly when after every
`VIDIOC_DQBUF` that succeeds the copy is survived and `VIDIOC_QBUF` succeeds. -/
theorem givesBack_iff_meets {m : CameraApp} (hm : m.Started) {cs : List CaptureAnswers}
    (hlaw : Transition.Meets capture TakesQueued m cs) :
    Transition.Meets capture CaptureGivesBack m cs ↔ Transition.Meets capture RequeuesTaken m cs :=
  Transition.meets_iff_meets (J := fun m => m.devOpen = true)
    (fun _ c hopen _ _ => (capture_keeps hopen c).2.1)
    (fun _ _ hopen hlaw => captureGivesBack_iff hopen hlaw) hm.clear.1 hlaw

/-- Both buffers are captured. -/
theorem givesBack_iff_meets_both :
    let m := ((atStart (List.replicate 50 0) (-1)).camInit (.singlePlanar 2 100) 0 1920
      1080).2.cameraStreamon ⟨true, 0⟩ |>.2
    let cs : List CaptureAnswers :=
      [⟨1, some ⟨1, 50, 0⟩, fun _ => 0, true⟩, ⟨1, some ⟨0, 50, 0⟩, fun _ => 0, true⟩]
    Transition.Meets capture CaptureGivesBack m cs ↔
      Transition.Meets capture RequeuesTaken m cs := by
  intro m cs
  refine givesBack_iff_meets started_two ⟨fun _ d hd => ?_, fun _ d hd => ?_, trivial⟩
  · rw [← Option.some.inj hd]
    decide
  · rw [← Option.some.inj hd]
    decide

/-- `VIDIOC_QBUF` fails: the buffer is lost, and the call returns `0`. -/
theorem not_givesBack :
    ¬ ∀ (m : CameraApp) (cs : List CaptureAnswers), m.Started →
      Transition.Meets capture TakesQueued m cs →
      Transition.Meets capture CaptureGivesBack m cs := by
  intro h
  let m := ((atStart (List.replicate 50 0) (-1)).camInit (.singlePlanar 2 100) 0 1920
    1080).2.cameraStreamon ⟨true, 0⟩ |>.2
  let c : CaptureAnswers := ⟨1, some ⟨1, 50, 0⟩, fun _ => 0, false⟩
  have hlaw : Transition.Meets capture TakesQueued m [c] := by
    refine ⟨fun _ d hd => ?_, trivial⟩
    rw [← Option.some.inj hd]
    decide
  have hrun := h m [c] started_two hlaw
  obtain ⟨i, -, hgiven, -⟩ := (hrun.1 (by decide)).back (by decide)
  have hnone : m.given c = [] := by decide
  simp [hnone] at hgiven

end CameraApp
