import CameraVideoStream.Server.Flags
import CameraVideoStream.Server.ServerProcess

/-!
# How the server process uses the camera

The camera module tracks its device only if its functions are called in order, and the driver keeps
the buffers only if streaming is not switched on again after it has been switched off
(`CameraApp.tracks_of_meets`, `CameraApp.allQueued_iff_meets`). `sendThreadFunc` calls `cam_init`
once, then `camera_streamon` once, and then only `camera_capture`, so in the process both conditions
are met, whatever else happens.

## Main results

* `ServerProcess.usesCamera_run`: the flags track the device, and what is sent is sent while it is
  open.
* `ServerProcess.buffersInDriver_of_meets`: the driver keeps its buffers.
-/

open V4l2

namespace ServerProcess

variable {κ : Type*} [LinearOrder κ]

/-- What every step keeps. -/
structure UsesCamera (s : ServerProcess κ) : Prop where
  initial : s.threadPc = .initialising → s.dead = false → s.app = {}
  sound : s.app.Sound
  devOpen : s.threadPc = .starting ∨ s.threadPc = .looping → s.app.devOpen = true

theorem usesCamera_init : UsesCamera ({} : ServerProcess κ) where
  initial _ _ := rfl
  sound := .inr (CameraApp.flagsInv_atStart [] (-1))
  devOpen h := by simp at h

/-- The arguments of `camera_capture` are not about the device. -/
theorem flagsInv_arguments {m : CameraApp} (h : m.FlagsInv) (data : Codec.Bytes) (len : ℤ) :
    CameraApp.FlagsInv { m with data := data, len := len } where
  devOpen := h.devOpen
  streamOn := h.streamOn
  devOpen_of_streamOn := h.devOpen_of_streamOn
  notMisused := h.notMisused
  nonneg := h.nonneg
  streaming_subset := h.streaming_subset

theorem usesCamera_step (s : ServerProcess κ) (e : Event κ) (h : s.UsesCamera) :
    (s.step e).UsesCamera := by
  rcases step_cases s e with hsame | ⟨halive, hstep⟩
  · rwa [hsame]
  · obtain ⟨-, hlive, -⟩ := alive halive
    have hflags : s.app.FlagsInv := h.sound.resolve_left (by simp [hlive])
    rcases hstep with ⟨a, rfl, hpc, hstep⟩ | ⟨a, buf, rfl, hpc, hstep⟩ | ⟨c, rfl, hpc, -, hstep⟩ |
      ⟨e, rfl, hstep⟩
    · have hsound := hflags.camInit (a := a) (.inl (by rw [h.initial hpc halive])) 0 Common.width
        Common.height
      rw [hstep, initStep]
      cases hret : (s.app.camInit a 0 Common.width Common.height).1 with
      | none =>
        have hcrashed := crashed_of_camInit hret
        refine ⟨fun _ hdead => ?_, hsound, by simp [hpc]⟩
        simp [dead, hcrashed] at hdead
      | some ret =>
        rcases camInit_ret hret with rfl | rfl
        · exact ⟨by simp, hsound, fun _ => (CameraApp.initialised_of_camInit hret).devOpen⟩
        · exact ⟨by simp, hsound, by simp⟩
    · have hopen := h.devOpen (.inl hpc)
      rw [hstep]
      refine ⟨by simp [streamonStep], .inr (flagsInv_arguments (hflags.cameraStreamon hopen a) _ _),
        fun _ => ?_⟩
      exact (devOpen_cameraStreamon s.app a).trans hopen
    · have hopen := h.devOpen (.inr hpc)
      have hsound := hflags.cameraCapture c
      obtain ⟨-, hdev, -⟩ := CameraApp.cameraCapture_keeps hopen c
      rw [hstep, captureStep]
      split
      · exact ⟨by simp [hpc], hsound, fun _ => hdev.trans hopen⟩
      · split_ifs
        · exact ⟨by simp [hpc], hsound, fun _ => hdev.trans hopen⟩
        · exact ⟨by simp [hpc], hsound, fun _ => hdev.trans hopen⟩
    · rcases serverStep_cases s e with hsame | hend | ⟨-, hserver⟩
      · rwa [hstep, hsame]
      · rw [hstep, hend]
        exact { h with initial := fun _ hdead => by simp [dead] at hdead }
      · rw [hstep, hserver]
        exact { h with initial := fun hpc _ => h.initial hpc halive }

/-- **The camera is used in order.** In every run of the process, whatever the device answers and
whatever connections come and go: the process has died in the camera module or the flags of the
module track the device, so that no call has been made on a descriptor that was not open; and
anything that is sent is sent by a thread in its loop, with the device open. -/
theorem usesCamera_run (es : List (Event κ)) :
    let s := Transition.run step {} es
    (s.app.crashed = true ∨ s.app.Tracks) ∧
      (s.server.sent ≠ [] → s.threadPc = .looping ∧ s.app.devOpen = true) := by
  intro s
  have h : s.UsesCamera := Transition.run_induction step usesCamera_step usesCamera_init es
  refine ⟨h.sound.imp_right fun hflags => hflags.toTracks, fun hsent => ?_⟩
  have hlooping : s.threadPc = .looping := by
    by_contra hpc
    exact hsent (silent_run es hpc).2.1
  exact ⟨hlooping, h.devOpen (.inr hlooping)⟩

/-! ### The buffers in the driver -/

/-- The driver answers to captures as V4L2 promises. -/
def DriverLawful (s : ServerProcess κ) : Event κ → Prop
  | .cameraCapture c => s.app.Lawful (.cameraCapture c)
  | _ => True

/-- What the steps keep, with such a driver. -/
structure KeepsQueue (s : ServerProcess κ) : Prop where
  initial : s.threadPc = .initialising → s.dead = false → s.app = {}
  sound : s.threadPc ≠ .initialising → s.threadPc ≠ .returned → s.app.QueueSound
  buffers : s.app.BuffersInDriver
  kept : s.threadPc = .starting → s.app.history = .kept

theorem keepsQueue_init : KeepsQueue ({} : ServerProcess κ) where
  initial _ _ := rfl
  sound h := absurd rfl h
  buffers := .inr (by simp [CameraApp.AllQueued])
  kept h := by simp at h

theorem queueSound_arguments {m : CameraApp} (h : m.QueueSound) (data : Codec.Bytes) (len : ℤ) :
    CameraApp.QueueSound { m with data := data, len := len } := by
  refine h.imp_right fun hm => ⟨?_, ?_, ?_, ?_, ?_⟩
  · exact hm.bounded
  · exact hm.index
  · exact hm.kept
  · exact hm.dropped
  · exact hm.requeued

/-- `cam_init` does not switch streaming on. -/
theorem streamOn_camInit (a : InitAnswers) (index width height : ℤ) (m : CameraApp) :
    (m.camInit a index width height).2.crashed = true ∨
      (m.camInit a index width height).2.streamOn = m.streamOn := by
  rcases CameraApp.camInit_cases a index width height m with
    ⟨-, hr⟩ | ⟨-, ⟨m₁, -, hq, hr⟩ | ⟨r, m₁, -, ⟨-, hcrashed⟩ | ⟨-, m₂, hq, hclose⟩, hr⟩⟩
  · exact .inr (by rw [hr]; rfl)
  · exact .inr (by rw [hr]; exact hq.streamOn)
  · exact .inl (by rw [hr]; exact hcrashed)
  · exact .inr (by rw [hr, hclose]; exact hq.streamOn)

theorem KeepsQueue.initStep {s : ServerProcess κ} (h : s.KeepsQueue)
    (hpc : s.threadPc = .initialising) (halive : s.dead = false) (a : InitAnswers) :
    (s.initStep a).KeepsQueue := by
  have hbuffers : (({} : CameraApp).camInit a 0 Common.width Common.height).2.BuffersInDriver :=
    (streamOn_camInit a 0 Common.width Common.height {}).imp_right fun hoff hon => by
      simp [hoff] at hon
  rw [ServerProcess.initStep, h.initial hpc halive]
  cases hret : (({} : CameraApp).camInit a 0 Common.width Common.height).1 with
  | none =>
    have hcrashed := crashed_of_camInit hret
    refine ⟨fun _ hdead => ?_, by simp [hpc], hbuffers, by simp [hpc]⟩
    simp [dead, hcrashed] at hdead
  | some ret =>
    rcases camInit_ret hret with rfl | rfl
    · have hinit := CameraApp.initialised_of_camInit hret
      exact ⟨by simp, fun _ _ => .inr hinit.queueInv, hbuffers, fun _ => hinit.history⟩
    · exact ⟨by simp, by simp, hbuffers, by simp⟩

theorem keepsQueue_step (s : ServerProcess κ) (e : Event κ) (h : s.KeepsQueue)
    (hlaw : s.DriverLawful e) : (s.step e).KeepsQueue := by
  rcases step_cases s e with hsame | ⟨halive, hstep⟩
  · rwa [hsame]
  · obtain ⟨-, hlive, -⟩ := alive halive
    have hdead : ¬ s.app.crashed = true := by simp [hlive]
    have hall := h.buffers.resolve_left hdead
    rcases hstep with ⟨a, rfl, hpc, hstep⟩ | ⟨a, buf, rfl, hpc, hstep⟩ | ⟨c, rfl, hpc, -, hstep⟩ |
      ⟨e, rfl, hstep⟩
    · rw [hstep]
      exact h.initStep hpc halive a
    · have hinv := (h.sound (by simp [hpc]) (by simp [hpc])).resolve_left hdead
      obtain ⟨hiff, hsound⟩ := CameraApp.run_queue hlive hinv hall (c := .cameraStreamon a) trivial
      have hbuffers := hiff.mpr (by simp [CameraApp.KeepsBuffers, h.kept hpc])
      rw [hstep]
      exact ⟨by simp [streamonStep], fun _ _ => queueSound_arguments (hsound hbuffers) buf (-1),
        hbuffers, by simp [streamonStep]⟩
    · have hinv := (h.sound (by simp [hpc]) (by simp [hpc])).resolve_left hdead
      obtain ⟨hiff, hsound⟩ := CameraApp.run_queue hlive hinv hall (c := .cameraCapture c) hlaw
      have hbuffers := hiff.mpr trivial
      have hkeeps {t : ServerProcess κ} (hthread : t.threadPc = s.threadPc)
          (happ : t.app = (s.app.cameraCapture c).2) : t.KeepsQueue := by
        rw [hpc] at hthread
        exact ⟨by simp [hthread], fun _ _ => happ ▸ hsound hbuffers, happ ▸ hbuffers,
          by simp [hthread]⟩
      rw [hstep, captureStep]
      split
      · exact hkeeps rfl rfl
      · split_ifs <;> exact hkeeps rfl rfl
    · rcases serverStep_cases s e with hsame | hend | ⟨-, hserver⟩
      · rwa [hstep, hsame]
      · rw [hstep, hend]
        exact { h with initial := fun _ hdead => by simp [dead] at hdead }
      · rw [hstep, hserver]
        exact { h with initial := fun hpc _ => h.initial hpc halive }

/-- **The driver keeps its buffers.** In every run of the process with a driver that answers to
captures as V4L2 promises, whether or not the camera can be opened and streams: while streaming is
on, and between any two calls, every buffer is queued in the driver, so that a capture can still
receive a frame. -/
theorem buffersInDriver_of_meets {es : List (Event κ)}
    (h : Transition.Meets step DriverLawful {} es) :
    Transition.Throughout step (fun s => s.app.BuffersInDriver) {} es :=
  (h.throughout keepsQueue_step keepsQueue_init).mono fun _ hs => hs.buffers

/-- One of two buffers is captured while a connection comes up. -/
theorem buffersInDriver_of_meets_two :
    Transition.Throughout step (fun s => s.app.BuffersInDriver) ({} : ServerProcess ℕ)
      [.camInit (.singlePlanar 2 100), .cameraStreamon ⟨true, 0⟩ [],
        .cameraCapture ⟨1, some ⟨1, 50, 0⟩, fun _ => 0, true⟩, .server (.onConnection 1 true)] := by
  refine buffersInDriver_of_meets ⟨trivial, trivial, fun _ _ => ⟨?_, fun _ => ?_⟩, trivial, trivial⟩
  · rintro d hd
    rw [← Option.some.inj hd]
    decide
  · decide

end ServerProcess
