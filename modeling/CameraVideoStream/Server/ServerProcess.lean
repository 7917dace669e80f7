import CameraVideoStream.Foundation.Refinement
import CameraVideoStream.Server.Broadcast
import CameraVideoStream.Server.Delivery
import CameraVideoStream.Server.Frames

/-!
# The server process: the camera and the broadcast

`sendThreadFunc` (`server/server.cc`) opens the camera, switches streaming on without looking at
what `camera_streamon` returns, and then captures frames into `buf` and sends each of them to all
connections, while the thread of the event loop keeps the set of connections. So the process is the
camera module and the `ChatServer` side by side: what a capture leaves in `buf` and `frameLen` is
the frame of the broadcast.

The composition refines the broadcast (`ServerProcess.refinement`), so that what has been proved of
the broadcast for any frames holds here. The frames are those that the driver has handed out, in the
order in which it did (`ServerProcess.streams_of_meets`).

## Main definitions

* `ServerProcess`, `ServerProcess.step`.
* `ServerProcess.Admissible`: the conditions on the device and on the connections.
* `ServerProcess.Streams`: what the process is for.

## Main results

* `ServerProcess.refinement`, `ServerProcess.streams_of_meets`, `ServerProcess.silent_run`.
-/

open Codec V4l2

/-! ### The steps of the broadcast -/

namespace ChatServer
variable {κ : Type*} [LinearOrder κ]

/-- **What a step does**: nothing, or one of the threads goes on. -/
theorem step_cases (t : ChatServer κ) (e : Event κ) :
    t.step e = t ∨ t.fault = false ∧
      ((∃ conn connected, e = .onConnection conn connected ∧
        t.step e = t.onConnection conn connected) ∨
      (∃ frame, e = .capture (some frame) ∧ t.sendPc = .capturing ∧
        t.step e = t.captureStep (some frame)) ∨
      (e = .begin ∧ t.sendPc = .beginning ∧ t.step e = t.beginStep) ∨
      (e = .compare ∧ t.sendPc = .comparing ∧ t.step e = t.compareStep) ∨
      (e = .send ∧ t.sendPc = .sending ∧ t.step e = t.sendStep) ∨
      (e = .advance ∧ t.sendPc = .advancing ∧ t.step e = t.advanceStep)) := by
  cases hfault : t.fault with
  | true => exact .inl (by simp [step, hfault])
  | false =>
    cases e with
    | onConnection conn connected =>
      exact .inr ⟨rfl, .inl ⟨conn, connected, rfl, by simp [step, hfault]⟩⟩
    | capture result =>
      by_cases hpc : t.sendPc = .capturing
      · cases result with
        | none => exact .inl (by simp [step, hfault, hpc, captureStep])
        | some frame => exact .inr ⟨rfl, .inr (.inl ⟨frame, rfl, hpc, by simp [step, hfault, hpc]⟩)⟩
      · exact .inl (by simp [step, hpc])
    | begin =>
      by_cases hpc : t.sendPc = .beginning
      · exact .inr ⟨rfl, .inr (.inr (.inl ⟨rfl, hpc, by simp [step, hfault, hpc]⟩))⟩
      · exact .inl (by simp [step, hpc])
    | compare =>
      by_cases hpc : t.sendPc = .comparing
      · exact .inr ⟨rfl, .inr (.inr (.inr (.inl ⟨rfl, hpc, by simp [step, hfault, hpc]⟩)))⟩
      · exact .inl (by simp [step, hpc])
    | send =>
      by_cases hpc : t.sendPc = .sending
      · exact .inr ⟨rfl, .inr (.inr (.inr (.inr (.inl ⟨rfl, hpc, by simp [step, hfault, hpc]⟩))))⟩
      · exact .inl (by simp [step, hpc])
    | advance =>
      by_cases hpc : t.sendPc = .advancing
      · exact .inr ⟨rfl, .inr (.inr (.inr (.inr (.inr ⟨rfl, hpc, by simp [step, hfault, hpc]⟩))))⟩
      · exact .inl (by simp [step, hpc])

theorem onConnection_same (t : ChatServer κ) (conn : κ) (connected : Bool) :
    (t.onConnection conn connected).captured = t.captured ∧
      (t.onConnection conn connected).sent = t.sent ∧
      (t.onConnection conn connected).sendPc = t.sendPc := by
  cases connected <;> exact ⟨rfl, rfl, rfl⟩

theorem compareStep_same (t : ChatServer κ) :
    t.compareStep.captured = t.captured ∧ t.compareStep.sent = t.sent ∧
      t.compareStep.connections = t.connections := by
  unfold compareStep
  split <;> exact ⟨rfl, rfl, rfl⟩

theorem advanceStep_same (t : ChatServer κ) :
    t.advanceStep.captured = t.captured ∧ t.advanceStep.sent = t.sent ∧
      t.advanceStep.connections = t.connections := by
  unfold advanceStep
  split
  · exact ⟨rfl, rfl, rfl⟩
  · split_ifs <;> exact ⟨rfl, rfl, rfl⟩

/-- `send` sends one message, unless the iterator is not valid. -/
theorem sendStep_cases (t : ChatServer κ) :
    t.sendStep = { t with fault := true } ∨ ∃ conn : κ, t.it = conn ∧ t.invalidated = false ∧
      t.sendStep = { t with
        sent := t.sent ++ [⟨t.captured.length - 1, conn, t.buf⟩]
        sendPc := .advancing } := by
  by_cases hit : t.it = ⊤
  · exact .inl (by simp [sendStep, hit])
  · obtain ⟨conn, hconn⟩ := WithTop.ne_top_iff_exists.mp hit
    by_cases hinv : t.invalidated = true
    · exact .inl (by simp [sendStep, ← hconn, hinv])
    · rw [Bool.not_eq_true] at hinv
      exact .inr ⟨conn, hconn.symm, hinv, sendStep_coe hconn.symm hinv⟩

end ChatServer

/-! ### The process -/

/-- `std::string(buf, frameLen)`, with a length that is not negative. -/
def CameraApp.frame (m : CameraApp) : Bytes := m.data.take m.len.toNat

/-- The frame that the driver hands out to a capture: the bytes in plane `0` of the buffer. -/
def CameraApp.handedOut (m : CameraApp) (c : CaptureAnswers) : Option Bytes :=
  c.dqBuf.map (m.planeBytes c)

/-- What the driver says about a buffer that it hands out: there is such a buffer, the frame is not
longer than plane `0`, nor than the room that the process has for it, its length is an `int`, and it
is plain. -/
structure CameraApp.PlainReport (m : CameraApp) (d : Dequeued) : Prop where
  index : d.index.toNat < m.buffersCount
  length : m.payload d ≤ (m.camera.table d.index.toNat 0).length
  room : m.payload d ≤ m.data.length
  int : m.payload d < 2 ^ 31
  plain : m.camera.driverType = .videoCaptureMplane → m.payload d = 0

/-- Where `sendThreadFunc` is: before `cam_init`, before `camera_streamon`, in its loop, or it has
returned. -/
inductive ThreadPc where
  | initialising
  | starting
  | looping
  | returned
  deriving DecidableEq

/-- The process. `delivered` records the frames that the driver has handed out to captures that
returned `0`, `terminated` an exception that nobody catches. -/
structure ServerProcess (κ : Type*) [LinearOrder κ] where
  app : CameraApp := {}
  server : ChatServer κ := {}
  threadPc : ThreadPc := .initialising
  terminated : Bool := false
  delivered : List Bytes := []

namespace ServerProcess

variable {κ : Type*} [LinearOrder κ]

/-- What can happen next: a call of the camera module, with what the calls it makes answer and, for
`camera_streamon`, with what `new char[WIDTH*HEIGHT*3/2]` then happens to contain (any number of
bytes here); or a step of the broadcast. -/
inductive Event (κ : Type*) where
  | camInit (a : InitAnswers)
  | cameraStreamon (a : StreamonAnswers) (buf : Bytes)
  | cameraCapture (c : CaptureAnswers)
  | server (e : ChatServer.Event κ)

/-- The process has come to its end, or an iterator has been used that is not valid. -/
def dead (s : ServerProcess κ) : Bool := s.terminated || s.app.crashed || s.server.fault

/-- `if (cam_init(0, WIDTH, HEIGHT) < 0) return;` -/
def initStep (s : ServerProcess κ) (a : InitAnswers) : ServerProcess κ :=
  let r := s.app.camInit a 0 Common.width Common.height
  match r.1 with
  | none => { s with app := r.2 }
  | some ret => { s with app := r.2, threadPc := if ret < 0 then .returned else .starting }

/-- `camera_streamon();`, whatever it returns, and the variables of the loop. -/
def streamonStep (s : ServerProcess κ) (a : StreamonAnswers) (buf : Bytes) : ServerProcess κ :=
  { s with
    app := { (s.app.cameraStreamon a).2 with data := buf, len := -1 }
    threadPc := .looping }

/-- `camera_capture(buf, &frameLen)`, which is called again after it has failed. -/
def captureStep (s : ServerProcess κ) (c : CaptureAnswers) : ServerProcess κ :=
  let r := s.app.cameraCapture c
  match r.1 with
  | none => { s with app := r.2 }
  | some ret =>
    if ret < 0 then
      { s with app := r.2 }
    else
      { s with
        app := r.2
        server := s.server.step (.capture (some r.2.frame))
        delivered := s.delivered ++ (s.app.handedOut c).toList }

/-- A step of the broadcast, which captures nothing by itself. The string for a negative length
cannot be made. -/
def serverStep (s : ServerProcess κ) : ChatServer.Event κ → ServerProcess κ
  | .capture _ => s
  | .send =>
    if s.server.sendPc = .sending ∧ s.app.len < 0 then
      { s with terminated := true }
    else
      { s with server := s.server.step .send }
  | e => { s with server := s.server.step e }

/-- One step of one of the threads. -/
def step (s : ServerProcess κ) (e : Event κ) : ServerProcess κ :=
  if s.dead then s else
  match e, s.threadPc with
  | .camInit a, .initialising => s.initStep a
  | .cameraStreamon a buf, .starting => s.streamonStep a buf
  | .cameraCapture c, .looping => if s.server.sendPc = .capturing then s.captureStep c else s
  | .server e, _ => s.serverStep e
  | _, _ => s

/-- The conditions. The planes fit `struct buffer` and are mapped; the driver reports as V4L2
promises, a buffer that there is and a plain frame that fits the plane and `buf`; and no connection
goes down while the iterator designates it. -/
def Admissible (s : ServerProcess κ) : Event κ → Prop
  | .camInit a =>
    a.numPlanes ≤ 4 ∧ ∀ n < CameraApp.reqCount a, ∀ j < a.numPlanes, a.mmap n j ≠ mapFailed
  | .cameraStreamon _ _ => True
  | .cameraCapture c =>
    s.app.FillsVbuf c ∧ (c.Ready → ∀ d, c.dqBuf = some d → s.app.PlainReport d)
  | .server e => s.server.Spares e

/-- What holds as long as the steps are admissible. -/
structure Inv (s : ServerProcess κ) : Prop where
  initial : s.threadPc = .initialising → s.dead = false → s.app = {}
  clear : s.threadPc = .starting ∨ s.threadPc = .looping → s.app.MplaneClear
  /-- The frames of the broadcast are those that the driver has handed out. -/
  captured : s.server.captured = s.delivered
  /-- They are as long as an `int` says. -/
  lengths : ∀ f ∈ s.delivered, f.length < 2 ^ 31

/-- What the process is for. -/
structure Streams (s : ServerProcess κ) : Prop extends s.server.Delivers where
  /-- Every frame that the driver has handed out, and no other, goes through the broadcast. -/
  captured : s.server.captured = s.delivered
  /-- What is sent is the frame that the driver has handed out. -/
  sent : ∀ m ∈ s.server.sent, s.delivered[m.frame]? = some m.message

/-- Before the loop, and after `sendThreadFunc` has returned, nothing has been sent. -/
def Silent (s : ServerProcess κ) : Prop :=
  s.threadPc ≠ .looping →
    s.server.captured = [] ∧ s.server.sent = [] ∧ s.server.sendPc = .capturing

theorem inv_init : Inv ({} : ServerProcess κ) where
  initial _ _ := rfl
  clear h := by simp at h
  captured := rfl
  lengths := by simp

/-! ### The calls of the camera module -/

theorem cameraCapture_ret {m : CameraApp} {c : CaptureAnswers} {ret : ℤ}
    (h : (m.cameraCapture c).1 = some ret) : ret = 0 ∨ ret = -1 := by
  cases hopen : m.devOpen with
  | false =>
    rw [CameraApp.cameraCapture_of_closed hopen] at h
    exact .inr (Option.some.inj h).symm
  | true =>
    by_cases hready : c.Ready
    · by_cases hcopy : m.CopySurvives c
      · rw [(CameraApp.captured_cameraCapture hopen hready hcopy).1] at h
        split_ifs at h
        · exact .inl (Option.some.inj h).symm
        · exact .inr (Option.some.inj h).symm
      · simp [(CameraApp.died_cameraCapture hopen hready hcopy).1] at h
    · rw [CameraApp.cameraCapture_of_not_ready hopen hready] at h
      exact .inr (Option.some.inj h).symm

/-- After `cam_init` has succeeded on the module as it is when the process starts. -/
theorem mplaneClear_camInit {a : InitAnswers} {index width height : ℤ}
    (h : (({} : CameraApp).camInit a index width height).1 = some 0) :
    (({} : CameraApp).camInit a index width height).2.MplaneClear := by
  have hinit := CameraApp.initialised_of_camInit h
  exact ⟨hinit.devOpen, fun _ => by rw [hinit.vbuf]⟩

theorem camInit_ret {m : CameraApp} {a : InitAnswers} {index width height ret : ℤ}
    (h : (m.camInit a index width height).1 = some ret) : ret = 0 ∨ ret = -1 := by
  rcases CameraApp.camInit_cases a index width height m with
    ⟨-, hr⟩ | ⟨-, ⟨m₁, -, -, hr⟩ | ⟨r, m₁, -, hfail, hr⟩⟩
  · rw [hr] at h
    exact .inr (Option.some.inj h).symm
  · rw [hr] at h
    exact .inl (Option.some.inj h).symm
  · rw [hr] at h
    rcases hfail with ⟨hnone, -⟩ | ⟨hret, -⟩
    · simp [hnone] at h
    · rw [hret] at h
      exact .inr (Option.some.inj h).symm

/-- A `cam_init` that does not return has died. -/
theorem crashed_of_camInit {m : CameraApp} {a : InitAnswers} {index width height : ℤ}
    (h : (m.camInit a index width height).1 = none) :
    (m.camInit a index width height).2.crashed = true := by
  rcases CameraApp.camInit_cases a index width height m with
    ⟨-, hr⟩ | ⟨-, ⟨m₁, -, -, hr⟩ | ⟨r, m₁, -, ⟨-, hcrashed⟩ | ⟨hret, -⟩, hr⟩⟩
  · simp [hr] at h
  · simp [hr] at h
  · rw [hr]
    exact hcrashed
  · simp [hr, hret] at h

theorem devOpen_cameraStreamon (m : CameraApp) (a : StreamonAnswers) :
    (m.cameraStreamon a).2.devOpen = m.devOpen := by
  rw [CameraApp.cameraStreamon]
  split_ifs
  · rw [CameraApp.prepareVbuf]
    split_ifs <;> rfl
  · rfl

/-- `camera_streamon` keeps `vbuf.bytesused` of a multi-planar device clear, whatever it returns. -/
theorem mplaneClear_cameraStreamon {m : CameraApp} (hm : m.MplaneClear) (a : StreamonAnswers) :
    (m.cameraStreamon a).2.MplaneClear := by
  refine ⟨(devOpen_cameraStreamon m a).trans hm.devOpen, ?_⟩
  rw [CameraApp.cameraStreamon]
  split_ifs
  · rw [CameraApp.prepareVbuf]
    split_ifs <;> exact fun _ => rfl
  · exact hm.bytesused

/-- The frames of plain reports are plain. -/
theorem plainPayload {m : CameraApp} {c : CaptureAnswers}
    (hreport : c.Ready → ∀ d, c.dqBuf = some d → m.PlainReport d) : m.PlainPayload c := by
  intro hready _ d hd
  have h := hreport hready d hd
  by_cases hmplane : m.camera.driverType = .videoCaptureMplane
  · exact .inl (h.plain hmplane)
  · exact .inr ⟨hmplane, h.int⟩

/-- A capture that returns `0` leaves the frame that the driver has handed out in `buf`. -/
theorem frame_of_delivers {m : CameraApp} (hm : m.MplaneClear) {c : CaptureAnswers}
    (hlaw : m.FillsVbuf c) (hreport : c.Ready → ∀ d, c.dqBuf = some d → m.PlainReport d)
    (hret : (m.cameraCapture c).1 = some 0) :
    m.handedOut c = some (m.cameraCapture c).2.frame ∧
      (m.cameraCapture c).2.frame.length < 2 ^ 31 := by
  obtain ⟨d, hd, hlen, hdata⟩ := (CameraApp.delivers_iff hm hlaw).mpr (plainPayload hreport) hret
  have hready := ((CameraApp.cameraCapture_eq_zero_iff hm.devOpen).mp hret).1
  have hframe : (m.cameraCapture c).2.frame = m.planeBytes c d := by
    rw [CameraApp.frame, hlen, Int.toNat_natCast, hdata]
  refine ⟨by rw [CameraApp.handedOut, hd, hframe]; rfl, ?_⟩
  rw [hframe, CameraApp.planeBytes, CameraApp.length_bytesAt]
  exact (hreport hready d hd).int

/-! ### What each step does -/

theorem alive {s : ServerProcess κ} (h : s.dead = false) :
    s.terminated = false ∧ s.app.crashed = false ∧ s.server.fault = false := by
  simpa [dead, and_assoc] using h

/-- A frame is captured. -/
theorem step_capture {t : ChatServer κ} (hvalid : t.fault = false) (hpc : t.sendPc = .capturing)
    (frame : Bytes) :
    t.step (.capture (some frame)) =
      { t with buf := frame, captured := t.captured ++ [frame], sendPc := .beginning } := by
  simp [ChatServer.step, hvalid, hpc, ChatServer.captureStep]

/-- Nothing else captures. -/
theorem captured_step {t : ChatServer κ} {e : ChatServer.Event κ} (he : ∀ r, e ≠ .capture r) :
    (t.step e).captured = t.captured := by
  rcases t.step_cases e with hsame | ⟨-, hstep⟩
  · rw [hsame]
  · rcases hstep with ⟨conn, connected, -, h⟩ | ⟨frame, rfl, -, -⟩ | ⟨-, -, h⟩ | ⟨-, -, h⟩ |
      ⟨-, -, h⟩ | ⟨-, -, h⟩
    · rw [h, (t.onConnection_same conn connected).1]
    · exact absurd rfl (he _)
    · rw [h]
      rfl
    · rw [h, t.compareStep_same.1]
    · rcases t.sendStep_cases with hsend | ⟨conn, -, -, hsend⟩ <;> rw [h, hsend]
    · rw [h, t.advanceStep_same.1]

/-- What a step of the broadcast does. -/
theorem serverStep_cases (s : ServerProcess κ) (e : ChatServer.Event κ) :
    s.serverStep e = s ∨ s.serverStep e = { s with terminated := true } ∨
      (∀ r, e ≠ .capture r) ∧ s.serverStep e = { s with server := s.server.step e } := by
  cases e with
  | capture result => exact .inl rfl
  | send =>
    rw [serverStep]
    split_ifs
    · exact .inr (.inl rfl)
    · exact .inr (.inr ⟨by simp, rfl⟩)
  | begin | compare | advance => exact .inr (.inr ⟨by simp, rfl⟩)
  | onConnection conn connected => exact .inr (.inr ⟨by simp, rfl⟩)

/-- **What a step does**: nothing, or one of the threads goes on. -/
theorem step_cases (s : ServerProcess κ) (e : Event κ) :
    s.step e = s ∨ s.dead = false ∧
      ((∃ a, e = .camInit a ∧ s.threadPc = .initialising ∧ s.step e = s.initStep a) ∨
      (∃ a buf, e = .cameraStreamon a buf ∧ s.threadPc = .starting ∧
        s.step e = s.streamonStep a buf) ∨
      (∃ c, e = .cameraCapture c ∧ s.threadPc = .looping ∧ s.server.sendPc = .capturing ∧
        s.step e = s.captureStep c) ∨
      (∃ e', e = .server e' ∧ s.step e = s.serverStep e')) := by
  cases hdead : s.dead with
  | true =>
    left
    unfold step
    exact if_pos hdead
  | false =>
    cases e with
    | camInit a =>
      by_cases hpc : s.threadPc = .initialising
      · exact .inr ⟨rfl, .inl ⟨a, rfl, hpc, by simp [step, hdead, hpc]⟩⟩
      · exact .inl (by simp [step, hpc])
    | cameraStreamon a buf =>
      by_cases hpc : s.threadPc = .starting
      · exact .inr ⟨rfl, .inr (.inl ⟨a, buf, rfl, hpc, by simp [step, hdead, hpc]⟩)⟩
      · exact .inl (by simp [step, hpc])
    | cameraCapture c =>
      by_cases hpc : s.threadPc = .looping
      · by_cases hcapturing : s.server.sendPc = .capturing
        · exact .inr ⟨rfl, .inr (.inr (.inl ⟨c, rfl, hpc, hcapturing, by
            simp [step, hdead, hpc, hcapturing]⟩))⟩
        · exact .inl (by simp [step, hpc, hcapturing])
      · exact .inl (by simp [step, hpc])
    | server e => exact .inr ⟨rfl, .inr (.inr (.inr ⟨e, rfl, by simp [step, hdead]⟩))⟩

/-! ### What each step keeps -/

theorem Inv.initStep {s : ServerProcess κ} (h : s.Inv) (hpc : s.threadPc = .initialising)
    (halive : s.dead = false) (a : InitAnswers) : (s.initStep a).Inv := by
  have happ := h.initial hpc halive
  rw [ServerProcess.initStep, happ]
  cases hret : (({} : CameraApp).camInit a 0 Common.width Common.height).1 with
  | none =>
    have hcrashed := crashed_of_camInit hret
    refine { h with initial := fun _ hlive => ?_, clear := by simp [hpc] }
    simp [dead, hcrashed] at hlive
  | some ret =>
    rcases camInit_ret hret with rfl | rfl
    · exact { h with
        initial := by simp
        clear := fun _ => mplaneClear_camInit hret }
    · exact { h with
        initial := by simp
        clear := by simp }

theorem Inv.streamonStep {s : ServerProcess κ} (h : s.Inv) (hpc : s.threadPc = .starting)
    (a : StreamonAnswers) (buf : Bytes) : (s.streamonStep a buf).Inv := by
  have hclear := mplaneClear_cameraStreamon (h.clear (.inl hpc)) a
  exact { h with
    initial := by simp [ServerProcess.streamonStep]
    clear := fun _ => ⟨hclear.devOpen, hclear.bytesused⟩ }

theorem Inv.captureStep {s : ServerProcess κ} (h : s.Inv) (hpc : s.threadPc = .looping)
    (halive : s.dead = false) (hcapturing : s.server.sendPc = .capturing) {c : CaptureAnswers}
    (hlaw : s.app.FillsVbuf c) (hreport : c.Ready → ∀ d, c.dqBuf = some d → s.app.PlainReport d) :
    (s.captureStep c).Inv := by
  have hclear := h.clear (.inr hpc)
  obtain ⟨-, hlive, hvalid⟩ := alive halive
  have hkept : (s.app.cameraCapture c).2.MplaneClear := by
    have hstep := hclear.capture hlaw
    rwa [CameraApp.capture, CameraApp.step, if_neg (by simp [hlive])] at hstep
  rw [ServerProcess.captureStep]
  cases hret : (s.app.cameraCapture c).1 with
  | none => exact { h with initial := by simp [hpc], clear := fun _ => hkept }
  | some ret =>
    rcases cameraCapture_ret hret with rfl | rfl
    · obtain ⟨hframe, hlt⟩ := frame_of_delivers hclear hlaw hreport hret
      refine ⟨by simp [hpc], fun _ => hkept, ?_, ?_⟩
      · show (s.server.step (.capture (some _))).captured = s.delivered ++ _
        rw [step_capture hvalid hcapturing, hframe, h.captured]
        rfl
      · simpa [hframe, or_imp, forall_and] using ⟨h.lengths, hlt⟩
    · exact { h with initial := by simp [hpc], clear := fun _ => hkept }

theorem Inv.serverStep {s : ServerProcess κ} (h : s.Inv) (halive : s.dead = false)
    (e : ChatServer.Event κ) : (s.serverStep e).Inv := by
  rcases serverStep_cases s e with hsame | hend | ⟨hcapture, hstep⟩
  · rwa [hsame]
  · rw [hend]
    exact { h with initial := fun _ hlive => by simp [dead] at hlive }
  · rw [hstep]
    exact { h with
      initial := fun hpc _ => h.initial hpc halive
      captured := (captured_step hcapture).trans h.captured }

theorem inv_step (s : ServerProcess κ) (e : Event κ) (h : s.Inv) (hadm : s.Admissible e) :
    (s.step e).Inv := by
  rcases step_cases s e with hsame | ⟨halive, hstep⟩
  · rwa [hsame]
  · rcases hstep with ⟨a, rfl, hpc, hstep⟩ | ⟨a, buf, rfl, hpc, hstep⟩ |
      ⟨c, rfl, hpc, hcapturing, hstep⟩ | ⟨e, rfl, hstep⟩
    · rw [hstep]
      exact h.initStep hpc halive a
    · rw [hstep]
      exact h.streamonStep hpc a buf
    · rw [hstep]
      exact h.captureStep hpc halive hcapturing hadm.1 hadm.2
    · rw [hstep]
      exact h.serverStep halive e

/-! ### Refinement of the broadcast -/

/-- A step of the process is a step of the broadcast, or none. -/
theorem matched_step (s : ServerProcess κ) (e : Event κ) (hadm : s.Admissible e) :
    ∃ es, (s.step e).server = Transition.run ChatServer.step s.server es ∧
      Transition.Meets ChatServer.step ChatServer.Spares s.server es := by
  have hnone {t : ServerProcess κ} (ht : t.server = s.server) :
      ∃ es, t.server = Transition.run ChatServer.step s.server es ∧
        Transition.Meets ChatServer.step ChatServer.Spares s.server es :=
    ⟨[], ht, trivial⟩
  rcases step_cases s e with hsame | ⟨-, hstep⟩
  · exact hnone (by rw [hsame])
  · rcases hstep with ⟨a, rfl, -, hstep⟩ | ⟨a, buf, rfl, -, hstep⟩ | ⟨c, rfl, -, -, hstep⟩ |
      ⟨e, rfl, hstep⟩
    · rw [hstep, initStep]
      split <;> exact hnone rfl
    · exact hnone (by rw [hstep]; rfl)
    · rw [hstep, captureStep]
      split
      · exact hnone rfl
      · split_ifs
        · exact hnone rfl
        · exact ⟨[.capture (some _)], rfl, trivial, trivial⟩
    · rcases serverStep_cases s e with hsame | hend | ⟨-, hserver⟩
      · exact hnone (by rw [hstep, hsame])
      · exact hnone (by rw [hstep, hend])
      · exact ⟨[e], by rw [hstep, hserver]; rfl, hadm, trivial⟩

/-- **The process refines the broadcast.** -/
theorem refinement : Transition.Refinement (step (κ := κ)) ChatServer.step server Inv Admissible
    ChatServer.Spares where
  keeps := inv_step
  matched s e _ hadm := matched_step s e hadm

theorem Inv.streams {s : ServerProcess κ} (h : s.Inv) (hserver : s.server.Inv) : s.Streams where
  toDelivers := hserver.delivers
  captured := h.captured
  sent m hm := by
    rw [← h.captured]
    exact hserver.message m hm

/-- **From the driver to the connections.** In every run that is admissible, however the captures,
the broadcast and the connections interleave, and whether or not the camera can be opened and
streams: the frames that the driver has handed out are the frames of the broadcast, every message
that is sent is one of them byte for byte, they reach a connection in order, and a connection that
is there during the whole pass over a frame is sent it exactly once. -/
theorem streams_of_meets {es : List (Event κ)} (h : Transition.Meets step Admissible {} es) :
    Transition.Throughout step Streams {} es := by
  rintro pre ⟨post, rfl⟩
  have hpre := (Transition.meets_append.mp h).1
  have hserver := refinement.invariant ChatServer.inv_step inv_init ChatServer.inv_init hpre
  exact (hpre.run inv_step inv_init).streams hserver

/-- Two bytes are captured and sent to the one connection. -/
theorem streams_of_meets_two :
    Transition.Throughout step Streams ({} : ServerProcess ℕ)
      [.camInit (.singlePlanar 2 100), .server (.onConnection 1 true),
        .cameraStreamon ⟨true, 0⟩ (List.replicate 50 0),
        .cameraCapture ⟨1, some ⟨1, 2, 0⟩, fun p => p.toUInt8 + 7, true⟩, .server .begin,
        .server .compare, .server .send, .server .advance, .server .compare] := by
  refine streams_of_meets ⟨⟨by decide, by decide⟩, trivial, trivial,
    ⟨fun _ d hd => ?_, fun _ d hd => ?_⟩, trivial, trivial, trivial, trivial, trivial, trivial⟩
  · rw [← Option.some.inj hd]
    decide
  · rw [← Option.some.inj hd]
    exact ⟨by decide, by decide, by decide, by decide, by decide⟩

/-! ### Nothing is sent before the loop -/

/-- While the sending thread waits for a frame, connections come and go. -/
theorem waiting_step {t : ChatServer κ} (hpc : t.sendPc = .capturing) {e : ChatServer.Event κ}
    (he : ∀ r, e ≠ .capture r) :
    (t.step e).sent = t.sent ∧ (t.step e).sendPc = .capturing := by
  rcases t.step_cases e with hsame | ⟨-, hstep⟩
  · rw [hsame]
    exact ⟨rfl, hpc⟩
  · rcases hstep with ⟨conn, connected, -, h⟩ | ⟨frame, rfl, -, -⟩ | ⟨-, hpc', -⟩ | ⟨-, hpc', -⟩ |
      ⟨-, hpc', -⟩ | ⟨-, hpc', -⟩
    · obtain ⟨-, hsent, hsame⟩ := t.onConnection_same conn connected
      rw [h]
      exact ⟨hsent, hsame.trans hpc⟩
    · exact absurd rfl (he _)
    all_goals simp [hpc] at hpc'

theorem silent_init : Silent ({} : ServerProcess κ) := fun _ => ⟨rfl, rfl, rfl⟩

theorem silent_step (s : ServerProcess κ) (e : Event κ) (h : s.Silent) : (s.step e).Silent := by
  rcases step_cases s e with hsame | ⟨-, hstep⟩
  · rwa [hsame]
  · rcases hstep with ⟨a, rfl, hpc, hstep⟩ | ⟨a, buf, rfl, -, hstep⟩ | ⟨c, rfl, hpc, -, hstep⟩ |
      ⟨e, rfl, hstep⟩
    · have hsilent := h (by simp [hpc])
      rw [hstep, initStep]
      split
      · exact fun _ => hsilent
      · exact fun _ => hsilent
    · rw [hstep]
      exact fun hpc => absurd rfl hpc
    · rw [hstep, captureStep]
      have hloop {t : ServerProcess κ} (ht : t.threadPc = s.threadPc) : t.Silent :=
        fun hne => absurd (ht.trans hpc) hne
      split
      · exact hloop rfl
      · split_ifs <;> exact hloop rfl
    · rcases serverStep_cases s e with hsame | hend | ⟨hcapture, hserver⟩
      · rwa [hstep, hsame]
      · rw [hstep, hend]
        exact h
      · rw [hstep, hserver]
        intro hpc
        obtain ⟨hcaptured, hsent, hcapturing⟩ := h hpc
        obtain ⟨hsent', hpc'⟩ := waiting_step hcapturing hcapture
        exact ⟨(captured_step hcapture).trans hcaptured, hsent'.trans hsent, hpc'⟩

/-- As long as `sendThreadFunc` is not in its loop, nothing has been sent. -/
theorem silent_run (es : List (Event κ)) : (Transition.run step {} es).Silent :=
  Transition.run_induction step silent_step silent_init es

end ServerProcess
