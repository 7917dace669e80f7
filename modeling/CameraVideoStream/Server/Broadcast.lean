import CameraVideoStream.Common.Codec
import CameraVideoStream.Foundation.OrderedCursor
import CameraVideoStream.Foundation.Transition

/-!
# The server, its two threads interleaved

The sending thread captures a frame and sends it to every element of `connections_`, a `std::set`
that it iterates over (`ChatServer::sendThreadFunc`, `server/server.cc`). The thread of the event
loop inserts a connection that came up and erases one that went down (`ChatServer::onConnection`).
Nothing keeps the two threads apart, so a connection can go down between any two steps of the
iteration; erasing the element that the iterator designates invalidates the iterator.

## Main definitions

* `ChatServer`, `ChatServer.step`: the state of both threads, and their steps.
* `ChatServer.Spares`: the condition that no connection goes down while the iterator designates it.
* `ChatServer.Delivers`: what the broadcast is for.

## Main results

* `ChatServer.inv_step`: what a step that meets the condition keeps.
* `ChatServer.delivers_of_meets`: every run whose steps meet the condition delivers.
* `ChatServer.fault_of_erase`: a step that does not meet it leaves the sending thread with an
  iterator that its next step but one at the latest uses.
-/

open Codec OrderedCursor

/-- Where the sending thread is: in `camera_capture`, before `begin()`, before the comparison with
`end()`, before the call of `send`, or before `++it`. -/
inductive SendPc where
  | capturing
  | beginning
  | comparing
  | sending
  | advancing
  deriving DecidableEq

/-- One call of `codec_.send`: the number of the frame, the connection, and the message. -/
structure Sent (κ : Type*) where
  frame : ℕ
  conn : κ
  message : Bytes
  deriving DecidableEq

/-- The server, its connections ordered by `κ`. `captured`, `sent` and `passes` record the run: the
frames, the calls of `send`, and for every pass that is over the connections that were in the set
during the whole of it; `stayed` collects these for the pass that is going on. -/
structure ChatServer (κ : Type*) [LinearOrder κ] where
  connections : Finset κ := ∅
  sendPc : SendPc := .capturing
  it : WithTop κ := ⊤
  invalidated : Bool := false
  buf : Bytes := []
  captured : List Bytes := []
  sent : List (Sent κ) := []
  stayed : Finset κ := ∅
  passes : List (Finset κ) := []
  fault : Bool := false

namespace ChatServer

variable {κ : Type*} [LinearOrder κ]

/-- What can happen next: a step of the sending thread (`camera_capture` gives a frame or fails), or
`onConnection` for a connection that came up or went down. -/
inductive Event (κ : Type*) where
  | capture (result : Option Bytes)
  | begin
  | compare
  | send
  | advance
  | onConnection (conn : κ) (connected : Bool)
  deriving DecidableEq

/-- `ChatServer::onConnection`. Erasing the element that the iterator designates invalidates the
iterator. -/
def onConnection (s : ChatServer κ) (conn : κ) (connected : Bool) : ChatServer κ :=
  if connected then
    { s with connections := insert conn s.connections }
  else
    { s with
      connections := s.connections.erase conn
      stayed := s.stayed.erase conn
      invalidated := s.invalidated || decide (s.it = conn) }

/-- `camera_capture`, which the thread calls again when it fails. -/
def captureStep (s : ChatServer κ) : Option Bytes → ChatServer κ
  | none => s
  | some frame =>
    { s with buf := frame, captured := s.captured ++ [frame], sendPc := .beginning }

/-- `it = server->connections_.begin()`. -/
def beginStep (s : ChatServer κ) : ChatServer κ :=
  { s with
    it := first s.connections
    invalidated := false
    stayed := s.connections
    sendPc := .comparing }

/-- `it != server->connections_.end()`. -/
def compareStep (s : ChatServer κ) : ChatServer κ :=
  match s.it with
  | none => { s with passes := s.passes ++ [s.stayed], sendPc := .capturing }
  | WithTop.some _ => { s with sendPc := .sending }

/-- `server->codec_.send(get_pointer(*it), std::string(buf, frameLen))`. -/
def sendStep (s : ChatServer κ) : ChatServer κ :=
  match s.it with
  | none => { s with fault := true }
  | WithTop.some conn =>
    if s.invalidated then
      { s with fault := true }
    else
      { s with sent := s.sent ++ [⟨s.captured.length - 1, conn, s.buf⟩], sendPc := .advancing }

/-- `++it`. -/
def advanceStep (s : ChatServer κ) : ChatServer κ :=
  match s.it with
  | none => { s with fault := true }
  | WithTop.some conn =>
    if s.invalidated then
      { s with fault := true }
    else
      { s with it := next s.connections conn, sendPc := .comparing }

/-- One step of one of the threads. A step of the sending thread that is not at that point of its
program leaves the state as it is, and after a use of an invalid iterator nothing more happens. -/
def step (s : ChatServer κ) (e : Event κ) : ChatServer κ :=
  if s.fault then s else
  match e, s.sendPc with
  | .onConnection conn connected, _ => s.onConnection conn connected
  | .capture result, .capturing => s.captureStep result
  | .begin, .beginning => s.beginStep
  | .compare, .comparing => s.compareStep
  | .send, .sending => s.sendStep
  | .advance, .advancing => s.advanceStep
  | _, _ => s

/-- The step takes no connection out of the set while the iterator designates it. -/
def Spares (s : ChatServer κ) : Event κ → Prop
  | .onConnection conn false => s.it ≠ conn
  | _ => True

instance (s : ChatServer κ) (e : Event κ) : Decidable (s.Spares e) := by
  unfold Spares
  split <;> infer_instance

/-- The connections that have been sent the frame with number `i`, in the order of the calls. -/
def recipients {κ : Type*} (sent : List (Sent κ)) (i : ℕ) : List κ :=
  (sent.filter (·.frame = i)).map Sent.conn

/-- What the broadcast is for. -/
structure Delivers (s : ChatServer κ) : Prop where
  /-- No step has dereferenced or advanced an iterator whose element was erased. -/
  noFault : s.fault = false
  /-- Nor will the next one. -/
  designates : s.sendPc = .sending ∨ s.sendPc = .advancing →
    s.invalidated = false ∧ ∃ c ∈ s.connections, s.it = c
  /-- Every frame has its pass; only that of the last one may not be over. -/
  frames : s.captured.length = s.passes.length + if s.sendPc = .capturing then 0 else 1
  /-- A connection that was in the set during the whole pass was sent the frame exactly once. -/
  once : ∀ i stayed, s.passes[i]? = some stayed → ∀ c ∈ stayed, (recipients s.sent i).count c = 1
  /-- What is sent is the frame. -/
  message : ∀ m ∈ s.sent, s.captured[m.frame]? = some m.message
  /-- The frames reach a connection in the order in which they were captured. -/
  inOrder : s.sent.Pairwise fun m n => m.conn = n.conn → m.frame < n.frame

/-- Where the pass over the current frame is. -/
def Pass (s : ChatServer κ) : Prop :=
  match s.sendPc with
  | .capturing => s.it = ⊤
  | .beginning => s.it = ⊤ ∧ recipients s.sent s.passes.length = []
  | .comparing =>
    Visiting s.connections s.stayed s.it false (recipients s.sent s.passes.length)
  | .sending =>
    ∃ x : κ, s.it = x ∧
      Visiting s.connections s.stayed x false (recipients s.sent s.passes.length)
  | .advancing =>
    ∃ x : κ, s.it = x ∧
      Visiting s.connections s.stayed x true (recipients s.sent s.passes.length)

/-- What holds as long as the steps meet `Spares`. -/
structure Inv (s : ChatServer κ) : Prop where
  noFault : s.fault = false
  valid : s.invalidated = false
  pass : s.Pass
  frames : s.captured.length = s.passes.length + if s.sendPc = .capturing then 0 else 1
  /-- During a pass the buffer holds the last frame. -/
  buf : s.sendPc ≠ .capturing → s.captured[s.passes.length]? = some s.buf
  once : ∀ i stayed, s.passes[i]? = some stayed → ∀ c ∈ stayed, (recipients s.sent i).count c = 1
  message : ∀ m ∈ s.sent, s.captured[m.frame]? = some m.message
  inOrder : s.sent.Pairwise fun m n => m.conn = n.conn → m.frame < n.frame

theorem inv_init : Inv ({} : ChatServer κ) where
  noFault := rfl
  valid := rfl
  pass := rfl
  frames := rfl
  buf h := absurd rfl h
  once := by simp
  message := by simp
  inOrder := .nil

omit [LinearOrder κ] in
@[simp] theorem recipients_append (sent : List (Sent κ)) (m : Sent κ) (i : ℕ) :
    recipients (sent ++ [m]) i =
      recipients sent i ++ if m.frame = i then [m.conn] else [] := by
  by_cases h : m.frame = i <;> simp [recipients, h]

omit [LinearOrder κ] in
theorem mem_recipients {sent : List (Sent κ)} {i : ℕ} {c : κ} :
    c ∈ recipients sent i ↔ ∃ m ∈ sent, m.frame = i ∧ m.conn = c := by
  simp [recipients, and_assoc]

theorem Inv.frame_lt {s : ChatServer κ} (h : s.Inv) {m : Sent κ} (hm : m ∈ s.sent) :
    m.frame < s.captured.length :=
  (List.getElem?_eq_some_iff.mp (h.message m hm)).1

/-! ### What each step does -/

theorem compareStep_top {s : ChatServer κ} (hit : s.it = ⊤) :
    s.compareStep = { s with passes := s.passes ++ [s.stayed], sendPc := .capturing } := by
  rw [compareStep, hit]

theorem compareStep_coe {s : ChatServer κ} {x : κ} (hit : s.it = x) :
    s.compareStep = { s with sendPc := .sending } := by
  rw [compareStep, hit]

theorem sendStep_coe {s : ChatServer κ} {x : κ} (hit : s.it = x) (hvalid : s.invalidated = false) :
    s.sendStep =
      { s with sent := s.sent ++ [⟨s.captured.length - 1, x, s.buf⟩], sendPc := .advancing } := by
  simp [sendStep, hit, hvalid]

theorem advanceStep_coe {s : ChatServer κ} {x : κ} (hit : s.it = x)
    (hvalid : s.invalidated = false) :
    s.advanceStep = { s with it := next s.connections x, sendPc := .comparing } := by
  simp [advanceStep, hit, hvalid]

theorem onConnection_true (s : ChatServer κ) (conn : κ) :
    s.onConnection conn true = { s with connections := insert conn s.connections } := rfl

theorem onConnection_false {s : ChatServer κ} {conn : κ} (hit : s.it ≠ conn) :
    s.onConnection conn false =
      { s with connections := s.connections.erase conn, stayed := s.stayed.erase conn } := by
  simp [onConnection, hit]

/-! ### What each step keeps -/

theorem Inv.captureStep {s : ChatServer κ} (h : s.Inv) (hpc : s.sendPc = .capturing)
    (result : Option Bytes) : (s.captureStep result).Inv := by
  cases result with
  | none => exact h
  | some frame =>
    have hlen : s.captured.length = s.passes.length := by simpa [hpc] using h.frames
    have hit : s.it = ⊤ := by simpa only [Pass, hpc] using h.pass
    -- no message carries the number of the new frame
    have hnone : recipients s.sent s.passes.length = [] := by
      refine List.eq_nil_iff_forall_not_mem.mpr fun c hc => ?_
      obtain ⟨m, hm, hframe, -⟩ := mem_recipients.mp hc
      have := h.frame_lt hm
      omega
    refine { h with pass := ⟨hit, hnone⟩, frames := ?_, buf := ?_, message := ?_ }
    · simp [ChatServer.captureStep, hlen]
    · simp [ChatServer.captureStep, ← hlen]
    · intro m hm
      simp only [ChatServer.captureStep]
      rw [List.getElem?_append_left (h.frame_lt hm)]
      exact h.message m hm

theorem Inv.beginStep {s : ChatServer κ} (h : s.Inv) (hpc : s.sendPc = .beginning) :
    s.beginStep.Inv := by
  have hpass : s.it = ⊤ ∧ recipients s.sent s.passes.length = [] := by
    simpa only [Pass, hpc] using h.pass
  refine { h with valid := rfl, pass := ?_, frames := ?_, buf := ?_ }
  · show Visiting s.connections s.connections _ false (recipients s.sent s.passes.length)
    rw [hpass.2]
    exact Visiting.start s.connections
  · simpa [ChatServer.beginStep, hpc] using h.frames
  · simpa [ChatServer.beginStep, hpc] using h.buf

theorem Inv.compareStep {s : ChatServer κ} (h : s.Inv) (hpc : s.sendPc = .comparing) :
    s.compareStep.Inv := by
  have hpass : Visiting s.connections s.stayed s.it false (recipients s.sent s.passes.length) := by
    simpa only [Pass, hpc] using h.pass
  cases hit : s.it with
  | top =>
    rw [compareStep_top hit]
    rw [hit] at hpass
    refine { h with pass := hit, frames := ?_, buf := ?_, once := ?_ }
    · simpa [hpc] using h.frames
    · simp
    · intro i stayed hi c hc
      rcases lt_or_ge i s.passes.length with hlt | hge
      · rw [List.getElem?_append_left hlt] at hi
        exact h.once i stayed hi c hc
      · obtain ⟨hi', rfl⟩ : i = s.passes.length ∧ s.stayed = stayed := by
          rw [List.getElem?_append_right hge, List.getElem?_singleton] at hi
          split_ifs at hi with hzero
          exact ⟨by omega, by simpa using hi⟩
        rw [hi']
        exact hpass.count_eq_one hc
  | coe x =>
    rw [compareStep_coe hit]
    rw [hit] at hpass
    refine { h with pass := ⟨x, hit, hpass⟩, frames := ?_, buf := ?_ }
    · simpa [hpc] using h.frames
    · simpa [hpc] using h.buf

theorem Inv.sendStep {s : ChatServer κ} (h : s.Inv) (hpc : s.sendPc = .sending) :
    s.sendStep.Inv := by
  obtain ⟨x, hit, hpass⟩ : ∃ x : κ, s.it = x ∧
      Visiting s.connections s.stayed x false (recipients s.sent s.passes.length) := by
    simpa only [Pass, hpc] using h.pass
  have hlen : s.captured.length = s.passes.length + 1 := by simpa [hpc] using h.frames
  have hbuf := h.buf (by simp [hpc])
  have hvisit := hpass.visit
  -- `x` has not been sent this frame: its visit comes after all others
  have hnew : x ∉ recipients s.sent s.passes.length := by
    intro hx
    exact lt_irrefl x ((List.pairwise_append.mp hvisit.sorted).2.2 x hx x (by simp))
  rw [sendStep_coe hit h.valid, hlen, Nat.add_sub_cancel]
  refine { h with
    pass := ⟨x, hit, ?_⟩, frames := ?_, buf := fun _ => hbuf, once := ?_, message := ?_
    inOrder := ?_ }
  · simpa using hvisit
  · simpa using hlen
  · intro i stayed hi c hc
    have hlt : i < s.passes.length := (List.getElem?_eq_some_iff.mp hi).1
    simpa [hlt.ne'] using h.once i stayed hi c hc
  · intro m hm
    rcases List.mem_append.mp hm with hm | hm
    · exact h.message m hm
    · rw [List.mem_singleton.mp hm]
      exact hbuf
  · rw [List.pairwise_append]
    refine ⟨h.inOrder, List.pairwise_singleton _ _, fun m hm n hn hconn => ?_⟩
    rw [List.mem_singleton.mp hn] at hconn ⊢
    have hle := h.frame_lt hm
    have hne : m.frame ≠ s.passes.length := fun hframe =>
      hnew (mem_recipients.mpr ⟨m, hm, hframe, hconn⟩)
    show m.frame < s.passes.length
    omega

theorem Inv.advanceStep {s : ChatServer κ} (h : s.Inv) (hpc : s.sendPc = .advancing) :
    s.advanceStep.Inv := by
  obtain ⟨x, hit, hpass⟩ : ∃ x : κ, s.it = x ∧
      Visiting s.connections s.stayed x true (recipients s.sent s.passes.length) := by
    simpa only [Pass, hpc] using h.pass
  rw [advanceStep_coe hit h.valid]
  refine { h with pass := hpass.advance, frames := ?_, buf := ?_ }
  · simpa [hpc] using h.frames
  · simpa [hpc] using h.buf

theorem Inv.up {s : ChatServer κ} (h : s.Inv) (conn : κ) : (s.onConnection conn true).Inv := by
  have hpass := h.pass
  rw [onConnection_true]
  refine { h with pass := ?_ }
  cases hpc : s.sendPc with
  | capturing | beginning => simpa only [Pass, hpc] using hpass
  | comparing =>
    simp only [Pass, hpc] at hpass ⊢
    exact hpass.insert conn
  | sending | advancing =>
    simp only [Pass, hpc] at hpass ⊢
    obtain ⟨x, hx, hpass⟩ := hpass
    exact ⟨x, hx, hpass.insert conn⟩

theorem Inv.down {s : ChatServer κ} (h : s.Inv) {conn : κ} (hit : s.it ≠ conn) :
    (s.onConnection conn false).Inv := by
  have hpass := h.pass
  rw [onConnection_false hit]
  refine { h with pass := ?_ }
  cases hpc : s.sendPc with
  | capturing | beginning => simpa only [Pass, hpc] using hpass
  | comparing =>
    simp only [Pass, hpc] at hpass ⊢
    exact hpass.erase hit
  | sending | advancing =>
    simp only [Pass, hpc] at hpass ⊢
    obtain ⟨x, hx, hpass⟩ := hpass
    exact ⟨x, hx, hpass.erase (hx ▸ hit)⟩

theorem inv_step (s : ChatServer κ) (e : Event κ) (h : s.Inv) (hspares : s.Spares e) :
    (s.step e).Inv := by
  unfold step
  rw [if_neg (by simp [h.noFault])]
  split
  · next conn connected =>
    cases connected with
    | true => exact h.up conn
    | false => exact h.down hspares
  · next hpc => exact h.captureStep hpc _
  · next hpc => exact h.beginStep hpc
  · next hpc => exact h.compareStep hpc
  · next hpc => exact h.sendStep hpc
  · next hpc => exact h.advanceStep hpc
  · exact h

/-! ### Runs -/

theorem Inv.delivers {s : ChatServer κ} (h : s.Inv) : s.Delivers where
  noFault := h.noFault
  designates hpc := by
    have hpass := h.pass
    rcases hpc with hpc | hpc <;>
    · simp only [Pass, hpc] at hpass
      obtain ⟨x, hit, hpass⟩ := hpass
      exact ⟨h.valid, x, hpass.live x rfl, hit⟩
  frames := h.frames
  once := h.once
  message := h.message
  inOrder := h.inOrder

/-- **The broadcast under connection churn.** In every run in which no connection goes down while
the iterator designates it, whatever else comes and goes, no step uses an invalid iterator and every
frame reaches the connections that stay. -/
theorem delivers_of_meets {es : List (Event κ)} (h : Transition.Meets step Spares {} es) :
    Transition.Throughout step Delivers {} es :=
  (h.throughout inv_step inv_init).mono fun _ hs => hs.delivers

/-- The connection `2` comes up during a pass that starts with `1` and `3`, and `1` goes down after
its turn. -/
theorem delivers_of_meets_churn :
    Transition.Throughout step Delivers ({} : ChatServer ℕ)
      [.onConnection 1 true, .onConnection 3 true, .capture (some [7]), .begin, .compare, .send,
        .onConnection 2 true, .advance, .onConnection 1 false, .compare, .send, .advance, .compare,
        .send, .advance, .compare] :=
  delivers_of_meets (by decide)

/-- **A connection lost under the iterator.** If a connection goes down while the iterator
designates it, the sending thread uses the invalid iterator within two of its own steps. -/
theorem fault_of_erase {s : ChatServer κ} (h : s.Inv) {conn : κ} (hit : s.it = conn) :
    ∃ es ∈ [[.compare, .send], [.send], [.advance]],
      (Transition.run step (s.onConnection conn false) es).fault = true := by
  have hpass := h.pass
  cases hpc : s.sendPc with
  | capturing => simp [Pass, hpc, hit] at hpass
  | beginning => simp [Pass, hpc, hit] at hpass
  | comparing =>
    refine ⟨[.compare, .send], by simp, ?_⟩
    simp [step, onConnection, compareStep, sendStep, h.noFault, hpc, hit]
  | sending =>
    refine ⟨[.send], by simp, ?_⟩
    simp [step, onConnection, sendStep, h.noFault, hpc, hit]
  | advancing =>
    refine ⟨[.advance], by simp, ?_⟩
    simp [step, onConnection, advanceStep, h.noFault, hpc, hit]

/-- The only connection goes down between `send` and `++it`. -/
theorem not_delivers :
    ¬ ∀ es : List (Event ℕ), Transition.Throughout step Delivers {} es := by
  intro h
  have hrun := h [.onConnection 1 true, .capture (some [7]), .begin, .compare, .send,
    .onConnection 1 false, .advance] _ List.prefix_rfl
  exact absurd hrun.noFault (by decide)

end ChatServer
