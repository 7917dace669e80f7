import CameraVideoStream.System.Provenance

/-!
# The video stream: one server, any number of clients

The server process sends each captured frame to all connections, and each client decodes what it
receives on its own connection and shows it. A client that has lost its connection opens another
one. Between the two ends of a connection there is TCP: what has been received on a connection is,
at any time, a first part of what has been sent on it, however it is cut into chunks. The two ends
learn at different times that a connection is up or down, and frames may have been sent before the
client knows of the connection.

So whatever a client shows, on however many connections one after the other, are frames that the
driver of the camera has handed out to the server, byte for byte and in the order in which it has
(`VideoStream.shown_of_meets`).

## Main definitions

* `VideoStream`, `VideoStream.step`: the server process, the clients, and the connections between
  them.
* `VideoStream.Admissible`: the conditions on the server process, and what TCP provides.

## Main results

* `VideoStream.inv_run`, `VideoStream.shown_of_meets`.
-/

open Codec ChatServer

/-- The server process and the clients. `opened` are the connections that have been opened so far,
`connecting` says for every client which one it is opening. -/
structure VideoStream (κ ι : Type*) [LinearOrder κ] where
  process : ServerProcess κ := {}
  clients : ι → ClientProcess κ := fun _ => {}
  opened : Finset κ := ∅
  connecting : ι → Option κ := fun _ => none

namespace VideoStream

variable {κ ι : Type*} [LinearOrder κ] [DecidableEq ι]

/-- What can happen next: a client opens a connection (`ChatClient::connect`, or its `TcpClient`
tries again), or the server process or a client takes a step. -/
inductive Event (κ ι : Type*) where
  | connect (i : ι) (conn : κ)
  | process (e : ServerProcess.Event κ)
  | client (i : ι) (e : ClientProcess.Event κ)

/-- One step of one of the processes. -/
def step (s : VideoStream κ ι) : Event κ ι → VideoStream κ ι
  | .connect i conn =>
    if (s.clients i).terminated ∨ (s.clients i).socket.isSome then s else
    { s with
      opened := insert conn s.opened
      connecting := Function.update s.connecting i (some conn) }
  | .process e => { s with process := s.process.step e }
  | .client i e =>
    { s with
      clients := Function.update s.clients i ((s.clients i).step e)
      connecting :=
        Function.update s.connecting i (ClientProcess.connectingAfter (s.connecting i) e) }

/-- The conditions. A connection that is opened is a new one, the server accepts only connections
that have been opened, and TCP delivers to a client what has been sent on its connection; and the
conditions on the server process. -/
def Admissible (s : VideoStream κ ι) : Event κ ι → Prop
  | .connect _ conn => conn ∉ s.opened
  | .process e =>
    s.process.Admissible e ∧ ∀ conn, e = .server (.onConnection conn true) → conn ∈ s.opened
  | .client i e => (s.clients i).Receives s.process.server.sent (s.connecting i) e

/-- What holds as long as the steps are admissible. -/
structure Inv (s : VideoStream κ ι) : Prop where
  process : s.process.Inv
  server : s.process.server.Inv
  ordered : s.process.server.Ordered
  accepted : ∀ k ∈ s.process.server.connections, k ∈ s.opened
  sent : ∀ m ∈ s.process.server.sent, m.conn ∈ s.opened
  clients : ∀ i, ClientProcess.Linked s.process.server.sent s.opened (s.connecting i) (s.clients i)

omit [DecidableEq ι] in
theorem inv_init : Inv ({} : VideoStream κ ι) where
  process := ServerProcess.inv_init
  server := ChatServer.inv_init
  ordered := ChatServer.ordered_init
  accepted := by simp
  sent := by simp
  clients _ := ClientProcess.linked_init

omit [DecidableEq ι] in
/-- The messages sent are frames that the driver has handed out. -/
theorem Inv.delivered {s : VideoStream κ ι} (h : s.Inv) :
    ∀ m ∈ s.process.server.sent, s.process.delivered[m.frame]? = some m.message :=
  (h.process.streams h.server).sent

omit [DecidableEq ι] in
theorem Inv.lengths {s : VideoStream κ ι} (h : s.Inv) :
    ∀ m ∈ s.process.server.sent, m.message.length < 2 ^ 31 := fun m hm =>
  h.process.lengths _ (List.mem_of_getElem? (h.delivered m hm))

/-! ### What each step keeps -/

theorem Inv.connect {s : VideoStream κ ι} (h : s.Inv) (i : ι) {conn : κ} (hnew : conn ∉ s.opened) :
    (s.step (.connect i conn)).Inv := by
  simp only [step]
  split_ifs with hup
  · exact h
  · have hdown : (s.clients i).socket = none := by
      rw [not_or, Option.not_isSome_iff_eq_none] at hup
      exact hup.2
    have hnone : ∀ m ∈ s.process.server.sent, m.conn ≠ conn := by
      rintro m hm rfl
      exact hnew (h.sent m hm)
    refine { h with
      accepted := fun k hk => Finset.mem_insert_of_mem (h.accepted k hk)
      sent := fun m hm => Finset.mem_insert_of_mem (h.sent m hm)
      clients := fun j => ?_ }
    show ClientProcess.Linked _ _ (Function.update s.connecting i (some conn) j) (s.clients j)
    have hkept := (h.clients j).insert conn
    by_cases hij : j = i
    · subst hij
      rw [Function.update_self]
      exact hkept.connect hdown (Finset.mem_insert_self _ _) hnone
    · rwa [Function.update_of_ne hij]

omit [DecidableEq ι] in
/-- A step of the process sends at most one message, on a connection that is in the set. -/
theorem Inv.sent_process {s : VideoStream κ ι} (h : s.Inv) (e : ServerProcess.Event κ) :
    ∃ added, (s.process.step e).server.sent = s.process.server.sent ++ added ∧
      ∀ m ∈ added, m.conn ∈ s.process.server.connections := by
  have hbroadcast (e' : ChatServer.Event κ) :
      ∃ added, (s.process.server.step e').sent = s.process.server.sent ++ added ∧
        ∀ m ∈ added, m.conn ∈ s.process.server.connections := by
    rcases s.process.server.sent_step e' with hsame | ⟨m, hsent, hpc, hit, -⟩
    · exact ⟨[], by rw [hsame, List.append_nil], by simp⟩
    · obtain ⟨-, c, hc, hit'⟩ := h.server.delivers.designates (.inl hpc)
      obtain rfl : m.conn = c := WithTop.coe_injective (hit.symm.trans hit')
      exact ⟨[m], hsent, by simpa using hc⟩
  rcases s.process.server_step e with hsame | ⟨r, hstep⟩ | ⟨e', -, hstep⟩
  · exact ⟨[], by rw [hsame, List.append_nil], by simp⟩
  · rw [hstep]
    exact hbroadcast _
  · rw [hstep]
    exact hbroadcast _

theorem Inv.stepProcess {s : VideoStream κ ι} (h : s.Inv) {e : ServerProcess.Event κ}
    (hadm : s.Admissible (.process e)) : (s.step (.process e)).Inv := by
  obtain ⟨hprocess, haccept⟩ := hadm
  obtain ⟨es, hrun, hmeets⟩ := s.process.matched_step e hprocess
  obtain ⟨added, hsent, hadded⟩ := h.sent_process e
  refine ⟨ServerProcess.inv_step _ _ h.process hprocess, ?_, ?_, ?_, ?_, fun i => ?_⟩
  · show (s.process.step e).server.Inv
    rw [hrun]
    exact hmeets.run ChatServer.inv_step h.server
  · show (s.process.step e).server.Ordered
    rw [hrun]
    exact Transition.run_induction ChatServer.step ChatServer.ordered_step h.ordered es
  · intro k hk
    rcases s.process.server_step e with hsame | ⟨r, hstep⟩ | ⟨e', rfl, hstep⟩
    · exact h.accepted k (hsame ▸ hk)
    · rcases s.process.server.connections_step _ k (hstep ▸ hk) with hmem | hconn
      · exact h.accepted k hmem
      · cases hconn
    · rcases s.process.server.connections_step _ k (hstep ▸ hk) with hmem | rfl
      · exact h.accepted k hmem
      · exact haccept k rfl
  · show ∀ m ∈ (s.process.step e).server.sent, m.conn ∈ s.opened
    rw [hsent]
    intro m hm
    rcases List.mem_append.mp hm with hm | hm
    · exact h.sent m hm
    · exact h.accepted _ (hadded m hm)
  · show ClientProcess.Linked (s.process.step e).server.sent s.opened _ _
    rw [hsent]
    exact (h.clients i).sent_append added

theorem Inv.stepClient {s : VideoStream κ ι} (h : s.Inv) (i : ι) {e : ClientProcess.Event κ}
    (hadm : s.Admissible (.client i e)) : (s.step (.client i e)).Inv := by
  refine { h with clients := fun j => ?_ }
  simp only [step]
  by_cases hij : j = i
  · subst hij
    rw [Function.update_self, Function.update_self]
    exact (h.clients j).step h.lengths hadm
  · rw [Function.update_of_ne hij, Function.update_of_ne hij]
    exact h.clients j

theorem inv_step (s : VideoStream κ ι) (e : Event κ ι) (h : s.Inv) (hadm : s.Admissible e) :
    (s.step e).Inv := by
  cases e with
  | connect i conn => exact h.connect i hadm
  | process e => exact h.stepProcess hadm
  | client i e => exact h.stepClient i hadm

/-- **The invariant holds after every admissible run.** -/
theorem inv_run {es : List (Event κ ι)} (h : Transition.Meets step Admissible {} es) :
    (Transition.run step {} es).Inv :=
  h.run inv_step inv_init

/-! ### From the camera to the screen -/

/-- Two bytes go from the camera to the screen. -/
def twoBytes : List (Event ℕ ℕ) :=
  [.connect 0 1, .process (.camInit (.singlePlanar 2 100)),
    .process (.server (.onConnection 1 true)),
    .process (.cameraStreamon ⟨true, 0⟩ (List.replicate 50 0)),
    .process (.cameraCapture ⟨1, some ⟨1, 2, 0⟩, fun p => p.toUInt8 + 7, true⟩),
    .process (.server .begin), .process (.server .compare), .process (.server .send),
    .client 0 (.onConnection 1 true), .process (.server .advance), .process (.server .compare),
    .client 0 (.receive [0, 0, 0, 2, 7, 8]), .client 0 .turn, .client 0 .turn, .client 0 .check,
    .client 0 .pop, .client 0 (.showImage true 5)]

theorem meets_twoBytes : Transition.Meets step Admissible {} twoBytes := by
  refine ⟨Finset.notMem_empty _, ⟨⟨by decide, by decide⟩, by simp⟩, ⟨trivial, ?_⟩,
    ⟨trivial, by simp⟩, ⟨⟨?_, ?_⟩, by simp⟩, ⟨trivial, by simp⟩, ⟨trivial, by simp⟩,
    ⟨trivial, by simp⟩, rfl, ⟨trivial, by simp⟩, ⟨trivial, by simp⟩, ?_, trivial, trivial, trivial,
    trivial, trivial, trivial⟩
  · rintro conn ⟨⟩
    decide
  · intro _ d hd
    rw [← Option.some.inj hd]
    decide
  · intro _ d hd
    rw [← Option.some.inj hd]
    exact ⟨by decide, by decide, by decide, by decide, by decide⟩
  · intro k hk
    rw [← Option.some.inj hk]
    decide

/-- **From the camera to the screen.** In every admissible run, however the threads of the server
and of all clients interleave, however the network cuts what it delivers, and whenever connections
come and go: what a client has pushed, on all its connections one after the other, are messages that
the server has sent, what it has shown are some of them, and every one of them is a frame that the
driver of the camera has handed out, byte for byte. The frames are in the order in which the driver
has handed them out, and on one connection none comes twice. -/
theorem shown_of_meets {es : List (Event κ ι)} (h : Transition.Meets step Admissible {} es)
    (i : ι) :
    let s := Transition.run step {} es
    ∃ pushed shown : List (Sent κ), shown.Sublist pushed ∧ pushed.Sublist s.process.server.sent ∧
      (s.clients i).client.arrivals.map Arrival.message = pushed.map Sent.message ∧
      (s.clients i).shown = shown.map Sent.message ∧
      (∀ m ∈ pushed, s.process.delivered[m.frame]? = some m.message) ∧
      pushed.Pairwise fun m n => m.frame ≤ n.frame ∧ (m.conn = n.conn → m.frame < n.frame) := by
  intro s
  have hs : s.Inv := inv_run h
  have hclient := (hs.clients i).inv
  obtain ⟨pushed, hpushed, hmessages⟩ := (hs.clients i).pushed_sublist hs.lengths
  have hshown : (s.clients i).shown.Sublist (pushed.map Sent.message) := by
    obtain ⟨done, hdone, hsub⟩ := hclient.shown
    have hpopped : done.Sublist (s.clients i).client.popped := by
      rw [hdone]
      exact List.sublist_append_left _ _
    have hqueued : (s.clients i).client.popped.Sublist
        ((s.clients i).client.arrivals.map Arrival.message) := by
      refine (List.sublist_append_left _ (s.clients i).client.displayImage.imageQueue).trans ?_
      rw [hclient.client.images]
      exact List.filter_sublist.map _
    rw [hmessages]
    exact hsub.trans (hpopped.trans hqueued)
  obtain ⟨shown, hsub, heq⟩ := List.sublist_map_iff.mp hshown
  refine ⟨pushed, shown, hsub, hpushed, hmessages.symm, heq, fun m hm => ?_, ?_⟩
  · exact hs.delivered m (hpushed.subset hm)
  · exact (hs.ordered.frames.and hs.server.inOrder).sublist hpushed

theorem shown_of_meets_twoBytes :
    let s := Transition.run step {} twoBytes
    ∃ pushed shown : List (Sent ℕ), shown.Sublist pushed ∧ pushed.Sublist s.process.server.sent ∧
      (s.clients 0).client.arrivals.map Arrival.message = pushed.map Sent.message ∧
      (s.clients 0).shown = shown.map Sent.message ∧
      (∀ m ∈ pushed, s.process.delivered[m.frame]? = some m.message) ∧
      pushed.Pairwise fun m n => m.frame ≤ n.frame ∧ (m.conn = n.conn → m.frame < n.frame) :=
  shown_of_meets meets_twoBytes 0

example : ((Transition.run step {} twoBytes).clients 0).shown = [[7, 8]] := by decide

end VideoStream
