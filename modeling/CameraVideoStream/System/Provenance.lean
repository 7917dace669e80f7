import CameraVideoStream.Client.ClientProcess
import CameraVideoStream.Common.Truncation
import CameraVideoStream.Server.ServerProcess

/-!
# What has been sent, and what a client has of it

The server sends its messages on all connections, in one sequence. A client has one connection after
the other, on each of which it receives a first part of what has been sent on this connection, and
it opens the next one only after the last one has gone. So the messages that it has pushed are some
of those in the sequence, in the same order (`ClientProcess.Linked.pushed_sublist`), although it may
have missed any number between two connections.

## Main definitions

* `ChatServer.sentOn`: the messages sent on a connection.
* `ClientProcess.Linked`: what a client has to do with what has been sent.
* `ClientProcess.Receives`: what TCP delivers to a client.

## Main results

* `ChatServer.sent_step`, `ChatServer.ordered_step`: what a step sends.
* `ClientProcess.Linked.step`, `ClientProcess.Linked.pushed_sublist`.
-/

open Codec

/-! ### What has been sent -/

namespace ChatServer

/-- The messages that have been sent on a connection. -/
def sentOn {κ : Type*} [DecidableEq κ] (sent : List (Sent κ)) (conn : κ) : List Bytes :=
  (sent.filter (·.conn = conn)).map Sent.message

variable {κ : Type*} [LinearOrder κ]

omit [LinearOrder κ] in
@[simp] theorem sentOn_append [DecidableEq κ] (sent added : List (Sent κ)) (conn : κ) :
    sentOn (sent ++ added) conn = sentOn sent conn ++ sentOn added conn := by
  simp [sentOn]

omit [LinearOrder κ] in
theorem sentOn_eq_nil [DecidableEq κ] {sent : List (Sent κ)} {conn : κ}
    (h : ∀ m ∈ sent, m.conn ≠ conn) : sentOn sent conn = [] := by
  simpa [sentOn] using h

/-- A step sends at most one message, on the connection that the iterator designates, and it is the
frame captured last. -/
theorem sent_step (t : ChatServer κ) (e : Event κ) :
    (t.step e).sent = t.sent ∨
      ∃ m : Sent κ, (t.step e).sent = t.sent ++ [m] ∧ t.sendPc = .sending ∧ t.it = m.conn ∧
        m.frame = t.captured.length - 1 := by
  rcases t.step_cases e with hsame | ⟨-, hstep⟩
  · exact .inl (by rw [hsame])
  · rcases hstep with ⟨conn, connected, -, h⟩ | ⟨frame, -, -, h⟩ | ⟨-, -, h⟩ | ⟨-, -, h⟩ |
      ⟨-, hpc, h⟩ | ⟨-, -, h⟩
    · exact .inl (by rw [h, (t.onConnection_same conn connected).2.1])
    · exact .inl (by rw [h]; rfl)
    · exact .inl (by rw [h]; rfl)
    · exact .inl (by rw [h, t.compareStep_same.2.1])
    · rcases t.sendStep_cases with hsend | ⟨conn, hit, -, hsend⟩
      · exact .inl (by rw [h, hsend])
      · exact .inr ⟨_, by rw [h, hsend], hpc, hit, rfl⟩
    · exact .inl (by rw [h, t.advanceStep_same.2.1])

/-- A connection comes into the set when it comes up. -/
theorem connections_step (t : ChatServer κ) (e : Event κ) :
    ∀ k ∈ (t.step e).connections, k ∈ t.connections ∨ e = .onConnection k true := by
  intro k hk
  rcases t.step_cases e with hsame | ⟨-, hstep⟩
  · exact .inl (hsame ▸ hk)
  · rcases hstep with ⟨conn, connected, rfl, h⟩ | ⟨frame, -, -, h⟩ | ⟨-, -, h⟩ | ⟨-, -, h⟩ |
      ⟨-, -, h⟩ | ⟨-, -, h⟩ <;> rw [h] at hk
    · cases connected with
      | true => simpa [onConnection, eq_comm, or_comm] using hk
      | false => exact .inl (Finset.mem_of_mem_erase hk)
    · exact .inl hk
    · exact .inl hk
    · exact .inl (t.compareStep_same.2.2 ▸ hk)
    · rcases t.sendStep_cases with hsend | ⟨conn, -, -, hsend⟩ <;> exact .inl (by rwa [hsend] at hk)
    · exact .inl (t.advanceStep_same.2.2 ▸ hk)

/-- Frames are only ever added. -/
theorem captured_prefix_step (t : ChatServer κ) (e : Event κ) :
    t.captured <+: (t.step e).captured := by
  by_cases he : ∃ r, e = .capture r
  · obtain ⟨r, rfl⟩ := he
    rcases t.step_cases (.capture r) with hsame | ⟨-, hstep⟩
    · rw [hsame]
    · rcases hstep with ⟨_, _, ⟨⟩, -⟩ | ⟨frame, -, -, h⟩ | ⟨⟨⟩, -⟩ | ⟨⟨⟩, -⟩ | ⟨⟨⟩, -⟩ | ⟨⟨⟩, -⟩
      rw [h]
      exact List.prefix_append _ _
  · rw [ServerProcess.captured_step fun r hr => he ⟨r, hr⟩]

/-- The frames are sent in the order in which they were captured, whatever the connections. -/
structure Ordered (t : ChatServer κ) : Prop where
  captured : ∀ m ∈ t.sent, m.frame ≤ t.captured.length - 1
  frames : t.sent.Pairwise (·.frame ≤ ·.frame)

theorem ordered_init : Ordered ({} : ChatServer κ) := ⟨by simp, .nil⟩

theorem ordered_step (t : ChatServer κ) (e : Event κ) (h : t.Ordered) : (t.step e).Ordered := by
  have hlen := (t.captured_prefix_step e).length_le
  have hkept : ∀ m ∈ t.sent, m.frame ≤ (t.step e).captured.length - 1 := fun m hm => by
    have := h.captured m hm
    omega
  rcases t.sent_step e with hsame | ⟨m, hsent, -, -, hframe⟩
  · exact ⟨hsame ▸ hkept, hsame ▸ h.frames⟩
  · have hnew : m.frame ≤ (t.step e).captured.length - 1 := by omega
    refine ⟨?_, ?_⟩ <;> rw [hsent]
    · simpa [or_imp, forall_and] using ⟨hkept, hnew⟩
    · refine List.pairwise_append.mpr ⟨h.frames, List.pairwise_singleton _ _, ?_⟩
      simpa [hframe] using h.captured

end ChatServer

namespace ServerProcess

variable {κ : Type*} [LinearOrder κ]

/-- What a step of the process does to the broadcast. -/
theorem server_step (s : ServerProcess κ) (e : Event κ) :
    (s.step e).server = s.server ∨
      (∃ r, (s.step e).server = s.server.step (.capture r)) ∨
      ∃ e', e = .server e' ∧ (s.step e).server = s.server.step e' := by
  rcases step_cases s e with hsame | ⟨-, hstep⟩
  · exact .inl (by rw [hsame])
  · rcases hstep with ⟨a, rfl, -, hstep⟩ | ⟨a, buf, rfl, -, hstep⟩ | ⟨c, rfl, -, -, hstep⟩ |
      ⟨e, rfl, hstep⟩
    · rw [hstep, initStep]
      split <;> exact .inl rfl
    · exact .inl (by rw [hstep]; rfl)
    · rw [hstep, captureStep]
      split
      · exact .inl rfl
      · split_ifs
        · exact .inl rfl
        · exact .inr (.inl ⟨_, rfl⟩)
    · rcases serverStep_cases s e with hsame | hend | ⟨-, hserver⟩
      · exact .inl (by rw [hstep, hsame])
      · exact .inl (by rw [hstep, hend])
      · exact .inr (.inr ⟨e, rfl, by rw [hstep, hserver]⟩)

end ServerProcess

namespace ClientProcess

open ChatServer

variable {κ : Type*}

/-- What a client has to do with what has been sent. `opened` are the connections that have been
opened by any client, `connecting` is the one that this client is opening. -/
structure Linked [DecidableEq κ] (sent : List (Sent κ)) (opened : Finset κ) (connecting : Option κ)
    (c : ClientProcess κ) : Prop where
  inv : c.Inv
  /-- A client opens one connection at a time. -/
  down : connecting.isSome → c.socket = none
  received : ∀ k, c.socket = some k → c.received <+: sendAll (sentOn sent k)
  /-- What was pushed before the current connection had been sent before it was opened. -/
  origin : ∃ old new ms : List (Sent κ), sent = old ++ new ∧ ms.Sublist old ∧
    ms.map Sent.message = (c.ended.flatMap fun p => (onMessage p.2).items) ∧
    ∀ k, connecting = some k ∨ c.socket = some k → k ∈ opened ∧ ∀ m ∈ old, m.conn ≠ k

section Linked

variable [DecidableEq κ] {sent : List (Sent κ)} {opened : Finset κ} {connecting : Option κ}
  {c : ClientProcess κ}

theorem linked_init : Linked [] ∅ none ({} : ClientProcess κ) where
  inv := inv_init
  down := by simp
  received := by simp
  origin := ⟨[], [], [], rfl, .slnil, rfl, by simp⟩

/-- More is sent. -/
theorem Linked.sent_append (h : Linked sent opened connecting c) (added : List (Sent κ)) :
    Linked (sent ++ added) opened connecting c where
  inv := h.inv
  down := h.down
  received k hk := by
    rw [sentOn_append, sendAll_append]
    exact (h.received k hk).trans (List.prefix_append _ _)
  origin := by
    obtain ⟨old, new, ms, rfl, hms, hended, hold⟩ := h.origin
    exact ⟨old, new ++ added, ms, List.append_assoc _ _ _, hms, hended, hold⟩

/-- A connection is opened by any client. -/
theorem Linked.insert (h : Linked sent opened connecting c) (conn : κ) :
    Linked sent (insert conn opened) connecting c where
  inv := h.inv
  down := h.down
  received := h.received
  origin := by
    obtain ⟨old, new, ms, hsent, hms, hended, hold⟩ := h.origin
    exact ⟨old, new, ms, hsent, hms, hended, fun k hk =>
      ⟨Finset.mem_insert_of_mem (hold k hk).1, (hold k hk).2⟩⟩

/-- The client opens a connection, on which nothing has been sent yet. -/
theorem Linked.connect (h : Linked sent opened connecting c) (hdown : c.socket = none)
    {conn : κ} (hmem : conn ∈ opened) (hnone : ∀ m ∈ sent, m.conn ≠ conn) :
    Linked sent opened (some conn) c where
  inv := h.inv
  down _ := hdown
  received := h.received
  origin := by
    obtain ⟨old, new, ms, rfl, hms, hended, -⟩ := h.origin
    refine ⟨old ++ new, [], ms, (List.append_nil _).symm,
      hms.trans (List.sublist_append_left _ _), hended, fun k hk => ?_⟩
    rcases hk with hk | hk
    · obtain rfl := Option.some.inj hk
      exact ⟨hmem, hnone⟩
    · simp [hdown] at hk

/-- What has been read on the connections lost and can be read on the current one has been sent, in
this order. -/
theorem Linked.exists_sublist (h : Linked sent opened connecting c)
    (hsent : ∀ m ∈ sent, m.message.length < 2 ^ 31) {k : κ} (hk : c.socket = some k) :
    ∃ ms : List (Sent κ), ms.Sublist sent ∧
      ms.map Sent.message =
        (c.ended.flatMap fun p => (onMessage p.2).items) ++ (onMessage c.received).items := by
  obtain ⟨old, new, ms, rfl, hms, hended, hold⟩ := h.origin
  have hprefix : (onMessage c.received).items <+: (new.filter (·.conn = k)).map Sent.message := by
    have hlengths : ∀ m ∈ sentOn (old ++ new) k, m.length < 2 ^ 31 := by
      intro m hm
      obtain ⟨m, hm', rfl⟩ := List.mem_map.mp hm
      exact hsent m (List.mem_of_mem_filter hm')
    have hitems := items_prefix hlengths (h.received k hk)
    -- nothing on `k` is older than the connection
    rwa [sentOn_append, sentOn_eq_nil (hold k (.inr hk)).2, List.nil_append] at hitems
  obtain ⟨ms', hms', hitems⟩ := List.prefix_map_iff.mp hprefix
  refine ⟨ms ++ ms', hms.append (hms'.sublist.trans List.filter_sublist), ?_⟩
  rw [List.map_append, hended, hitems]

/-- **What has been pushed has been sent, in this order.** -/
theorem Linked.pushed_sublist (h : Linked sent opened connecting c)
    (hsent : ∀ m ∈ sent, m.message.length < 2 ^ 31) :
    ∃ ms : List (Sent κ), ms.Sublist sent ∧
      ms.map Sent.message = c.client.arrivals.map Arrival.message := by
  rw [← earlier_append_current, h.inv.earlier]
  cases hk : c.socket with
  | none =>
    obtain ⟨old, new, ms, rfl, hms, hended, -⟩ := h.origin
    refine ⟨ms, hms.trans (List.sublist_append_left _ _), ?_⟩
    rw [hended, (h.inv.down hk).2.2, List.append_nil]
  | some k =>
    obtain ⟨ms, hms, hmessages⟩ := h.exists_sublist hsent hk
    have hpre : (c.ended.flatMap fun p => (onMessage p.2).items) ++ c.current <+:
        ms.map Sent.message := by
      rw [hmessages, h.inv.items_received, ← List.append_assoc]
      exact List.prefix_append _ _
    obtain ⟨ms', hms', hpushed⟩ := List.prefix_map_iff.mp hpre
    exact ⟨ms', hms'.sublist.trans hms, hpushed.symm⟩

/-! ### What each step of a client keeps -/

/-- The condition on an event of a client: only the connection that the client is opening comes up,
and TCP delivers what has been sent on the connection, from the start and without a gap. -/
def Receives (sent : List (Sent κ)) (connecting : Option κ) (c : ClientProcess κ) :
    Event κ → Prop
  | .onConnection conn true => connecting = some conn
  | .receive chunk =>
    ∀ k, c.connection = some k → c.received ++ chunk <+: sendAll (sentOn sent k)
  | _ => True

/-- The connection that the client is opening, after an event. -/
def connectingAfter (connecting : Option κ) : Event κ → Option κ
  | .onConnection _ true => none
  | _ => connecting

/-- The display thread and a turn of `onMessage` leave the connections alone. -/
theorem same_threadStep (c : ClientProcess κ) {e : Event κ} (hconn : ∀ k b, e ≠ .onConnection k b)
    (hreceive : ∀ chunk, e ≠ .receive chunk) :
    (c.threadStep e).socket = c.socket ∧ (c.threadStep e).ended = c.ended ∧
      (c.threadStep e).received = c.received := by
  cases e with
  | onConnection conn connected => exact absurd rfl (hconn conn connected)
  | receive chunk => exact absurd rfl (hreceive chunk)
  | turn => exact ⟨rfl, rfl, rfl⟩
  | check =>
    simp only [threadStep]
    split_ifs <;> exact ⟨rfl, rfl, rfl⟩
  | pop =>
    simp only [threadStep, ClientProcess.popStep]
    split_ifs
    · exact ⟨rfl, rfl, rfl⟩
    · split <;> exact ⟨rfl, rfl, rfl⟩
  | showImage decoded nowValue =>
    simp only [threadStep, ClientProcess.showStep]
    split
    · exact ⟨rfl, rfl, rfl⟩
    · split_ifs <;> exact ⟨rfl, rfl, rfl⟩

theorem Linked.of_same (h : Linked sent opened connecting c) {c' : ClientProcess κ} (hinv : c'.Inv)
    (hconnection : c'.socket = c.socket) (hended : c'.ended = c.ended)
    (hreceived : c'.received = c.received) : Linked sent opened connecting c' where
  inv := hinv
  down := by rw [hconnection]; exact h.down
  received := by rw [hconnection, hreceived]; exact h.received
  origin := by rw [hconnection, hended]; exact h.origin

/-- The connection that the client was opening comes up. -/
theorem Linked.up (h : Linked sent opened connecting c) {conn : κ}
    (hconn : connecting = some conn) :
    Linked sent opened none (c.threadStep (.onConnection conn true)) := by
  have hdown := h.down (by simp [hconn])
  obtain ⟨hidle, hreceived, -⟩ := h.inv.down hdown
  have hinv := h.inv.threadStep (.onConnection conn true)
  have hstep : c.threadStep (.onConnection conn true) = { c with socket := some conn } := by
    simp [threadStep, ClientProcess.onConnection, hidle, hdown]
  rw [hstep] at hinv ⊢
  refine ⟨hinv, by simp, fun k _ => ?_, ?_⟩
  · show c.received <+: _
    rw [hreceived]
    exact List.nil_prefix
  · obtain ⟨old, new, ms, hsent, hms, hended, hold⟩ := h.origin
    refine ⟨old, new, ms, hsent, hms, hended, fun k hk => hold k (.inl ?_)⟩
    simpa [hconn] using hk

/-- The connection goes down. -/
theorem Linked.lost (h : Linked sent opened connecting c)
    (hsent : ∀ m ∈ sent, m.message.length < 2 ^ 31) (conn : κ) :
    Linked sent opened connecting (c.threadStep (.onConnection conn false)) := by
  have hinv := h.inv.threadStep (.onConnection conn false)
  by_cases hdown : c.client.networkPc = .idle ∧ c.socket = some conn
  · obtain ⟨hidle, hk⟩ := hdown
    have hstep : c.threadStep (.onConnection conn false) = c.disconnect conn := by
      simp [threadStep, ClientProcess.onConnection, hidle, hk]
    -- it was not opening another one
    have hconnecting : connecting = none := by
      by_contra hne
      simp [h.down (Option.isSome_iff_ne_none.mpr hne)] at hk
    obtain ⟨ms, hms, hmessages⟩ := h.exists_sublist hsent hk
    rw [hstep] at hinv ⊢
    refine ⟨hinv, fun _ => rfl, by simp [disconnect], sent, [], ms, (List.append_nil _).symm, hms,
      ?_, by simp [disconnect, hconnecting]⟩
    rw [hmessages, disconnect, List.flatMap_append, List.flatMap_singleton]
  · have hstep : c.threadStep (.onConnection conn false) = c := by
      simp only [threadStep, ClientProcess.onConnection]
      split_ifs with hidle
      · rfl
      · cases hk : c.socket with
        | none => rfl
        | some conn' =>
          have hne : conn' ≠ conn := by
            rintro rfl
            exact hdown ⟨not_not.mp hidle, hk⟩
          exact if_neg hne
    rwa [hstep]

/-- The client has ended while it was opening a connection, or not. -/
theorem Linked.forget (h : Linked sent opened connecting c) : Linked sent opened none c where
  inv := h.inv
  down := by simp
  received := h.received
  origin := by
    obtain ⟨old, new, ms, hsent, hms, hended, hold⟩ := h.origin
    exact ⟨old, new, ms, hsent, hms, hended, fun k hk => hold k (.inr (by simpa using hk))⟩

/-- A step of a client that has not ended. -/
theorem Linked.threadStep (h : Linked sent opened connecting c)
    (hsent : ∀ m ∈ sent, m.message.length < 2 ^ 31) (hlive : c.terminated = false) {e : Event κ}
    (he : Receives sent connecting c e) :
    Linked sent opened (connectingAfter connecting e) (c.threadStep e) := by
  have hinv := h.inv.threadStep e
  cases e with
  | onConnection conn connected =>
    cases connected with
    | true => exact h.up he
    | false => exact h.lost hsent conn
  | receive chunk =>
    by_cases hup : c.socket.isSome = true ∧ c.client.networkPc = .idle
    · have hstep : c.threadStep (.receive chunk) =
          { c with client := c.client.step (.receive chunk), received := c.received ++ chunk } := by
        simp [ClientProcess.threadStep, ClientProcess.receive, hup]
      rw [hstep] at hinv ⊢
      exact ⟨hinv, h.down, fun k hk => he k (connection_eq_some_iff.mpr ⟨hlive, hk⟩), h.origin⟩
    · have hstep : c.threadStep (.receive chunk) = c := if_neg hup
      rwa [hstep]
  | turn | check | pop | showImage =>
    refine h.of_same hinv ?_ ?_ ?_
    · exact (c.same_threadStep (by simp) (by simp)).1
    · exact (c.same_threadStep (by simp) (by simp)).2.1
    · exact (c.same_threadStep (by simp) (by simp)).2.2

theorem Linked.step (h : Linked sent opened connecting c)
    (hsent : ∀ m ∈ sent, m.message.length < 2 ^ 31) {e : Event κ}
    (he : Receives sent connecting c e) :
    Linked sent opened (connectingAfter connecting e) (c.step e) := by
  rw [ClientProcess.step]
  split_ifs with hend
  · cases e with
    | onConnection conn connected =>
      cases connected with
      | true => exact h.forget
      | false => exact h
    | _ => exact h
  · exact h.threadStep hsent (by simpa using hend) he

end Linked

end ClientProcess
