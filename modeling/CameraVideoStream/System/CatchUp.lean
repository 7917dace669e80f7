import CameraVideoStream.Client.Settling
import CameraVideoStream.System.VideoStream
import Mathlib.Data.List.TakeWhile

/-!
# Clients that catch up

A client that has received everything that was sent on its connection, and whose network thread is
not in `onMessage`, has pushed it all, up to the first frame that is too long for the decoder
(`VideoStream.pushed_of_caughtUp`). Nothing keeps a client from getting there: in every state that
the system can reach, what has been sent on the connection can still be delivered to it, and its
network thread comes to the end of `onMessage` (`VideoStream.exists_caughtUp`).

## Main results

* `ClientProcess.exists_received`: what is missing can be received.
* `VideoStream.pushed_of_caughtUp`, `VideoStream.exists_caughtUp`.
-/

open Codec ChatServer

namespace ClientProcess

variable {κ : Type*} [DecidableEq κ]

/-- The threads of a client need nothing from TCP for their own steps. -/
theorem receives_of_own {sent : List (Sent κ)} {c : ClientProcess κ} {e : Event κ} (he : Own e)
    (connecting : Option κ) : c.Receives sent connecting e := by
  cases e with
  | onConnection conn connected => exact he.elim
  | receive chunk => exact he.elim
  | turn | check | pop | showImage => trivial

theorem meets_turns {sent : List (Sent κ)} {c : ClientProcess κ} {es : List (Event κ)}
    (hes : ∀ e ∈ es, e = .turn) :
    Transition.Meets step (fun c e => ∀ connecting, c.Receives sent connecting e) c es :=
  (Transition.meets_iff_forall.mpr hes).mono fun _ _ he connecting =>
    receives_of_own (by rw [he]; trivial) connecting

/-- **A client can receive what is missing.** Its network thread comes to the end of `onMessage`,
what has been sent on the connection and not been received is delivered, and it comes to the end
again. -/
theorem exists_received {sent : List (Sent κ)} {c : ClientProcess κ} {k : κ}
    (hconn : c.connection = some k) (hreceived : c.received <+: sendAll (sentOn sent k)) :
    ∃ es : List (Event κ),
      Transition.Meets step (fun c e => ∀ connecting, c.Receives sent connecting e) c es ∧
      let t := Transition.run step c es
      t.connection = some k ∧ t.received = sendAll (sentOn sent k) ∧
        t.client.networkPc = .idle := by
  obtain ⟨hlive, hsocket⟩ := connection_eq_some_iff.mp hconn
  obtain ⟨chunk, hchunk⟩ := hreceived
  obtain ⟨es₁, hturns₁, hidle₁, hlive₁, hsocket₁, hreceived₁⟩ := exists_idle hlive
  have hstep := step_receive hlive₁ (hsocket₁.trans hsocket) hidle₁ chunk
  have hlive : ((Transition.run step c es₁).step (.receive chunk)).terminated = false := by
    rw [hstep]
    exact hlive₁
  obtain ⟨es₂, hturns₂, hidle₂, hlive₂, hsocket₂, hreceived₂⟩ := exists_idle hlive
  refine ⟨es₁ ++ .receive chunk :: es₂, ?_, ?_⟩
  · refine Transition.meets_append.mpr ⟨meets_turns hturns₁, fun _ k' hk' => ?_,
      meets_turns hturns₂⟩
    obtain ⟨-, hk⟩ := connection_eq_some_iff.mp hk'
    obtain rfl : k = k' := Option.some.inj (hsocket.symm.trans (hsocket₁.symm.trans hk))
    rw [hreceived₁, hchunk]
  · rw [Transition.run_append, Transition.run_cons]
    refine ⟨connection_eq_some_iff.mpr ⟨hlive₂, ?_⟩, ?_, hidle₂⟩
    · rw [hsocket₂, hstep]
      exact hsocket₁.trans hsocket
    · rw [hreceived₂, hstep, ← hchunk, ← hreceived₁]

end ClientProcess

namespace VideoStream

variable {κ ι : Type*} [LinearOrder κ] [DecidableEq ι]

/-- **A client that has caught up.** In every admissible run: once a client has received everything
that has been sent on its connection, and its network thread is not busy, it has pushed on this
connection all of it up to the first message that is too long for the decoder. So a frame that was
captured while the connection was there, and stayed so during the whole pass over the frame, has
been pushed, unless a message that is too long was sent on the connection. -/
theorem pushed_of_caughtUp {es : List (Event κ ι)} (h : Transition.Meets step Admissible {} es)
    {i : ι} {k : κ} (hconn : ((Transition.run step {} es).clients i).connection = some k)
    (hidle : ((Transition.run step {} es).clients i).client.networkPc = .idle)
    (hreceived : ((Transition.run step {} es).clients i).received =
      sendAll (sentOn (Transition.run step {} es).process.server.sent k)) :
    let s := Transition.run step {} es
    (s.clients i).current = (sentOn s.process.server.sent k).takeWhile
        (fun m => decide (m.length ≤ 65536 * 20)) ∧
      ((∀ m ∈ sentOn s.process.server.sent k, m.length ≤ 65536 * 20) →
        ∀ (f : ℕ) (stayed : Finset κ), s.process.server.passes[f]? = some stayed → k ∈ stayed →
          ∃ image ∈ (s.clients i).current, s.process.delivered[f]? = some image) := by
  intro s
  have hs : s.Inv := inv_run h
  have hlengths : ∀ m ∈ sentOn s.process.server.sent k, m.length < 2 ^ 31 := by
    intro m hm
    obtain ⟨m, hm', rfl⟩ := List.mem_map.mp hm
    exact hs.lengths m (List.mem_of_mem_filter hm')
  have hcurrent : (s.clients i).current = (sentOn s.process.server.sent k).takeWhile
      (fun m => decide (m.length ≤ 65536 * 20)) := by
    rw [(hs.clients i).inv.current_eq hidle, hreceived, items_sendAll hlengths]
    rfl
  refine ⟨hcurrent, fun hshort f stayed hpass hk => ?_⟩
  -- the frame has been sent on `k`
  have hmem : k ∈ recipients s.process.server.sent f := by
    rw [← List.count_pos_iff, hs.server.once f stayed hpass k hk]
    exact Nat.one_pos
  obtain ⟨m, hm, rfl, rfl⟩ := mem_recipients.mp hmem
  refine ⟨m.message, ?_, hs.delivered m hm⟩
  rw [hcurrent, List.takeWhile_eq_self_iff.mpr (by simpa using hshort)]
  exact List.mem_map_of_mem (List.mem_filter.mpr ⟨hm, by simp⟩)

theorem pushed_of_caughtUp_twoBytes :
    let s := Transition.run step {} twoBytes
    (s.clients 0).current = (sentOn s.process.server.sent 1).takeWhile
        (fun m => decide (m.length ≤ 65536 * 20)) ∧
      ((∀ m ∈ sentOn s.process.server.sent 1, m.length ≤ 65536 * 20) →
        ∀ (f : ℕ) (stayed : Finset ℕ), s.process.server.passes[f]? = some stayed → 1 ∈ stayed →
          ∃ image ∈ (s.clients 0).current, s.process.delivered[f]? = some image) :=
  pushed_of_caughtUp meets_twoBytes (by decide) (by decide) (by decide)

/-- A run of one client. -/
theorem run_client (s : VideoStream κ ι) (i : ι) (es : List (ClientProcess.Event κ)) :
    (Transition.run step s (es.map (.client i))).process = s.process ∧
      (Transition.run step s (es.map (.client i))).clients =
        Function.update s.clients i (Transition.run ClientProcess.step (s.clients i) es) := by
  induction es generalizing s with
  | nil => exact ⟨rfl, (Function.update_eq_self i s.clients).symm⟩
  | cons e es ih =>
    obtain ⟨hprocess, hclients⟩ := ih (s.step (.client i e))
    refine ⟨hprocess, hclients.trans ?_⟩
    simp [step]

/-- A condition on the steps of one client, as a condition on the steps of the system. -/
theorem meets_client {C : VideoStream κ ι → Event κ ι → Prop}
    {D : ClientProcess κ → ClientProcess.Event κ → Prop} {s : VideoStream κ ι} {i : ι}
    (hlift : ∀ t e, t.process = s.process → D (t.clients i) e → C t (.client i e))
    {es : List (ClientProcess.Event κ)}
    (h : Transition.Meets ClientProcess.step D (s.clients i) es) :
    Transition.Meets step C s (es.map (.client i)) := by
  induction es generalizing s with
  | nil => trivial
  | cons e es ih =>
    refine ⟨hlift s e rfl h.1, ih (fun t e ht => hlift t e ht) ?_⟩
    simpa [step] using h.2

/-- **A client can always catch up.** In every state that an admissible run reaches, whatever the
server and the other clients have come to, what has been sent on the connection of a client and not
been received can be delivered to it, and after some more turns of `onMessage` it has caught up: all
that with no step of anybody else. -/
theorem exists_caughtUp {es : List (Event κ ι)} (h : Transition.Meets step Admissible {} es)
    {i : ι} {k : κ} (hconn : ((Transition.run step {} es).clients i).connection = some k) :
    ∃ es' : List (ClientProcess.Event κ),
      Transition.Meets step Admissible {} (es ++ es'.map (.client i)) ∧
      let s := Transition.run step {} (es ++ es'.map (.client i))
      s.process = (Transition.run step {} es).process ∧ (s.clients i).connection = some k ∧
        (s.clients i).client.networkPc = .idle ∧
        (s.clients i).received = sendAll (sentOn s.process.server.sent k) := by
  have hclient := (inv_run h).clients i
  obtain ⟨hlive, hsocket⟩ := ClientProcess.connection_eq_some_iff.mp hconn
  obtain ⟨es', hmeets, hconn', hreceived, hidle⟩ :=
    ClientProcess.exists_received hconn (hclient.received k hsocket)
  obtain ⟨hprocess, hclients⟩ := run_client (Transition.run step {} es) i es'
  have hadm := meets_client (C := Admissible)
    (fun t e ht hreceives => by rw [Admissible, ht]; exact hreceives _) hmeets
  refine ⟨es', Transition.meets_append.mpr ⟨h, hadm⟩, ?_⟩
  rw [Transition.run_append]
  refine ⟨hprocess, ?_, ?_, ?_⟩
  · rw [hclients, Function.update_self, hconn']
  · rw [hclients, Function.update_self, hidle]
  · rw [hclients, Function.update_self, hreceived, hprocess]

/-- The frame has been sent, and the connection is up, but nothing has been received yet. -/
theorem exists_caughtUp_twoBytes :
    ∃ es' : List (ClientProcess.Event ℕ),
      Transition.Meets step Admissible ({} : VideoStream ℕ ℕ)
        (twoBytes.take 11 ++ es'.map (.client 0)) ∧
      let s := Transition.run step {} (twoBytes.take 11 ++ es'.map (.client 0))
      s.process = (Transition.run step {} (twoBytes.take 11)).process ∧
        (s.clients 0).connection = some 1 ∧ (s.clients 0).client.networkPc = .idle ∧
        (s.clients 0).received = sendAll (sentOn s.process.server.sent 1) := by
  have hsplit : twoBytes = twoBytes.take 11 ++ twoBytes.drop 11 := rfl
  have hmeets := meets_twoBytes
  rw [hsplit] at hmeets
  exact exists_caughtUp (Transition.meets_append.mp hmeets).1 (by decide)

end VideoStream
