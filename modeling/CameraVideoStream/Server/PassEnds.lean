import CameraVideoStream.Foundation.Potential
import CameraVideoStream.Server.ServerProcess

/-!
# A pass over the connections ends

The sending thread takes three steps for a connection (`!= end()`, `send`, `++it`), and while it
iterates over `connections_`, new connections can come up ahead of the iterator. So how long a pass
takes is not known when it begins: but every connection that comes up adds three steps at most, and
one that goes down adds none (`ChatServer.turns_add_remaining_le`). In particular a pass ends if
connections stop coming up, and nothing that the thread of the event loop has done can keep the
sending thread from its next step.

## Main definitions

* `ChatServer.turn`: the next step of the sending thread.
* `ChatServer.remaining`: the number of steps that the pass still takes.
* `ChatServer.covering`: the connections that have been in the set since the pass began.

## Main results

* `ChatServer.turn_cases`: what the sending thread does.
* `ChatServer.exists_passEnd`, `ChatServer.passEnds_of_meets`.
-/

open OrderedCursor

namespace ChatServer

variable {κ : Type*} [LinearOrder κ]

/-- What the sending thread does next, once it has a frame. -/
def turn : SendPc → Option (Event κ)
  | .capturing => none
  | .beginning => some .begin
  | .comparing => some .compare
  | .sending => some .send
  | .advancing => some .advance

/-- A connection comes up. -/
def Event.up : Event κ → Bool
  | .onConnection _ true => true
  | _ => false

/-- The number of steps of the sending thread in a run, during a pass. -/
def turns (s : ChatServer κ) (es : List (Event κ)) : ℕ :=
  Transition.total step (fun s e => if turn s.sendPc = some e then 1 else 0) s es

/-- The number of steps that the pass still takes if no connection comes up or goes down. -/
def remaining (s : ChatServer κ) : ℕ :=
  match s.sendPc with
  | .capturing => 0
  | .beginning => 3 * s.connections.card + 2
  | .comparing => 3 * (ahead s.connections s.it).card + 1
  | .sending => 3 * (ahead s.connections s.it).card
  | .advancing => 3 * (ahead s.connections s.it).card - 1

/-- The connections that have been in the set since the pass began. -/
def covering (s : ChatServer κ) : Finset κ :=
  if s.sendPc = .beginning then s.connections else s.stayed

/-! ### The sending thread -/

section Turn

variable {s : ChatServer κ} {e : Event κ}

theorem spares_turn {pc : SendPc} (he : turn pc = some e) : s.Spares e := by
  cases pc <;> cases he <;> trivial

omit [LinearOrder κ] in
theorem turn_ne_capture (pc : SendPc) (result : Option Codec.Bytes) :
    turn pc ≠ some (.capture result : Event κ) := by
  cases pc <;> simp [turn]

omit [LinearOrder κ] in
theorem turn_ne_onConnection (pc : SendPc) {conn : κ} {connected : Bool} :
    turn pc ≠ some (.onConnection conn connected) := by
  cases pc <;> simp [turn]

/-- **What the sending thread does** in its next step, which never finds the iterator invalid. -/
theorem turn_cases (h : s.Inv) (he : turn s.sendPc = some e) :
    (s.sendPc = .beginning ∧ s.step e = s.beginStep) ∨
    (s.sendPc = .comparing ∧ s.it = ⊤ ∧
      s.step e = { s with passes := s.passes ++ [s.stayed], sendPc := .capturing }) ∨
    ∃ x ∈ s.connections, s.it = x ∧
      ((s.sendPc = .comparing ∧ s.step e = { s with sendPc := .sending }) ∨
      (s.sendPc = .sending ∧ s.step e =
        { s with sent := s.sent ++ [⟨s.captured.length - 1, x, s.buf⟩], sendPc := .advancing }) ∨
      (s.sendPc = .advancing ∧
        s.step e = { s with it := next s.connections x, sendPc := .comparing })) := by
  have hpass := h.pass
  cases hpc : s.sendPc with
  | capturing =>
    rw [hpc] at he
    cases he
  | beginning =>
    rw [hpc] at he
    obtain rfl : .begin = e := Option.some.inj he
    exact .inl ⟨rfl, by simp [step, h.noFault, hpc]⟩
  | comparing =>
    rw [hpc] at he
    obtain rfl : .compare = e := Option.some.inj he
    have hstep : s.step .compare = s.compareStep := by simp [step, h.noFault, hpc]
    simp only [Pass, hpc] at hpass
    by_cases hit : s.it = ⊤
    · exact .inr (.inl ⟨rfl, hit, hstep.trans (compareStep_top hit)⟩)
    · obtain ⟨x, hx⟩ := WithTop.ne_top_iff_exists.mp hit
      have hcoe := hstep.trans (compareStep_coe hx.symm)
      exact .inr (.inr ⟨x, hpass.live x hx.symm, hx.symm, .inl ⟨rfl, hcoe⟩⟩)
  | sending =>
    rw [hpc] at he
    obtain rfl : .send = e := Option.some.inj he
    have hstep : s.step .send = s.sendStep := by simp [step, h.noFault, hpc]
    obtain ⟨hvalid, x, hx, hit⟩ := h.delivers.designates (.inl hpc)
    exact .inr (.inr ⟨x, hx, hit, .inr (.inl ⟨rfl, hstep.trans (sendStep_coe hit hvalid)⟩)⟩)
  | advancing =>
    rw [hpc] at he
    obtain rfl : .advance = e := Option.some.inj he
    have hstep : s.step .advance = s.advanceStep := by simp [step, h.noFault, hpc]
    obtain ⟨hvalid, x, hx, hit⟩ := h.delivers.designates (.inr hpc)
    exact .inr (.inr ⟨x, hx, hit, .inr (.inr ⟨rfl, hstep.trans (advanceStep_coe hit hvalid)⟩)⟩)

theorem exists_turn (hpc : s.sendPc ≠ .capturing) : ∃ e : Event κ, turn s.sendPc = some e := by
  cases h : s.sendPc with
  | capturing => exact absurd h hpc
  | beginning | comparing | sending | advancing => exact ⟨_, rfl⟩

/-- The element that the iterator designates has not had its turn. -/
theorem card_ahead_pos {x : κ} (hx : x ∈ s.connections) (hit : s.it = x) :
    0 < (ahead s.connections s.it).card :=
  Finset.card_pos.mpr ⟨x, mem_ahead.mpr ⟨hx, hit.le⟩⟩

/-- A pass that is going on takes at least one more step. -/
theorem remaining_eq_zero_iff (h : s.Inv) : s.remaining = 0 ↔ s.sendPc = .capturing := by
  unfold remaining
  cases hpc : s.sendPc with
  | capturing => simp
  | beginning | comparing => simp
  | sending =>
    obtain ⟨-, x, hx, hit⟩ := h.delivers.designates (.inl hpc)
    have hpos := card_ahead_pos hx hit
    exact iff_of_false (by simp only; omega) (by simp)
  | advancing =>
    obtain ⟨-, x, hx, hit⟩ := h.delivers.designates (.inr hpc)
    have hpos := card_ahead_pos hx hit
    exact iff_of_false (by simp only; omega) (by simp)

/-- A step of the sending thread is one of the steps that remain. -/
theorem remaining_turn (h : s.Inv) (he : turn s.sendPc = some e) :
    (s.step e).remaining + 1 = s.remaining := by
  rcases turn_cases h he with ⟨hpc, hstep⟩ | ⟨hpc, hit, hstep⟩ | ⟨x, hx, hit, hstep⟩
  · rw [hstep]
    simp [remaining, hpc, beginStep]
  · rw [hstep]
    simp [remaining, hpc, hit]
  · have hpos := card_ahead_pos hx hit
    rcases hstep with ⟨hpc, hstep⟩ | ⟨hpc, hstep⟩ | ⟨hpc, hstep⟩
    · rw [hstep]
      simp [remaining, hpc]
    · rw [hstep]
      simp only [remaining, hpc]
      omega
    · have hnext := card_ahead_next hx
      rw [hit] at hpos
      rw [hstep]
      simp only [remaining, hpc, hit]
      omega

/-- What the thread of the event loop adds to the steps that remain. -/
theorem remaining_onConnection_le (s : ChatServer κ) (conn : κ) (connected : Bool) :
    (s.onConnection conn connected).remaining ≤
      s.remaining + if Event.up (.onConnection conn connected) then 3 else 0 := by
  cases connected with
  | true =>
    have hcard := Finset.card_insert_le conn s.connections
    have hahead := card_ahead_insert_le s.connections s.it conn
    rw [onConnection_true]
    unfold remaining
    cases hpc : s.sendPc <;> simp only [Event.up, if_pos] <;> omega
  | false =>
    have hcard := Finset.card_erase_le (s := s.connections) (a := conn)
    have hahead := card_ahead_erase_le s.connections s.it conn
    unfold remaining onConnection
    cases hpc : s.sendPc <;> simp only [Event.up, Bool.false_eq_true, if_false] <;> omega

/-- **What a step costs.** -/
theorem remaining_step_le (h : s.Inv) (hpc : s.sendPc ≠ .capturing) (e : Event κ) :
    (if turn s.sendPc = some e then 1 else 0) + (s.step e).remaining ≤
      s.remaining + if e.up then 3 else 0 := by
  by_cases he : turn s.sendPc = some e
  · have hturn := remaining_turn h he
    rw [if_pos he]
    omega
  · rw [if_neg he, Nat.zero_add]
    rcases s.step_cases e with hsame | ⟨-, hstep⟩
    · rw [hsame]
      omega
    · rcases hstep with ⟨conn, connected, rfl, hstep⟩ | ⟨frame, -, hcapturing, -⟩ |
        ⟨rfl, hbegin, -⟩ | ⟨rfl, hcompare, -⟩ | ⟨rfl, hsend, -⟩ | ⟨rfl, hadvance, -⟩
      · rw [hstep]
        exact remaining_onConnection_le s conn connected
      · exact absurd hcapturing hpc
      · exact absurd (by rw [hbegin]; rfl) he
      · exact absurd (by rw [hcompare]; rfl) he
      · exact absurd (by rw [hsend]; rfl) he
      · exact absurd (by rw [hadvance]; rfl) he

end Turn

/-! ### The pass -/

/-- **How long a pass takes**, whatever connections come up and go down while it is going on. -/
theorem turns_add_remaining_le {s : ChatServer κ} (h : s.Inv) {es : List (Event κ)}
    (hes : Transition.Meets step (fun s e => s.Spares e ∧ s.sendPc ≠ .capturing) s es) :
    s.turns es + (Transition.run step s es).remaining ≤ s.remaining + 3 * es.countP Event.up := by
  have hups : Transition.total step (fun _ e => if Event.up e then 3 else 0) s es =
      3 * es.countP Event.up := Transition.total_ite Event.up 3 s es
  rw [← hups]
  exact hes.total_add_le (fun s e h hC => inv_step s e h hC.1)
    (fun s e h hC => remaining_step_le h hC.2 e) h

/-- The pass that is going on in `s` is going on, or it is over. -/
structure Finishing (s t : ChatServer κ) : Prop where
  inv : t.Inv
  captured : t.captured = s.captured
  connections : t.connections = s.connections
  buf : t.buf = s.buf
  /-- What is sent is the frame. -/
  sent : ∃ added : List (Sent κ), t.sent = s.sent ++ added ∧
    ∀ m ∈ added, m.frame = s.passes.length ∧ m.message = s.buf
  pass : if t.sendPc = .capturing then t.passes = s.passes ++ [s.covering] else
    t.passes = s.passes ∧ t.covering = s.covering

theorem Finishing.turn {s t : ChatServer κ} (h : Finishing s t) {e : Event κ}
    (he : turn t.sendPc = some e) : Finishing s (t.step e) := by
  have hinv := inv_step t e h.inv (spares_turn he)
  have hpass := h.pass
  have hsent : ∃ added : List (Sent κ), (t.step e).sent = s.sent ++ added ∧
      ∀ m ∈ added, m.frame = s.passes.length ∧ m.message = s.buf := by
    obtain ⟨added, hsent, hadded⟩ := h.sent
    rcases turn_cases h.inv he with ⟨-, hstep⟩ | ⟨-, -, hstep⟩ |
      ⟨x, -, -, ⟨-, hstep⟩ | ⟨hpc, hstep⟩ | ⟨-, hstep⟩⟩
    · exact ⟨added, by rw [hstep]; exact hsent, hadded⟩
    · exact ⟨added, by rw [hstep]; exact hsent, hadded⟩
    · exact ⟨added, by rw [hstep]; exact hsent, hadded⟩
    · rw [hpc, if_neg (by simp)] at hpass
      have hframe : t.captured.length - 1 = s.passes.length := by
        have hframes := h.inv.frames
        rw [hpc, if_neg (by simp), hpass.1] at hframes
        omega
      refine ⟨added ++ [⟨t.captured.length - 1, x, t.buf⟩], ?_, ?_⟩
      · rw [hstep, ← List.append_assoc, ← hsent]
      · simpa [or_imp, forall_and, hframe, h.buf] using hadded
    · exact ⟨added, by rw [hstep]; exact hsent, hadded⟩
  rcases turn_cases h.inv he with ⟨hpc, hstep⟩ | ⟨hpc, -, hstep⟩ |
    ⟨x, -, -, ⟨hpc, hstep⟩ | ⟨hpc, hstep⟩ | ⟨hpc, hstep⟩⟩
  all_goals
    rw [hpc, if_neg (by simp)] at hpass
    rw [hstep] at hinv hsent ⊢
    refine ⟨hinv, h.captured, h.connections, h.buf, hsent, ?_⟩
    simpa [covering, beginStep, hpc] using hpass

/-- **The sending thread ends the pass by itself**, and the pass counts for the connections that
have been in the set since it began. -/
theorem exists_passEnd {s : ChatServer κ} (h : s.Inv) (hpc : s.sendPc ≠ .capturing) :
    ∃ es, es.length ≤ s.remaining ∧
      Transition.Meets step (fun t e => turn t.sendPc = some e) s es ∧
      Finishing s (Transition.run step s es) ∧ (Transition.run step s es).sendPc = .capturing := by
  have hstart : Finishing s s := ⟨h, rfl, rfl, rfl, ⟨[], by simp, by simp⟩, by simp [hpc]⟩
  have hnext (t : ChatServer κ) (ht : Finishing s t) (hne : t.remaining ≠ 0) :
      ∃ e, turn t.sendPc = some e ∧ Finishing s (t.step e) ∧
        (t.step e).remaining < t.remaining := by
    rw [ne_eq, remaining_eq_zero_iff ht.inv] at hne
    obtain ⟨e, he⟩ := exists_turn hne
    have hpaid := remaining_turn ht.inv he
    exact ⟨e, he, ht.turn he, by omega⟩
  obtain ⟨es, hlen, hmeets, hfin, hend⟩ := Transition.exists_run_of_potential hnext hstart
  exact ⟨es, hlen, hmeets, hfin, (remaining_eq_zero_iff hfin.inv).mp hend⟩

/-- **A pass over the connections ends.** In every state that a run reaches in which no connection
goes down while the iterator designates it: the steps that the sending thread takes before the pass
is over are at most those that remain and three for each connection that comes up meanwhile, however
these and the connections that go down interleave with them, and once it has taken so many, the pass
is over; and during a pass the sending thread comes to its end in that many steps of its own, so
that the connections that have been in the set since the pass began have been sent the frame. -/
theorem passEnds_of_meets {es : List (Event κ)} (h : Transition.Meets step Spares {} es) :
    let s := Transition.run step {} es
    (∀ es', Transition.Meets step (fun s e => s.Spares e ∧ s.sendPc ≠ .capturing) s es' →
      s.turns es' ≤ s.remaining + 3 * es'.countP Event.up ∧
        (s.turns es' = s.remaining + 3 * es'.countP Event.up →
          (Transition.run step s es').sendPc = .capturing)) ∧
      (s.sendPc ≠ .capturing →
        ∃ es', es'.length ≤ s.remaining ∧
          Transition.Meets step (fun s e => turn s.sendPc = some e) s es' ∧
          (Transition.run step s es').sendPc = .capturing ∧
          (Transition.run step s es').passes = s.passes ++ [s.covering] ∧
          ∀ c ∈ s.covering,
            (recipients (Transition.run step s es').sent s.passes.length).count c = 1) := by
  intro s
  have hs : s.Inv := h.run inv_step inv_init
  refine ⟨fun es' hes' => ?_, fun hpc => ?_⟩
  · have hbound := turns_add_remaining_le hs hes'
    have hs' : (Transition.run step s es').Inv :=
      hes'.run (fun s e h hC => inv_step s e h hC.1) hs
    refine ⟨by omega, fun heq => (remaining_eq_zero_iff hs').mp (by omega)⟩
  · obtain ⟨es', hlen, hmeets, hfin, hend⟩ := exists_passEnd hs hpc
    have hpass := hfin.pass
    rw [if_pos hend] at hpass
    refine ⟨es', hlen, hmeets, hend, hpass, fun c hc => ?_⟩
    exact hfin.inv.once _ s.covering (by simp [hpass]) c hc

/-- One connection is up, the iterator designates it, and the frame has not been sent to it. -/
theorem passEnds_of_meets_up :
    let s : ChatServer ℕ := Transition.run step {}
      [.onConnection 2 true, .capture (some [7]), .begin, .compare]
    (∀ es', Transition.Meets step (fun s e => s.Spares e ∧ s.sendPc ≠ .capturing) s es' →
      s.turns es' ≤ s.remaining + 3 * es'.countP Event.up ∧
        (s.turns es' = s.remaining + 3 * es'.countP Event.up →
          (Transition.run step s es').sendPc = .capturing)) ∧
      (s.sendPc ≠ .capturing →
        ∃ es', es'.length ≤ s.remaining ∧
          Transition.Meets step (fun s e => turn s.sendPc = some e) s es' ∧
          (Transition.run step s es').sendPc = .capturing ∧
          (Transition.run step s es').passes = s.passes ++ [s.covering] ∧
          ∀ c ∈ s.covering,
            (recipients (Transition.run step s es').sent s.passes.length).count c = 1) :=
  passEnds_of_meets (by decide)

end ChatServer
