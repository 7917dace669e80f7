import CameraVideoStream.Server.Survival
import CameraVideoStream.System.CatchUp

/-!
# The newest frame gets to the screens

When a frame has been captured, the sending thread can end its pass over the connections without
waiting for anybody (`ServerProcess.run_turns`); what has been sent can then be delivered to each
client, and each client can show all of it. So from every state in which some clients wait for the
frame, the system can come to one in which each of them shows this frame, by steps of the sending
thread and of these clients alone (`VideoStream.exists_onScreens`): no lock, no full queue and no
other client stands between the camera and the screens. What stands there is `cv::imdecode`, which
has to decode the frame, and an image without bytes, which would end the client.

## Main definitions

* `VideoStream.Awaits`: a client is to be sent the frame of the pass.
* `VideoStream.Answered`: what the display threads of the clients are told.

## Main results

* `ChatServer.sentOn_of_finishing`: the connections are sent the frame, and nothing else.
* `VideoStream.exists_run_clients`: runs of several clients.
* `VideoStream.exists_onScreens`.
-/

open Codec ChatServer

namespace ChatServer

variable {κ : Type*} [LinearOrder κ]

omit [LinearOrder κ] in
/-- Of messages that are all the same, on one connection. -/
theorem sentOn_eq_replicate [DecidableEq κ] {sent : List (Sent κ)} {i : ℕ} {message : Bytes}
    (h : ∀ m ∈ sent, m.frame = i ∧ m.message = message) (conn : κ) :
    sentOn sent conn = List.replicate ((recipients sent i).count conn) message := by
  have hall : sent.filter (·.frame = i) = sent :=
    List.filter_eq_self.mpr fun m hm => by simp [(h m hm).1]
  refine List.eq_replicate_iff.mpr ⟨?_, fun message' hm => ?_⟩
  · rw [sentOn, recipients, hall, List.length_map, List.count, List.countP_map,
      ← List.countP_eq_length_filter]
    exact List.countP_congr fun m _ => by simp
  · obtain ⟨m, hmem, rfl⟩ := List.mem_map.mp hm
    exact (h m (List.mem_of_mem_filter hmem)).2

/-- By the end of the pass a connection that is to be sent the frame has been sent it, and nothing
else. -/
theorem sentOn_of_finishing {s t : ChatServer κ} (h : Finishing s t) (hend : t.sendPc = .capturing)
    {k : κ} (hk : k ∈ s.covering) (hnew : k ∉ recipients s.sent s.passes.length) :
    sentOn t.sent k = sentOn s.sent k ++ [s.buf] := by
  obtain ⟨added, hsent, hadded⟩ := h.sent
  have hpass := h.pass
  rw [if_pos hend] at hpass
  have honce := h.inv.once s.passes.length s.covering (by simp [hpass]) k hk
  have hcount : (recipients added s.passes.length).count k = 1 := by
    have hsplit : recipients t.sent s.passes.length =
        recipients s.sent s.passes.length ++ recipients added s.passes.length := by
      simp [recipients, hsent]
    rwa [hsplit, List.count_append, List.count_eq_zero_of_not_mem hnew, Nat.zero_add] at honce
  rw [hsent, sentOn_append, sentOn_eq_replicate hadded, hcount]
  rfl

end ChatServer

namespace ClientProcess

variable {κ : Type*} [DecidableEq κ]

/-- **What has been sent can be shown.** What is missing is delivered to the client, and its display
thread shows what can be decoded of it. -/
theorem exists_received_shown (a : DisplayAnswers) {sent : List (Sent κ)} {c : ClientProcess κ}
    (h : c.Inv) {k : κ} (hconn : c.connection = some k)
    (hreceived : c.received <+: sendAll (sentOn sent k))
    (hsent : ∀ m ∈ sentOn sent k, m.length ≤ 65536 * 20 ∧ m ≠ [])
    (hpending : ∀ m ∈ c.pending, m ≠ []) :
    ∃ es : List (Event κ), (∀ e ∈ es, ∀ conn connected, e ≠ .onConnection conn connected) ∧
      Transition.Meets step
        (fun c e => (∀ connecting, c.Receives sent connecting e) ∧ c.Answered a e) c es ∧
      let t := Transition.run step c es
      t.received = sendAll (sentOn sent k) ∧ t.current = (onMessage t.received).items ∧
        ∃ ms kept, t.current = c.current ++ ms ∧ t.shown = c.shown ++ kept ∧
          Shows a (c.pending ++ ms) kept := by
  have hlengths : ∀ m ∈ sentOn sent k, m.length < 2 ^ 31 := fun m hm => by
    have := (hsent m hm).1
    omega
  have hne : c.NoneEmpty := by
    intro m hm
    rcases List.mem_append.mp hm with hm | hm
    · exact hpending m hm
    · have hread := items_prefix hlengths hreceived
      refine (hsent m (hread.subset ?_)).2
      rw [h.items_received]
      exact List.mem_append_right _ hm
  obtain ⟨chunk, hchunk⟩ := hreceived
  have hitems : ∀ m ∈ (onMessage (c.received ++ chunk)).items, m ≠ [] := by
    rw [hchunk, items_sendAll hlengths]
    exact fun m hm => (hsent m ((List.takeWhile_prefix _).subset hm)).2
  obtain ⟨es₁, es₂, hown₁, hconn₁, hreceived₁, hown₂, -, hall, -, hcurrent, hshows⟩ :=
    exists_shown a h hne hconn hitems
  have hmeets {c : ClientProcess κ} {es : List (Event κ)}
      (hes : Transition.Meets step (fun c e => Own e ∧ c.Answered a e) c es) :
      Transition.Meets step
        (fun c e => (∀ connecting, c.Receives sent connecting e) ∧ c.Answered a e) c es :=
    hes.mono fun _ _ he => ⟨receives_of_own he.1, he.2⟩
  have hkeeps {c : ClientProcess κ} {es : List (Event κ)}
      (hes : Transition.Meets step (fun c e => Own e ∧ c.Answered a e) c es) :
      ∀ e ∈ es, ∀ conn connected, e ≠ .onConnection conn connected :=
    Transition.meets_iff_forall.mp (hes.mono fun _ _ he conn connected heq => by
      rw [heq] at he
      exact he.1)
  refine ⟨es₁ ++ .receive chunk :: es₂, ?_, ?_, ?_⟩
  · intro e he
    rcases List.mem_append.mp he with he | he
    · exact hkeeps hown₁ e he
    · rcases List.mem_cons.mp he with rfl | he
      · simp
      · exact hkeeps hown₂ e he
  · refine Transition.meets_append.mpr ⟨hmeets hown₁, ⟨fun _ k' hk' => ?_, trivial⟩, hmeets hown₂⟩
    obtain rfl : k = k' := Option.some.inj (hconn₁.symm.trans hk')
    rw [hreceived₁, hchunk]
  · rw [hchunk] at hall
    exact ⟨hall, hcurrent, hshows⟩

omit [DecidableEq κ] in
/-- What a client has shown last once it has received all that has been sent, where the last message
is new to it and can be decoded. -/
theorem shown_of_received {a : DisplayAnswers} {sent ms kept : List Bytes} {frame : Bytes}
    {c t : ClientProcess κ} (hc : c.Inv) (hsent : c.received <+: sendAll sent)
    (hshort : ∀ m ∈ sent ++ [frame], m.length ≤ 65536 * 20)
    (hreceived : t.received = sendAll (sent ++ [frame]))
    (hitems : t.current = (onMessage t.received).items) (hcurrent : t.current = c.current ++ ms)
    (hshown : t.shown = c.shown ++ kept) (hshows : Shows a (c.pending ++ ms) kept)
    (hdecodes : ∀ n, a.imdecode n frame = true) : t.shown.getLast? = some frame := by
  have hlengths : ∀ m ∈ sent ++ [frame], m.length < 2 ^ 31 := fun m hm => by
    have := hshort m hm
    omega
  have hall : t.current = sent ++ [frame] := by
    rw [hitems, hreceived, items_sendAll hlengths]
    exact List.takeWhile_eq_self_iff.mpr fun m hm => decide_eq_true (hshort m hm)
  -- what the client had pushed before is not longer than what had been sent
  have hbefore : c.current.length ≤ sent.length := by
    have hprefix := items_prefix (fun m hm => hlengths m (List.mem_append_left _ hm)) hsent
    rw [hc.items_received] at hprefix
    exact ((List.prefix_append _ _).trans hprefix).length_le
  have hne : ms ≠ [] := by
    rintro rfl
    have hlen := congrArg List.length (hall.symm.trans hcurrent)
    rw [List.length_append, List.append_nil, List.length_singleton] at hlen
    omega
  have hlast : ms.getLast? = some frame := by
    have heq := congrArg List.getLast? (hall.symm.trans hcurrent)
    rw [List.getLast?_append_of_ne_nil _ (by simp), List.getLast?_append_of_ne_nil _ hne] at heq
    exact heq.symm
  have hkept : kept.getLast? = some frame := by
    refine hshows.last frame ?_ hdecodes
    rw [List.getLast?_append_of_ne_nil _ hne, hlast]
    rfl
  rw [hshown, List.getLast?_append, hkept]
  rfl

end ClientProcess

namespace VideoStream

variable {κ ι : Type*} [LinearOrder κ] [DecidableEq ι]

/-- The allocations of the server process succeed. -/
def Allocates : Event κ ι → Prop
  | .process e => ServerProcess.Allocates e
  | _ => True

/-- The client is connected on a connection that is to be sent the frame of the pass, nothing that
is empty or too long for its decoder has been sent on it, and no image without bytes is in hand or
queued. -/
def Awaits (s : VideoStream κ ι) (i : ι) : Prop :=
  ∃ k, (s.clients i).connection = some k ∧ k ∈ s.process.server.covering ∧
    k ∉ recipients s.process.server.sent s.process.server.passes.length ∧
    (∀ m ∈ sentOn s.process.server.sent k, m.length ≤ 65536 * 20 ∧ m ≠ []) ∧
    ∀ m ∈ (s.clients i).pending, m ≠ []

/-- The answers to the display thread of client `i` are those of `a i`. -/
def Answered (a : ι → DisplayAnswers) (s : VideoStream κ ι) : Event κ ι → Prop
  | .client i e => (s.clients i).Answered (a i) e
  | _ => True

theorem alive_step (s : VideoStream κ ι) (e : Event κ ι) (h : s.Inv ∧ s.process.Alive)
    (hadm : s.Admissible e ∧ Allocates e) : (s.step e).Inv ∧ (s.step e).process.Alive := by
  refine ⟨inv_step s e h.1 hadm.1, ?_⟩
  cases e with
  | connect i conn =>
    simp only [step]
    split_ifs <;> exact h.2
  | process e => exact ServerProcess.alive_step s.process e h.2 ⟨hadm.1.1, hadm.2⟩
  | client i e => exact h.2

/-- A run of the sending thread. -/
theorem run_process {s : VideoStream κ ι} {es : List (ChatServer.Event κ)}
    (hes : ∀ e ∈ es, ∀ conn connected, e ≠ .onConnection conn connected)
    (hmeets : Transition.Meets ServerProcess.step
      (fun s e => s.Admissible e ∧ ServerProcess.Allocates e) s.process (es.map .server)) :
    Transition.run step s (es.map fun e => .process (.server e)) =
        { s with process := Transition.run ServerProcess.step s.process (es.map .server) } ∧
      Transition.Meets step (fun s e => s.Admissible e ∧ Allocates e) s
        (es.map fun e => .process (.server e)) := by
  induction es generalizing s with
  | nil => exact ⟨rfl, trivial⟩
  | cons e es ih =>
    obtain ⟨hadm, hrest⟩ := hmeets
    obtain ⟨hrun, hmeets⟩ := ih (s := s.step (.process (.server e)))
      (fun e' he' => hes e' (List.mem_cons_of_mem e he')) hrest
    refine ⟨hrun, ⟨⟨hadm.1, fun conn hconn => ?_⟩, hadm.2⟩, hmeets⟩
    exact absurd (ServerProcess.Event.server.inj hconn) (hes e List.mem_cons_self conn true)

/-- **Runs of several clients.** If each of them has a run to a state with `Q`, on what the server
has sent and with the answers `a`, then there is one run of the system after which each of them is
in such a state. -/
theorem exists_run_clients {I : Finset ι} {a : ι → DisplayAnswers}
    {Q : ι → ClientProcess κ → Prop} {s : VideoStream κ ι}
    (h : ∀ i ∈ I, ∃ es : List (ClientProcess.Event κ),
      (∀ e ∈ es, ∀ conn connected, e ≠ .onConnection conn connected) ∧
      Transition.Meets ClientProcess.step
        (fun c e => (∀ connecting, c.Receives s.process.server.sent connecting e) ∧
          c.Answered (a i) e) (s.clients i) es ∧
      Q i (Transition.run ClientProcess.step (s.clients i) es)) :
    ∃ own : List (ι × ClientProcess.Event κ),
      (∀ p ∈ own, p.1 ∈ I ∧ ∀ conn connected, p.2 ≠ .onConnection conn connected) ∧
      Transition.Meets step (fun s e => (s.Admissible e ∧ Allocates e) ∧ s.Answered a e) s
        (own.map fun p => .client p.1 p.2) ∧
      let t := Transition.run step s (own.map fun p => .client p.1 p.2)
      t.process = s.process ∧ (∀ i ∈ I, Q i (t.clients i)) ∧
        ∀ i ∉ I, t.clients i = s.clients i := by
  induction I using Finset.induction_on with
  | empty => exact ⟨[], by simp, trivial, rfl, by simp, fun _ _ => rfl⟩
  | insert i I hi ih =>
    obtain ⟨own, hown, hmeets, hprocess, hdone, hothers⟩ :=
      ih fun j hj => h j (Finset.mem_insert_of_mem hj)
    obtain ⟨es, hes, hreceives, hQ⟩ := h i (Finset.mem_insert_self i I)
    -- the clients before have left this one alone
    rw [← hothers i hi] at hreceives hQ
    rw [← hprocess] at hreceives
    obtain ⟨hprocess', hclients⟩ :=
      run_client (Transition.run step s (own.map fun p => .client p.1 p.2)) i es
    have hsplit : (own ++ es.map (i, ·)).map (fun p => Event.client p.1 p.2) =
        own.map (fun p => .client p.1 p.2) ++ es.map (.client i) := by
      simp [List.map_map, Function.comp_def]
    have hclient := meets_client
      (C := fun s e => (s.Admissible e ∧ Allocates e) ∧ s.Answered a e)
      (fun t e ht he => ⟨⟨by rw [Admissible, ht]; exact he.1 _, trivial⟩, he.2⟩) hreceives
    refine ⟨own ++ es.map (i, ·), ?_, ?_, ?_⟩
    · intro p hp
      rcases List.mem_append.mp hp with hp | hp
      · exact ⟨Finset.mem_insert_of_mem (hown p hp).1, (hown p hp).2⟩
      · obtain ⟨e, he, rfl⟩ := List.mem_map.mp hp
        exact ⟨Finset.mem_insert_self i I, hes e he⟩
    · rw [hsplit]
      exact Transition.meets_append.mpr ⟨hmeets, hclient⟩
    · rw [hsplit, Transition.run_append]
      refine ⟨hprocess'.trans hprocess, fun j hj => ?_, fun j hj => ?_⟩
      · rw [hclients]
        by_cases hji : j = i
        · rw [hji, Function.update_self]
          exact hQ
        · rw [Function.update_of_ne hji]
          exact hdone j (Finset.mem_of_mem_insert_of_ne hj hji)
      · rw [Finset.mem_insert, not_or] at hj
        rw [hclients, Function.update_of_ne hj.1]
        exact hothers j hj.2

/-- **The newest frame gets to the screens.** In every state that an admissible run reaches in which
a pass is going on and the clients of `I` wait for its frame, whatever these and all others are
doing, and whatever their display threads are going to be told, there is a continuation by steps of
the sending thread and of the clients of `I` alone, in which no connection comes up or goes down,
after which the pass is over and the last image that each of these clients has shown is the frame
that was captured last; if the frame is not empty, not too long for the decoder, and `cv::imdecode`
decodes it. -/
theorem exists_onScreens {es : List (Event κ ι)}
    (h : Transition.Meets step (fun s e => s.Admissible e ∧ Allocates e) {} es) (I : Finset ι)
    (a : ι → DisplayAnswers)
    (hpass : (Transition.run step {} es).process.server.sendPc ≠ .capturing)
    (hawait : ∀ i ∈ I, (Transition.run step {} es).Awaits i)
    (hframe : ∀ frame ∈ (Transition.run step {} es).process.delivered.getLast?,
      frame ≠ [] ∧ frame.length ≤ 65536 * 20 ∧ ∀ i ∈ I, ∀ n, (a i).imdecode n frame = true) :
    ∃ (turns : List (ChatServer.Event κ)) (own : List (ι × ClientProcess.Event κ)),
      (∀ e ∈ turns, ∀ conn connected, e ≠ .onConnection conn connected) ∧
      (∀ p ∈ own, p.1 ∈ I ∧ ∀ conn connected, p.2 ≠ .onConnection conn connected) ∧
      let es' := turns.map (fun e => Event.process (.server e)) ++
        own.map fun p => .client p.1 p.2
      Transition.Meets step (fun s e => s.Admissible e ∧ Allocates e) {} (es ++ es') ∧
        Transition.Meets step (Answered a) (Transition.run step {} es) es' ∧
        let t := Transition.run step {} (es ++ es')
        t.process.server.sendPc = .capturing ∧
          t.process.delivered = (Transition.run step {} es).process.delivered ∧
          ∃ frame, t.process.delivered.getLast? = some frame ∧
            ∀ i ∈ I, (t.clients i).shown.getLast? = some frame := by
  obtain ⟨hinv, halive⟩ := h.run alive_step ⟨inv_init, ServerProcess.alive_init⟩
  generalize hs : Transition.run step {} es = s at *
  -- the frame of the pass
  have hlast : s.process.delivered.getLast? = some s.process.server.buf := by
    have hbuf := hinv.server.buf hpass
    have hframes := hinv.server.frames
    rw [if_neg hpass] at hframes
    rw [← hinv.process.captured, List.getLast?_eq_getElem?, hframes, Nat.add_sub_cancel]
    exact hbuf
  obtain ⟨hne, hshort, hdecodes⟩ := hframe _ hlast
  -- the sending thread ends the pass
  obtain ⟨turns, -, hturns, hfin, hend⟩ := exists_passEnd hinv.server hpass
  obtain ⟨hrun, hadm⟩ := ServerProcess.run_turns halive hturns
  have hevents : ∀ e ∈ turns, ∀ conn connected, e ≠ .onConnection conn connected :=
    Transition.meets_iff_forall.mp
      (hturns.mono fun t e he conn connected heq => turn_ne_onConnection t.sendPc (heq ▸ he))
  obtain ⟨hrun', hadm'⟩ := run_process hevents hadm
  generalize hu : Transition.run step s (turns.map fun e => .process (.server e)) = u at *
  have hserver : u.process.server = Transition.run ChatServer.step s.process.server turns := by
    rw [hrun', hrun]
  have hclients : u.clients = s.clients := by rw [hrun']
  have hdelivered : u.process.delivered = s.process.delivered := by rw [hrun', hrun]
  -- and then each of the clients receives what is missing, and shows it
  obtain ⟨own, hown, hmeets, hprocess, hshown, -⟩ := exists_run_clients (s := u) (I := I) (a := a)
    (Q := fun _ c => c.shown.getLast? = some s.process.server.buf) fun i hi => by
      obtain ⟨k, hconn, hcover, hnew, hsent, hpending⟩ := hawait i hi
      obtain ⟨-, hsocket⟩ := ClientProcess.connection_eq_some_iff.mp hconn
      have hsentOn := sentOn_of_finishing hfin hend hcover hnew
      have hreceived := (hinv.clients i).received k hsocket
      rw [← hserver] at hsentOn
      have hall : ∀ m ∈ sentOn u.process.server.sent k, m.length ≤ 65536 * 20 ∧ m ≠ [] := by
        rw [hsentOn]
        simpa [or_imp, forall_and] using ⟨⟨fun m hm => (hsent m hm).1, hshort⟩,
          fun m hm => (hsent m hm).2, hne⟩
      have hprefix : (u.clients i).received <+: sendAll (sentOn u.process.server.sent k) := by
        rw [hclients, hsentOn, sendAll_append]
        exact hreceived.trans (List.prefix_append _ _)
      rw [← hclients] at hreceived hconn hpending
      have hclient : (u.clients i).Inv := by
        rw [hclients]
        exact (hinv.clients i).inv
      obtain ⟨es', hkeeps, hreceives, hgot, hitems, ms, kept, hcurrent, hkept, hshows⟩ :=
        ClientProcess.exists_received_shown (a i) hclient hconn hprefix hall hpending
      refine ⟨es', hkeeps, hreceives, ?_⟩
      rw [hsentOn] at hgot hall
      exact ClientProcess.shown_of_received hclient hreceived (fun m hm => (hall m hm).1) hgot
        hitems hcurrent hkept hshows (hdecodes i hi)
  refine ⟨turns, own, hevents, hown, Transition.meets_append.mpr ⟨h, ?_⟩,
    Transition.meets_append.mpr ⟨?_, ?_⟩, ?_⟩
  · rw [hs]
    exact Transition.meets_append.mpr ⟨hadm', by rw [hu]; exact hmeets.mono fun _ _ he => he.1⟩
  · -- the sending thread asks nothing
    have hprocess : ∀ e ∈ turns.map (fun e => Event.process (ι := ι) (.server e)),
        ∃ e', e = .process e' := by simp
    refine (Transition.meets_iff_forall.mpr hprocess).mono fun _ e he => ?_
    obtain ⟨e', rfl⟩ := he
    trivial
  · rw [hu]
    exact hmeets.mono fun _ _ he => he.2
  · rw [Transition.run_append, hs, Transition.run_append, hu]
    intro t
    rw [show t.process = u.process from hprocess, hdelivered, hserver]
    exact ⟨hend, rfl, _, hlast, hshown⟩

/-- One grey pixel, as a picture in the format PGM. -/
def pixel : Bytes := [80, 53, 10, 49, 32, 49, 10, 50, 53, 53, 10, 128]

/-- The picture has been captured, and the one client waits for it. -/
def awaiting : List (Event ℕ ℕ) :=
  [.connect 0 1, .process (.camInit (.singlePlanar 2 100)),
    .process (.server (.onConnection 1 true)), .client 0 (.onConnection 1 true),
    .process (.cameraStreamon ⟨true, 0⟩ (List.replicate 50 0)),
    .process (.cameraCapture
      ⟨1, some ⟨1, 12, 0⟩, fun p => pixel.getD (p - 0x200000).toNat 0, true⟩),
    .process (.server .begin)]

theorem meets_awaiting :
    Transition.Meets step (fun s e => s.Admissible e ∧ Allocates e) {} awaiting := by
  refine ⟨⟨Finset.notMem_empty _, trivial⟩,
    ⟨⟨⟨by decide, by decide⟩, by simp⟩, by decide, by decide⟩, ⟨⟨trivial, ?_⟩, trivial⟩,
    ⟨rfl, trivial⟩, ⟨⟨trivial, by simp⟩, trivial⟩, ⟨⟨⟨?_, ?_⟩, by simp⟩, trivial⟩,
    ⟨⟨trivial, by simp⟩, trivial⟩, trivial⟩
  · rintro conn ⟨⟩
    decide
  · intro _ d hd
    rw [← Option.some.inj hd]
    decide
  · intro _ d hd
    rw [← Option.some.inj hd]
    exact ⟨by decide, by decide, by decide, by decide, by decide⟩

/-- The client can decode pictures in this format. -/
theorem exists_onScreens_awaiting :
    ∃ (turns : List (ChatServer.Event ℕ)) (own : List (ℕ × ClientProcess.Event ℕ)),
      (∀ e ∈ turns, ∀ conn connected, e ≠ .onConnection conn connected) ∧
      (∀ p ∈ own, p.1 ∈ ({0} : Finset ℕ) ∧ ∀ conn connected, p.2 ≠ .onConnection conn connected) ∧
      let es' := turns.map (fun e => Event.process (.server e)) ++
        own.map fun p => .client p.1 p.2
      Transition.Meets step (fun s e => s.Admissible e ∧ Allocates e) {} (awaiting ++ es') ∧
        Transition.Meets step (Answered fun _ => ⟨fun _ m => m.take 2 == [80, 53], fun _ => 5⟩)
          (Transition.run step {} awaiting) es' ∧
        let t := Transition.run step {} (awaiting ++ es')
        t.process.server.sendPc = .capturing ∧
          t.process.delivered = (Transition.run step {} awaiting).process.delivered ∧
          ∃ frame, t.process.delivered.getLast? = some frame ∧
            ∀ i ∈ ({0} : Finset ℕ), (t.clients i).shown.getLast? = some frame := by
  refine exists_onScreens meets_awaiting {0} _ (by decide) (fun i hi => ?_) fun frame hframe => ?_
  · rw [Finset.mem_singleton.mp hi]
    exact ⟨1, by decide, by decide, by decide, by decide, by decide⟩
  · obtain rfl : frame = pixel := by
      rw [← Option.some.inj hframe]
      decide
    exact ⟨by decide, by decide, fun _ _ _ => rfl⟩

end VideoStream
