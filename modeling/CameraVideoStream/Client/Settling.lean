import CameraVideoStream.Client.ClientProcess
import CameraVideoStream.Common.Truncation
import CameraVideoStream.Foundation.Potential

/-!
# A client that settles

If nothing more arrives, the network thread comes to the end of `onMessage` by itself
(`ClientProcess.exists_idle`). The display thread pops what is queued and shows it, or leaves out
what `cv::imdecode` cannot decode, and both threads are then idle. If the display thread is always
given its turn first, the queue is empty whenever a message is pushed; so it is accepted, and
everything that was in the receive buffer comes to the display thread
(`ClientProcess.exists_settled`). All that as long as there is no image without bytes, which would
end the process.

Whether an image can be decoded, and what time it is, is not for the client to choose:
`DisplayAnswers` says so in advance.

## Main definitions

* `ClientProcess.Settled`: both threads are idle.
* `DisplayAnswers`, `ClientProcess.Answered`: the answers to the display thread.
* `ClientProcess.Shows`: what is shown of the images popped.
* `ClientProcess.backlog`: what is left to be done.

## Main results

* `ClientProcess.exists_idle`: the network thread comes to the end of `onMessage`.
* `ClientProcess.exists_own`: one of the threads can do what is left to be done.
* `ClientProcess.exists_settled`, `ClientProcess.exists_shown`.
-/

open Codec

/-- What the calls of the display thread answer for the `n`-th image that it has popped:
`cv::imdecode`, which reads more than the image, whether it can be decoded, and `test_fps` the
time. -/
structure DisplayAnswers where
  imdecode : ℕ → Bytes → Bool
  nowValue : ℕ → Int64

namespace ClientProcess

variable {κ : Type*}

/-- Neither thread has anything to do until something arrives. -/
structure Settled (c : ClientProcess κ) : Prop where
  network : c.client.networkPc = .idle
  image : c.image = none
  queue : c.client.displayImage.imageQueue = []

/-- The image in hand and those that are queued. -/
def pending (c : ClientProcess κ) : List Bytes :=
  c.image.toList ++ c.client.displayImage.imageQueue

theorem Settled.pending {c : ClientProcess κ} (h : c.Settled) : c.pending = [] := by
  rw [ClientProcess.pending, h.image, h.queue]
  rfl

/-- No image without bytes is in hand, queued, or to be read off the receive buffer. -/
def NoneEmpty (c : ClientProcess κ) : Prop :=
  ∀ m ∈ c.pending ++ (onMessage c.client.inputBuffer).items, m ≠ []

/-- The steps that the network thread takes at most, each of which pushes a message of four bytes
or more, or ends `onMessage`. -/
def networkBacklog (c : ClientProcess κ) : ℕ :=
  match c.client.networkPc with
  | .idle => 0
  | .inOnMessage => c.client.inputBuffer.length + 1

/-- The steps that the display thread takes for what is queued: test, pop, and show. -/
def displayBacklog (c : ClientProcess κ) : ℕ :=
  3 * c.client.displayImage.imageQueue.length + c.image.toList.length -
    if c.client.displayPc = .popping then 1 else 0

/-- What is left to be done. -/
def backlog (c : ClientProcess κ) : ℕ := c.networkBacklog + c.displayBacklog

/-- The steps of the threads while nothing arrives. -/
def Own : Event κ → Prop
  | .onConnection _ _ => False
  | .receive _ => False
  | _ => True

/-- The answers to the display thread are those of `a`. -/
def Answered (a : DisplayAnswers) (c : ClientProcess κ) : Event κ → Prop
  | .showImage decoded nowValue =>
    ∀ image, c.image = some image → decoded = a.imdecode c.client.popped.length image ∧
      nowValue = a.nowValue c.client.popped.length
  | _ => True

/-- Of the images `done` the images `kept` have been shown, the last one if it can be decoded. -/
structure Shows (a : DisplayAnswers) (done kept : List Bytes) : Prop where
  sublist : kept.Sublist done
  last : ∀ m ∈ done.getLast?, (∀ n, a.imdecode n m = true) → kept.getLast? = some m

theorem Shows.concat {a : DisplayAnswers} {done kept : List Bytes} (h : Shows a done kept)
    (n : ℕ) (image : Bytes) :
    Shows a (done ++ [image]) (kept ++ if a.imdecode n image then [image] else []) where
  sublist := by
    refine h.sublist.append ?_
    split_ifs
    · exact List.Sublist.refl _
    · exact List.nil_sublist _
  last m hm hgood := by
    rw [List.getLast?_concat, Option.mem_some_iff] at hm
    rw [hm, if_pos (hgood n), List.getLast?_concat]

/-- First the images `done` and then `done'`. -/
theorem Shows.append {a : DisplayAnswers} {done done' kept kept' : List Bytes}
    (h : Shows a done kept) (h' : Shows a done' kept') :
    Shows a (done ++ done') (kept ++ kept') where
  sublist := h.sublist.append h'.sublist
  last m hm hgood := by
    cases done' using List.reverseRecOn with
    | nil =>
      rw [List.append_nil] at hm
      rw [List.sublist_nil.mp h'.sublist, List.append_nil]
      exact h.last m hm hgood
    | append_singleton done' image =>
      have hlast := h'.last m (by simpa [← List.append_assoc] using hm) hgood
      rw [List.getLast?_append, hlast]
      rfl

/-- What the threads have done by themselves since `c`: the messages pushed meanwhile have been
accepted, and all that is not pending any more has been shown or left out. -/
structure Settling (a : DisplayAnswers) (c t : ClientProcess κ) : Prop where
  inv : t.Inv
  alive : t.terminated = false
  noneEmpty : t.NoneEmpty
  socket : t.socket = c.socket
  received : t.received = c.received
  images : ∃ ms done kept, t.current = c.current ++ ms ∧ c.pending ++ ms = done ++ t.pending ∧
    t.shown = c.shown ++ kept ∧ Shows a done kept

theorem settling_refl (a : DisplayAnswers) {c : ClientProcess κ} (h : c.Inv)
    (hlive : c.terminated = false) (hne : c.NoneEmpty) : Settling a c c where
  inv := h
  alive := hlive
  noneEmpty := hne
  socket := rfl
  received := rfl
  images := ⟨[], [], [], (List.append_nil _).symm, List.append_nil _, (List.append_nil _).symm,
    List.Sublist.refl _, by simp⟩

/-- A step that pushes nothing and shows nothing. -/
theorem Settling.of_same {a : DisplayAnswers} {c t t' : ClientProcess κ} (h : Settling a c t)
    (hinv : t'.Inv)
    (hsame : t'.terminated = t.terminated ∧ t'.socket = t.socket ∧ t'.received = t.received ∧
      t'.current = t.current ∧ t'.pending = t.pending ∧ t'.shown = t.shown)
    (hitems : (onMessage t'.client.inputBuffer).items = (onMessage t.client.inputBuffer).items) :
    Settling a c t' := by
  obtain ⟨hlive, hsocket, hreceived, hcurrent, hpending, hshown⟩ := hsame
  refine ⟨hinv, hlive.trans h.alive, ?_, hsocket.trans h.socket, hreceived.trans h.received, ?_⟩
  · rw [NoneEmpty, hpending, hitems]
    exact h.noneEmpty
  · rw [hcurrent, hpending, hshown]
    exact h.images

section Own

variable [DecidableEq κ] {a : DisplayAnswers} {c t : ClientProcess κ}

/-- The display thread is told about the image in hand. -/
def answer (a : DisplayAnswers) (t : ClientProcess κ) (image : Bytes) : Event κ :=
  .showImage (a.imdecode t.client.popped.length image) (a.nowValue t.client.popped.length)

/-- The image in hand is shown or left out. -/
theorem Settling.show (h : Settling a c t) {image : Bytes} (himage : t.image = some image) :
    Settling a c (t.step (t.answer a image)) ∧
      (t.step (t.answer a image)).backlog < t.backlog := by
  have hinv := inv_step t (t.answer a image) h.inv
  have hne : image ≠ [] := h.noneEmpty image (by simp [pending, himage])
  have hstep : t.step (t.answer a image) =
      { t with
        image := none
        shown := t.shown ++ if a.imdecode t.client.popped.length image then [image] else []
        fps := if a.imdecode t.client.popped.length image then
          t.fps.step (a.nowValue t.client.popped.length) else t.fps } := by
    rw [step_of_alive h.alive]
    cases hdecoded : a.imdecode t.client.popped.length image <;>
      simp [threadStep, answer, showStep, himage, hne, hdecoded]
  rw [hstep] at hinv ⊢
  constructor
  · obtain ⟨ms, done, kept, hcurrent, hpending, hshown, hshows⟩ := h.images
    refine ⟨hinv, h.alive, fun m hm => h.noneEmpty m ?_, h.socket, h.received, ms,
      done ++ [image], _, hcurrent, ?_, ?_, hshows.concat t.client.popped.length image⟩
    · simp only [pending, Option.toList_none, List.nil_append, List.mem_append] at hm ⊢
      exact hm.imp_left .inr
    · rw [hpending, pending, himage]
      simp [pending]
    · rw [← List.append_assoc, ← hshown]
  · have hchecking : t.client.displayPc = .popping →
        0 < t.client.displayImage.imageQueue.length := fun hpc =>
      List.length_pos_iff.mpr (h.inv.client.nonempty hpc)
    simp only [backlog, networkBacklog, displayBacklog, himage, Option.toList_some,
      Option.toList_none, List.length_singleton, List.length_nil]
    split_ifs with hpc
    · have := hchecking hpc
      omega
    · omega

/-- The image at the front is popped. -/
theorem Settling.pop (h : Settling a c t) (himage : t.image = none)
    (hpc : t.client.displayPc = .popping) :
    Settling a c (t.step .pop) ∧ (t.step .pop).backlog < t.backlog := by
  have hinv := inv_step t .pop h.inv
  obtain ⟨image, rest, hqueue⟩ := List.exists_cons_of_ne_nil (h.inv.client.nonempty hpc)
  have hstep : t.step .pop =
      { t with
        image := some image
        client := { t.client with
          displayImage :=
            { imageQueue := rest
              totalImageSize :=
                t.client.displayImage.totalImageSize - UInt32.ofNat image.length }
          popped := t.client.popped ++ [image]
          displayPc := .checking } } := by
    rw [step_of_alive h.alive]
    simp [threadStep, himage, popStep, hpc, ChatClient.step, ChatClient.popStep, DisplayImage.pop,
      hqueue]
  rw [hstep] at hinv ⊢
  refine ⟨h.of_same hinv ⟨rfl, rfl, rfl, rfl, ?_, rfl⟩ rfl, ?_⟩
  · simp [pending, himage, hqueue]
  · simp [backlog, networkBacklog, displayBacklog, himage, hpc, hqueue]
    omega

/-- The queue is found not to be empty. -/
theorem Settling.check (h : Settling a c t) (himage : t.image = none)
    (hpc : t.client.displayPc = .checking) (hqueue : t.client.displayImage.imageQueue ≠ []) :
    Settling a c (t.step .check) ∧ (t.step .check).backlog < t.backlog := by
  have hinv := inv_step t .check h.inv
  have hstep : t.step .check = { t with client := { t.client with displayPc := .popping } } := by
    rw [step_of_alive h.alive]
    simp [threadStep, himage, ChatClient.step, hpc, hqueue]
  have hpos := List.length_pos_iff.mpr hqueue
  rw [hstep] at hinv ⊢
  refine ⟨h.of_same hinv ⟨rfl, rfl, rfl, rfl, rfl, rfl⟩ rfl, ?_⟩
  simp [backlog, networkBacklog, displayBacklog, himage, hpc]
  omega

omit [DecidableEq κ] in
/-- A message of the decoder is accepted by the empty queue. -/
theorem onMessageStep_of_empty (h : t.Inv) (hqueue : t.client.displayImage.imageQueue = [])
    {message rest : Bytes} (hturn : onMessageTurn t.client.inputBuffer = .item message rest) :
    t.client.onMessageStep =
      { t.client with
        inputBuffer := rest
        displayImage :=
          { imageQueue := [message]
            totalImageSize := t.client.displayImage.totalImageSize + UInt32.ofNat message.length }
        arrivals := t.client.arrivals ++
          [⟨message, t.client.displayImage.queuedSize, true⟩] } := by
  have hlen := (onMessageTurn_eq_item_iff.mp hturn).1
  have hmax : maxLen = 1310720 := rfl
  have hfit : t.client.displayImage.queuedSize + message.length ≤ 1024 * 1024 * 10 := by
    simp only [DisplayImage.queuedSize, hqueue, List.map_nil, List.sum_nil]
    omega
  have hpush := DisplayImage.push_message h.client.accounted hlen
  rw [if_pos hfit] at hpush
  simp [ChatClient.onMessageStep, hturn, ChatClient.onStringMessage, hpush, hqueue]

/-- A turn of `onMessage`, with nothing in hand or queued: a message that it pushes is accepted. -/
theorem Settling.turn (h : Settling a c t) (hpc : t.client.networkPc = .inOnMessage)
    (himage : t.image = none) (hqueue : t.client.displayImage.imageQueue = []) :
    Settling a c (t.step .turn) ∧ (t.step .turn).backlog < t.backlog := by
  have hinv := inv_step t .turn h.inv
  have hstep : t.step .turn = { t with client := t.client.onMessageStep } := by
    rw [step_of_alive h.alive]
    simp [threadStep, ChatClient.step, hpc]
  have hidle : (t.client.onMessageStep.networkPc = .idle ∧
      t.client.onMessageStep.inputBuffer = t.client.inputBuffer ∧
      t.client.onMessageStep.arrivals = t.client.arrivals ∧
      t.client.onMessageStep.displayImage = t.client.displayImage ∧
      t.client.onMessageStep.displayPc = t.client.displayPc) ∨
      ∃ message rest, onMessageTurn t.client.inputBuffer = .item message rest := by
    rw [ChatClient.onMessageStep]
    cases hturn : onMessageTurn t.client.inputBuffer with
    | wait | refuse => exact .inl ⟨rfl, rfl, rfl, rfl, rfl⟩
    | item message rest => exact .inr ⟨message, rest, rfl⟩
  rw [hstep] at hinv ⊢
  rcases hidle with ⟨hidle, hbuffer, harrivals, hdisplay, hdisplayPc⟩ | ⟨message, rest, hturn⟩
  · refine ⟨h.of_same hinv ⟨rfl, rfl, rfl, ?_, ?_, rfl⟩ (by rw [hbuffer]), ?_⟩
    · simp [current, harrivals]
    · simp [pending, hdisplay]
    · simp [backlog, networkBacklog, displayBacklog, hidle, hdisplay, hdisplayPc, hpc]
  · have hitems : (onMessage t.client.inputBuffer).items = message :: (onMessage rest).items := by
      rw [onMessage, resumable_onMessageTurn.drain_item hturn]
      rfl
    have hbuf := (onMessageTurn_eq_item_iff.mp hturn).2
    rw [onMessageStep_of_empty h.inv hqueue hturn] at hinv ⊢
    obtain ⟨ms, done, kept, hcurrent, hpending, hshown, hshows⟩ := h.images
    refine ⟨⟨hinv, h.alive, fun m hm => h.noneEmpty m ?_, h.socket, h.received, ms ++ [message],
      done, kept, ?_, ?_, hshown, hshows⟩, ?_⟩
    · rw [hitems]
      simpa [pending, himage, hqueue] using hm
    · rw [← List.append_assoc, ← hcurrent]
      simp [current, List.drop_append_of_le_length h.inv.pushedBefore]
    · rw [← List.append_assoc, hpending]
      simp [pending, himage, hqueue]
    · have hbytes := congrArg List.length hbuf
      rw [List.length_append, length_send, kHeaderLen] at hbytes
      simp only [backlog, networkBacklog, displayBacklog, hpc, hqueue, List.length_singleton,
        List.length_nil]
      split_ifs <;> omega

/-- **Nobody waits for anybody.** If something is left to be done, one of the threads can do it. -/
theorem exists_own (h : Settling a c t) (hleft : t.backlog ≠ 0) :
    ∃ e, (Own e ∧ t.Answered a e) ∧ Settling a c (t.step e) ∧
      (t.step e).backlog < t.backlog := by
  cases himage : t.image with
  | some image =>
    refine ⟨t.answer a image, ⟨trivial, fun image' himage' => ?_⟩, h.show himage⟩
    rw [← Option.some.inj (himage.symm.trans himage')]
    exact ⟨rfl, rfl⟩
  | none =>
    cases hdisplay : t.client.displayPc with
    | popping => exact ⟨.pop, ⟨trivial, trivial⟩, h.pop himage hdisplay⟩
    | checking =>
      by_cases hqueue : t.client.displayImage.imageQueue = []
      · cases hnetwork : t.client.networkPc with
        | idle => simp [backlog, networkBacklog, displayBacklog, himage, hqueue, hnetwork] at hleft
        | inOnMessage => exact ⟨.turn, ⟨trivial, trivial⟩, h.turn hnetwork himage hqueue⟩
      · exact ⟨.check, ⟨trivial, trivial⟩, h.check himage hdisplay hqueue⟩

omit [DecidableEq κ] in
theorem settled_of_backlog (h : t.Inv) (hzero : t.backlog = 0) : t.Settled := by
  have hnonempty : t.client.displayPc = .popping →
      0 < t.client.displayImage.imageQueue.length := fun hpc =>
    List.length_pos_iff.mpr (h.client.nonempty hpc)
  unfold backlog networkBacklog displayBacklog at hzero
  have hqueue : t.client.displayImage.imageQueue.length = 0 ∧ t.image.toList.length = 0 := by
    split_ifs at hzero with hpc
    · have := hnonempty hpc
      omega
    · omega
  refine ⟨?_, ?_, List.length_eq_zero_iff.mp hqueue.1⟩
  · cases hpc : t.client.networkPc with
    | idle => rfl
    | inOnMessage =>
      rw [hpc] at hzero
      simp at hzero
  · cases himage : t.image with
    | none => rfl
    | some image => simp [himage] at hqueue

/-- **The client settles by itself**, within the steps of its backlog. -/
theorem exists_settled (a : DisplayAnswers) (h : c.Inv) (hlive : c.terminated = false)
    (hne : c.NoneEmpty) :
    ∃ es, es.length ≤ c.backlog ∧ Transition.Meets step (fun c e => Own e ∧ c.Answered a e) c es ∧
      Settling a c (Transition.run step c es) ∧ (Transition.run step c es).Settled := by
  obtain ⟨es, hlen, hmeets, hsettling, hzero⟩ := Transition.exists_run_of_potential
    (fun t ht hne => exists_own ht hne) (settling_refl a h hlive hne)
  exact ⟨es, hlen, hmeets, hsettling, settled_of_backlog hsettling.inv hzero⟩

/-- The `chunk` arrives between two calls of `onMessage`. -/
theorem step_receive (hlive : c.terminated = false) {k : κ} (hsocket : c.socket = some k)
    (hidle : c.client.networkPc = .idle) (chunk : Bytes) :
    c.step (.receive chunk) =
      { c with client := c.client.step (.receive chunk), received := c.received ++ chunk } := by
  rw [step_of_alive hlive]
  simp [threadStep, receive, hsocket, hidle]

/-- A chunk arrives at a client that has settled. -/
theorem Settled.receive (h : c.Settled) (hlive : c.terminated = false) {k : κ}
    (hsocket : c.socket = some k) (chunk : Bytes) :
    let t := c.step (.receive chunk)
    t.terminated = false ∧ t.socket = some k ∧ t.received = c.received ++ chunk ∧
      t.current = c.current ∧ t.pending = [] ∧ t.shown = c.shown := by
  rw [step_receive hlive hsocket h.network chunk]
  simp [hlive, hsocket, current, ClientProcess.pending, h.image, h.queue, ChatClient.step,
    h.network]

/-- **What arrives is shown.** The client settles, the `chunk` arrives, and the client settles
again: then everything that can be read off the bytes received has been pushed, and of everything
that was pending and has been pushed meanwhile the display thread has shown what can be decoded, the
last image at any rate. -/
theorem exists_shown (a : DisplayAnswers) (h : c.Inv) (hne : c.NoneEmpty) {k : κ}
    (hconn : c.connection = some k) {chunk : Bytes}
    (hitems : ∀ m ∈ (onMessage (c.received ++ chunk)).items, m ≠ []) :
    ∃ es₁ es₂, Transition.Meets step (fun c e => Own e ∧ c.Answered a e) c es₁ ∧
      (Transition.run step c es₁).connection = some k ∧
      (Transition.run step c es₁).received = c.received ∧
      Transition.Meets step (fun c e => Own e ∧ c.Answered a e)
        ((Transition.run step c es₁).step (.receive chunk)) es₂ ∧
      let t := Transition.run step c (es₁ ++ .receive chunk :: es₂)
      t.connection = some k ∧ t.received = c.received ++ chunk ∧ t.Settled ∧
        t.current = (onMessage t.received).items ∧
        ∃ ms kept, t.current = c.current ++ ms ∧ t.shown = c.shown ++ kept ∧
          Shows a (c.pending ++ ms) kept := by
  obtain ⟨hlive, hsocket⟩ := connection_eq_some_iff.mp hconn
  obtain ⟨es₁, -, hmeets₁, hsettling₁, hsettled₁⟩ := exists_settled a h hlive hne
  have hsocket₁ := hsettling₁.socket.trans hsocket
  have hinv := inv_step _ (.receive chunk) hsettling₁.inv
  obtain ⟨hlive₂, hsocket₂, hreceived₂, hcurrent₂, hpending₂, hshown₂⟩ :=
    hsettled₁.receive hsettling₁.alive hsocket₁ chunk
  have hne₂ : ((Transition.run step c es₁).step (.receive chunk)).NoneEmpty := by
    intro m hm
    rw [hpending₂, List.nil_append] at hm
    refine hitems m ?_
    rw [← hsettling₁.received, ← hreceived₂, hinv.items_received]
    exact List.mem_append_right _ hm
  obtain ⟨es₂, -, hmeets₂, hsettling₂, hsettled₂⟩ := exists_settled a hinv hlive₂ hne₂
  obtain ⟨ms₁, done₁, kept₁, hcur₁, hdone₁, hshow₁, hshows₁⟩ := hsettling₁.images
  obtain ⟨ms₂, done₂, kept₂, hcur₂, hdone₂, hshow₂, hshows₂⟩ := hsettling₂.images
  rw [hsettled₁.pending, List.append_nil] at hdone₁
  rw [hsettled₂.pending, hpending₂, List.append_nil, List.nil_append] at hdone₂
  refine ⟨es₁, es₂, hmeets₁, connection_eq_some_iff.mpr ⟨hsettling₁.alive, hsocket₁⟩,
    hsettling₁.received, hmeets₂, ?_⟩
  rw [Transition.run_append, Transition.run_cons]
  refine ⟨?_, ?_, hsettled₂, hsettling₂.inv.current_eq hsettled₂.network, ms₁ ++ ms₂,
    kept₁ ++ kept₂, ?_, ?_, ?_⟩
  · exact connection_eq_some_iff.mpr ⟨hsettling₂.alive, hsettling₂.socket.trans hsocket₂⟩
  · rw [hsettling₂.received, hreceived₂, hsettling₁.received]
  · rw [hcur₂, hcurrent₂, hcur₁, List.append_assoc]
  · rw [hshow₂, hshown₂, hshow₁, List.append_assoc]
  · rw [← List.append_assoc, hdone₁, hdone₂]
    exact hshows₁.append hshows₂

/-! ### The network thread alone -/

/-- The network thread comes to the end of `onMessage` without the display thread. -/
theorem exists_idle (hlive : c.terminated = false) :
    ∃ es : List (Event κ), (∀ e ∈ es, e = .turn) ∧
      let t := Transition.run step c es
      t.client.networkPc = .idle ∧ t.terminated = false ∧ t.socket = c.socket ∧
        t.received = c.received := by
  have hnext : ∀ t : ClientProcess κ,
      t.terminated = false ∧ t.socket = c.socket ∧ t.received = c.received →
      t.networkBacklog ≠ 0 → ∃ e : Event κ, e = .turn ∧
        ((t.step e).terminated = false ∧ (t.step e).socket = c.socket ∧
          (t.step e).received = c.received) ∧ (t.step e).networkBacklog < t.networkBacklog := by
    rintro t ⟨hlive, hsocket, hreceived⟩ hleft
    have hstep : t.step .turn = { t with client := t.client.step .turn } :=
      step_of_alive hlive .turn
    have hpc : t.client.networkPc = .inOnMessage := by
      cases hpc : t.client.networkPc with
      | idle => simp [networkBacklog, hpc] at hleft
      | inOnMessage => rfl
    rw [networkBacklog, hpc]
    refine ⟨.turn, rfl, ?_, ?_⟩ <;> rw [hstep]
    · exact ⟨hlive, hsocket, hreceived⟩
    · rcases t.client.turn_cases with ⟨-, -, hidle⟩ | ⟨m, -, hbuf, hbusy⟩
      · simp [networkBacklog, hidle]
      · have hbytes := congrArg List.length hbuf
        rw [List.length_append, length_send, kHeaderLen] at hbytes
        simp only [networkBacklog, hbusy]
        omega
  obtain ⟨es, -, hmeets, hkept, hzero⟩ :=
    Transition.exists_run_of_potential hnext ⟨hlive, rfl, rfl⟩
  refine ⟨es, Transition.meets_iff_forall.mp hmeets, ?_, hkept⟩
  cases hpc : (Transition.run step c es).client.networkPc with
  | idle => rfl
  | inOnMessage =>
    rw [networkBacklog, hpc] at hzero
    exact absurd hzero (Nat.succ_ne_zero _)

end Own

end ClientProcess
