import CameraVideoStream.Client.DisplayImage
import CameraVideoStream.Common.Stream
import CameraVideoStream.Foundation.Transition

/-!
# The client, its two threads interleaved

The network thread appends each chunk it receives to the input buffer and runs
`LengthHeaderCodec::onMessage` on it; `onStringMessage` pushes every message that is delivered to
the display queue (`client/client.cc`). The display thread (`DisplayImage::threadFunction`,
`client/display_image.cc`) reads `image_queue_.empty()` and, if the queue was not empty, pops.
`push`, `pop` and `empty()` are one step each, and the steps of the two threads interleave in any
way: the emptiness test and the pop that follows it are two steps.

A step of a thread that is not at that point of its program leaves the state as it is, so a run is
any list of events (`Transition.run`).

## Main definitions

* `ChatClient`, `ChatClient.step`: the state of both threads, and their steps.
* `ChatClient.Inv`: the position in the stream, the frames accepted, the queue and its counter.

## Main results

* `ChatClient.inv_run`: the invariant holds after every run.
* `ChatClient.run_spec`: what has been displayed and what is queued, after every run.
-/

open Codec

/-- One call of `onStringMessage`: the message, the sizes queued when it is pushed, and what `push`
returns. -/
structure Arrival where
  message : Bytes
  queued : ℕ
  accepted : Bool
  deriving DecidableEq

/-- Where the network thread is: waiting for a chunk, or in the loop of `onMessage`. -/
inductive NetworkPc where
  | idle
  | inOnMessage
  deriving DecidableEq

/-- Where the display thread is: before the emptiness test, or between the test and the pop. -/
inductive DisplayPc where
  | checking
  | popping
  deriving DecidableEq

/-- The client on one connection. `received`, `arrivals` and `popped` record the run: all bytes
received, the messages pushed, the images popped; `emptyPop` records a pop of an empty queue. -/
structure ChatClient where
  networkPc : NetworkPc := .idle
  inputBuffer : Bytes := []
  shutdowns : ℕ := 0
  displayImage : DisplayImage := {}
  displayPc : DisplayPc := .checking
  received : Bytes := []
  arrivals : List Arrival := []
  popped : List Bytes := []
  emptyPop : Bool := false
  deriving DecidableEq

namespace ChatClient

/-- What can happen next: a chunk arrives, `onMessage` takes a turn of its loop, or the display
thread tests for emptiness or pops. -/
inductive Event where
  | receive (chunk : Bytes)
  | turn
  | check
  | pop
  deriving DecidableEq

/-- `ChatClient::onStringMessage`. -/
def onStringMessage (c : ChatClient) (message : Bytes) : ChatClient :=
  let r := c.displayImage.push message (UInt32.ofNat message.length)
  { c with
    displayImage := r.2
    arrivals := c.arrivals ++ [⟨message, c.displayImage.queuedSize, r.1⟩] }

/-- One turn of the loop of `onMessage`, with `onStringMessage` as the callback. -/
def onMessageStep (c : ChatClient) : ChatClient :=
  match onMessageTurn c.inputBuffer with
  | .wait => { c with networkPc := .idle }
  | .refuse => { c with networkPc := .idle, shutdowns := c.shutdowns + 1 }
  | .item message rest => { c.onStringMessage message with inputBuffer := rest }

/-- `pop()` in `DisplayImage::threadFunction`. -/
def popStep (c : ChatClient) : ChatClient :=
  match c.displayImage.pop with
  | none => { c with emptyPop := true }
  | some (image, d) =>
    { c with displayImage := d, popped := c.popped ++ [image], displayPc := .checking }

/-- One step of one of the threads. -/
def step (c : ChatClient) : Event → ChatClient
  | .receive chunk =>
    match c.networkPc with
    | .idle =>
      { c with
        networkPc := .inOnMessage
        inputBuffer := c.inputBuffer ++ chunk
        received := c.received ++ chunk }
    | .inOnMessage => c
  | .turn =>
    match c.networkPc with
    | .idle => c
    | .inOnMessage => c.onMessageStep
  | .check =>
    match c.displayPc with
    | .checking => if c.displayImage.imageQueue.isEmpty then c else { c with displayPc := .popping }
    | .popping => c
  | .pop =>
    match c.displayPc with
    | .checking => c
    | .popping => c.popStep

/-- What holds after every run. -/
structure Inv (c : ChatClient) : Prop where
  /-- No message that was pushed is longer than the decoder accepts. -/
  lengths : ∀ a ∈ c.arrivals, a.message.length ≤ maxLen
  /-- The bytes received are the frames of the messages pushed, then the unread bytes. -/
  stream : c.received = sendAll (c.arrivals.map Arrival.message) ++ c.inputBuffer
  /-- Between two calls of `onMessage` no message can be read off the receive buffer. -/
  drained : c.networkPc = .idle → (onMessage c.inputBuffer).items = []
  /-- The images popped, then those queued, are the messages accepted. -/
  images : c.popped ++ c.displayImage.imageQueue =
    (c.arrivals.filter Arrival.accepted).map Arrival.message
  /-- A message is accepted exactly when it fits. -/
  admission : ∀ a ∈ c.arrivals,
    a.accepted = true ↔ a.queued + a.message.length ≤ 1024 * 1024 * 10
  accounted : c.displayImage.Accounted
  /-- Only the display thread pops, so a queue that it has found non-empty stays so. -/
  nonempty : c.displayPc = .popping → c.displayImage.imageQueue ≠ []
  noEmptyPop : c.emptyPop = false

theorem inv_init : Inv {} where
  lengths := by simp
  stream := rfl
  drained _ := rfl
  images := rfl
  admission := by simp
  accounted := DisplayImage.accounted_empty
  nonempty := by simp
  noEmptyPop := rfl

/-! ### What each step keeps -/

theorem Inv.onStringMessage {c : ChatClient} (h : c.Inv) (hpc : c.networkPc = .inOnMessage)
    {message rest : Bytes} (hlen : message.length ≤ maxLen)
    (hbuf : c.inputBuffer = send message ++ rest) :
    Inv { c.onStringMessage message with inputBuffer := rest } := by
  have hstream : c.received =
      sendAll (c.arrivals.map Arrival.message ++ [message]) ++ rest := by
    rw [sendAll_append, sendAll_cons, sendAll_nil, List.append_nil, List.append_assoc, ← hbuf]
    exact h.stream
  have hlengths (a : Arrival) (ha : a ∈ c.arrivals ∨ a.message = message) :
      a.message.length ≤ maxLen := by
    rcases ha with ha | rfl
    · exact h.lengths a ha
    · exact hlen
  have haccounted := h.accounted.push_message hlen
  simp only [ChatClient.onStringMessage]
  rw [DisplayImage.push_message h.accounted hlen] at haccounted ⊢
  by_cases hfit : c.displayImage.queuedSize + message.length ≤ 1024 * 1024 * 10
  · simp only [if_pos hfit] at haccounted ⊢
    refine ⟨?_, ?_, by simp [hpc], ?_, ?_, haccounted, ?_, h.noEmptyPop⟩
    · simpa [or_imp, forall_and] using ⟨h.lengths, hlen⟩
    · simpa using hstream
    · simp [← List.append_assoc, h.images]
    · simpa [or_imp, forall_and, hfit] using h.admission
    · simp
  · simp only [if_neg hfit] at haccounted ⊢
    refine ⟨?_, ?_, by simp [hpc], ?_, ?_, haccounted, h.nonempty, h.noEmptyPop⟩
    · simpa [or_imp, forall_and] using ⟨h.lengths, hlen⟩
    · simpa using hstream
    · simp [h.images]
    · simpa [or_imp, forall_and, hfit] using h.admission

theorem Inv.onMessageStep {c : ChatClient} (h : c.Inv) (hpc : c.networkPc = .inOnMessage) :
    c.onMessageStep.Inv := by
  rw [ChatClient.onMessageStep]
  cases hturn : onMessageTurn c.inputBuffer with
  | wait => exact { h with drained := fun _ => by rw [onMessage, drain_wait hturn] }
  | refuse => exact { h with drained := fun _ => by rw [onMessage, drain_refuse hturn] }
  | item message rest =>
    obtain ⟨hlen, hbuf⟩ := onMessageTurn_eq_item_iff.mp hturn
    exact h.onStringMessage hpc hlen hbuf

theorem Inv.popStep {c : ChatClient} (h : c.Inv) (hpc : c.displayPc = .popping) :
    c.popStep.Inv := by
  have hne := h.nonempty hpc
  cases hpop : c.displayImage.pop with
  | none =>
    rw [DisplayImage.pop_eq_none_iff] at hpop
    exact absurd hpop hne
  | some r =>
    obtain ⟨image, d⟩ := r
    obtain ⟨hqueue, -, haccounted⟩ := h.accounted.pop hpop
    have himages := h.images
    rw [hqueue, List.append_cons] at himages
    simp only [ChatClient.popStep, hpop]
    exact { h with images := himages, accounted := haccounted, nonempty := by simp }

theorem inv_step (c : ChatClient) (e : Event) (h : c.Inv) : (c.step e).Inv := by
  cases e with
  | receive chunk =>
    cases hpc : c.networkPc with
    | idle =>
      simp only [step, hpc]
      exact { h with
        stream := by simp only [h.stream, List.append_assoc]
        drained := by simp }
    | inOnMessage => simpa only [step, hpc] using h
  | turn =>
    cases hpc : c.networkPc with
    | idle => simpa only [step, hpc] using h
    | inOnMessage => simpa only [step, hpc] using h.onMessageStep hpc
  | check =>
    cases hpc : c.displayPc with
    | checking =>
      simp only [step, hpc]
      split_ifs with hempty
      · exact h
      · exact { h with nonempty := fun _ => by simpa using hempty }
    | popping => simpa only [step, hpc] using h
  | pop =>
    cases hpc : c.displayPc with
    | checking => simpa only [step, hpc] using h
    | popping => simpa only [step, hpc] using h.popStep hpc

/-- **The invariant holds after every run**, whatever arrives and however the threads interleave. -/
theorem inv_run (es : List Event) : (Transition.run step {} es).Inv :=
  Transition.run_induction step inv_step inv_init es

/-! ### What the client displays -/

/-- The complete valid frames that the received bytes begin with are the messages pushed, and then
those that can be read off the receive buffer. -/
theorem Inv.items_received {c : ChatClient} (h : c.Inv) :
    (onMessage c.received).items =
      c.arrivals.map Arrival.message ++ (onMessage c.inputBuffer).items := by
  have hlen : ∀ m ∈ c.arrivals.map Arrival.message, m.length ≤ maxLen := by
    simpa using h.lengths
  rw [h.stream, onMessage_sendAll_append hlen]

theorem Inv.messages_prefix {c : ChatClient} (h : c.Inv) :
    c.arrivals.map Arrival.message <+: (onMessage c.received).items := by
  rw [h.items_received]
  exact List.prefix_append _ _

/-- **The client end to end.** After every run, with `frames` the complete valid frames that the
received bytes begin with: the received bytes are the frames decoded so far and the unread ones,
and between two calls of `onMessage` the frames decoded so far are all of `frames`; the images
popped followed by those queued are a subsequence of `frames`, namely of those decoded so
far, without the ones that `push` rejected; a frame is rejected only if the sizes then queued and
its own exceed the limit; the counter is the exact sum of the sizes queued and within the limit; a
rejected push changes nothing; no pop ran on an empty queue, and the next one neither does nor
underflows. -/
theorem run_spec (es : List Event) :
    let c := Transition.run step {} es
    let frames := (onMessage c.received).items
    c.received = sendAll (c.arrivals.map Arrival.message) ++ c.inputBuffer ∧
      (∀ a ∈ c.arrivals, a.message.length ≤ 65536 * 20) ∧
      (c.popped ++ c.displayImage.imageQueue).Sublist frames ∧
      c.arrivals.map Arrival.message <+: frames ∧
      (c.networkPc = .idle → c.arrivals.map Arrival.message = frames) ∧
      c.popped ++ c.displayImage.imageQueue =
        (c.arrivals.filter Arrival.accepted).map Arrival.message ∧
      (∀ a ∈ c.arrivals, a.accepted = false →
        1024 * 1024 * 10 < a.queued + a.message.length) ∧
      c.displayImage.totalImageSize.toNat = (c.displayImage.imageQueue.map List.length).sum ∧
      (c.displayImage.imageQueue.map List.length).sum ≤ 1024 * 1024 * 10 ∧
      (∀ image size, (c.displayImage.push image size).1 = false →
        (c.displayImage.push image size).2 = c.displayImage) ∧
      c.emptyPop = false ∧
      (c.displayPc = .popping → ∃ image rest, c.displayImage.imageQueue = image :: rest ∧
        image.length ≤ c.displayImage.totalImageSize.toNat) := by
  intro c frames
  have h : c.Inv := inv_run es
  refine ⟨h.stream, h.lengths, ?_, h.messages_prefix, fun hidle => ?_, h.images, ?_,
    h.accounted.total, h.accounted.le, fun image size => DisplayImage.push_of_false, h.noEmptyPop,
    ?_⟩
  · rw [h.images]
    exact (List.filter_sublist.map _).trans h.messages_prefix.sublist
  · show _ = (onMessage c.received).items
    rw [h.items_received, h.drained hidle, List.append_nil]
  · intro a ha hrejected
    by_contra hfit
    simp [(h.admission a ha).mpr (by omega)] at hrejected
  · intro hpc
    obtain ⟨image, rest, hqueue⟩ := List.exists_cons_of_ne_nil (h.nonempty hpc)
    refine ⟨image, rest, hqueue, ?_⟩
    rw [h.accounted.total, DisplayImage.queuedSize, hqueue]
    simp

end ChatClient
