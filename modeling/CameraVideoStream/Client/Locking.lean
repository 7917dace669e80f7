import CameraVideoStream.Client.Client
import CameraVideoStream.Common.Truncation
import CameraVideoStream.Foundation.Mutex
import CameraVideoStream.Foundation.Potential

/-!
# The display queue, its operations step by step

`DisplayImage::push` and `DisplayImage::pop` (`client/display_image.cc`) run under `mutex_`, but
they are not one step each: `push` tests the counter, puts the image into the queue and then adds to
the counter, `pop` takes the image out and then subtracts. And `threadFunction` reads
`image_queue_.empty()` without the mutex, so that it can see the queue in the middle of a `push`,
the image already in it and the counter not yet changed.

Here every one of these is a step, and the steps of the two threads interleave in any way that the
mutex allows. This refines the client of `ChatClient`, where `push`, `pop` and the test of emptiness
are one step each (`LockedClient.refinement`): an operation takes place when it changes the queue,
and not, say, when it unlocks the mutex, for the test sees it from then on. So all that holds of
`ChatClient` holds here; and the counter is the sum of the sizes queued whenever nobody holds the
mutex (`LockedClient.run_locked`).

## Main definitions

* `LockedClient`, `LockedClient.step`: the client with its mutex.
* `LockedClient.toClient`: what it is as a `ChatClient`.
* `LockedClient.Inv`: who holds the mutex, and what a thread inside knows of the queue.

## Main results

* `LockedClient.refinement`, `LockedClient.run_locked`, `LockedClient.exists_unlocked`.
-/

open Codec

/-- The threads of the client. -/
inductive Thread where
  | network
  | display
  deriving DecidableEq

/-- Where the network thread is: waiting for a chunk, in the loop of `onMessage`, or in `push` of a
message, before the mutex is locked, before the test, before the image is queued, before it is
counted, or before the mutex is unlocked. -/
inductive PushPc where
  | idle
  | inOnMessage
  | locking (message : Bytes)
  | testing (message : Bytes)
  | queueing (message : Bytes)
  | counting (message : Bytes)
  | unlocking (message : Bytes)
  deriving DecidableEq

/-- Where the display thread is: before the test of emptiness, or in `pop`, before the mutex is
locked, before `front()`, before the image is taken out, before it is discounted, or before the
mutex is unlocked. -/
inductive PopPc where
  | checking
  | locking
  | fronting
  | popping (image : Bytes)
  | counting (image : Bytes)
  | unlocking
  deriving DecidableEq

/-- The network thread is between `lock` and `unlock`. -/
def PushPc.inside : PushPc → Bool
  | testing _ | queueing _ | counting _ | unlocking _ => true
  | idle | inOnMessage | locking _ => false

/-- The display thread is between `lock` and `unlock`. -/
def PopPc.inside : PopPc → Bool
  | fronting | popping _ | counting _ | unlocking => true
  | checking | locking => false

/-- The steps to the outside. -/
def PushPc.remaining : PushPc → ℕ
  | testing _ => 4
  | queueing _ => 3
  | counting _ => 2
  | unlocking _ => 1
  | idle | inOnMessage | locking _ => 0

def PopPc.remaining : PopPc → ℕ
  | fronting => 4
  | popping _ => 3
  | counting _ => 2
  | unlocking => 1
  | checking | locking => 0

/-! What the positions are in a `ChatClient`, whose operations take place when they change the
queue. -/

def PushPc.networkPc : PushPc → NetworkPc
  | idle => .idle
  | inOnMessage | locking _ | testing _ | queueing _ | counting _ | unlocking _ => .inOnMessage

def PopPc.displayPc : PopPc → DisplayPc
  | checking | counting _ | unlocking => .checking
  | locking | fronting | popping _ => .popping

/-- What is still to be added to the counter. -/
def PushPc.pending : PushPc → UInt32
  | counting message => UInt32.ofNat message.length
  | idle | inOnMessage | locking _ | testing _ | queueing _ | unlocking _ => 0

/-- What is still to be subtracted from the counter. -/
def PopPc.pending : PopPc → UInt32
  | counting image => UInt32.ofNat image.length
  | checking | locking | fronting | popping _ | unlocking => 0

/-- The bytes of the receive buffer that belong to a message pushed already. -/
def PushPc.retrieved : PushPc → ℕ
  | counting message | unlocking message => kHeaderLen + message.length
  | idle | inOnMessage | locking _ | testing _ | queueing _ => 0

/-- The client with its mutex; `mutex` is the thread that holds it. The rest is as in
`ChatClient`. -/
structure LockedClient where
  pushPc : PushPc := .idle
  popPc : PopPc := .checking
  mutex : Option Thread := none
  inputBuffer : Bytes := []
  shutdowns : ℕ := 0
  displayImage : DisplayImage := {}
  received : Bytes := []
  arrivals : List Arrival := []
  popped : List Bytes := []
  emptyPop : Bool := false
  deriving DecidableEq

namespace LockedClient

/-- What can happen next: a chunk arrives, or one of the threads takes its next step. -/
inductive Event where
  | receive (chunk : Bytes)
  | step (t : Thread)
  deriving DecidableEq

/-- The next step of the network thread. The message stays in the receive buffer until `push` has
returned (`buf->retrieve(len)`). -/
def networkStep (c : LockedClient) : LockedClient :=
  match c.pushPc with
  | .idle => c
  | .inOnMessage =>
    match onMessageTurn c.inputBuffer with
    | .wait => { c with pushPc := .idle }
    | .refuse => { c with pushPc := .idle, shutdowns := c.shutdowns + 1 }
    | .item message _ => { c with pushPc := .locking message }
  | .locking message =>
    if c.mutex = none then { c with mutex := some .network, pushPc := .testing message } else c
  | .testing message =>
    if maxTotalImageSize < c.displayImage.totalImageSize + UInt32.ofNat message.length then
      { c with
        arrivals := c.arrivals ++ [⟨message, c.displayImage.queuedSize, false⟩]
        pushPc := .unlocking message }
    else
      { c with pushPc := .queueing message }
  | .queueing message =>
    let image := message.take (UInt32.ofNat message.length).toNat
    { c with
      displayImage := { c.displayImage with imageQueue := c.displayImage.imageQueue ++ [image] }
      arrivals := c.arrivals ++ [⟨message, c.displayImage.queuedSize, true⟩]
      pushPc := .counting message }
  | .counting message =>
    let total := c.displayImage.totalImageSize + UInt32.ofNat message.length
    { c with
      displayImage := { c.displayImage with totalImageSize := total }
      pushPc := .unlocking message }
  | .unlocking message =>
    { c with
      mutex := none
      inputBuffer := c.inputBuffer.drop (kHeaderLen + message.length)
      pushPc := .inOnMessage }

/-- The next step of the display thread. -/
def displayStep (c : LockedClient) : LockedClient :=
  match c.popPc with
  | .checking => if c.displayImage.imageQueue.isEmpty then c else { c with popPc := .locking }
  | .locking =>
    if c.mutex = none then { c with mutex := some .display, popPc := .fronting } else c
  | .fronting =>
    match c.displayImage.imageQueue with
    | [] => { c with emptyPop := true }
    | image :: _ => { c with popPc := .popping image }
  | .popping image =>
    { c with
      displayImage := { c.displayImage with imageQueue := c.displayImage.imageQueue.tail }
      popped := c.popped ++ [image]
      popPc := .counting image }
  | .counting image =>
    let total := c.displayImage.totalImageSize - UInt32.ofNat image.length
    { c with
      displayImage := { c.displayImage with totalImageSize := total }
      popPc := .unlocking }
  | .unlocking => { c with mutex := none, popPc := .checking }

/-- One step of one of the threads. -/
def step (c : LockedClient) : Event → LockedClient
  | .receive chunk =>
    match c.pushPc with
    | .idle =>
      { c with
        pushPc := .inOnMessage
        inputBuffer := c.inputBuffer ++ chunk
        received := c.received ++ chunk }
    | _ => c
  | .step .network => c.networkStep
  | .step .display => c.displayStep

/-! ### As a `ChatClient` -/

/-- What the client is as a `ChatClient`: an operation takes place when it changes the queue, so the
counter is then what the operation will make it, and the message pushed has left the buffer. -/
def toClient (c : LockedClient) : ChatClient where
  networkPc := c.pushPc.networkPc
  inputBuffer := c.inputBuffer.drop c.pushPc.retrieved
  shutdowns := c.shutdowns
  displayImage :=
    ⟨c.displayImage.totalImageSize + c.pushPc.pending - c.popPc.pending, c.displayImage.imageQueue⟩
  displayPc := c.popPc.displayPc
  received := c.received
  arrivals := c.arrivals
  popped := c.popped
  emptyPop := c.emptyPop

/-- The thread is between `lock` and `unlock`. -/
def Critical (c : LockedClient) : Thread → Prop
  | .network => c.pushPc.inside = true
  | .display => c.popPc.inside = true

/-- The message that the network thread is pushing. -/
def message (c : LockedClient) : Option Bytes :=
  match c.pushPc with
  | .locking m | .testing m | .queueing m | .counting m | .unlocking m => some m
  | .idle | .inOnMessage => none

/-- What holds after every run. -/
structure Inv (c : LockedClient) : Prop where
  guards : Mutex.Guards c.mutex c.Critical
  /-- The message that is being pushed is still at the front of the receive buffer. -/
  message : ∀ m ∈ c.message, ∃ rest, onMessageTurn c.inputBuffer = .item m rest
  /-- Nobody changes the counter after the test. -/
  fits : ∀ m, c.pushPc = .queueing m →
    ¬ maxTotalImageSize < c.displayImage.totalImageSize + UInt32.ofNat m.length
  /-- Nobody takes out the image that `front()` has read. -/
  front : ∀ image, c.popPc = .popping image → ∃ rest, c.displayImage.imageQueue = image :: rest

theorem inv_init : Inv {} where
  guards t := by cases t <;> simp [Critical, PushPc.inside, PopPc.inside]
  message := by simp [LockedClient.message]
  fits := by simp
  front := by simp

/-! ### What each step keeps -/

section Steps

variable {c : LockedClient}

/-- A step of the network thread that neither locks nor unlocks. -/
theorem Inv.stay_network (h : c.Inv) {c' : LockedClient} (hmutex : c'.mutex = c.mutex)
    (hpop : c'.popPc = c.popPc) (hpush : c'.pushPc.inside = c.pushPc.inside) :
    Mutex.Guards c'.mutex c'.Critical := by
  rw [hmutex]
  refine h.guards.stay fun u => ?_
  cases u <;> simp [Critical, hpop, hpush]

/-- A step of the display thread that neither locks nor unlocks. -/
theorem Inv.stay_display (h : c.Inv) {c' : LockedClient} (hmutex : c'.mutex = c.mutex)
    (hpush : c'.pushPc = c.pushPc) (hpop : c'.popPc.inside = c.popPc.inside) :
    Mutex.Guards c'.mutex c'.Critical := by
  rw [hmutex]
  refine h.guards.stay fun u => ?_
  cases u <;> simp [Critical, hpop, hpush]

/-- While the network thread is inside, the display thread is outside. -/
theorem Inv.display_outside (h : c.Inv) (hpush : c.pushPc.inside = true) :
    c.popPc.inside = false := by
  by_contra hpop
  rw [Bool.not_eq_false] at hpop
  cases h.guards.exclusive (t := Thread.network) (u := Thread.display) hpush hpop

theorem Inv.networkStep (h : c.Inv) : c.networkStep.Inv := by
  cases hpc : c.pushPc with
  | idle => simpa only [LockedClient.networkStep, hpc] using h
  | inOnMessage =>
    simp only [LockedClient.networkStep, hpc]
    cases hturn : onMessageTurn c.inputBuffer with
    | wait =>
      exact ⟨h.stay_network rfl rfl (by simp [hpc, PushPc.inside]), by simp [LockedClient.message],
        by simp, h.front⟩
    | refuse =>
      exact ⟨h.stay_network rfl rfl (by simp [hpc, PushPc.inside]), by simp [LockedClient.message],
        by simp, h.front⟩
    | item message rest =>
      refine ⟨h.stay_network rfl rfl (by simp [hpc, PushPc.inside]), ?_, by simp, h.front⟩
      intro m hm
      obtain rfl : message = m := by simpa [LockedClient.message] using hm
      exact ⟨rest, hturn⟩
  | locking m =>
    simp only [LockedClient.networkStep, hpc]
    have hmessage := h.message m (by simp [LockedClient.message, hpc])
    split_ifs with hfree
    · have hguards := h.guards
      rw [hfree] at hguards
      refine ⟨hguards.lock (by simp [Critical, PushPc.inside]) fun u hu => ?_, ?_, by simp, h.front⟩
      · cases u with
        | network => exact absurd rfl hu
        | display => exact Iff.rfl
      · simpa [LockedClient.message] using hmessage
    · exact h
  | testing m =>
    simp only [LockedClient.networkStep, hpc]
    have hmessage := h.message m (by simp [LockedClient.message, hpc])
    split_ifs with hfull
    · refine ⟨h.stay_network rfl rfl (by simp [hpc, PushPc.inside]), ?_, by simp, h.front⟩
      simpa [LockedClient.message] using hmessage
    · refine ⟨h.stay_network rfl rfl (by simp [hpc, PushPc.inside]), ?_, ?_, h.front⟩
      · simpa [LockedClient.message] using hmessage
      · rintro _ ⟨⟩
        exact hfull
  | queueing m =>
    simp only [LockedClient.networkStep, hpc]
    have hmessage := h.message m (by simp [LockedClient.message, hpc])
    refine ⟨h.stay_network rfl rfl (by simp [hpc, PushPc.inside]), ?_, by simp,
      fun image hpop => ?_⟩
    · simpa [LockedClient.message] using hmessage
    · obtain ⟨rest, hqueue⟩ := h.front image hpop
      exact ⟨rest ++ [_], by simp only [hqueue]; rfl⟩
  | counting m =>
    simp only [LockedClient.networkStep, hpc]
    have hmessage := h.message m (by simp [LockedClient.message, hpc])
    refine ⟨h.stay_network rfl rfl (by simp [hpc, PushPc.inside]), ?_, by simp, h.front⟩
    simpa [LockedClient.message] using hmessage
  | unlocking m =>
    simp only [LockedClient.networkStep, hpc]
    have hcritical : c.Critical .network := by simp [Critical, hpc, PushPc.inside]
    have hguards := h.guards
    rw [h.guards.holder_eq hcritical] at hguards
    refine ⟨hguards.unlock (by simp [Critical, PushPc.inside]) fun u hu => ?_,
      by simp [LockedClient.message], by simp, h.front⟩
    cases u with
    | network => exact absurd rfl hu
    | display => exact Iff.rfl

theorem Inv.displayStep (h : c.Inv) : c.displayStep.Inv := by
  cases hpc : c.popPc with
  | checking =>
    simp only [LockedClient.displayStep, hpc]
    split_ifs
    · exact h
    · exact ⟨h.stay_display rfl rfl (by simp [hpc, PopPc.inside]), h.message, h.fits, by simp⟩
  | locking =>
    simp only [LockedClient.displayStep, hpc]
    split_ifs with hfree
    · have hguards := h.guards
      rw [hfree] at hguards
      refine ⟨hguards.lock (by simp [Critical, PopPc.inside]) fun u hu => ?_, h.message, h.fits,
        by simp⟩
      cases u with
      | network => exact Iff.rfl
      | display => exact absurd rfl hu
    · exact h
  | fronting =>
    simp only [LockedClient.displayStep, hpc]
    cases hqueue : c.displayImage.imageQueue with
    | nil =>
      exact ⟨h.stay_display rfl rfl (by simp [hpc, PopPc.inside]), h.message, h.fits, by simp⟩
    | cons image rest =>
      refine ⟨h.stay_display rfl rfl (by simp [hpc, PopPc.inside]), h.message, h.fits, ?_⟩
      rintro _ ⟨⟩
      exact ⟨rest, hqueue⟩
  | popping image =>
    simp only [LockedClient.displayStep, hpc]
    exact ⟨h.stay_display rfl rfl (by simp [hpc, PopPc.inside]), h.message, h.fits, by simp⟩
  | counting image =>
    simp only [LockedClient.displayStep, hpc]
    refine ⟨h.stay_display rfl rfl (by simp [hpc, PopPc.inside]), h.message, fun m hpush => ?_,
      by simp⟩
    -- the network thread is not inside
    have hout := h.display_outside (by simp [show c.pushPc = _ from hpush, PushPc.inside])
    simp [hpc, PopPc.inside] at hout
  | unlocking =>
    simp only [LockedClient.displayStep, hpc]
    have hcritical : c.Critical .display := by simp [Critical, hpc, PopPc.inside]
    have hguards := h.guards
    rw [h.guards.holder_eq hcritical] at hguards
    refine ⟨hguards.unlock (by simp [Critical, PopPc.inside]) fun u hu => ?_, h.message, h.fits,
      by simp⟩
    cases u with
    | network => exact Iff.rfl
    | display => exact absurd rfl hu

theorem inv_step (c : LockedClient) (e : Event) (h : c.Inv) : (c.step e).Inv := by
  cases e with
  | receive chunk =>
    simp only [step]
    split
    · next hpc =>
      exact ⟨h.stay_network rfl rfl (by simp [hpc, PushPc.inside]), by simp [LockedClient.message],
        by simp, h.front⟩
    · exact h
  | step t =>
    cases t with
    | network => exact h.networkStep
    | display => exact h.displayStep

end Steps

/-! ### Refinement -/

section Matched

variable {c : LockedClient}

/-- While the network thread is inside, nothing is to be subtracted. -/
theorem Inv.pending_pop (h : c.Inv) (hpush : c.pushPc.inside = true) : c.popPc.pending = 0 := by
  have hout := h.display_outside hpush
  cases hpop : c.popPc with
  | counting image => simp [hpop, PopPc.inside] at hout
  | checking | locking | fronting | popping | unlocking => rfl

/-- What is behind the message that is being pushed. -/
theorem Inv.turn_message (h : c.Inv) {m : Bytes} (hm : c.message = some m) :
    onMessageTurn c.inputBuffer = .item m (c.inputBuffer.drop (kHeaderLen + m.length)) := by
  obtain ⟨rest, hturn⟩ := h.message m hm
  obtain ⟨-, hbuf⟩ := onMessageTurn_eq_item_iff.mp hturn
  rw [hturn, ← length_send, hbuf, List.drop_left]

/-- The network thread takes a turn when it does not find a message, when the test rejects one, and
when it puts one into the queue. -/
theorem toClient_networkStep (h : c.Inv) :
    c.networkStep.toClient = c.toClient ∨ c.networkStep.toClient = c.toClient.step .turn := by
  cases hpc : c.pushPc with
  | idle => exact .inl (by simp only [networkStep, hpc])
  | inOnMessage =>
    cases hturn : onMessageTurn c.inputBuffer with
    | wait =>
      right
      simp [networkStep, hpc, hturn, toClient, PushPc.networkPc, PushPc.retrieved, PushPc.pending,
        ChatClient.step, ChatClient.onMessageStep]
    | refuse =>
      right
      simp [networkStep, hpc, hturn, toClient, PushPc.networkPc, PushPc.retrieved, PushPc.pending,
        ChatClient.step, ChatClient.onMessageStep]
    | item message rest =>
      left
      simp [networkStep, hpc, hturn, toClient, PushPc.networkPc, PushPc.retrieved, PushPc.pending]
  | locking m =>
    left
    simp only [networkStep, hpc]
    split_ifs
    · simp [toClient, hpc, PushPc.networkPc, PushPc.retrieved, PushPc.pending]
    · rfl
  | testing m =>
    by_cases hfull : maxTotalImageSize <
        c.displayImage.totalImageSize + UInt32.ofNat m.length
    · right
      have hturn := h.turn_message (m := m) (by simp [message, hpc])
      have hpop := h.pending_pop (by simp [hpc, PushPc.inside])
      simp [networkStep, hpc, hfull, toClient, PushPc.networkPc, PushPc.retrieved, PushPc.pending,
        hpop, ChatClient.step, ChatClient.onMessageStep, ChatClient.onStringMessage, hturn,
        DisplayImage.push, DisplayImage.queuedSize]
    · left
      simp [networkStep, hpc, hfull, toClient, PushPc.networkPc, PushPc.retrieved, PushPc.pending]
  | queueing m =>
    right
    have hturn := h.turn_message (m := m) (by simp [message, hpc])
    have hpop := h.pending_pop (by simp [hpc, PushPc.inside])
    simp [networkStep, hpc, h.fits m hpc, toClient, PushPc.networkPc, PushPc.retrieved,
      PushPc.pending, hpop, ChatClient.step, ChatClient.onMessageStep,
      ChatClient.onStringMessage, hturn,
      DisplayImage.push, DisplayImage.queuedSize]
  | counting m =>
    left
    simp [networkStep, hpc, toClient, PushPc.networkPc, PushPc.retrieved, PushPc.pending]
  | unlocking m =>
    left
    simp [networkStep, hpc, toClient, PushPc.networkPc, PushPc.retrieved, PushPc.pending]

/-- The display thread tests and pops. -/
theorem toClient_displayStep (h : c.Inv) :
    c.displayStep.toClient = c.toClient ∨ c.displayStep.toClient = c.toClient.step .check ∨
      c.displayStep.toClient = c.toClient.step .pop := by
  cases hpc : c.popPc with
  | checking =>
    right; left
    simp only [displayStep, hpc]
    split_ifs with hempty
    · simp [toClient, hpc, PopPc.displayPc, ChatClient.step, hempty]
    · simp [toClient, hpc, PopPc.displayPc, PopPc.pending, ChatClient.step, hempty]
  | locking =>
    left
    simp only [displayStep, hpc]
    split_ifs
    · simp [toClient, hpc, PopPc.displayPc, PopPc.pending]
    · rfl
  | fronting =>
    cases hqueue : c.displayImage.imageQueue with
    | nil =>
      right; right
      simp [displayStep, hpc, hqueue, toClient, PopPc.displayPc, PopPc.pending, ChatClient.step,
        ChatClient.popStep, DisplayImage.pop]
    | cons image rest =>
      left
      simp [displayStep, hpc, hqueue, toClient, PopPc.displayPc, PopPc.pending]
  | popping image =>
    right; right
    obtain ⟨rest, hqueue⟩ := h.front image hpc
    simp [displayStep, hpc, hqueue, toClient, PopPc.displayPc, PopPc.pending, ChatClient.step,
      ChatClient.popStep, DisplayImage.pop]
  | counting image =>
    left
    have hcomm : c.displayImage.totalImageSize - UInt32.ofNat image.length + c.pushPc.pending =
        c.displayImage.totalImageSize + c.pushPc.pending - UInt32.ofNat image.length := by
      grind
    simp [displayStep, hpc, toClient, PopPc.displayPc, PopPc.pending, hcomm]
  | unlocking =>
    left
    simp [displayStep, hpc, toClient, PopPc.displayPc, PopPc.pending]

theorem matched_step (c : LockedClient) (e : Event) (h : c.Inv) :
    ∃ es, (c.step e).toClient = Transition.run ChatClient.step c.toClient es := by
  cases e with
  | receive chunk =>
    cases hpc : c.pushPc with
    | idle =>
      refine ⟨[.receive chunk], ?_⟩
      simp [step, hpc, toClient, PushPc.networkPc, PushPc.retrieved, PushPc.pending,
        ChatClient.step]
    | inOnMessage | locking | testing | queueing | counting | unlocking =>
      exact ⟨[], by simp [step, hpc]⟩
  | step t =>
    cases t with
    | network =>
      rcases toClient_networkStep h with hsame | hturn
      · exact ⟨[], hsame⟩
      · exact ⟨[.turn], hturn⟩
    | display =>
      rcases toClient_displayStep h with hsame | hcheck | hpop
      · exact ⟨[], hsame⟩
      · exact ⟨[.check], hcheck⟩
      · exact ⟨[.pop], hpop⟩

end Matched

/-- **The client with its mutex refines the one whose operations are one step each.** -/
theorem refinement : Transition.Refinement step ChatClient.step toClient Inv (fun _ _ => True)
    (fun _ _ => True) where
  keeps c e h _ := inv_step c e h
  matched c e h _ := by
    obtain ⟨es, hes⟩ := matched_step c e h
    exact ⟨es, hes, Transition.meets_iff_forall.mpr fun _ _ => trivial⟩

theorem inv_run (es : List Event) : (Transition.run step {} es).Inv :=
  Transition.run_induction step inv_step inv_init es

/-- A run of `ChatClient` that comes to the same. -/
theorem exists_run (es : List Event) :
    ∃ es', (Transition.run step {} es).toClient = Transition.run ChatClient.step {} es' := by
  have hall : Transition.Meets step (fun _ _ => True) {} es :=
    Transition.meets_iff_forall.mpr fun _ _ => trivial
  obtain ⟨es', hrun, -⟩ := refinement.run inv_init hall
  exact ⟨es', hrun⟩

/-- While nobody holds the mutex, no operation is in progress. -/
theorem Inv.toClient_free {c : LockedClient} (h : c.Inv) (hfree : c.mutex = none) :
    c.toClient.displayImage = c.displayImage := by
  have hguards := h.guards
  rw [hfree] at hguards
  have hpush : c.pushPc.pending = 0 := by
    have hout : ¬ c.pushPc.inside = true := hguards.outside .network
    cases hpc : c.pushPc with
    | counting m => simp [hpc, PushPc.inside] at hout
    | idle | inOnMessage | locking | testing | queueing | unlocking => rfl
  have hpop : c.popPc.pending = 0 := by
    have hout : ¬ c.popPc.inside = true := hguards.outside .display
    cases hpc : c.popPc with
    | counting image => simp [hpc, PopPc.inside] at hout
    | checking | locking | fronting | popping | unlocking => rfl
  simp [toClient, hpush, hpop]

/-- `front()` is called on a queue that is not empty. -/
theorem nonempty_of_fronting {c : LockedClient} (hclient : c.toClient.Inv)
    (hpc : c.popPc = .fronting) : c.displayImage.imageQueue ≠ [] :=
  hclient.nonempty (by simp [toClient, hpc, PopPc.displayPc])

/-- **The display queue under its mutex.** After every run, however the single steps of the two
threads interleave: at most one thread is between `lock` and `unlock`; the client is in a state that
a run of `ChatClient` reaches, where every operation is one step; the images popped and queued are
the messages accepted, in order; the sizes queued are within the limit, and the counter is their sum
whenever nobody holds the mutex; and `front()` has not been called on an empty queue, nor will it be
next. -/
theorem run_locked (es : List Event) :
    let c := Transition.run step {} es
    ¬ (c.pushPc.inside = true ∧ c.popPc.inside = true) ∧
      (∃ es', c.toClient = Transition.run ChatClient.step {} es') ∧
      c.popped ++ c.displayImage.imageQueue =
        (c.arrivals.filter Arrival.accepted).map Arrival.message ∧
      (c.displayImage.imageQueue.map List.length).sum ≤ 1024 * 1024 * 10 ∧
      (c.mutex = none → c.displayImage.totalImageSize.toNat =
        (c.displayImage.imageQueue.map List.length).sum) ∧
      c.emptyPop = false ∧ (c.popPc = .fronting → c.displayImage.imageQueue ≠ []) := by
  intro c
  have h : c.Inv := inv_run es
  obtain ⟨es', hrun⟩ := exists_run es
  have hclient : c.toClient.Inv := hrun ▸ ChatClient.inv_run es'
  refine ⟨?_, ⟨es', hrun⟩, hclient.images, hclient.accounted.le, ?_, hclient.noEmptyPop, ?_⟩
  · rintro ⟨hpush, hpop⟩
    rw [h.display_outside hpush] at hpop
    cases hpop
  · intro hfree
    have htotal := hclient.accounted.total
    rwa [h.toClient_free hfree] at htotal
  · exact fun hpc => nonempty_of_fronting hclient hpc

/-- The display thread sees an image that has been queued but not counted. -/
example :
    let c := Transition.run step ({} : LockedClient)
      [.receive [0, 0, 0, 1, 7], .step .network, .step .network, .step .network, .step .network,
        .step .display]
    c.popPc = .locking ∧ c.mutex = some .network ∧ c.displayImage.totalImageSize = 0 := by
  decide

/-! ### The mutex is always unlocked again -/

/-- The steps of its own that the thread takes before it has unlocked the mutex; `0` outside. -/
def remaining (c : LockedClient) : Thread → ℕ
  | .network => c.pushPc.remaining
  | .display => c.popPc.remaining

section Remaining

variable {c : LockedClient} {t : Thread}

theorem remaining_le : c.remaining t ≤ 4 := by
  cases t with
  | network =>
    rw [remaining]
    cases c.pushPc <;> simp [PushPc.remaining]
  | display =>
    rw [remaining]
    cases c.popPc <;> simp [PopPc.remaining]

theorem remaining_ne_zero : c.remaining t ≠ 0 ↔ c.Critical t := by
  cases t with
  | network =>
    rw [remaining, Critical]
    cases c.pushPc <;> simp [PushPc.remaining, PushPc.inside]
  | display =>
    rw [remaining, Critical]
    cases c.popPc <;> simp [PopPc.remaining, PopPc.inside]

/-- The network thread, inside, goes on, and in the end unlocks the mutex. -/
theorem networkStep_advances (hinside : c.pushPc.remaining ≠ 0) :
    c.networkStep.pushPc.remaining < c.pushPc.remaining ∧
      (c.networkStep.mutex = c.mutex ∨ c.networkStep.mutex = none) := by
  cases hpc : c.pushPc with
  | idle | inOnMessage | locking => simp [hpc, PushPc.remaining] at hinside
  | testing m =>
    simp only [networkStep, hpc]
    split_ifs <;> simp [PushPc.remaining]
  | queueing | counting | unlocking => simp [networkStep, hpc, PushPc.remaining]

/-- The display thread, inside, goes on, and in the end unlocks the mutex. -/
theorem displayStep_advances (hinside : c.popPc.remaining ≠ 0)
    (hqueue : c.popPc = .fronting → c.displayImage.imageQueue ≠ []) :
    c.displayStep.popPc.remaining < c.popPc.remaining ∧
      (c.displayStep.mutex = c.mutex ∨ c.displayStep.mutex = none) := by
  cases hpc : c.popPc with
  | checking | locking => simp [hpc, PopPc.remaining] at hinside
  | fronting =>
    obtain ⟨image, rest, hcons⟩ := List.exists_cons_of_ne_nil (hqueue hpc)
    simp [displayStep, hpc, hcons, PopPc.remaining]
  | popping | counting | unlocking => simp [displayStep, hpc, PopPc.remaining]

/-- The steps of the one thread leave the other one where it is. -/
theorem popPc_networkStep : c.networkStep.popPc = c.popPc := by
  unfold networkStep
  split <;> first | rfl | (split <;> rfl)

theorem pushPc_displayStep : c.displayStep.pushPc = c.pushPc := by
  unfold displayStep
  split <;> first | rfl | (split <;> rfl)

/-- While a thread is inside, nothing but its own steps brings it closer to the outside, or away
from it. -/
theorem remaining_step_of_ne {e : Event} (he : e ≠ .step t) (hinside : c.remaining t ≠ 0) :
    (c.step e).remaining t = c.remaining t := by
  cases e with
  | receive chunk =>
    cases t with
    | network =>
      cases hpc : c.pushPc with
      | idle => simp [remaining, hpc, PushPc.remaining] at hinside
      | inOnMessage | locking | testing | queueing | counting | unlocking => simp only [step, hpc]
    | display => cases hpc : c.pushPc <;> simp only [step, hpc, remaining]
  | step u =>
    cases t with
    | network =>
      cases u with
      | network => exact absurd rfl he
      | display => simp only [step, remaining, pushPc_displayStep]
    | display =>
      cases u with
      | network => simp only [step, remaining, popPc_networkStep]
      | display => exact absurd rfl he

end Remaining

/-- What a thread inside and the mutex come to in one step, in a state that a run reaches. -/
theorem remaining_step {es : List Event} {t : Thread} (e : Event)
    (hinside : (Transition.run step {} es).remaining t ≠ 0) :
    let c := Transition.run step {} es
    (if e == .step t then 1 else 0) + (c.step e).remaining t ≤ c.remaining t ∧
      ((c.step e).mutex = some t ∨ (c.step e).mutex = none) := by
  intro c
  have hinv : c.Inv := inv_run es
  have hmutex : c.mutex = some t := hinv.guards.holder_eq (remaining_ne_zero.mp hinside)
  by_cases he : e = .step t
  · rw [he, beq_self_eq_true, if_pos rfl, Nat.one_add_le_iff, ← hmutex]
    cases t with
    | network => exact networkStep_advances hinside
    | display =>
      obtain ⟨es', hrun⟩ := exists_run es
      exact displayStep_advances hinside fun hpc =>
        nonempty_of_fronting (hrun ▸ ChatClient.inv_run es') hpc
  · have hsame := remaining_step_of_ne he hinside
    have hcritical := remaining_ne_zero.mp (hsame ▸ hinside)
    rw [beq_false_of_ne he, hsame, if_neg Bool.false_ne_true, Nat.zero_add]
    exact ⟨Nat.le_refl _, .inl ((inv_step c e hinv).guards.holder_eq hcritical)⟩

/-- **Nobody waits for ever.** In every state that a run reaches, and in every continuation of the
run, however often the other thread takes its steps in between and chunks arrive: by the time that
the thread that holds the mutex has taken four steps of its own, it has unlocked it. -/
theorem exists_unlocked (es : List Event) (t : Thread)
    (ht : (Transition.run step {} es).mutex = some t) {fs : List Event}
    (hfs : 4 ≤ fs.count (.step t)) :
    ∃ pre, pre <+: fs ∧ pre.count (.step t) ≤ 4 ∧
      (Transition.run step {} (es ++ pre)).mutex = none := by
  have hcount (gs : List Event) : Transition.total step (fun _ e => if e == .step t then 1 else 0)
      (Transition.run step {} es) gs = gs.count (.step t) :=
    (Transition.total_ite _ _ _ _).trans (Nat.one_mul _)
  have henough : remaining (Transition.run step {} es) t ≤ fs.count (.step t) :=
    remaining_le.trans hfs
  rw [← hcount] at henough
  obtain ⟨pre, hpre, hwork, ⟨⟨es', hrun⟩, hfree⟩, hzero⟩ :=
    Transition.exists_prefix_of_potential (Φ := (remaining · t))
      (J := fun c => (∃ es, c = Transition.run step {} es) ∧ (c.mutex = some t ∨ c.mutex = none))
      (fun _ e => if e == Event.step t then 1 else 0)
      (fun c e ⟨⟨gs, hgs⟩, _⟩ hinside => by
        subst hgs
        obtain ⟨hle, hkept⟩ := remaining_step e hinside
        exact ⟨⟨⟨gs ++ [e], by rw [Transition.run_append]; rfl⟩, hkept⟩, hle⟩)
      ⟨⟨es, rfl⟩, .inl ht⟩ henough
  rw [hcount] at hwork
  refine ⟨pre, hpre, hwork.trans remaining_le, ?_⟩
  rw [Transition.run_append]
  refine hfree.resolve_left fun hheld => remaining_ne_zero.mpr ?_ hzero
  rw [hrun] at hheld ⊢
  exact ((inv_run es').guards t).mpr hheld

/-- The network thread has locked the mutex and not yet tested, and the display thread waits for
nothing in between. -/
theorem exists_unlocked_testing :
    ∃ pre, pre <+: [Event.step .display, .step .network, .step .network, .step .display,
        .step .display, .step .network, .step .network] ∧ pre.count (.step .network) ≤ 4 ∧
      (Transition.run step {} ([.receive [0, 0, 0, 1, 7], .step .network, .step .network] ++
        pre)).mutex = none :=
  exists_unlocked [.receive [0, 0, 0, 1, 7], .step .network, .step .network] .network (by decide)
    (by decide)

end LockedClient
