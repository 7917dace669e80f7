import CameraVideoStream.Client.Decode
import CameraVideoStream.Common.FpsClock

/-!
# The client process: connections come and go

`ChatClient` (`client/client.cc`) lets its `TcpClient` connect again whenever the connection is lost
(`enableRetry`). Every connection has a receive buffer of its own, and what was in the buffer of the
one that is lost goes with it; the display queue stays, and so does the display thread, which
decodes and shows what it has popped and calls `test_fps` for every image shown. An image without
bytes ends the process: the constructor of `cv::Mat` throws at a null `data()`, and nobody catches.

So the messages pushed are, connection by connection, the complete valid frames that were received
on it: none is put together from the bytes of two connections, and none is pushed twice or left out
(`ClientProcess.sessions_run`).

## Main definitions

* `ChatClient.renew`: the receive buffer of a new connection.
* `ClientProcess`, `ClientProcess.step`.
* `ClientProcess.Inv`: the messages pushed before and on the current connection, and the images
  shown.

## Main results

* `ChatClient.turn_cases`: what a turn of `onMessage` does to the receive buffer.
* `ClientProcess.sessions_run`.
-/

open Codec

namespace ChatClient

/-- The receive buffer of a new connection. The bytes in the one before do not count as received. -/
def renew (c : ChatClient) : ChatClient :=
  { c with inputBuffer := [], received := sendAll (c.arrivals.map Arrival.message) }

theorem Inv.renew {c : ChatClient} (h : c.Inv) : c.renew.Inv :=
  { h with stream := (List.append_nil _).symm, drained := fun _ => rfl }

/-- A turn of `onMessage` leaves the buffer, and ends the loop; or it pushes the message at the
front. -/
theorem turn_cases (c : ChatClient) :
    ((c.step .turn).arrivals = c.arrivals ∧ (c.step .turn).inputBuffer = c.inputBuffer ∧
        (c.step .turn).networkPc = .idle) ∨
      ∃ a, (c.step .turn).arrivals = c.arrivals ++ [a] ∧
        c.inputBuffer = send a.message ++ (c.step .turn).inputBuffer ∧
        (c.step .turn).networkPc = .inOnMessage := by
  cases hpc : c.networkPc with
  | idle => exact .inl (by simp [step, hpc])
  | inOnMessage =>
    simp only [step, hpc, onMessageStep]
    cases hturn : onMessageTurn c.inputBuffer with
    | wait => exact .inl ⟨rfl, rfl, rfl⟩
    | refuse => exact .inl ⟨rfl, rfl, rfl⟩
    | item message rest =>
      exact .inr ⟨_, rfl, (onMessageTurn_eq_item_iff.mp hturn).2, hpc⟩

/-- The display thread leaves the network thread alone. -/
theorem display_step (c : ChatClient) {e : Event} (he : e = .check ∨ e = .pop) :
    (c.step e).arrivals = c.arrivals ∧ (c.step e).inputBuffer = c.inputBuffer ∧
      (c.step e).networkPc = c.networkPc := by
  rcases he with rfl | rfl
  · cases hpc : c.displayPc with
    | checking =>
      simp only [step, hpc]
      split_ifs <;> exact ⟨rfl, rfl, rfl⟩
    | popping => simp [step, hpc]
  · cases hpc : c.displayPc with
    | checking => simp [step, hpc]
    | popping =>
      simp only [step, hpc, popStep]
      split <;> exact ⟨rfl, rfl, rfl⟩

/-- The network thread pops nothing. -/
theorem popped_turn (c : ChatClient) : (c.step .turn).popped = c.popped :=
  popped_step (by simp [PopsNothing])

end ChatClient

/-- The process. `socket` is the connection that it has, or had when it ended, `image` the image
that the display thread has popped and not yet shown. `ended` records the connections that have been
lost, with the bytes received on them, `received` the bytes received on the current one,
`pushedBefore` how many messages were pushed before it, `terminated` an exception that nobody
catches. -/
structure ClientProcess (κ : Type*) where
  client : ChatClient := {}
  socket : Option κ := none
  image : Option Bytes := none
  shown : List Bytes := []
  fps : Common.FpsRun := {}
  ended : List (κ × Bytes) := []
  received : Bytes := []
  pushedBefore : ℕ := 0
  terminated : Bool := false

namespace ClientProcess

variable {κ : Type*}

/-- `connection_`. A process that has ended has no connection. -/
def connection (c : ClientProcess κ) : Option κ := if c.terminated then none else c.socket

theorem connection_eq_some_iff {c : ClientProcess κ} {k : κ} :
    c.connection = some k ↔ c.terminated = false ∧ c.socket = some k := by
  rw [connection]
  cases c.terminated <;> simp

/-- What can happen next: a connection comes up or goes down, a chunk arrives, a turn of
`onMessage`; or the display thread tests for emptiness, pops, or decodes and shows what it has
popped. -/
inductive Event (κ : Type*) where
  | onConnection (conn : κ) (connected : Bool)
  | receive (chunk : Bytes)
  | turn
  | check
  | pop
  | showImage (decoded : Bool) (nowValue : Int64)
  deriving DecidableEq

/-- The connection is lost, and its receive buffer with it. -/
def disconnect (c : ClientProcess κ) (conn : κ) : ClientProcess κ :=
  { c with
    client := c.client.renew
    socket := none
    ended := c.ended ++ [(conn, c.received)]
    received := []
    pushedBefore := c.client.arrivals.length }

/-- `ChatClient::onConnection`. The event loop runs it between two calls of `onMessage`, and has at
most one connection at a time. -/
def onConnection [DecidableEq κ] (c : ClientProcess κ) (conn : κ) (connected : Bool) :
    ClientProcess κ :=
  if c.client.networkPc ≠ .idle then c else
  match c.socket, connected with
  | none, true => { c with socket := some conn }
  | some conn', false => if conn' = conn then c.disconnect conn else c
  | _, _ => c

/-- A chunk arrives on the connection. -/
def receive (c : ClientProcess κ) (chunk : Bytes) : ClientProcess κ :=
  if c.socket.isSome = true ∧ c.client.networkPc = .idle then
    { c with client := c.client.step (.receive chunk), received := c.received ++ chunk }
  else c

/-- `pop()` in `DisplayImage::threadFunction`. -/
def popStep (c : ClientProcess κ) : ClientProcess κ :=
  match c.client.displayPc with
  | .checking => c
  | .popping =>
    { c with
      client := c.client.step .pop
      image := c.client.displayImage.pop.map Prod.fst }

/-- The rest of the loop of `threadFunction`: an image without bytes ends the process, one that
`cv::imdecode` cannot decode is left out, any other is shown and counted by `test_fps`. -/
def showStep (c : ClientProcess κ) (decoded : Bool) (nowValue : Int64) : ClientProcess κ :=
  match c.image with
  | none => c
  | some image =>
    if image = [] then
      { c with terminated := true }
    else if decoded then
      { c with image := none, shown := c.shown ++ [image], fps := c.fps.step nowValue }
    else
      { c with image := none }

/-- One step of one of the threads. The display thread pops again only once it has shown what it has
popped. -/
def threadStep [DecidableEq κ] (c : ClientProcess κ) : Event κ → ClientProcess κ
  | .onConnection conn connected => c.onConnection conn connected
  | .receive chunk => c.receive chunk
  | .turn => { c with client := c.client.step .turn }
  | .check => if c.image.isSome then c else { c with client := c.client.step .check }
  | .pop => if c.image.isSome then c else c.popStep
  | .showImage decoded nowValue => c.showStep decoded nowValue

/-- One step, of a process that has not ended. -/
def step [DecidableEq κ] (c : ClientProcess κ) (e : Event κ) : ClientProcess κ :=
  if c.terminated then c else c.threadStep e

theorem step_of_alive [DecidableEq κ] {c : ClientProcess κ} (hlive : c.terminated = false)
    (e : Event κ) : c.step e = c.threadStep e := by
  rw [step, if_neg (by simp [hlive])]

/-- The messages pushed before the current connection. -/
def earlier (c : ClientProcess κ) : List Bytes :=
  (c.client.arrivals.take c.pushedBefore).map Arrival.message

/-- The messages pushed on the current connection. -/
def current (c : ClientProcess κ) : List Bytes :=
  (c.client.arrivals.drop c.pushedBefore).map Arrival.message

/-- What holds after every run. -/
structure Inv (c : ClientProcess κ) : Prop where
  client : c.client.Inv
  pushedBefore : c.pushedBefore ≤ c.client.arrivals.length
  earlier : c.earlier = c.ended.flatMap fun p => (onMessage p.2).items
  current : c.received = sendAll c.current ++ c.client.inputBuffer
  down : c.socket = none → c.client.networkPc = .idle ∧ c.received = [] ∧ c.current = []
  /-- The images popped are those shown or left out, and the one that is being decoded. -/
  shown : ∃ done, c.client.popped = done ++ c.image.toList ∧ c.shown.Sublist done
  counted : c.fps.readings.length = c.shown.length

theorem inv_init : Inv ({} : ClientProcess κ) where
  client := ChatClient.inv_init
  pushedBefore := Nat.le_refl 0
  earlier := rfl
  current := rfl
  down _ := ⟨rfl, rfl, rfl⟩
  shown := ⟨[], rfl, List.Sublist.refl _⟩
  counted := rfl

/-! ### What each step keeps -/

section Steps

variable {c : ClientProcess κ}

theorem Inv.lengths_current (h : c.Inv) : ∀ m ∈ c.current, m.length ≤ maxLen := by
  intro m hm
  obtain ⟨a, ha, rfl⟩ := List.mem_map.mp hm
  exact h.client.lengths a (List.mem_of_mem_drop ha)

theorem earlier_append_current (c : ClientProcess κ) :
    c.earlier ++ c.current = c.client.arrivals.map Arrival.message := by
  rw [earlier, current, ← List.map_append, List.take_append_drop]

/-- What is read off the bytes received on the connection. -/
theorem Inv.items_received (h : c.Inv) :
    (onMessage c.received).items = c.current ++ (onMessage c.client.inputBuffer).items := by
  rw [h.current, onMessage_sendAll_append h.lengths_current]

/-- Between two calls of `onMessage` all complete valid frames have been pushed. -/
theorem Inv.current_eq (h : c.Inv) (hidle : c.client.networkPc = .idle) :
    c.current = (onMessage c.received).items := by
  rw [h.items_received, h.client.drained hidle, List.append_nil]

theorem Inv.onConnection [DecidableEq κ] (h : c.Inv) (conn : κ) (connected : Bool) :
    (c.onConnection conn connected).Inv := by
  unfold ClientProcess.onConnection
  split_ifs with hidle
  · exact h
  · rw [ne_eq, not_not] at hidle
    split
    · exact { h with down := by simp }
    · next conn' _ =>
      split_ifs
      · refine ⟨h.client.renew, Nat.le_refl _, ?_, ?_, fun _ => ⟨hidle, rfl, ?_⟩, h.shown,
          h.counted⟩
        · show (c.client.arrivals.take c.client.arrivals.length).map Arrival.message =
            (c.ended ++ [(conn, c.received)]).flatMap _
          rw [List.take_length, List.flatMap_append, List.flatMap_singleton, ← h.earlier,
            ← h.current_eq hidle, earlier_append_current]
        · simp [ClientProcess.current, disconnect, ChatClient.renew, sendAll_nil]
        · simp [ClientProcess.current, disconnect, ChatClient.renew]
      · exact h
    · exact h

theorem Inv.receive (h : c.Inv) (chunk : Bytes) : (c.receive chunk).Inv := by
  unfold ClientProcess.receive
  split_ifs with hup
  · obtain ⟨hconn, hidle⟩ := hup
    have hclient := ChatClient.inv_step c.client (.receive chunk) h.client
    simp only [ChatClient.step, hidle] at hclient ⊢
    refine ⟨hclient, h.pushedBefore, h.earlier, ?_, fun hnone => ?_, h.shown, h.counted⟩
    · show c.received ++ chunk = sendAll c.current ++ (c.client.inputBuffer ++ chunk)
      rw [h.current, List.append_assoc]
    · simp [show c.socket = none from hnone] at hconn
  · exact h

theorem Inv.turn (h : c.Inv) : Inv { c with client := c.client.step .turn } := by
  have hclient := ChatClient.inv_step c.client .turn h.client
  have hpopped := c.client.popped_turn
  rcases c.client.turn_cases with ⟨harr, hbuf, hpc⟩ | ⟨a, harr, hbuf, hpc⟩
  · have hcurrent : ClientProcess.current { c with client := c.client.step .turn } = c.current := by
      rw [ClientProcess.current, ClientProcess.current, harr]
    refine ⟨hclient, ?_, ?_, ?_, fun hnone => ?_, ?_, h.counted⟩
    · show c.pushedBefore ≤ (c.client.step .turn).arrivals.length
      rw [harr]
      exact h.pushedBefore
    · show ((c.client.step .turn).arrivals.take c.pushedBefore).map Arrival.message = _
      rw [harr]
      exact h.earlier
    · show c.received = _ ++ (c.client.step .turn).inputBuffer
      rw [hcurrent, hbuf, h.current]
    · obtain ⟨-, hreceived, hnil⟩ := h.down hnone
      exact ⟨hpc, hreceived, hcurrent.trans hnil⟩
    · show ∃ done, (c.client.step .turn).popped = _ ∧ _
      rw [hpopped]
      exact h.shown
  · have hcurrent : ClientProcess.current { c with client := c.client.step .turn } =
        c.current ++ [a.message] := by
      rw [ClientProcess.current, ClientProcess.current, harr,
        List.drop_append_of_le_length h.pushedBefore, List.map_append, List.map_singleton]
    refine ⟨hclient, ?_, ?_, ?_, fun hnone => ?_, ?_, h.counted⟩
    · show c.pushedBefore ≤ (c.client.step .turn).arrivals.length
      rw [harr, List.length_append]
      exact Nat.le_add_right_of_le h.pushedBefore
    · show ((c.client.step .turn).arrivals.take c.pushedBefore).map Arrival.message = _
      rw [harr, List.take_append_of_le_length h.pushedBefore]
      exact h.earlier
    · show c.received = _ ++ (c.client.step .turn).inputBuffer
      rw [hcurrent, h.current, hbuf, sendAll_append, sendAll_cons, sendAll_nil, List.append_nil,
        List.append_assoc]
    · -- nothing is pushed without a connection
      obtain ⟨hidle, -⟩ := h.down hnone
      simp [ChatClient.step, hidle] at harr
    · show ∃ done, (c.client.step .turn).popped = _ ∧ _
      rw [hpopped]
      exact h.shown

/-- What the display thread does while it has no image in hand. -/
theorem Inv.display (h : c.Inv) {e : ChatClient.Event} (he : e = .check ∨ e = .pop)
    {image : Option Bytes} (hpopped : (c.client.step e).popped = c.client.popped ++ image.toList)
    (hnone : c.image = none) :
    Inv { c with client := c.client.step e, image := image } := by
  obtain ⟨harr, hbuf, hpc⟩ := c.client.display_step he
  refine ⟨ChatClient.inv_step c.client e h.client, ?_, ?_, ?_, ?_, ?_, h.counted⟩
  · show c.pushedBefore ≤ (c.client.step e).arrivals.length
    rw [harr]
    exact h.pushedBefore
  · show ((c.client.step e).arrivals.take c.pushedBefore).map Arrival.message = _
    rw [harr]
    exact h.earlier
  · show c.received = sendAll (((c.client.step e).arrivals.drop c.pushedBefore).map _) ++
      (c.client.step e).inputBuffer
    rw [harr, hbuf]
    exact h.current
  · show c.socket = none → (c.client.step e).networkPc = .idle ∧ c.received = [] ∧
      ((c.client.step e).arrivals.drop c.pushedBefore).map Arrival.message = []
    rw [harr, hpc]
    exact h.down
  · obtain ⟨done, hdone, hshown⟩ := h.shown
    rw [hnone, Option.toList_none, List.append_nil] at hdone
    exact ⟨done, by rw [← hdone]; exact hpopped, hshown⟩

theorem Inv.popStep (h : c.Inv) (hnone : c.image = none) : c.popStep.Inv := by
  unfold ClientProcess.popStep
  split
  · exact h
  · next hpc =>
    refine h.display (.inr rfl) ?_ hnone
    simp only [ChatClient.step, hpc, ChatClient.popStep]
    cases c.client.displayImage.pop with
    | none => simp
    | some r => simp

theorem Inv.showStep (h : c.Inv) (decoded : Bool) (nowValue : Int64) :
    (c.showStep decoded nowValue).Inv := by
  obtain ⟨done, hdone, hshown⟩ := h.shown
  unfold ClientProcess.showStep
  split
  · exact h
  · next image himage =>
    have hpopped : c.client.popped = (done ++ [image]) ++ (none : Option Bytes).toList := by
      simpa [himage] using hdone
    split_ifs
    · exact { h with }
    · refine { h with shown := ⟨done ++ [image], hpopped, hshown.append (List.Sublist.refl _)⟩,
                      counted := ?_ }
      show (c.fps.step nowValue).readings.length = (c.shown ++ [image]).length
      rw [List.length_append, ← h.counted, Common.FpsRun.readings_step, List.length_append]
      rfl
    · exact { h with
        shown := ⟨done ++ [image], hpopped, hshown.trans (List.sublist_append_left _ _)⟩ }

theorem Inv.threadStep [DecidableEq κ] (h : c.Inv) (e : Event κ) : (c.threadStep e).Inv := by
  cases e with
  | onConnection conn connected => exact h.onConnection conn connected
  | receive chunk => exact h.receive chunk
  | turn => exact h.turn
  | check =>
    unfold ClientProcess.threadStep
    split_ifs with himage
    · exact h
    · have hnone : c.image = none := by simpa using himage
      have hpopped : (c.client.step .check).popped = c.client.popped ++ c.image.toList := by
        rw [hnone, ChatClient.popped_step (by simp [ChatClient.PopsNothing])]
        exact (List.append_nil _).symm
      exact h.display (.inl rfl) hpopped hnone
  | pop =>
    unfold ClientProcess.threadStep
    split_ifs with himage
    · exact h
    · exact h.popStep (by simpa using himage)
  | showImage decoded nowValue => exact h.showStep decoded nowValue

theorem inv_step [DecidableEq κ] (c : ClientProcess κ) (e : Event κ) (h : c.Inv) :
    (c.step e).Inv := by
  rw [step]
  split_ifs
  · exact h
  · exact h.threadStep e

/-- **The invariant holds after every run.** -/
theorem inv_run [DecidableEq κ] (es : List (Event κ)) : (Transition.run step {} es).Inv :=
  Transition.run_induction step inv_step inv_init es

end Steps

/-- **The client across reconnections.** After every run, whatever arrives on whatever connections,
and however the threads interleave: the messages pushed are the complete valid frames that were
received on each of the lost connections, connection after connection, and then, on the current one,
the first of those received on it, and all of them between two calls of `onMessage`; the images
popped and queued are those of them that `push` accepted, in order; the images shown are some of the
images popped, in order, and `test_fps` has been called once for each; and no pop ran on an empty
queue. -/
theorem sessions_run [DecidableEq κ] (es : List (Event κ)) :
    let c := Transition.run step {} es
    c.client.arrivals.map Arrival.message =
        (c.ended.flatMap fun p => (onMessage p.2).items) ++ c.current ∧
      c.current <+: (onMessage c.received).items ∧
      (c.client.networkPc = .idle → c.current = (onMessage c.received).items) ∧
      c.client.popped ++ c.client.displayImage.imageQueue =
        (c.client.arrivals.filter Arrival.accepted).map Arrival.message ∧
      c.shown.Sublist c.client.popped ∧ c.fps.readings.length = c.shown.length ∧
      c.client.emptyPop = false := by
  intro c
  have h : c.Inv := inv_run es
  obtain ⟨done, hdone, hshown⟩ := h.shown
  refine ⟨?_, ?_, h.current_eq, h.client.images, ?_, h.counted, h.client.noEmptyPop⟩
  · rw [← h.earlier, earlier_append_current]
  · rw [h.items_received]
    exact List.prefix_append _ _
  · rw [hdone]
    exact hshown.trans (List.sublist_append_left _ _)

/-- The first connection is lost in the middle of a frame: its bytes are not part of any message. -/
example :
    let c := Transition.run step ({} : ClientProcess ℕ)
      [.onConnection 1 true, .receive [0, 0, 0, 1, 7, 0, 0, 0, 2, 8], .turn, .turn,
        .onConnection 1 false, .onConnection 2 true, .receive [0, 0, 0, 1, 9], .turn]
    c.earlier ++ c.current = [[7], [9]] := by
  decide

end ClientProcess
