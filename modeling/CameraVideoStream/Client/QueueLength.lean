import CameraVideoStream.Client.Client

/-!
# How many images are queued

`push` (`client/display_image.cc`) limits the bytes that are queued, not the images. An image takes
at least one byte of the limit unless it is empty, and a message of length zero is a valid message
and always accepted. So the number of images queued is bounded on a set of streams exactly if the
number of empty messages in them is (`ChatClient.queue_bounded_iff`); on all streams it is not.

## Main results

* `ChatClient.Inv.length_queue_le`: the bound.
* `ChatClient.run_turns`: a slow display thread lets the empty messages pile up.
* `ChatClient.queue_bounded_iff`.
-/

open Codec

namespace ChatClient

/-- The list of the images queued. -/
def queue (c : ChatClient) : List Bytes := c.displayImage.imageQueue

/-! ### Images that take bytes -/

/-- Lists that are not empty count for their lengths. -/
theorem length_le_count_add_sum (images : List Bytes) :
    images.length ≤ images.count [] + (images.map List.length).sum := by
  induction images with
  | nil => exact Nat.le_refl 0
  | cons image images ih =>
    rw [List.length_cons, List.map_cons, List.sum_cons]
    by_cases hempty : image = []
    · rw [hempty, List.count_cons_self]
      omega
    · have hpos := List.length_pos_iff.mpr hempty
      rw [List.count_cons_of_ne hempty]
      omega

/-- No more images are queued than there are bytes within the limit and empty messages pushed. -/
theorem Inv.length_queue_le {c : ChatClient} (h : c.Inv) :
    c.queue.length ≤ (c.arrivals.map Arrival.message).count [] + 1024 * 1024 * 10 := by
  have hcount : c.queue.count [] ≤ (c.arrivals.map Arrival.message).count [] :=
    calc c.queue.count []
        ≤ (c.popped ++ c.queue).count [] := (List.sublist_append_right _ _).count_le []
      _ = ((c.arrivals.filter Arrival.accepted).map Arrival.message).count [] := by
          rw [queue, h.images]
      _ ≤ (c.arrivals.map Arrival.message).count [] :=
          (List.filter_sublist.map _).count_le []
  have hbytes : (c.queue.map List.length).sum ≤ 1024 * 1024 * 10 := h.accounted.le
  have hlen := length_le_count_add_sum c.queue
  omega

/-! ### Empty images -/

/-- Pushing a message leaves the images queued, and always queues an empty one. -/
theorem count_push {d : DisplayImage} (hd : d.Accounted) {m : Bytes} (hm : m.length ≤ maxLen) :
    d.imageQueue.count [] + [m].count [] ≤
      (d.push m (UInt32.ofNat m.length)).2.imageQueue.count [] := by
  rw [DisplayImage.push_message hd hm]
  by_cases hfit : d.queuedSize + m.length ≤ 1024 * 1024 * 10
  · rw [if_pos hfit]
    show _ ≤ (d.imageQueue ++ [m]).count []
    rw [List.count_append]
  · have hle := hd.le
    have hne : m ≠ [] := by
      rintro rfl
      exact hfit hle
    rw [if_neg hfit, List.count_singleton, if_neg (by simpa using hne)]
    exact Nat.le_refl _

/-- The network thread reads one message. -/
theorem step_turn {c : ChatClient} (hpc : c.networkPc = .inOnMessage) {m t : Bytes}
    (hm : m.length ≤ maxLen) (hbuf : c.inputBuffer = send m ++ t) :
    c.step .turn = { c.onStringMessage m with inputBuffer := t } := by
  simp only [step, hpc, onMessageStep, hbuf, onMessageTurn_send hm]

/-- While the display thread does nothing, every empty message read is one more image queued. -/
theorem run_turns {ms : List Bytes} (hms : ∀ m ∈ ms, m.length ≤ maxLen) {c : ChatClient}
    (h : c.Inv) (hpc : c.networkPc = .inOnMessage) {r : Bytes}
    (hbuf : c.inputBuffer = sendAll ms ++ r) :
    (Transition.run step c (List.replicate ms.length .turn)).received = c.received ∧
      c.queue.count [] + ms.count [] ≤
        (Transition.run step c (List.replicate ms.length .turn)).queue.count [] := by
  induction ms generalizing c with
  | nil => exact ⟨rfl, Nat.le_refl _⟩
  | cons m ms ih =>
    obtain ⟨hm, hms⟩ := List.forall_mem_cons.mp hms
    rw [sendAll_cons, List.append_assoc] at hbuf
    have hturn := step_turn hpc hm hbuf
    have hinv := inv_step c .turn h
    have hcount : c.queue.count [] + [m].count [] ≤ (c.step .turn).queue.count [] := by
      rw [hturn]
      exact count_push h.accounted hm
    rw [List.length_cons, List.replicate_succ, Transition.run_cons]
    obtain ⟨hreceived, hrest⟩ := ih hms hinv (by rw [hturn]; exact hpc) (by rw [hturn])
    refine ⟨hreceived.trans (by rw [hturn]; rfl), ?_⟩
    rw [List.count_cons, ← List.count_singleton]
    omega

/-- The empty messages of a stream, all of them queued at once. -/
theorem exists_run {ms : List Bytes} (hms : ∀ m ∈ ms, m.length ≤ maxLen) (r : Bytes) :
    ∃ es, (Transition.run step {} es).received = sendAll ms ++ r ∧
      ms.count [] ≤ (Transition.run step {} es).queue.length := by
  have hinv := inv_step {} (.receive (sendAll ms ++ r)) inv_init
  obtain ⟨hreceived, hcount⟩ := run_turns hms hinv rfl rfl
  refine ⟨.receive (sendAll ms ++ r) :: List.replicate ms.length .turn, hreceived, ?_⟩
  exact (Nat.le_of_add_left_le hcount).trans List.count_le_length

/-- **The number of images queued.** On any set of byte streams there is a number that the number of
images queued never exceeds, however the stream is cut into chunks and however slow the display
thread is, exactly when there is a number that the number of empty messages, among the valid frames
that one of the streams begins with, never exceeds. -/
theorem queue_bounded_iff (streams : Set Bytes) :
    (∃ N, ∀ s ∈ streams, ∀ es, (Transition.run step {} es).received <+: s →
        (Transition.run step {} es).queue.length ≤ N) ↔
      ∃ k, ∀ s ∈ streams, ∀ ms r, (∀ m ∈ ms, m.length ≤ 65536 * 20) → s = sendAll ms ++ r →
        ms.count [] ≤ k := by
  constructor
  · rintro ⟨N, hN⟩
    refine ⟨N, fun s hs ms r hms hsplit => ?_⟩
    obtain ⟨es, hreceived, hcount⟩ := exists_run hms r
    exact hcount.trans (hN s hs es (by rw [hreceived, hsplit]))
  · rintro ⟨k, hk⟩
    refine ⟨k + 1024 * 1024 * 10, fun s hs es hprefix => ?_⟩
    have h := inv_run es
    obtain ⟨t, ht⟩ := hprefix
    rw [h.stream, List.append_assoc] at ht
    have hlengths : ∀ m ∈ (Transition.run step {} es).arrivals.map Arrival.message,
        m.length ≤ 65536 * 20 :=
      List.forall_mem_map.mpr h.lengths
    have hempty := hk s hs _ _ hlengths ht.symm
    exact h.length_queue_le.trans (Nat.add_le_add_right hempty _)

/-- Whatever the number, a stream of one more empty message exceeds it. -/
theorem not_queue_bounded :
    ¬ ∃ N, ∀ es, (Transition.run step {} es).queue.length ≤ N := by
  rintro ⟨N, hN⟩
  have hms : ∀ m ∈ List.replicate (N + 1) ([] : Bytes), m.length ≤ maxLen := by simp
  obtain ⟨es, -, hcount⟩ := exists_run hms []
  have hle := hcount.trans (hN es)
  rw [List.count_replicate_self] at hle
  omega

end ChatClient
