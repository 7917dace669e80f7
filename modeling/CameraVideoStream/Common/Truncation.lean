import CameraVideoStream.Common.Stream

/-!
# Streams that break off

A connection can be lost at any byte, and the peer need not have sent everything yet. So what a
receiver has got is the first part of the bytes that `send` has written for some messages, cut
anywhere. On such a stream `onMessage` delivers the first of these messages and nothing else: it
stops at the first message whose frame is not complete, or which is longer than it accepts
(`Codec.receiver_of_prefix`).

## Main results

* `Codec.onMessageTurn_of_cut`: an incomplete frame is waited for.
* `Codec.onMessage_of_prefix`, `Codec.receiver_of_prefix`.
-/

namespace Codec

theorem length_send (m : Bytes) : (send m).length = kHeaderLen + m.length := by
  rw [send, List.length_append, BigEndian.length_bytes32, kHeaderLen]

/-- Whether the header is invalid shows in its four bytes. -/
theorem InvalidHead.of_append {p t : Bytes} (h : InvalidHead (p ++ t))
    (hp : kHeaderLen ≤ p.length) : InvalidHead p := by
  match p with
  | [] | [_] | [_, _] | [_, _, _] => simp [kHeaderLen] at hp
  | _ :: _ :: _ :: _ :: _ => exact h

theorem InvalidHead.kHeaderLen_le {p : Bytes} (h : InvalidHead p) : kHeaderLen ≤ p.length := by
  match p with
  | [] | [_] | [_, _] | [_, _, _] => exact h.elim
  | _ :: _ :: _ :: _ :: _ => simp [kHeaderLen]

/-- A frame that is cut short is waited for. -/
theorem onMessageTurn_of_cut {p t m u : Bytes} (hm : m.length ≤ maxLen)
    (hcut : p ++ t = send m ++ u) (hshort : p.length < (send m).length) :
    onMessageTurn p = .wait := by
  have hfull : onMessageTurn (p ++ t) = .item m u := hcut ▸ onMessageTurn_send hm u
  cases hturn : onMessageTurn p with
  | wait => rfl
  | refuse =>
    -- a refusal would stand
    rw [resumable_onMessageTurn.refuse_append hturn t] at hfull
    cases hfull
  | item m' r =>
    -- a message would be `m`, whose frame is longer than `p`
    rw [resumable_onMessageTurn.item_append hturn t] at hfull
    obtain ⟨rfl, -⟩ := Turn.item.inj hfull
    obtain ⟨-, rfl⟩ := onMessageTurn_eq_item_iff.mp hturn
    rw [List.length_append] at hshort
    omega

/-- A header that is cut short is waited for, a complete one of a message that is too long is
refused. -/
theorem onMessage_of_long {p t m u : Bytes} (hm : maxLen < m.length) (hint : m.length < 2 ^ 31)
    (hcut : p ++ t = send m ++ u) :
    onMessage p = ⟨[], p, decide (kHeaderLen ≤ p.length)⟩ := by
  have hbad : InvalidHead (p ++ t) := hcut ▸ invalidHead_send hm hint u
  by_cases hhead : kHeaderLen ≤ p.length
  · rw [onMessage_of_invalidHead (hbad.of_append hhead), decide_eq_true hhead]
  · have hwait : onMessageTurn p = .wait := by
      cases hturn : onMessageTurn p with
      | wait => rfl
      | refuse =>
        exact absurd (onMessageTurn_eq_refuse_iff.mp hturn).kHeaderLen_le hhead
      | item m' r =>
        obtain ⟨-, rfl⟩ := onMessageTurn_eq_item_iff.mp hturn
        rw [List.length_append, length_send] at hhead
        omega
    rw [onMessage, drain_wait hwait, decide_eq_false hhead]

/-- What is read of a first part `p` of the frames of `ms`: some first messages, the next of which
is `rest.head?`. -/
structure ReadsPrefix (ms : List Bytes) (p : Bytes) (rest : List Bytes) : Prop where
  split : ms = (onMessage p).items ++ rest
  /-- `conn->shutdown()` is called on the complete header of a message that is too long. -/
  refused_iff : (onMessage p).refused = true ↔ ∃ m ∈ rest.head?, maxLen < m.length ∧
    (sendAll (onMessage p).items).length + kHeaderLen ≤ p.length
  /-- A message that is not too long is delivered once its frame is complete. -/
  incomplete : ∀ m ∈ rest.head?, m.length ≤ maxLen →
    p.length < (sendAll ((onMessage p).items ++ [m])).length

/-- **Streams that break off.** Of a first part of the frames of `ms`, whose lengths an `int32_t`
can hold, the first messages are read, until one is incomplete or too long. -/
theorem onMessage_of_prefix {ms : List Bytes} (hms : ∀ m ∈ ms, m.length < 2 ^ 31) {p : Bytes}
    (hp : p <+: sendAll ms) : ∃ rest, ReadsPrefix ms p rest := by
  induction ms generalizing p with
  | nil =>
    obtain rfl : p = [] := List.prefix_nil.mp hp
    exact ⟨[], by simp [onMessage_nil], by simp [onMessage_nil], by simp⟩
  | cons m ms ih =>
    obtain ⟨hint, hms⟩ := List.forall_mem_cons.mp hms
    obtain ⟨t, ht⟩ := hp
    rw [sendAll_cons] at ht
    by_cases hm : m.length ≤ maxLen
    · by_cases hshort : p.length < (send m).length
      · -- the frame of `m` is incomplete
        have hnone : onMessage p = ⟨[], p, false⟩ := drain_wait (onMessageTurn_of_cut hm ht hshort)
        refine ⟨m :: ms, by simp [hnone], ?_, ?_⟩
        · simp only [hnone, List.head?_cons, Option.mem_some_iff, exists_eq_left']
          refine iff_of_false (by simp) fun h => ?_
          omega
        · simpa [hnone, sendAll] using fun _ => hshort
      · -- the frame of `m` is complete, with `q` behind it
        obtain ⟨q, rfl⟩ : send m <+: p :=
          List.prefix_of_prefix_length_le (List.prefix_append _ (sendAll ms)) ⟨t, ht⟩ (by omega)
        have hq : q <+: sendAll ms := by
          rw [List.append_assoc, List.append_cancel_left_eq] at ht
          exact ⟨t, ht⟩
        obtain ⟨rest, hrest⟩ := ih hms hq
        have hfirst : onMessage (send m ++ q) =
            ⟨m :: (onMessage q).items, (onMessage q).rest, (onMessage q).refused⟩ := by
          have happ := onMessage_sendAll_append (List.forall_mem_singleton.mpr hm) q
          simpa [sendAll] using happ
        refine ⟨rest, ?_, ?_, ?_⟩
        · rw [hfirst, List.cons_append, ← hrest.split]
        · rw [hfirst, sendAll_cons, List.length_append, List.length_append, hrest.refused_iff]
          simp only [Nat.add_assoc, Nat.add_le_add_iff_left]
        · intro m' hm' hle
          have hlt := hrest.incomplete m' hm' hle
          rw [hfirst, List.cons_append, sendAll_cons, List.length_append, List.length_append]
          omega
    · have hlong := onMessage_of_long (Nat.lt_of_not_le hm) hint ht
      refine ⟨m :: ms, by simp [hlong], ?_, ?_⟩
      · have hzero : (sendAll []).length = 0 := rfl
        simp only [hlong, List.head?_cons, Option.mem_some_iff, exists_eq_left', hzero]
        simp [Nat.lt_of_not_le hm]
      · intro m' hm' hle
        rw [List.head?_cons, Option.mem_some_iff] at hm'
        exact absurd (hm' ▸ hle) hm

/-- What can be read of a first part of the frames of `ms` is a first part of `ms`. -/
theorem items_prefix {ms : List Bytes} (hms : ∀ m ∈ ms, m.length < 2 ^ 31) {p : Bytes}
    (hp : p <+: sendAll ms) : (onMessage p).items <+: ms := by
  obtain ⟨rest, hread⟩ := onMessage_of_prefix hms hp
  exact ⟨rest, hread.split.symm⟩

/-- Of all the frames of `ms` the messages before the first one that is too long can be read. -/
theorem items_sendAll {ms : List Bytes} (hms : ∀ m ∈ ms, m.length < 2 ^ 31) :
    (onMessage (sendAll ms)).items = ms.takeWhile fun m => decide (m.length ≤ maxLen) := by
  obtain ⟨rest, hread⟩ := onMessage_of_prefix hms (List.prefix_refl _)
  have hitems : ∀ m ∈ (onMessage (sendAll ms)).items, m.length ≤ maxLen :=
    (onMessage_spec (sendAll ms)).1
  have hrest : rest.takeWhile (fun m => decide (m.length ≤ maxLen)) = [] := by
    cases rest with
    | nil => rfl
    | cons m rest =>
      refine List.takeWhile_cons_of_neg ?_
      simp only [decide_eq_true_eq]
      intro hm
      -- a message that is not too long would have been read
      have hlt := hread.incomplete m rfl hm
      have hlen : (sendAll ms).length =
          (sendAll ((onMessage (sendAll ms)).items ++ [m])).length + (sendAll rest).length := by
        rw [← List.length_append, ← sendAll_append, List.append_assoc, List.singleton_append,
          ← hread.split]
      omega
  conv_rhs => rw [hread.split]
  rw [List.takeWhile_append_of_pos (by simpa using hitems), hrest, List.append_nil]

/-- **What is received of a connection that breaks off.** Of a first part of the frames of `ms`,
cut into chunks in any way, the receiving end delivers the first messages in order, each of which is
complete and not longer than it accepts; the next one is incomplete or longer than that, and
`conn->shutdown()` is called exactly if it is longer and its header is complete. -/
theorem receiver_of_prefix {ms : List Bytes} (hms : ∀ m ∈ ms, m.length < 2 ^ 31) {cs : List Bytes}
    (hcs : cs.flatten <+: sendAll ms) :
    ∃ rest, ms = (receiver cs).delivered ++ rest ∧
      (∀ m ∈ (receiver cs).delivered, m.length ≤ 65536 * 20) ∧
      sendAll (receiver cs).delivered <+: cs.flatten ∧
      (0 < (receiver cs).refusals ↔ ∃ m ∈ rest.head?, 65536 * 20 < m.length ∧
        (sendAll (receiver cs).delivered).length + 4 ≤ cs.flatten.length) ∧
      ∀ m ∈ rest.head?, m.length ≤ 65536 * 20 →
        cs.flatten.length < (sendAll ((receiver cs).delivered ++ [m])).length := by
  obtain ⟨hdel, -, href⟩ := receiver_eq cs
  obtain ⟨rest, hsplit, hrefused, hincomplete⟩ := onMessage_of_prefix hms hcs
  obtain ⟨hlengths, hread, -⟩ := onMessage_spec cs.flatten
  rw [hdel, href]
  exact ⟨rest, hsplit, hlengths, ⟨_, hread.symm⟩, hrefused, hincomplete⟩

/-- The connection is lost one byte before the end of the second message. -/
theorem receiver_of_prefix_lost :
    let cs : List Bytes := [[0, 0, 0], [1, 7, 0, 0, 0, 2, 8]]
    ∃ rest, [[7], [8, 9]] = (receiver cs).delivered ++ rest ∧
      (∀ m ∈ (receiver cs).delivered, m.length ≤ 65536 * 20) ∧
      sendAll (receiver cs).delivered <+: cs.flatten ∧
      (0 < (receiver cs).refusals ↔ ∃ m ∈ rest.head?, 65536 * 20 < m.length ∧
        (sendAll (receiver cs).delivered).length + 4 ≤ cs.flatten.length) ∧
      ∀ m ∈ rest.head?, m.length ≤ 65536 * 20 →
        cs.flatten.length < (sendAll ((receiver cs).delivered ++ [m])).length :=
  receiver_of_prefix (by decide) ⟨[9], by decide⟩

end Codec
