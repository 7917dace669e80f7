import CameraVideoStream.Foundation.BigEndian
import CameraVideoStream.Foundation.Resumable
import Mathlib.Algebra.Ring.Int.Defs

/-!
# The length-header codec

`LengthHeaderCodec` (`common/codec.h`) sends a message as four bytes, its length as a big-endian
`int32_t`, followed by its bytes. `onMessage` runs after each chunk that a connection receives and
takes turns of its `while` loop on the unread bytes of the receive buffer; here the buffer is the
list of its readable bytes, `peek` reads at its front and `retrieve` drops from it.

A turn waits (short header or short payload), refuses (the length is negative or above
`65536 * 20`: `conn->shutdown()` is called and the header stays where it is) or delivers one
message to `messageCallback_`. So `onMessageTurn` is a parser in the sense of `Turn`, and it is
resumable (`resumable_onMessageTurn`).

## Main definitions

* `Codec.send`: the bytes handed to the connection for one message.
* `Codec.onMessageTurn`, `Codec.onMessage`: one turn of the loop, and the loop.
* `Codec.InvalidHead`: a complete header with an invalid length stands at the front.
* `Codec.receiver`: the receiving end after a list of chunks.

## Main results

* `Codec.onMessageTurn_eq_item_iff`, `Codec.onMessageTurn_eq_refuse_iff`,
  `Codec.length_lt_of_wait`: what each turn says about the unread bytes.
* `Codec.reads_iff`: reading messages off the buffer undoes `send`.
* `Codec.onMessage_sendAll_append`: frames in front of the unread bytes are delivered first.
-/

namespace Codec

/-- `muduo::string`, and the readable bytes of a `muduo::net::Buffer`. -/
abbrev Bytes := List UInt8

/-- `kHeaderLen = sizeof(int32_t)`. -/
def kHeaderLen : ℕ := 4

/-- The longest message that `onMessage` accepts. -/
def maxLen : ℕ := 65536 * 20

/-- `sockets::networkToHost32` of the four bytes of a header, stored in an `int32_t`. -/
def networkToHost32 (a b c d : UInt8) : ℤ := Int.bmod (BigEndian.nat32 a b c d) (2 ^ 32)

/-- `LengthHeaderCodec::send`: the message, and in front of it the bytes of
`hostToNetwork32(static_cast<int32_t>(message.size()))`. -/
def send (message : Bytes) : Bytes := BigEndian.bytes32 message.length ++ message

/-- The bytes that `send` writes for the messages `ms`, one after the other. -/
def sendAll (ms : List Bytes) : Bytes := ms.flatMap send

/-- One turn of the `while` loop of `LengthHeaderCodec::onMessage`. -/
def onMessageTurn (buf : Bytes) : Turn UInt8 Bytes :=
  match buf with
  | b₀ :: b₁ :: b₂ :: b₃ :: payload =>
    let len := networkToHost32 b₀ b₁ b₂ b₃
    if len > 65536 * 20 ∨ len < 0 then
      -- `conn->shutdown(); break;` with the header left in the buffer
      .refuse
    else if buf.length ≥ len.toNat + kHeaderLen then
      -- `retrieve(kHeaderLen)`, `messageCallback_` on `(peek(), len)`, `retrieve(len)`
      .item (payload.take len.toNat) (payload.drop len.toNat)
    else .wait
  | _ => .wait

/-- `LengthHeaderCodec::onMessage` on the unread bytes `buf`: the messages delivered to
`messageCallback_`, the bytes left unread, and whether `conn->shutdown()` was called. -/
def onMessage (buf : Bytes) : Drained UInt8 Bytes := drain onMessageTurn buf

/-- A complete header stands at the front of the unread bytes, and its length is invalid. -/
def InvalidHead : Bytes → Prop
  | b₀ :: b₁ :: b₂ :: b₃ :: _ =>
    networkToHost32 b₀ b₁ b₂ b₃ > 65536 * 20 ∨ networkToHost32 b₀ b₁ b₂ b₃ < 0
  | _ => False

/-- The receiving end of a connection after the chunks `cs`, with `onMessage` run after each:
`delivered` lists the messages given to `messageCallback_`, `buf` the unread bytes, and `refusals`
counts the calls of `conn->shutdown()`. -/
def receiver (cs : List Bytes) : Feed UInt8 Bytes := feed onMessageTurn cs

/-! ### Headers -/

theorem networkToHost32_cases (a b c d : UInt8) :
    networkToHost32 a b c d = BigEndian.nat32 a b c d ∧ BigEndian.nat32 a b c d < 2 ^ 31 ∨
      networkToHost32 a b c d < 0 ∧ 2 ^ 31 ≤ BigEndian.nat32 a b c d := by
  have hlt := BigEndian.nat32_lt a b c d
  unfold networkToHost32
  rw [Int.bmod_def]
  split <;> omega

/-- A header with a valid length is the header that `send` writes for that length. -/
theorem bytes32_of_valid {a b c d : UInt8}
    (h : ¬ (networkToHost32 a b c d > 65536 * 20 ∨ networkToHost32 a b c d < 0)) :
    BigEndian.bytes32 (networkToHost32 a b c d).toNat = [a, b, c, d] ∧
      (networkToHost32 a b c d).toNat ≤ maxLen := by
  have hmax : maxLen = 1310720 := rfl
  rcases networkToHost32_cases a b c d with ⟨heq, -⟩ | ⟨hneg, -⟩
  · have hnat : (networkToHost32 a b c d).toNat = BigEndian.nat32 a b c d := by omega
    exact ⟨by rw [hnat, BigEndian.bytes32_nat32], by omega⟩
  · omega

/-- The header that `send` writes for a length that an `int32_t` can hold is read back as it. -/
theorem networkToHost32_bytes32 {n : ℕ} (hn : n < 2 ^ 31) :
    networkToHost32 (UInt8.ofNat (n / 2 ^ 24)) (UInt8.ofNat (n / 2 ^ 16))
      (UInt8.ofNat (n / 2 ^ 8)) (UInt8.ofNat n) = n := by
  have h32 := BigEndian.nat32_bytes32 (n := n) (by omega)
  rcases networkToHost32_cases (UInt8.ofNat (n / 2 ^ 24)) (UInt8.ofNat (n / 2 ^ 16))
    (UInt8.ofNat (n / 2 ^ 8)) (UInt8.ofNat n) with ⟨heq, -⟩ | ⟨-, hge⟩ <;> omega

/-! ### What a turn does -/

/-- The frame of a message that is not too long is read back, whatever comes behind it. -/
theorem onMessageTurn_send {m : Bytes} (hm : m.length ≤ maxLen) (t : Bytes) :
    onMessageTurn (send m ++ t) = .item m t := by
  have hmax : maxLen = 1310720 := rfl
  have hlen := networkToHost32_bytes32 (n := m.length) (by omega)
  simp only [send, BigEndian.bytes32, List.cons_append, List.nil_append, onMessageTurn, hlen]
  rw [if_neg (by omega), if_pos (by simp [kHeaderLen]), Int.toNat_natCast, List.take_left,
    List.drop_left]

/-- The frame of a message that is too long stands at the front as an invalid header. -/
theorem invalidHead_send {m : Bytes} (hm : maxLen < m.length) (hint : m.length < 2 ^ 31)
    (t : Bytes) : InvalidHead (send m ++ t) := by
  have hmax : maxLen = 1310720 := rfl
  have hlen := networkToHost32_bytes32 hint
  simp only [send, BigEndian.bytes32, List.cons_append, List.nil_append, InvalidHead, hlen]
  omega

theorem onMessageTurn_eq_refuse_iff {s : Bytes} : onMessageTurn s = .refuse ↔ InvalidHead s := by
  unfold onMessageTurn InvalidHead
  split
  · simp only
    split_ifs with hbad <;> simpa using hbad
  · simp

theorem onMessageTurn_eq_item_iff {s m r : Bytes} :
    onMessageTurn s = .item m r ↔ m.length ≤ maxLen ∧ s = send m ++ r := by
  constructor
  · intro h
    unfold onMessageTurn at h
    split at h
    · rename_i b₀ b₁ b₂ b₃ payload
      simp only at h
      split_ifs at h with hbad hfull
      obtain ⟨rfl, rfl⟩ := Turn.item.inj h
      obtain ⟨hhead, hle⟩ := bytes32_of_valid hbad
      have hlen : (payload.take (networkToHost32 b₀ b₁ b₂ b₃).toNat).length =
          (networkToHost32 b₀ b₁ b₂ b₃).toNat := by
        simp only [List.length_cons, kHeaderLen] at hfull
        rw [List.length_take]
        omega
      refine ⟨Nat.le_trans (Nat.le_of_eq hlen) hle, ?_⟩
      rw [send, hlen, hhead, List.append_assoc, List.take_append_drop]
      rfl
    · cases h
  · rintro ⟨hm, rfl⟩
    exact onMessageTurn_send hm r

/-- Bytes without a header are fewer than a header has. -/
theorem length_lt_of_no_header {s : Bytes}
    (h : ∀ b₀ b₁ b₂ b₃ payload, s ≠ b₀ :: b₁ :: b₂ :: b₃ :: payload) : s.length < kHeaderLen := by
  match s with
  | [] | [_] | [_, _] | [_, _, _] => simp [kHeaderLen]
  | b₀ :: b₁ :: b₂ :: b₃ :: payload => exact absurd rfl (h b₀ b₁ b₂ b₃ payload)

/-- While a turn waits, fewer bytes are unread than the longest frame has. -/
theorem length_lt_of_wait {s : Bytes} (h : onMessageTurn s = .wait) :
    s.length < kHeaderLen + maxLen := by
  have hmax : maxLen = 1310720 := rfl
  have hhead : kHeaderLen = 4 := rfl
  unfold onMessageTurn at h
  split at h
  · simp only at h
    split_ifs at h with hbad hfull
    omega
  · rename_i hshort
    exact Nat.lt_of_lt_of_le (length_lt_of_no_header hshort) (Nat.le_add_right _ _)

theorem InvalidHead.append {s : Bytes} (h : InvalidHead s) (t : Bytes) : InvalidHead (s ++ t) := by
  match s with
  | [] | [_] | [_, _] | [_, _, _] => exact h.elim
  | _ :: _ :: _ :: _ :: _ => exact h

/-- Every break of the loop can be resumed: more bytes change neither a delivery nor a refusal. -/
theorem resumable_onMessageTurn : Resumable onMessageTurn where
  nil := rfl
  lt {s m r} h := by
    obtain ⟨-, rfl⟩ := onMessageTurn_eq_item_iff.mp h
    simp [send]
    omega
  item_append {s m r} h t := by
    obtain ⟨hm, rfl⟩ := onMessageTurn_eq_item_iff.mp h
    rw [List.append_assoc]
    exact onMessageTurn_send hm (r ++ t)
  refuse_append h t :=
    onMessageTurn_eq_refuse_iff.mpr ((onMessageTurn_eq_refuse_iff.mp h).append t)

/-! ### Reading messages undoes sending them -/

theorem sendAll_nil : sendAll [] = [] := rfl

theorem sendAll_cons (m : Bytes) (ms : List Bytes) : sendAll (m :: ms) = send m ++ sendAll ms := rfl

theorem sendAll_append (ms ns : List Bytes) : sendAll (ms ++ ns) = sendAll ms ++ sendAll ns :=
  List.flatMap_append

/-- **Reading undoes sending.** The messages `ms` can be read off `s` with `r` left exactly when
none of them is too long and `s` is their frames followed by `r`. -/
theorem reads_iff {s r : Bytes} {ms : List Bytes} :
    Reads onMessageTurn s ms r ↔ (∀ m ∈ ms, m.length ≤ maxLen) ∧ s = sendAll ms ++ r := by
  induction ms generalizing s with
  | nil =>
    constructor
    · rintro ⟨⟩
      exact ⟨by simp, rfl⟩
    · rintro ⟨-, rfl⟩
      exact .nil _
  | cons m ms ih =>
    constructor
    · rintro ⟨⟩
      rename_i u hturn hreads
      obtain ⟨hm, rfl⟩ := onMessageTurn_eq_item_iff.mp hturn
      obtain ⟨hms, rfl⟩ := ih.mp hreads
      exact ⟨List.forall_mem_cons.mpr ⟨hm, hms⟩, by rw [sendAll_cons, List.append_assoc]⟩
    · rintro ⟨hms, rfl⟩
      obtain ⟨hm, hms⟩ := List.forall_mem_cons.mp hms
      rw [sendAll_cons, List.append_assoc]
      exact .cons (onMessageTurn_send hm _) (ih.mpr ⟨hms, rfl⟩)

/-- Frames in front of the unread bytes are delivered first. -/
theorem onMessage_sendAll_append {ms : List Bytes} (hms : ∀ m ∈ ms, m.length ≤ maxLen)
    (r : Bytes) :
    onMessage (sendAll ms ++ r) =
      ⟨ms ++ (onMessage r).items, (onMessage r).rest, (onMessage r).refused⟩ :=
  resumable_onMessageTurn.drain_of_reads (reads_iff.mpr ⟨hms, rfl⟩)

theorem onMessage_of_invalidHead {r : Bytes} (h : InvalidHead r) : onMessage r = ⟨[], r, true⟩ :=
  drain_refuse (onMessageTurn_eq_refuse_iff.mpr h)

theorem onMessage_nil : onMessage [] = ⟨[], [], false⟩ := rfl

end Codec
