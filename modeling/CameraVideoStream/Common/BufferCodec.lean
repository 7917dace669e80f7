import CameraVideoStream.Common.Buffer
import CameraVideoStream.Common.OnMessage

/-!
# The codec on the index-based buffer

`onMessage` and `send` of `common/codec.h` over `muduo::net::Buffer` instead of over the list of the
unread bytes. A turn of the loop reads the header at `peek()`, retrieves it, copies the payload from
where `peek()` then is, and retrieves that: either of the two may put the indices back to the front.
Turn by turn this is the loop on the list (`Codec.Refines.onMessageBufferBody`), so the whole call
is too, and no assertion of the buffer fails.

## Main definitions

* `Codec.onMessageBufferBody`, `Codec.sendBuffer`.
* `Codec.Refines`: a call on the buffer and one on the list of its readable bytes.

## Main results

* `Codec.buffer_codec`.
-/

namespace Codec

/-- How a call ends: it returns, or it has called a function of the buffer against an assertion. -/
inductive Exit where
  | returned
  | violated
  deriving DecidableEq

/-- `retrieve(kHeaderLen)`, `messageCallback_` on the `len` bytes at `peek()`, `retrieve(len)`. -/
def deliver (c : Reading Buffer) (len : ℕ) : Option (Reading Buffer) :=
  (c.buf.retrieve kHeaderLen).bind fun buf =>
  (buf.peekBytes len).bind fun message =>
  (buf.retrieve len).map fun buf =>
    { c with buf := buf, delivered := c.delivered ++ [message] }

/-- The body of the `while` loop of `onMessage` on the receive buffer itself. -/
def onMessageBufferBody (c : Reading Buffer) : Outcome (Reading Buffer) Exit :=
  if c.buf.readableBytes ≥ kHeaderLen then
    match c.buf.peekBytes kHeaderLen with
    | some [b₀, b₁, b₂, b₃] =>
      let len := networkToHost32 b₀ b₁ b₂ b₃
      if len > 65536 * 20 ∨ len < 0 then
        .exit .returned { c with shutdowns := c.shutdowns + 1 }
      else if c.buf.readableBytes ≥ len.toNat + kHeaderLen then
        match deliver c len.toNat with
        | some c' => .next c'
        | none => .exit .violated c
      else
        .exit .returned c
    | _ => .exit .violated c
  else
    .exit .returned c

/-- `LengthHeaderCodec::send`, up to the buffer that it hands to `conn->send`. -/
def sendBuffer (message : Bytes) : Option Buffer :=
  ((Buffer.init Buffer.kInitialSize).append message).bind fun buf =>
    buf.prepend (BigEndian.bytes32 message.length)

/-- The call `c` on a buffer is where the call `l` on the list of its readable bytes is. -/
structure Refines (c : Reading Buffer) (l : Reading Bytes) : Prop where
  valid : c.buf.Valid
  readable : c.buf.readable = l.buf
  delivered : c.delivered = l.delivered
  shutdowns : c.shutdowns = l.shutdowns

/-! ### `onMessage` -/

/-- A message whose bytes are there is delivered. -/
theorem Refines.deliver {c : Reading Buffer} {l : Reading Bytes} (h : Refines c l)
    {len : ℕ} (hlen : len + kHeaderLen ≤ c.buf.readableBytes) :
    ∃ c', deliver c len = some c' ∧
      Refines c'
        { l with
          buf := (l.buf.drop kHeaderLen).drop len
          delivered := l.delivered ++ [(l.buf.drop kHeaderLen).take len] } := by
  have hhead : kHeaderLen ≤ c.buf.readableBytes := by omega
  obtain ⟨b₁, hheader, hvalid₁, hreadable₁⟩ := h.valid.retrieve hhead
  have hrest : len ≤ b₁.readableBytes := by
    rw [← hvalid₁.length_readable, hreadable₁, List.length_drop, h.valid.length_readable]
    omega
  obtain ⟨b₂, hpayload, hvalid₂, hreadable₂⟩ := hvalid₁.retrieve hrest
  have hmessage := hvalid₁.peekBytes hrest
  rw [hreadable₁, h.readable] at hmessage hreadable₂
  refine ⟨{ c with buf := b₂, delivered := c.delivered ++ [(l.buf.drop kHeaderLen).take len] }, ?_,
    hvalid₂, hreadable₂, ?_, h.shutdowns⟩
  · rw [Codec.deliver, hheader, Option.bind_some, hmessage, Option.bind_some, hpayload]
    rfl
  · show c.delivered ++ _ = _
    rw [h.delivered]

/-- **One turn** on the buffer does what the turn on the list does. -/
theorem Refines.onMessageBufferBody {c : Reading Buffer} {l : Reading Bytes} (h : Refines c l) :
    Outcome.Rel Refines (fun r c _ l => r = .returned ∧ Refines c l) (onMessageBufferBody c)
      (onMessageBody l) := by
  have hbytes : c.buf.readableBytes = l.buf.length := by
    rw [← h.valid.length_readable, h.readable]
  rw [Codec.onMessageBufferBody, onMessageBody]
  by_cases hhead : c.buf.readableBytes ≥ kHeaderLen
  · obtain ⟨b₀, b₁, b₂, b₃, payload, hbuf⟩ :
        ∃ b₀ b₁ b₂ b₃ payload, l.buf = b₀ :: b₁ :: b₂ :: b₃ :: payload := by
      by_contra hnone
      push Not at hnone
      have hshort := length_lt_of_no_header hnone
      omega
    have hpeek : c.buf.peekBytes kHeaderLen = some [b₀, b₁, b₂, b₃] := by
      rw [h.valid.peekBytes hhead, h.readable, hbuf]
      rfl
    simp only [if_pos hhead, hpeek, hbuf, onMessageTurn]
    generalize networkToHost32 b₀ b₁ b₂ b₃ = len
    by_cases hbad : len > 65536 * 20 ∨ len < 0
    · rw [if_pos hbad, if_pos hbad]
      exact ⟨rfl, h.valid, h.readable.trans hbuf, h.delivered, congrArg (· + 1) h.shutdowns⟩
    · rw [if_neg hbad, if_neg hbad, ← hbuf, ← hbytes]
      by_cases hfull : c.buf.readableBytes ≥ len.toNat + kHeaderLen
      · obtain ⟨c', hdeliver, hrefines⟩ := h.deliver hfull
        rw [if_pos hfull, if_pos hfull, hdeliver]
        rw [hbuf] at hrefines
        exact hrefines
      · rw [if_neg hfull, if_neg hfull]
        exact ⟨rfl, h⟩
  · have hwait : onMessageTurn l.buf = .wait :=
      onMessageTurn_eq_wait_iff.mpr (.inl (by rw [← hbytes]; exact Nat.not_le.mp hhead))
    rw [if_neg hhead, hwait]
    exact ⟨rfl, h⟩

/-- A call on a valid buffer returns, as the call on the list of its readable bytes does. -/
theorem loop_onMessageBufferBody {b : Buffer} (hb : b.Valid) {fuel : ℕ}
    (hfuel : b.readableBytes < 4 * fuel) :
    ∃ c, Outcome.loop onMessageBufferBody fuel { buf := b } = some (.returned, c) ∧
      Refines c (.ofDrained (onMessage b.readable)) := by
  rw [← hb.length_readable] at hfuel
  have hstart : Refines { buf := b } { buf := b.readable } := ⟨hb, rfl, rfl, rfl⟩
  obtain ⟨r, c, hloop, rfl, hrefines⟩ := Outcome.loop_rel
    (R := fun r c _ l => r = Exit.returned ∧ Refines c l)
    (fun _ _ h => h.onMessageBufferBody) hstart (loop_onMessageBody hfuel)
  exact ⟨c, hloop, hrefines⟩

/-! ### `send` -/

/-- The frame of a message, whatever growth of the buffer it causes: `kCheapPrepend` bytes are
always in front of it, and the header takes four. -/
theorem sendBuffer_eq (message : Bytes) :
    ∃ buf pre post, sendBuffer message = some buf ∧ Buffer.Layout buf pre (send message) post := by
  obtain ⟨b, pre, post, happend, hlayout, hpre⟩ :=
    (Buffer.valid_init Buffer.kInitialSize).append message
  rw [Buffer.readable_init, List.nil_append] at hlayout
  have hroom : (BigEndian.bytes32 message.length).length ≤ pre.length := by
    have hcheap : Buffer.kCheapPrepend = 8 := rfl
    rw [BigEndian.length_bytes32]
    omega
  obtain ⟨buf, hprepend, hlayout⟩ := hlayout.prepend hroom
  exact ⟨buf, _, _, by rw [sendBuffer, happend]; exact hprepend, hlayout⟩

/-- **The codec on the index-based buffer.** On every valid buffer `onMessage` returns without an
assertion failing, and leaves a valid buffer; it delivers the messages that `onMessage` on the list
of the readable bytes delivers, leaves the bytes readable that it leaves, and calls
`conn->shutdown()` as often. For every message that an `int` can count the bytes of, no assertion
fails in `send`, and the readable bytes of the buffer that it hands over are the length of the
message, as four bytes that a receiver reads as this length, and the message. -/
theorem buffer_codec :
    (∀ b : Buffer, b.Valid → ∀ fuel, b.readableBytes < 4 * fuel →
      ∃ c, Outcome.loop onMessageBufferBody fuel { buf := b } = some (.returned, c) ∧
        c.buf.Valid ∧
        c.delivered = (onMessage b.readable).items ∧
        c.buf.readable = (onMessage b.readable).rest ∧
        c.shutdowns = if (onMessage b.readable).refused then 1 else 0) ∧
    (∀ message : Bytes, message.length ≤ 2 ^ 31 - 1 →
      ∃ buf b₀ b₁ b₂ b₃, sendBuffer message = some buf ∧
        buf.readerIndex ≤ buf.writerIndex ∧ buf.writerIndex ≤ buf.buffer.length ∧
        BigEndian.bytes32 message.length = [b₀, b₁, b₂, b₃] ∧
        networkToHost32 b₀ b₁ b₂ b₃ = message.length ∧
        buf.readable = b₀ :: b₁ :: b₂ :: b₃ :: message) := by
  constructor
  · intro b hb fuel hfuel
    obtain ⟨c, hloop, hrefines⟩ := loop_onMessageBufferBody hb hfuel
    exact ⟨c, hloop, hrefines.valid, hrefines.delivered, hrefines.readable, hrefines.shutdowns⟩
  · intro message hlen
    obtain ⟨buf, pre, post, hsend, hlayout⟩ := sendBuffer_eq message
    refine ⟨buf, _, _, _, _, hsend, ?_, ?_, rfl, networkToHost32_bytes32 (by omega),
      hlayout.readable⟩
    · rw [hlayout.readerIndex, hlayout.writerIndex]
      omega
    · rw [hlayout.writerIndex, hlayout.buffer, List.length_append, List.length_append]
      omega

/-- A zero-length frame alone in a buffer, which is then empty again, and a message of one byte. -/
theorem buffer_codec_empty_frame :
    (∃ c, Outcome.loop onMessageBufferBody 2 { buf := ⟨List.replicate 16 0, 9, 13⟩ } =
        some (.returned, c) ∧ c.buf.Valid ∧ c.delivered = [[]] ∧ c.buf.readable = [] ∧
        c.shutdowns = 0) ∧
    ∃ buf b₀ b₁ b₂ b₃, sendBuffer [7] = some buf ∧
      buf.readerIndex ≤ buf.writerIndex ∧ buf.writerIndex ≤ buf.buffer.length ∧
      BigEndian.bytes32 1 = [b₀, b₁, b₂, b₃] ∧ networkToHost32 b₀ b₁ b₂ b₃ = 1 ∧
      buf.readable = [b₀, b₁, b₂, b₃, 7] := by
  have hvalid : Buffer.Valid ⟨List.replicate 16 0, 9, 13⟩ := ⟨by decide, by decide, by decide⟩
  exact ⟨buffer_codec.1 _ hvalid 2 (by decide), buffer_codec.2 [7] (by decide)⟩

end Codec
