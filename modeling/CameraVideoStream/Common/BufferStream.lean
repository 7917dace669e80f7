import CameraVideoStream.Common.BufferCodec

/-!
# The codec on the index-based buffer, over a whole connection

Between two calls of `onMessage` the receive buffer keeps its bytes where they are, and `readFd`
puts the next chunk behind them; whatever has become of the indices and of the size of the buffer by
then, the receiving end is at every moment the one of `Codec.receiver`, and no assertion of the
buffer ever fails. With the sending end this is the round trip on the buffers themselves.

`readFd` is not part of the sources; what is assumed of it is that it appends what it has read.

## Main definitions

* `Codec.ReadsInto`, `Codec.Appends`: what `readFd` does.
* `Codec.receiverBuffer`: the receiving end after a list of chunks.

## Main results

* `Codec.exists_follows`: a simulation, chunk by chunk.
* `Codec.receiverBuffer_spec`.
-/

namespace Codec

/-- `Buffer::readFd` puts the bytes that it has read behind the readable ones. -/
structure ReadsInto (readFd : Buffer → Bytes → Buffer) : Prop where
  valid : ∀ b chunk, b.Valid → (readFd b chunk).Valid
  readable : ∀ b chunk, b.Valid → (readFd b chunk).readable = b.readable ++ chunk

/-- A chunk is read into the receive buffer, and `onMessage` is called. The loop takes four bytes at
least off the buffer each time round. There is no result if an assertion fails. -/
def receiveBuffer (readFd : Buffer → Bytes → Buffer) (c : Reading Buffer) (chunk : Bytes) :
    Option (Reading Buffer) :=
  let buf := readFd c.buf chunk
  match Outcome.loop onMessageBufferBody (buf.readableBytes + 1) { buf := buf } with
  | some (.returned, call) =>
    some
      { buf := call.buf
        delivered := c.delivered ++ call.delivered
        shutdowns := c.shutdowns + call.shutdowns }
  | _ => none

/-- The receiving end of a connection after the chunks `cs`. -/
def receiverBuffer (readFd : Buffer → Bytes → Buffer) (cs : List Bytes) :
    Option (Reading Buffer) :=
  cs.foldlM (receiveBuffer readFd) { buf := Buffer.init Buffer.kInitialSize }

/-- The receiving end on the buffer is where the one on the list of its readable bytes is. -/
structure Follows (c : Reading Buffer) (f : Feed UInt8 Bytes) : Prop where
  valid : c.buf.Valid
  readable : c.buf.readable = f.buf
  delivered : c.delivered = f.delivered
  shutdowns : c.shutdowns = f.refusals

/-- The buffers that `send` hands over for the messages `ms` hold their frames. -/
theorem exists_sendBuffer (ms : List Bytes) :
    ∃ bufs, ms.mapM sendBuffer = some bufs ∧ bufs.flatMap Buffer.readable = sendAll ms := by
  induction ms with
  | nil => exact ⟨[], rfl, rfl⟩
  | cons m ms ih =>
    obtain ⟨buf, pre, post, hsend, hlayout⟩ := sendBuffer_eq m
    obtain ⟨bufs, hbufs, hreadable⟩ := ih
    refine ⟨buf :: bufs, ?_, ?_⟩
    · simp [List.mapM_cons, hsend, hbufs]
    · rw [List.flatMap_cons, hlayout.readable, hreadable, sendAll_cons]

section Receiver

variable {readFd : Buffer → Bytes → Buffer} (hread : ReadsInto readFd)

include hread

theorem Follows.receive {c : Reading Buffer} {f : Feed UInt8 Bytes} (h : Follows c f)
    (chunk : Bytes) :
    ∃ c', receiveBuffer readFd c chunk = some c' ∧
      Follows c' (f.receive onMessageTurn chunk) := by
  have hvalid := hread.valid c.buf chunk h.valid
  have hreadable := hread.readable c.buf chunk h.valid
  rw [h.readable] at hreadable
  have hfuel : (readFd c.buf chunk).readableBytes <
      4 * ((readFd c.buf chunk).readableBytes + 1) := by
    omega
  obtain ⟨call, hloop, hcall⟩ := loop_onMessageBufferBody hvalid hfuel
  rw [hreadable] at hcall
  refine ⟨⟨call.buf, c.delivered ++ call.delivered, c.shutdowns + call.shutdowns⟩, ?_, hcall.valid,
    hcall.readable, ?_, ?_⟩
  · simp only [receiveBuffer, hloop]
  · show c.delivered ++ call.delivered = f.delivered ++ _
    rw [h.delivered, hcall.delivered]
    rfl
  · show c.shutdowns + call.shutdowns = if _ then _ else _
    rw [h.shutdowns, hcall.shutdowns]
    show f.refusals + (if (drain onMessageTurn (f.buf ++ chunk)).refused then 1 else 0) = _
    split_ifs <;> rfl

/-- **The receiving end on the buffer itself.** After any chunks it is where the receiving end on
the list of the unread bytes is, and no assertion of the buffer has failed. -/
theorem exists_follows (cs : List Bytes) :
    ∃ c, receiverBuffer readFd cs = some c ∧ Follows c (receiver cs) := by
  induction cs using List.reverseRecOn with
  | nil =>
    exact ⟨_, rfl, Buffer.valid_init _, Buffer.readable_init _, rfl, rfl⟩
  | append_singleton cs chunk ih =>
    obtain ⟨c, hc, hfollows⟩ := ih
    obtain ⟨c', hc', hfollows'⟩ := hfollows.receive hread chunk
    refine ⟨c', ?_, ?_⟩
    · rw [receiverBuffer, List.foldlM_append, ← receiverBuffer, hc]
      simp [hc']
    · rwa [receiver, Resumable.feed_concat]

/-- **The codec on the buffers themselves, over a whole connection.** After any chunks, whatever
they contain, no assertion of the receive buffer has failed, and the receiving end has delivered,
left unread and refused what the one on the list of the unread bytes has. And for messages that are
not too long no assertion fails in `send` either; if the readable bytes of the buffers that it hands
over reach the other end, cut into chunks in any way, the messages are delivered, the connection is
not shut down, and no byte is left in the buffer. -/
theorem receiverBuffer_spec :
    (∀ cs, ∃ c, receiverBuffer readFd cs = some c ∧ c.buf.Valid ∧
      c.delivered = (receiver cs).delivered ∧ c.buf.readable = (receiver cs).buf ∧
      c.shutdowns = (receiver cs).refusals) ∧
    ∀ ms : List Bytes, (∀ m ∈ ms, m.length ≤ 65536 * 20) →
      ∃ bufs, ms.mapM sendBuffer = some bufs ∧
        ∀ cs : List Bytes, cs.flatten = bufs.flatMap Buffer.readable →
          ∃ c, receiverBuffer readFd cs = some c ∧ c.delivered = ms ∧ c.shutdowns = 0 ∧
            c.buf.readable = [] := by
  constructor
  · intro cs
    obtain ⟨c, hc, h⟩ := exists_follows hread cs
    exact ⟨c, hc, h.valid, h.delivered, h.readable, h.shutdowns⟩
  · intro ms hms
    obtain ⟨bufs, hbufs, hreadable⟩ := exists_sendBuffer ms
    refine ⟨bufs, hbufs, fun cs hcut => ?_⟩
    obtain ⟨c, hc, h⟩ := exists_follows hread cs
    obtain ⟨hdelivered, hrefusals, hbuf⟩ := receiver_sendAll hms (hcut.trans hreadable)
    exact ⟨c, hc, h.delivered.trans hdelivered, h.shutdowns.trans hrefusals,
      h.readable.trans hbuf⟩

end Receiver

/-- Two buffers that differ at most in bytes that are not readable. -/
structure Alike (b b' : Buffer) : Prop where
  size : b.buffer.length = b'.buffer.length
  readerIndex : b.readerIndex = b'.readerIndex
  writerIndex : b.writerIndex = b'.writerIndex
  readable : b.readable = b'.readable

theorem Alike.valid {b b' : Buffer} (h : Alike b b') (hb : b'.Valid) : b.Valid := by
  refine ⟨?_, ?_, ?_⟩
  · rw [h.readerIndex]
    exact hb.cheapPrepend
  · rw [h.readerIndex, h.writerIndex]
    exact hb.ordered
  · rw [h.writerIndex, h.size]
    exact hb.bounded

/-- `readFd` leaves the indices, the size and the readable bytes that `append` of the bytes that it
has read leaves. -/
def Appends (readFd : Buffer → Bytes → Buffer) : Prop :=
  ∀ b chunk, b.Valid → ∃ b', b.append chunk = some b' ∧ Alike (readFd b chunk) b'

theorem Appends.readsInto {readFd : Buffer → Bytes → Buffer} (h : Appends readFd) :
    ReadsInto readFd where
  valid b chunk hb := by
    obtain ⟨b', happend, halike⟩ := h b chunk hb
    obtain ⟨b₁, pre, post, happend₁, hlayout, hpre⟩ := hb.append chunk
    obtain rfl := Option.some.inj (happend.symm.trans happend₁)
    exact halike.valid (hlayout.valid hpre)
  readable b chunk hb := by
    obtain ⟨b', happend, halike⟩ := h b chunk hb
    obtain ⟨b₁, pre, post, happend₁, hlayout, -⟩ := hb.append chunk
    obtain rfl := Option.some.inj (happend.symm.trans happend₁)
    rw [halike.readable, hlayout.readable]

theorem appends_append : Appends fun b chunk => (b.append chunk).getD b := by
  intro b chunk hb
  obtain ⟨b', pre, post, happend, -⟩ := hb.append chunk
  simp only [happend, Option.getD_some]
  exact ⟨b', rfl, rfl, rfl, rfl, rfl⟩

/-- An invalid header in two chunks, and two messages. -/
theorem receiverBuffer_spec_append :
    let readFd := fun (b : Buffer) (chunk : Bytes) => (b.append chunk).getD b
    (∃ c, receiverBuffer readFd [[255, 255], [255, 255, 7]] = some c ∧ c.buf.Valid ∧
      c.delivered = (receiver [[255, 255], [255, 255, 7]]).delivered ∧
      c.buf.readable = (receiver [[255, 255], [255, 255, 7]]).buf ∧
      c.shutdowns = (receiver [[255, 255], [255, 255, 7]]).refusals) ∧
    ∃ bufs, [[7], [8, 9]].mapM sendBuffer = some bufs ∧
      ∀ cs : List Bytes, cs.flatten = bufs.flatMap Buffer.readable →
        ∃ c, receiverBuffer readFd cs = some c ∧ c.delivered = [[7], [8, 9]] ∧ c.shutdowns = 0 ∧
          c.buf.readable = [] :=
  ⟨(receiverBuffer_spec appends_append.readsInto).1 _,
    (receiverBuffer_spec appends_append.readsInto).2 [[7], [8, 9]] (by decide)⟩

end Codec
