import CameraVideoStream.Common.BufferStream

/-!
# The memory of the receive buffer

The vector behind a `muduo::net::Buffer` only ever grows: `retrieve` moves the indices, and
`append` first uses the room behind the readable bytes, then the room in front of them, and resizes
the vector only if both are not enough. So how much memory a connection takes in the end depends on
where the indices were each time.

While all lengths received are valid, fewer bytes are unread than the longest frame has, and no
chunk makes the vector longer than twice the chunk and a frame: the memory is bounded however long
the connection lasts. Behind an invalid length every further byte is kept.

## Main results

* `Buffer.length_append`: when `append` resizes the vector.
* `Codec.receiverBuffer_length`.
-/

open Codec

namespace Buffer

variable {b b' : Buffer} {len : ℕ}

theorem length_retrieve (h : b.retrieve len = some b') : b'.buffer.length = b.buffer.length := by
  rw [retrieve] at h
  split_ifs at h
  · obtain rfl := Option.some.inj h
    rfl
  · obtain rfl := Option.some.inj h
    rfl

theorem length_copyTo {i : ℕ} {data : Bytes} (h : b.copyTo i data = some b') :
    b'.buffer.length = b.buffer.length := by
  rw [copyTo] at h
  split_ifs at h with hroom
  obtain rfl := Option.some.inj h
  show (b.buffer.take i ++ data ++ b.buffer.drop (i + data.length)).length = _
  rw [List.length_append, List.length_append, List.length_take, List.length_drop]
  omega

theorem length_hasWritten (h : b.hasWritten len = some b') :
    b'.buffer.length = b.buffer.length := by
  rw [hasWritten] at h
  split_ifs at h
  obtain rfl := Option.some.inj h
  rfl

theorem length_resize (b : Buffer) (n : ℕ) : (b.resize n).buffer.length = n := by
  show (b.buffer.take n ++ List.replicate (n - b.buffer.length) 0).length = n
  rw [List.length_append, List.length_take, List.length_replicate]
  omega

/-- The vector is resized to end right behind the bytes to come, and only if there is not enough
room behind and in front of the readable bytes. -/
theorem length_makeSpace (h : b.makeSpace len = some b') :
    b'.buffer.length = b.buffer.length ∨
      b.writableBytes + b.prependableBytes < len + kCheapPrepend ∧
        b'.buffer.length = b.writerIndex + len := by
  rw [makeSpace] at h
  split_ifs at h with hgrow hspare
  · obtain rfl := Option.some.inj h
    exact .inr ⟨hgrow, length_resize b _⟩
  · obtain ⟨b₁, hcopy, rfl⟩ := Option.map_eq_some_iff.mp h
    have hkept := length_copyTo hcopy
    exact .inl hkept

theorem length_ensureWritableBytes (h : b.ensureWritableBytes len = some b') :
    b'.buffer.length = b.buffer.length ∨
      b.writableBytes + b.prependableBytes < len + kCheapPrepend ∧
        b'.buffer.length = b.writerIndex + len := by
  obtain ⟨b₁, hspace, hroom⟩ := Option.bind_eq_some_iff.mp h
  obtain ⟨-, heq⟩ := Option.ite_none_right_eq_some.mp hroom
  obtain rfl := Option.some.inj heq
  split_ifs at hspace
  · exact length_makeSpace hspace
  · obtain rfl := Option.some.inj hspace
    exact .inl rfl

/-- **Growth.** -/
theorem length_append {data : Bytes} (h : b.append data = some b') :
    b'.buffer.length = b.buffer.length ∨
      b.writableBytes + b.prependableBytes < data.length + kCheapPrepend ∧
        b'.buffer.length = b.writerIndex + data.length := by
  obtain ⟨b₁, hensure, hwrite⟩ := Option.bind_eq_some_iff.mp h
  obtain ⟨b₂, hcopy, hwritten⟩ := Option.bind_eq_some_iff.mp hwrite
  rw [length_hasWritten hwritten, length_copyTo hcopy]
  exact length_ensureWritableBytes hensure

/-- What a resize costs: less than `kCheapPrepend` and the bytes to come are in front of the
readable ones. -/
theorem length_append_le {data : Bytes} (h : b.append data = some b') :
    b'.buffer.length ≤
      max b.buffer.length (b.readableBytes + 2 * data.length + kCheapPrepend - 1) := by
  rcases length_append h with hsame | ⟨hgrow, hlen⟩
  · rw [hsame]
    exact Nat.le_max_left _ _
  · refine Nat.le_trans ?_ (Nat.le_max_right _ _)
    rw [prependableBytes] at hgrow
    rw [hlen, readableBytes]
    omega

end Buffer

namespace Codec

theorem length_deliver {c c' : Reading Buffer} {len : ℕ} (h : deliver c len = some c') :
    c'.buf.buffer.length = c.buf.buffer.length := by
  obtain ⟨buf, hheader, hrest⟩ := Option.bind_eq_some_iff.mp h
  obtain ⟨message, -, hrest⟩ := Option.bind_eq_some_iff.mp hrest
  obtain ⟨buf', hpayload, rfl⟩ := Option.map_eq_some_iff.mp hrest
  exact (Buffer.length_retrieve hpayload).trans (Buffer.length_retrieve hheader)

/-- A turn of `onMessage` keeps the vector. -/
theorem length_onMessageBufferBody {n : ℕ} (c : Reading Buffer) (h : c.buf.buffer.length = n) :
    (onMessageBufferBody c).Sat (fun c' => c'.buf.buffer.length = n)
      (fun _ c' => c'.buf.buffer.length = n) := by
  rw [onMessageBufferBody]
  by_cases hhead : c.buf.readableBytes ≥ kHeaderLen
  · rw [if_pos hhead]
    split
    · next b₀ b₁ b₂ b₃ hpeek =>
      simp only
      generalize networkToHost32 b₀ b₁ b₂ b₃ = len
      by_cases hbad : len > 65536 * 20 ∨ len < 0
      · rw [if_pos hbad]
        exact h
      · rw [if_neg hbad]
        by_cases hfull : c.buf.readableBytes ≥ len.toNat + kHeaderLen
        · rw [if_pos hfull]
          cases hdeliver : deliver c len.toNat with
          | some c' => exact (length_deliver hdeliver).trans h
          | none => exact h
        · rw [if_neg hfull]
          exact h
    · exact h
  · rw [if_neg hhead]
    exact h

/-- Only `readFd` can make the vector longer. -/
theorem length_receiveBuffer {readFd : Buffer → Bytes → Buffer} {c c' : Reading Buffer}
    {chunk : Bytes} (h : receiveBuffer readFd c chunk = some c') :
    c'.buf.buffer.length = (readFd c.buf chunk).buffer.length := by
  simp only [receiveBuffer] at h
  split at h
  · next call hloop =>
    obtain rfl := Option.some.inj h
    exact Outcome.sat_of_loop length_onMessageBufferBody rfl hloop
  · cases h

/-- A receiving end that has refused nothing so far had refused nothing before. -/
theorem refusals_eq_zero_of_concat {cs : List Bytes} {chunk : Bytes}
    (h : (receiver (cs ++ [chunk])).refusals = 0) : (receiver cs).refusals = 0 := by
  rw [receiver, Resumable.feed_concat, Feed.receive] at h
  simp only at h
  split_ifs at h with hd
  exact h

section Memory

variable {readFd : Buffer → Bytes → Buffer} (hread : Appends readFd)

include hread

/-- With valid lengths only, and chunks of at most `K` bytes. -/
theorem exists_length_le {K : ℕ} {cs : List Bytes} (hcs : ∀ chunk ∈ cs, chunk.length ≤ K)
    (hvalid : (receiver cs).refusals = 0) :
    ∃ c, receiverBuffer readFd cs = some c ∧ Follows c (receiver cs) ∧
      c.buf.buffer.length ≤ max (8 + 1024) (2 * K + 65536 * 20 + 10) := by
  induction cs using List.reverseRecOn with
  | nil =>
    refine ⟨_, rfl, ⟨Buffer.valid_init _, Buffer.readable_init _, rfl, rfl⟩, ?_⟩
    show (List.replicate (8 + 1024) (0 : UInt8)).length ≤ _
    rw [List.length_replicate]
    exact Nat.le_max_left _ _
  | append_singleton cs chunk ih =>
    obtain ⟨hcs, hchunk⟩ := List.forall_mem_append.mp hcs
    have hchunk := hchunk chunk (List.mem_singleton_self chunk)
    have hvalid := refusals_eq_zero_of_concat hvalid
    obtain ⟨c, hc, hfollows, hlen⟩ := ih hcs hvalid
    obtain ⟨c', hc', hfollows'⟩ := hfollows.receive hread.readsInto chunk
    -- fewer bytes are unread than the longest frame has
    have hunread := length_rest_lt ((refusals_eq_zero_iff cs).mp hvalid)
    rw [← (receiver_eq cs).2.1, ← hfollows.readable, hfollows.valid.length_readable] at hunread
    obtain ⟨b, happend, halike⟩ := hread c.buf chunk hfollows.valid
    have hgrow := Buffer.length_append_le happend
    rw [← halike.size, ← length_receiveBuffer hc'] at hgrow
    refine ⟨c', ?_, ?_, ?_⟩
    · rw [receiverBuffer, List.foldlM_append, ← receiverBuffer, hc]
      simp [hc']
    · rwa [receiver, Resumable.feed_concat]
    · have hmax : maxLen = 65536 * 20 := rfl
      have hhead : kHeaderLen = 4 := rfl
      have hcheap : Buffer.kCheapPrepend = 8 := rfl
      omega

/-- **The memory of the receive buffer.** As long as no invalid length has been received, the vector
of the buffer is no longer than twice the longest chunk and a frame, however many bytes have been
received. Behind an invalid length it takes every further byte. -/
theorem receiverBuffer_length {K : ℕ} {cs : List Bytes} (hcs : ∀ chunk ∈ cs, chunk.length ≤ K) :
    ((receiver cs).refusals = 0 → ∃ c, receiverBuffer readFd cs = some c ∧
      c.buf.buffer.length ≤ max (8 + 1024) (2 * K + 65536 * 20 + 10)) ∧
    (InvalidHead (receiver cs).buf → ∀ cs' : List Bytes, ∃ c,
      receiverBuffer readFd (cs ++ cs') = some c ∧
        8 + (receiver cs).buf.length + cs'.flatten.length ≤ c.buf.buffer.length) := by
  constructor
  · intro hvalid
    obtain ⟨c, hc, -, hlen⟩ := exists_length_le hread hcs hvalid
    exact ⟨c, hc, hlen⟩
  · intro hbad cs'
    obtain ⟨c, hc, hfollows⟩ := exists_follows hread.readsInto (cs ++ cs')
    refine ⟨c, hc, ?_⟩
    have hunread := congrArg List.length hfollows.readable
    rw [(receiver_append_of_invalidHead hbad cs').2, List.length_append,
      hfollows.valid.length_readable, Buffer.readableBytes] at hunread
    have hcheap := hfollows.valid.cheapPrepend
    have hordered := hfollows.valid.ordered
    have hbounded := hfollows.valid.bounded
    have hprepend : Buffer.kCheapPrepend = 8 := rfl
    omega

end Memory

/-- A frame in two chunks, and bytes behind an invalid header. -/
theorem receiverBuffer_length_append :
    let readFd := fun (b : Buffer) (chunk : Bytes) => (b.append chunk).getD b
    (∃ c, receiverBuffer readFd [[0, 0, 0], [1, 7]] = some c ∧
      c.buf.buffer.length ≤ max (8 + 1024) (2 * 3 + 65536 * 20 + 10)) ∧
    ∃ c, receiverBuffer readFd [[255, 255, 255, 255], [7, 7, 7]] = some c ∧
      8 + 4 + 3 ≤ c.buf.buffer.length := by
  intro readFd
  have hframe : ∀ chunk ∈ ([[0, 0, 0], [1, 7]] : List Bytes), chunk.length ≤ 3 := by decide
  have hbad : ∀ chunk ∈ ([[255, 255, 255, 255]] : List Bytes), chunk.length ≤ 4 := by decide
  exact ⟨(receiverBuffer_length appends_append hframe).1 (by decide),
    (receiverBuffer_length appends_append hbad).2 (onMessageTurn_eq_refuse_iff.mp (by decide))
      [[7, 7, 7]]⟩

end Codec
