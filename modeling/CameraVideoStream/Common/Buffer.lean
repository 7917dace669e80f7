import CameraVideoStream.Common.Codec

/-!
# `muduo::net::Buffer`

The buffer of `3rd_party/muduo/include/muduo/net/Buffer.h`: a vector of bytes with two indices, the
readable bytes between them. Reading moves `readerIndex_` on and puts both indices back to
`kCheapPrepend` when everything has been read; appending moves `writerIndex_` on, and first grows
the vector or moves the readable bytes to the front if there is no room behind them; prepending
writes in front of `readerIndex_`.

The assertions of the functions, and what their callers are to keep, are part of the model: a
function that is called against them has no result.

## Main definitions

* `Buffer`, `Buffer.retrieve`, `Buffer.append`, `Buffer.prepend`.
* `Buffer.peekBytes`: the first bytes at `peek()`.
* `Buffer.readable`: the readable bytes.
* `Buffer.Valid`: the indices are in order, with `kCheapPrepend` bytes in front of them.
* `Buffer.Layout`: the three regions of a buffer.

## Main results

* `Buffer.Valid.retrieve`, `Buffer.Valid.peekBytes`, `Buffer.Valid.append`, `Buffer.Layout.prepend`:
  what each function does to the readable bytes, and that no assertion fails.
-/

open Codec

/-- `buffer_`, `readerIndex_` and `writerIndex_`. -/
structure Buffer where
  buffer : Bytes
  readerIndex : ℕ
  writerIndex : ℕ
  deriving DecidableEq

namespace Buffer

/-- `kCheapPrepend`. -/
def kCheapPrepend : ℕ := 8

/-- `kInitialSize`. -/
def kInitialSize : ℕ := 1024

/-- `Buffer(size_t initialSize)`. -/
def init (initialSize : ℕ) : Buffer where
  buffer := List.replicate (kCheapPrepend + initialSize) 0
  readerIndex := kCheapPrepend
  writerIndex := kCheapPrepend

/-- `readableBytes()`. -/
def readableBytes (b : Buffer) : ℕ := b.writerIndex - b.readerIndex

/-- `writableBytes()`. -/
def writableBytes (b : Buffer) : ℕ := b.buffer.length - b.writerIndex

/-- `prependableBytes()`. -/
def prependableBytes (b : Buffer) : ℕ := b.readerIndex

/-- The bytes between the two indices. -/
def readable (b : Buffer) : Bytes := (b.buffer.drop b.readerIndex).take b.readableBytes

/-- The first `len` bytes at `peek()`, all of which are to be readable. -/
def peekBytes (b : Buffer) (len : ℕ) : Option Bytes :=
  if len ≤ b.readableBytes then some ((b.buffer.drop b.readerIndex).take len) else none

/-- `retrieveAll()`. -/
def retrieveAll (b : Buffer) : Buffer :=
  { b with readerIndex := kCheapPrepend, writerIndex := kCheapPrepend }

/-- `retrieve(len)`. -/
def retrieve (b : Buffer) (len : ℕ) : Option Buffer :=
  if len ≤ b.readableBytes then
    if len < b.readableBytes then
      some { b with readerIndex := b.readerIndex + len }
    else
      some b.retrieveAll
  else
    none

/-- `std::copy` of `data` to `begin() + i`, all of which is to be inside the vector. -/
def copyTo (b : Buffer) (i : ℕ) (data : Bytes) : Option Buffer :=
  if i + data.length ≤ b.buffer.length then
    some { b with buffer := b.buffer.take i ++ data ++ b.buffer.drop (i + data.length) }
  else
    none

/-- `buffer_.resize(n)`. -/
def resize (b : Buffer) (n : ℕ) : Buffer :=
  { b with buffer := b.buffer.take n ++ List.replicate (n - b.buffer.length) 0 }

/-- `makeSpace(len)`. -/
def makeSpace (b : Buffer) (len : ℕ) : Option Buffer :=
  if b.writableBytes + b.prependableBytes < len + kCheapPrepend then
    some (b.resize (b.writerIndex + len))
  else if kCheapPrepend < b.readerIndex then
    (b.copyTo kCheapPrepend b.readable).map fun b' =>
      { b' with
        readerIndex := kCheapPrepend
        writerIndex := kCheapPrepend + b.readableBytes }
  else
    none

/-- `ensureWritableBytes(len)`. -/
def ensureWritableBytes (b : Buffer) (len : ℕ) : Option Buffer :=
  (if b.writableBytes < len then b.makeSpace len else some b).bind fun b =>
    if len ≤ b.writableBytes then some b else none

/-- `hasWritten(len)`. -/
def hasWritten (b : Buffer) (len : ℕ) : Option Buffer :=
  if len ≤ b.writableBytes then some { b with writerIndex := b.writerIndex + len } else none

/-- `append(data, len)`. -/
def append (b : Buffer) (data : Bytes) : Option Buffer :=
  (b.ensureWritableBytes data.length).bind fun b =>
    (b.copyTo b.writerIndex data).bind fun b => b.hasWritten data.length

/-- `prepend(data, len)`. -/
def prepend (b : Buffer) (data : Bytes) : Option Buffer :=
  if data.length ≤ b.prependableBytes then
    let b := { b with readerIndex := b.readerIndex - data.length }
    b.copyTo b.readerIndex data
  else
    none

/-- The indices are in order, and `kCheapPrepend` bytes are in front of them. -/
structure Valid (b : Buffer) : Prop where
  cheapPrepend : kCheapPrepend ≤ b.readerIndex
  ordered : b.readerIndex ≤ b.writerIndex
  bounded : b.writerIndex ≤ b.buffer.length

/-! ### The three regions -/

/-- The buffer is the prependable bytes `pre`, the readable bytes `mid` and the writable bytes
`post`. -/
structure Layout (b : Buffer) (pre mid post : Bytes) : Prop where
  buffer : b.buffer = pre ++ mid ++ post
  readerIndex : b.readerIndex = pre.length
  writerIndex : b.writerIndex = pre.length + mid.length

theorem layout_of_ordered {b : Buffer} (hordered : b.readerIndex ≤ b.writerIndex)
    (hbounded : b.writerIndex ≤ b.buffer.length) :
    Layout b (b.buffer.take b.readerIndex) b.readable (b.buffer.drop b.writerIndex) := by
  have hdrop : b.buffer.drop b.writerIndex =
      (b.buffer.drop b.readerIndex).drop b.readableBytes := by
    rw [List.drop_drop, readableBytes]
    congr 1
    omega
  refine ⟨?_, ?_, ?_⟩
  · rw [readable, hdrop, List.append_assoc, List.take_append_drop, List.take_append_drop]
  · rw [List.length_take]
    omega
  · rw [readable, List.length_take, List.length_take, List.length_drop, readableBytes]
    omega

theorem Valid.layout {b : Buffer} (h : b.Valid) :
    Layout b (b.buffer.take b.readerIndex) b.readable (b.buffer.drop b.writerIndex) :=
  layout_of_ordered h.ordered h.bounded

section Layout

variable {b : Buffer} {pre mid post : Bytes}

theorem Layout.readableBytes (h : Layout b pre mid post) : b.readableBytes = mid.length := by
  rw [Buffer.readableBytes, h.readerIndex, h.writerIndex]
  omega

theorem Layout.writableBytes (h : Layout b pre mid post) : b.writableBytes = post.length := by
  rw [Buffer.writableBytes, h.buffer, h.writerIndex, List.length_append, List.length_append]
  omega

theorem Layout.drop_readerIndex (h : Layout b pre mid post) :
    b.buffer.drop b.readerIndex = mid ++ post := by
  rw [h.buffer, h.readerIndex, List.append_assoc, List.drop_left]

theorem Layout.readable (h : Layout b pre mid post) : b.readable = mid := by
  rw [Buffer.readable, h.drop_readerIndex, h.readableBytes, List.take_left]

theorem Layout.valid (h : Layout b pre mid post) (hpre : kCheapPrepend ≤ pre.length) : b.Valid := by
  refine ⟨?_, ?_, ?_⟩
  · rwa [h.readerIndex]
  · rw [h.readerIndex, h.writerIndex]
    omega
  · rw [h.buffer, h.writerIndex, List.length_append, List.length_append]
    omega

/-! ### Reading -/

theorem Layout.peekBytes (h : Layout b pre mid post) {len : ℕ} (hlen : len ≤ mid.length) :
    b.peekBytes len = some (mid.take len) := by
  rw [Buffer.peekBytes, if_pos (by rwa [h.readableBytes]), h.drop_readerIndex,
    List.take_append_of_le_length hlen]

/-- Fewer bytes than there are. -/
theorem Layout.advance (h : Layout b pre mid post) {len : ℕ} (hlen : len ≤ mid.length) :
    Layout { b with readerIndex := b.readerIndex + len } (pre ++ mid.take len) (mid.drop len)
      post := by
  refine ⟨?_, ?_, ?_⟩
  · show b.buffer = _
    rw [h.buffer, List.append_assoc pre (mid.take len), List.take_append_drop]
  · show b.readerIndex + len = _
    rw [h.readerIndex, List.length_append, List.length_take]
    omega
  · show b.writerIndex = _
    rw [h.writerIndex, List.length_append, List.length_take, List.length_drop]
    omega

/-- Nothing is left to be read. -/
theorem layout_retrieveAll (hlen : kCheapPrepend ≤ b.buffer.length) :
    Layout b.retrieveAll (b.buffer.take kCheapPrepend) [] (b.buffer.drop kCheapPrepend) := by
  have hpre : (b.buffer.take kCheapPrepend).length = kCheapPrepend := by
    rw [List.length_take]
    omega
  refine ⟨?_, hpre.symm, hpre.symm⟩
  rw [List.append_nil, List.take_append_drop]
  rfl

/-! ### Making space -/

theorem Layout.resize (h : Layout b pre mid post) {len : ℕ} (hlen : post.length ≤ len) :
    Layout (b.resize (b.writerIndex + len)) pre mid
      (post ++ List.replicate (len - post.length) 0) := by
  have hsize : b.buffer.length = b.writerIndex + post.length := by
    rw [h.buffer, h.writerIndex, List.length_append, List.length_append]
  refine ⟨?_, h.readerIndex, h.writerIndex⟩
  show b.buffer.take (b.writerIndex + len) ++ _ = _
  rw [List.take_of_length_le (by omega), h.buffer, List.append_assoc (pre ++ mid), ← h.buffer,
    hsize]
  congr 3
  omega

/-- The readable bytes are moved to the front. -/
theorem Layout.move (h : Layout b pre mid post) (hpre : kCheapPrepend ≤ pre.length) :
    ∃ b', (b.copyTo kCheapPrepend b.readable).map (fun b' =>
        { b' with
          readerIndex := kCheapPrepend, writerIndex := kCheapPrepend + b.readableBytes }) =
        some b' ∧
      Layout b' (b.buffer.take kCheapPrepend) mid (b.buffer.drop (kCheapPrepend + mid.length)) := by
  have hsize : b.buffer.length = pre.length + mid.length + post.length := by
    rw [h.buffer, List.length_append, List.length_append]
  have hfront : (b.buffer.take kCheapPrepend).length = kCheapPrepend := by
    rw [List.length_take]
    omega
  rw [h.readable, copyTo, if_pos (by omega)]
  refine ⟨_, rfl, rfl, hfront.symm, ?_⟩
  rw [hfront, h.readableBytes]

/-- The bytes `data` are written behind the readable ones, where there is room for them. -/
theorem Layout.write (h : Layout b pre mid post) {data : Bytes}
    (hdata : data.length ≤ post.length) :
    ∃ b', (b.copyTo b.writerIndex data).bind (fun b => b.hasWritten data.length) = some b' ∧
      Layout b' pre (mid ++ data) (post.drop data.length) := by
  have hsize : b.buffer.length = b.writerIndex + post.length := by
    rw [h.buffer, h.writerIndex, List.length_append, List.length_append]
  have hfront : b.buffer.take b.writerIndex = pre ++ mid := by
    rw [h.buffer, h.writerIndex, ← List.length_append, List.take_left]
  have hback : b.buffer.drop (b.writerIndex + data.length) = post.drop data.length := by
    rw [h.buffer, h.writerIndex, ← List.length_append, ← List.drop_drop, List.drop_left]
  have hcopy : Layout
      { b with buffer := b.buffer.take b.writerIndex ++ data ++
          b.buffer.drop (b.writerIndex + data.length) }
      pre mid (data ++ post.drop data.length) := by
    refine ⟨?_, h.readerIndex, h.writerIndex⟩
    show b.buffer.take b.writerIndex ++ data ++ b.buffer.drop (b.writerIndex + data.length) = _
    rw [hfront, hback, List.append_assoc (pre ++ mid)]
  rw [copyTo, if_pos (by omega), Option.bind_some, hasWritten, hcopy.writableBytes,
    if_pos (by rw [List.length_append]; omega)]
  refine ⟨_, rfl, ?_, h.readerIndex, ?_⟩
  · rw [hcopy.buffer]
    simp only [List.append_assoc]
  · show b.writerIndex + data.length = _
    rw [h.writerIndex, List.length_append]
    omega

/-- **Prepending.** With room for them in front, the bytes `data` are written before the readable
ones. -/
theorem Layout.prepend (h : Layout b pre mid post) {data : Bytes}
    (hdata : data.length ≤ pre.length) :
    ∃ b', b.prepend data = some b' ∧
      Layout b' (pre.take (pre.length - data.length)) (data ++ mid) post := by
  have hsize : b.buffer.length = b.readerIndex + mid.length + post.length := by
    rw [h.buffer, h.readerIndex, List.length_append, List.length_append]
  have hindex := h.readerIndex
  have hfront : b.buffer.take (b.readerIndex - data.length) =
      pre.take (pre.length - data.length) := by
    rw [h.buffer, h.readerIndex, List.append_assoc, List.take_append_of_le_length (by omega)]
  have hback : b.buffer.drop (b.readerIndex - data.length + data.length) = mid ++ post := by
    rw [h.readerIndex, Nat.sub_add_cancel hdata, ← h.readerIndex, h.drop_readerIndex]
  have hlen : (pre.take (pre.length - data.length)).length = pre.length - data.length := by
    rw [List.length_take]
    omega
  have hroom : data.length ≤ b.prependableBytes := by rwa [prependableBytes, h.readerIndex]
  have hinside : b.readerIndex - data.length + data.length ≤ b.buffer.length := by omega
  rw [Buffer.prepend, if_pos hroom]
  refine ⟨_, if_pos hinside, ?_, ?_, ?_⟩
  · show b.buffer.take (b.readerIndex - data.length) ++ data ++
      b.buffer.drop (b.readerIndex - data.length + data.length) = _
    rw [hfront, hback]
    simp only [List.append_assoc]
  · show b.readerIndex - data.length = _
    rw [hlen, h.readerIndex]
  · show b.writerIndex = _
    rw [hlen, h.writerIndex, List.length_append]
    omega

end Layout

/-! ### Valid buffers -/

theorem Valid.length_take {b : Buffer} (h : b.Valid) :
    kCheapPrepend ≤ (b.buffer.take b.readerIndex).length := by
  have hcheap := h.cheapPrepend
  have hindex := h.layout.readerIndex
  omega

theorem Valid.length_readable {b : Buffer} (h : b.Valid) : b.readable.length = b.readableBytes :=
  h.layout.readableBytes.symm

theorem Valid.peekBytes {b : Buffer} (h : b.Valid) {len : ℕ} (hlen : len ≤ b.readableBytes) :
    b.peekBytes len = some (b.readable.take len) :=
  h.layout.peekBytes (by rwa [h.length_readable])

/-- **Reading drops bytes from the front**, whether or not everything is read. -/
theorem Valid.retrieve {b : Buffer} (h : b.Valid) {len : ℕ} (hlen : len ≤ b.readableBytes) :
    ∃ b', b.retrieve len = some b' ∧ b'.Valid ∧ b'.readable = b.readable.drop len := by
  rw [Buffer.retrieve, if_pos hlen]
  by_cases hall : len < b.readableBytes
  · rw [if_pos hall]
    have hsome : len ≤ b.readable.length := by rwa [h.length_readable]
    have hadvance := h.layout.advance hsome
    have hpre := h.length_take
    refine ⟨_, rfl, hadvance.valid ?_, hadvance.readable⟩
    rw [List.length_append]
    omega
  · rw [if_neg hall]
    have hcheap := h.cheapPrepend
    have hsize : kCheapPrepend ≤ b.buffer.length := by
      have hordered := h.ordered
      have hbounded := h.bounded
      omega
    have hnone := layout_retrieveAll hsize
    refine ⟨_, rfl, hnone.valid ?_, ?_⟩
    · rw [List.length_take]
      omega
    · rw [hnone.readable, List.drop_eq_nil_of_le]
      rw [h.length_readable]
      omega

/-- The buffer has room behind the readable bytes, which are as they were. -/
theorem Valid.ensureWritableBytes {b : Buffer} (h : b.Valid) (len : ℕ) :
    ∃ b' pre post, b.ensureWritableBytes len = some b' ∧ Layout b' pre b.readable post ∧
      kCheapPrepend ≤ pre.length ∧ len ≤ post.length := by
  have hlayout := h.layout
  have hpre := h.length_take
  have hwritable := hlayout.writableBytes
  rw [Buffer.ensureWritableBytes]
  by_cases hroom : b.writableBytes < len
  · rw [if_pos hroom, makeSpace]
    by_cases hgrow : b.writableBytes + b.prependableBytes < len + kCheapPrepend
    · rw [if_pos hgrow]
      have hshort : (b.buffer.drop b.writerIndex).length ≤ len := by omega
      have hresize := hlayout.resize hshort
      refine ⟨_, _, _, if_pos ?_, hresize, hpre, ?_⟩
      · rw [hresize.writableBytes, List.length_append, List.length_replicate]
        omega
      · rw [List.length_append, List.length_replicate]
        omega
    · -- there is room if the bytes in front are counted, so some of them are to spare
      have hspare : kCheapPrepend < b.readerIndex := by
        rw [prependableBytes] at hgrow
        omega
      have hsize := congrArg List.length hlayout.buffer
      rw [List.length_append, List.length_append] at hsize
      obtain ⟨b₁, hmove, hlayout₁⟩ := hlayout.move hpre
      have hfree : len ≤ (b.buffer.drop (kCheapPrepend + b.readable.length)).length := by
        have hindex := hlayout.readerIndex
        rw [prependableBytes] at hgrow
        rw [List.length_drop]
        omega
      rw [if_neg hgrow, if_pos hspare, hmove]
      refine ⟨_, _, _, if_pos ?_, hlayout₁, ?_, hfree⟩
      · rwa [hlayout₁.writableBytes]
      · rw [List.length_take]
        omega
  · rw [if_neg hroom]
    exact ⟨b, _, _, if_pos (by omega), hlayout, hpre, by omega⟩

/-- **Appending** puts the bytes behind the readable ones, whatever growth it causes. -/
theorem Valid.append {b : Buffer} (h : b.Valid) (data : Bytes) :
    ∃ b' pre post, b.append data = some b' ∧ Layout b' pre (b.readable ++ data) post ∧
      kCheapPrepend ≤ pre.length := by
  obtain ⟨b₁, pre, post, hensure, hlayout, hpre, hroom⟩ := h.ensureWritableBytes data.length
  obtain ⟨b₂, hwrite, hlayout₂⟩ := hlayout.write hroom
  exact ⟨b₂, pre, _, by rw [Buffer.append, hensure]; exact hwrite, hlayout₂, hpre⟩

theorem valid_init (initialSize : ℕ) : (init initialSize).Valid := by
  refine ⟨Nat.le_refl _, Nat.le_refl _, ?_⟩
  show kCheapPrepend ≤ (List.replicate (kCheapPrepend + initialSize) 0).length
  rw [List.length_replicate]
  exact Nat.le_add_right _ _

theorem readable_init (initialSize : ℕ) : (init initialSize).readable = [] := by
  simp [init, readable, readableBytes]

end Buffer
