import CameraVideoStream.Common.BufferMemory
import CameraVideoStream.Foundation.Transition

/-!
# The buffer as a queue of bytes

What a caller of `muduo::net::Buffer` has to know: there are bytes that can be read, more can be put
behind them, read bytes and the last ones written can be given up, and a few bytes can be put in
front without moving anything. `ByteQueue` says this without a vector and without indices; the bytes
for which there is room in front are counted as `front`, at most `kCheapPrepend` of them.

However the functions of the buffer are called, as long as nobody reads or gives up more than there
is and puts more in front than there is room for, the buffer is such a queue, and none of its
assertions fails (`Buffer.calls_of_meets`). Prepending can bring `readerIndex_` below
`kCheapPrepend`, so that what holds of the indices in between is weaker than `Buffer.Valid`.

## Main definitions

* `ByteQueue`, `ByteQueue.step`, `ByteQueue.Allows`: the queue and what a caller may do.
* `Buffer.Op`, `Buffer.apply`: a call of a function of the buffer.
* `Buffer.Holds`: the buffer holds what the queue says.

## Main results

* `Buffer.Holds.apply`, `Buffer.calls_of_meets`.
-/

open Codec

/-! ### The other functions of the buffer -/

namespace Buffer

/-- `retrieveUntil(end)`; `stop` is the index of `end`. -/
def retrieveUntil (b : Buffer) (stop : ℕ) : Option Buffer :=
  if b.readerIndex ≤ stop ∧ stop ≤ b.writerIndex then b.retrieve (stop - b.readerIndex) else none

/-- `retrieveAsString(len)`. -/
def retrieveAsString (b : Buffer) (len : ℕ) : Option (Bytes × Buffer) :=
  (b.peekBytes len).bind fun result => (b.retrieve len).map fun b' => (result, b')

/-- `retrieveAllAsString()`. -/
def retrieveAllAsString (b : Buffer) : Option (Bytes × Buffer) :=
  b.retrieveAsString b.readableBytes

/-- `static_cast<int>(readableBytes())`. -/
def intSize (b : Buffer) : ℤ := Int.bmod b.readableBytes (2 ^ 32)

/-- `toStringPiece()`, whose length is an `int`. There is no such range if it is negative. -/
def toStringPiece (b : Buffer) : Option Bytes :=
  if 0 ≤ b.intSize then b.peekBytes b.intSize.toNat else none

/-- `unwrite(len)`. -/
def unwrite (b : Buffer) (len : ℕ) : Option Buffer :=
  if len ≤ b.readableBytes then some { b with writerIndex := b.writerIndex - len } else none

/-- `shrink(reserve)`: the other buffer of the `swap`. -/
def shrink (b : Buffer) (reserve : ℕ) : Option Buffer :=
  ((init kInitialSize).ensureWritableBytes (b.readableBytes + reserve)).bind fun other =>
    b.toStringPiece.bind fun str => other.append str

/-- A call of a function that changes the buffer; the argument of `retrieveUntil` is `peek() + len`.
-/
inductive Op where
  | append (data : Bytes)
  | prepend (data : Bytes)
  | retrieve (len : ℕ)
  | retrieveUntil (len : ℕ)
  | retrieveAll
  | unwrite (len : ℕ)
  | ensureWritableBytes (len : ℕ)
  | shrink (reserve : ℕ)

/-- There is no result if an assertion fails. -/
def apply (b : Buffer) : Op → Option Buffer
  | .append data => b.append data
  | .prepend data => b.prepend data
  | .retrieve len => b.retrieve len
  | .retrieveUntil len => b.retrieveUntil (b.readerIndex + len)
  | .retrieveAll => some b.retrieveAll
  | .unwrite len => b.unwrite len
  | .ensureWritableBytes len => b.ensureWritableBytes len
  | .shrink reserve => b.shrink reserve

end Buffer

/-! ### The queue -/

/-- The bytes that can be read, and how many there is room for in front of them. -/
structure ByteQueue where
  bytes : Bytes := []
  front : ℕ := Buffer.kCheapPrepend
  deriving DecidableEq

namespace ByteQueue

/-- `len` bytes at the front are given up. -/
def retrieve (q : ByteQueue) (len : ℕ) : ByteQueue where
  bytes := q.bytes.drop len
  front :=
    if len < q.bytes.length then min (q.front + len) Buffer.kCheapPrepend else Buffer.kCheapPrepend

/-- What a call does. -/
def step (q : ByteQueue) : Buffer.Op → ByteQueue
  | .append data => { q with bytes := q.bytes ++ data }
  | .prepend data => ⟨data ++ q.bytes, q.front - data.length⟩
  | .retrieve len | .retrieveUntil len => q.retrieve len
  | .retrieveAll => {}
  | .unwrite len => { q with bytes := q.bytes.take (q.bytes.length - len) }
  | .ensureWritableBytes _ => q
  | .shrink _ => { q with front := Buffer.kCheapPrepend }

/-- What a caller may do: not give up more than there is, not put more in front than there is room
for, and not shrink a buffer whose bytes an `int` cannot count. -/
def Allows (q : ByteQueue) : Buffer.Op → Prop
  | .append _ | .retrieveAll | .ensureWritableBytes _ => True
  | .prepend data => data.length ≤ q.front
  | .retrieve len | .retrieveUntil len | .unwrite len => len ≤ q.bytes.length
  | .shrink _ => q.bytes.length < 2 ^ 31

instance (q : ByteQueue) : (e : Buffer.Op) → Decidable (q.Allows e)
  | .append _ | .retrieveAll | .ensureWritableBytes _ => .isTrue trivial
  | .prepend data => inferInstanceAs (Decidable (data.length ≤ q.front))
  | .retrieve len | .retrieveUntil len | .unwrite len =>
    inferInstanceAs (Decidable (len ≤ q.bytes.length))
  | .shrink _ => inferInstanceAs (Decidable (q.bytes.length < 2 ^ 31))

end ByteQueue

namespace Buffer

/-- The buffer holds what the queue says. -/
structure Holds (b : Buffer) (q : ByteQueue) : Prop where
  ordered : b.readerIndex ≤ b.writerIndex
  bounded : b.writerIndex ≤ b.buffer.length
  cheapPrepend : kCheapPrepend ≤ b.buffer.length
  readable : b.readable = q.bytes
  front : q.front ≤ b.readerIndex
  front_le : q.front ≤ kCheapPrepend

theorem holds_init (initialSize : ℕ) : (init initialSize).Holds {} where
  ordered := Nat.le_refl _
  bounded := (valid_init initialSize).bounded
  cheapPrepend := (valid_init initialSize).bounded
  readable := readable_init initialSize
  front := Nat.le_refl _
  front_le := Nat.le_refl _

section Holds

variable {b : Buffer} {q : ByteQueue} {pre mid post : Bytes}

theorem Holds.layout (h : b.Holds q) :
    Layout b (b.buffer.take b.readerIndex) q.bytes (b.buffer.drop b.writerIndex) := by
  rw [← h.readable]
  exact layout_of_ordered h.ordered h.bounded

theorem Holds.length_take (h : b.Holds q) : q.front ≤ (b.buffer.take b.readerIndex).length := by
  rw [← h.layout.readerIndex]
  exact h.front

theorem Holds.readableBytes (h : b.Holds q) : b.readableBytes = q.bytes.length :=
  h.layout.readableBytes

theorem Layout.length (h : Layout b pre mid post) :
    b.buffer.length = pre.length + mid.length + post.length := by
  rw [h.buffer, List.length_append, List.length_append]

/-- A buffer with room for `n` bytes in front of the readable ones. -/
theorem Layout.holds (h : Layout b pre mid post) (hsize : kCheapPrepend ≤ b.buffer.length) {n : ℕ}
    (hpre : n ≤ pre.length) (hn : n ≤ kCheapPrepend) : b.Holds ⟨mid, n⟩ where
  ordered := by
    rw [h.readerIndex, h.writerIndex]
    exact Nat.le_add_right _ _
  bounded := by
    rw [h.length, h.writerIndex]
    exact Nat.le_add_right _ _
  cheapPrepend := hsize
  readable := h.readable
  front := by rwa [h.readerIndex]
  front_le := hn

/-! ### What each function does -/

/-- Room is made behind the readable bytes. Below `kCheapPrepend` there is no room in front that
could be used. -/
theorem Holds.exists_room (h : b.Holds q) (len : ℕ) :
    ∃ b' pre post, b.ensureWritableBytes len = some b' ∧ Layout b' pre q.bytes post ∧
      q.front ≤ pre.length ∧ len ≤ post.length ∧ kCheapPrepend ≤ b'.buffer.length := by
  by_cases hcheap : kCheapPrepend ≤ b.readerIndex
  · have hvalid : b.Valid := ⟨hcheap, h.ordered, h.bounded⟩
    obtain ⟨b', pre, post, hensure, hlayout, hpre, hroom⟩ := hvalid.ensureWritableBytes len
    rw [h.readable] at hlayout
    refine ⟨b', pre, post, hensure, hlayout, h.front_le.trans hpre, hroom, ?_⟩
    rw [hlayout.length]
    omega
  · have hlayout := h.layout
    have hwritable := hlayout.writableBytes
    rw [Buffer.ensureWritableBytes]
    by_cases hroom : b.writableBytes < len
    · have hgrow : b.writableBytes + b.prependableBytes < len + kCheapPrepend := by
        rw [prependableBytes]
        omega
      have hshort : (b.buffer.drop b.writerIndex).length ≤ len := by omega
      have hresize := hlayout.resize hshort
      have hlen : len ≤ (b.buffer.drop b.writerIndex ++
          List.replicate (len - (b.buffer.drop b.writerIndex).length) 0).length := by
        rw [List.length_append, List.length_replicate]
        omega
      rw [if_pos hroom, makeSpace, if_pos hgrow]
      refine ⟨_, _, _, if_pos ?_, hresize, h.length_take, hlen, ?_⟩
      · rwa [hresize.writableBytes]
      · rw [hresize.length]
        have hsize := h.cheapPrepend
        rw [hlayout.length] at hsize
        omega
    · rw [if_neg hroom]
      exact ⟨b, _, _, if_pos (by omega), hlayout, h.length_take, by omega, h.cheapPrepend⟩

theorem Holds.append (h : b.Holds q) (data : Bytes) :
    ∃ b', b.append data = some b' ∧ b'.Holds { q with bytes := q.bytes ++ data } := by
  obtain ⟨b₁, pre, post, hensure, hlayout, hpre, hroom, hsize⟩ := h.exists_room data.length
  obtain ⟨b₂, hwrite, hlayout₂⟩ := hlayout.write hroom
  refine ⟨b₂, by rw [Buffer.append, hensure]; exact hwrite, hlayout₂.holds ?_ hpre h.front_le⟩
  rw [hlayout.length] at hsize
  rw [hlayout₂.length, List.length_append, List.length_drop]
  omega

theorem Holds.prepend (h : b.Holds q) {data : Bytes} (hdata : data.length ≤ q.front) :
    ∃ b', b.prepend data = some b' ∧ b'.Holds ⟨data ++ q.bytes, q.front - data.length⟩ := by
  have hpre := h.length_take
  have hfront := h.front_le
  obtain ⟨b', hprepend, hlayout⟩ := h.layout.prepend (hdata.trans hpre)
  have hsize := h.cheapPrepend
  rw [h.layout.length] at hsize
  refine ⟨b', hprepend, hlayout.holds ?_ ?_ (by omega)⟩
  · rw [hlayout.length, List.length_take, List.length_append]
    omega
  · rw [List.length_take]
    omega

theorem Holds.retrieveAll (h : b.Holds q) : b.retrieveAll.Holds {} := by
  have hlayout := layout_retrieveAll h.cheapPrepend
  refine hlayout.holds h.cheapPrepend ?_ (Nat.le_refl _)
  rw [← hlayout.readerIndex]
  exact Nat.le_refl _

theorem Holds.retrieve (h : b.Holds q) {len : ℕ} (hlen : len ≤ q.bytes.length) :
    ∃ b', b.retrieve len = some b' ∧ b'.Holds (q.retrieve len) := by
  have hpre := h.length_take
  rw [Buffer.retrieve, h.readableBytes, if_pos hlen, ByteQueue.retrieve]
  split_ifs with hall
  · have hadvance := h.layout.advance hlen
    refine ⟨_, rfl, hadvance.holds h.cheapPrepend ?_ (Nat.min_le_right _ _)⟩
    rw [List.length_append, List.length_take (l := q.bytes)]
    omega
  · have hnone : q.bytes.drop len = [] := List.drop_eq_nil_of_le (Nat.not_lt.mp hall)
    rw [hnone]
    exact ⟨_, rfl, h.retrieveAll⟩

theorem Holds.retrieveUntil (h : b.Holds q) {len : ℕ} (hlen : len ≤ q.bytes.length) :
    ∃ b', b.retrieveUntil (b.readerIndex + len) = some b' ∧ b'.Holds (q.retrieve len) := by
  have hreadable := h.readableBytes
  have hordered := h.ordered
  rw [Buffer.readableBytes] at hreadable
  rw [Buffer.retrieveUntil, if_pos ⟨Nat.le_add_right _ _, by omega⟩, Nat.add_sub_cancel_left]
  exact h.retrieve hlen

theorem Holds.retrieveAllAsString (h : b.Holds q) :
    ∃ b', b.retrieveAllAsString = some (q.bytes, b') ∧ b'.Holds {} := by
  obtain ⟨b', hretrieve, hholds⟩ := h.retrieve (Nat.le_refl _)
  rw [ByteQueue.retrieve, List.drop_length, if_neg (Nat.lt_irrefl _)] at hholds
  refine ⟨b', ?_, hholds⟩
  rw [Buffer.retrieveAllAsString, retrieveAsString, h.readableBytes,
    h.layout.peekBytes (Nat.le_refl _), List.take_length, Option.bind_some, hretrieve,
    Option.map_some]

theorem Holds.unwrite (h : b.Holds q) {len : ℕ} (hlen : len ≤ q.bytes.length) :
    ∃ b', b.unwrite len = some b' ∧
      b'.Holds { q with bytes := q.bytes.take (q.bytes.length - len) } := by
  have hlayout := h.layout
  rw [Buffer.unwrite, h.readableBytes, if_pos hlen]
  have hshort : Layout { b with writerIndex := b.writerIndex - len } (b.buffer.take b.readerIndex)
      (q.bytes.take (q.bytes.length - len))
      (q.bytes.drop (q.bytes.length - len) ++ b.buffer.drop b.writerIndex) := by
    refine ⟨?_, hlayout.readerIndex, ?_⟩
    · calc
        b.buffer = b.buffer.take b.readerIndex ++ (q.bytes.take (q.bytes.length - len) ++
            q.bytes.drop (q.bytes.length - len)) ++ b.buffer.drop b.writerIndex := by
          rw [List.take_append_drop, ← hlayout.buffer]
        _ = _ := by simp only [List.append_assoc]
    · show b.writerIndex - len = _
      rw [hlayout.writerIndex, List.length_take (l := q.bytes)]
      omega
  exact ⟨_, rfl, hshort.holds h.cheapPrepend h.length_take h.front_le⟩

theorem Holds.toStringPiece (h : b.Holds q) (hint : q.bytes.length < 2 ^ 31) :
    b.toStringPiece = some q.bytes := by
  have hsize : b.intSize = q.bytes.length := by
    unfold intSize
    rw [h.readableBytes]
    refine Int.bmod_eq_of_le ?_ ?_ <;> omega
  rw [Buffer.toStringPiece, hsize, if_pos (Int.natCast_nonneg _), Int.toNat_natCast,
    h.layout.peekBytes (Nat.le_refl _), List.take_length]

theorem Holds.shrink (h : b.Holds q) (reserve : ℕ) (hint : q.bytes.length < 2 ^ 31) :
    ∃ b', b.shrink reserve = some b' ∧ b'.Holds { q with front := kCheapPrepend } := by
  obtain ⟨b₁, pre, post, hensure, hlayout, hpre, -, hsize⟩ :=
    (holds_init kInitialSize).exists_room (b.readableBytes + reserve)
  obtain ⟨b₂, happend, hholds⟩ :=
    (hlayout.holds hsize hpre (Nat.le_refl _)).append q.bytes
  refine ⟨b₂, ?_, hholds⟩
  rw [Buffer.shrink, hensure, Option.bind_some, h.toStringPiece hint, Option.bind_some, happend]

/-- **One call.** What the queue allows does not fail an assertion, and does to the buffer what it
does to the queue. -/
theorem Holds.apply (h : b.Holds q) (e : Op) (he : q.Allows e) :
    ∃ b', b.apply e = some b' ∧ b'.Holds (q.step e) := by
  cases e with
  | append data => exact h.append data
  | prepend data => exact h.prepend he
  | retrieve len => exact h.retrieve he
  | retrieveUntil len => exact h.retrieveUntil he
  | retrieveAll => exact ⟨_, rfl, h.retrieveAll⟩
  | unwrite len => exact h.unwrite he
  | ensureWritableBytes len =>
    obtain ⟨b', pre, post, hensure, hlayout, hpre, -, hsize⟩ := h.exists_room len
    exact ⟨b', hensure, hlayout.holds hsize hpre h.front_le⟩
  | shrink reserve => exact h.shrink reserve he

end Holds

/-- A run of calls; there is no buffer once an assertion has failed. -/
def calls (b : Buffer) (es : List Op) : Option Buffer := es.foldlM apply b

theorem Holds.calls {b : Buffer} {q : ByteQueue} (h : b.Holds q) {es : List Op}
    (hes : Transition.Meets ByteQueue.step ByteQueue.Allows q es) :
    ∃ b', b.calls es = some b' ∧ b'.Holds (Transition.run ByteQueue.step q es) := by
  induction es generalizing b q with
  | nil => exact ⟨b, rfl, h⟩
  | cons e es ih =>
    obtain ⟨b₁, happly, h₁⟩ := h.apply e hes.1
    obtain ⟨b', hcalls, h'⟩ := ih h₁ hes.2
    refine ⟨b', ?_, h'⟩
    rw [Buffer.calls, List.foldlM_cons, happly]
    exact hcalls

end Buffer
