import CameraVideoStream.Common.BufferDeque

/-!
# Integers and strings in a buffer

`muduo::net::Buffer` writes and reads integers of four widths in network order, and strings. Each of
the functions is one of a family over the width `w` in bytes, to which the source's own names refer.

A caller that reads with the functions that belong to those it has written with gets back what it
has written, in order, however writing and reading interleave (`Buffer.fields_of_meets`). The frames
of `LengthHeaderCodec` are such fields, one integer and one string each
(`Codec.sendBuffer_eq_prependInt32`, `Codec.peekInt32_eq`).

## Main definitions

* `Buffer.appendInt`, `Buffer.peekInt`, `Buffer.prependInt`: the families.
* `BufferField`, `Buffer.put`, `Buffer.get`: writing and reading a field.
* `FieldQueue`, `FieldQueue.step`, `FieldQueue.Allows`: what a caller may do.

## Main results

* `Buffer.fields_of_meets`.
* `Codec.sendBuffer_eq_prependInt32`, `Codec.peekInt32_eq`.
-/

open Codec

namespace Buffer

/-! ### The families -/

/-- The `w` bytes of `hostToNetwork`, for a signed integer. -/
def intBytes (w : ℕ) (x : ℤ) : Bytes := BigEndian.bytes w (x % 2 ^ (8 * w)).toNat

/-- `networkToHost` of `w` bytes, as a signed integer. -/
def intOf (w : ℕ) (bs : Bytes) : ℤ := Int.bmod (BigEndian.nat bs) (2 ^ (8 * w))

def appendInt (w : ℕ) (b : Buffer) (x : ℤ) : Option Buffer := b.append (intBytes w x)

def prependInt (w : ℕ) (b : Buffer) (x : ℤ) : Option Buffer := b.prepend (intBytes w x)

def peekInt (w : ℕ) (b : Buffer) : Option ℤ := (b.peekBytes w).map (intOf w)

/-- `result = peekInt(); retrieveInt(); return result;` -/
def readInt {α : Type} (b : Buffer) (peek : Buffer → Option α)
    (retrieve : Buffer → Option Buffer) : Option (α × Buffer) :=
  (peek b).bind fun result => (retrieve b).map fun b' => (result, b')

/-! ### The functions of the buffer -/

def appendInt64 (b : Buffer) (x : Int64) : Option Buffer := b.appendInt 8 x.toInt
def appendInt32 (b : Buffer) (x : Int32) : Option Buffer := b.appendInt 4 x.toInt
def appendInt16 (b : Buffer) (x : Int16) : Option Buffer := b.appendInt 2 x.toInt
def appendInt8 (b : Buffer) (x : Int8) : Option Buffer := b.appendInt 1 x.toInt

def prependInt64 (b : Buffer) (x : Int64) : Option Buffer := b.prependInt 8 x.toInt
def prependInt32 (b : Buffer) (x : Int32) : Option Buffer := b.prependInt 4 x.toInt
def prependInt16 (b : Buffer) (x : Int16) : Option Buffer := b.prependInt 2 x.toInt
def prependInt8 (b : Buffer) (x : Int8) : Option Buffer := b.prependInt 1 x.toInt

def peekInt64 (b : Buffer) : Option Int64 := (b.peekInt 8).map Int64.ofInt
def peekInt32 (b : Buffer) : Option Int32 := (b.peekInt 4).map Int32.ofInt
def peekInt16 (b : Buffer) : Option Int16 := (b.peekInt 2).map Int16.ofInt
def peekInt8 (b : Buffer) : Option Int8 := (b.peekInt 1).map Int8.ofInt

def retrieveInt64 (b : Buffer) : Option Buffer := b.retrieve 8
def retrieveInt32 (b : Buffer) : Option Buffer := b.retrieve 4
def retrieveInt16 (b : Buffer) : Option Buffer := b.retrieve 2
def retrieveInt8 (b : Buffer) : Option Buffer := b.retrieve 1

-- `peekInt64` asserts eight readable bytes, where the comment in `Buffer.h` asks only for four
def readInt64 (b : Buffer) : Option (Int64 × Buffer) := b.readInt peekInt64 retrieveInt64
def readInt32 (b : Buffer) : Option (Int32 × Buffer) := b.readInt peekInt32 retrieveInt32
def readInt16 (b : Buffer) : Option (Int16 × Buffer) := b.readInt peekInt16 retrieveInt16
def readInt8 (b : Buffer) : Option (Int8 × Buffer) := b.readInt peekInt8 retrieveInt8

end Buffer

/-! ### Fields -/

/-- What can be written and read. -/
inductive BufferField where
  | int64 (x : Int64)
  | int32 (x : Int32)
  | int16 (x : Int16)
  | int8 (x : Int8)
  | string (str : Bytes)
  deriving DecidableEq

/-- What a reader asks for. -/
inductive BufferField.Kind where
  | int64
  | int32
  | int16
  | int8
  | string (len : ℕ)
  deriving DecidableEq

namespace BufferField

def kind : BufferField → Kind
  | int64 _ => .int64
  | int32 _ => .int32
  | int16 _ => .int16
  | int8 _ => .int8
  | string str => .string str.length

def bytes : BufferField → Bytes
  | int64 x => Buffer.intBytes 8 x.toInt
  | int32 x => Buffer.intBytes 4 x.toInt
  | int16 x => Buffer.intBytes 2 x.toInt
  | int8 x => Buffer.intBytes 1 x.toInt
  | string str => str

end BufferField

namespace Buffer

def put (b : Buffer) : BufferField → Option Buffer
  | .int64 x => b.appendInt64 x
  | .int32 x => b.appendInt32 x
  | .int16 x => b.appendInt16 x
  | .int8 x => b.appendInt8 x
  | .string str => b.append str

def get (b : Buffer) : BufferField.Kind → Option (BufferField × Buffer)
  | .int64 => b.readInt64.map (Prod.map .int64 id)
  | .int32 => b.readInt32.map (Prod.map .int32 id)
  | .int16 => b.readInt16.map (Prod.map .int16 id)
  | .int8 => b.readInt8.map (Prod.map .int8 id)
  | .string len => (b.retrieveAsString len).map (Prod.map .string id)

end Buffer

/-! ### The queue of fields -/

/-- The fields that have been written and not read, and those that have been read. -/
structure FieldQueue where
  queue : List BufferField := []
  got : List BufferField := []
  deriving DecidableEq

namespace FieldQueue

/-- A field is written, or one of a kind is read. -/
inductive Event where
  | put (f : BufferField)
  | get (k : BufferField.Kind)
  deriving DecidableEq

def step (q : FieldQueue) : Event → FieldQueue
  | .put f => { q with queue := q.queue ++ [f] }
  | .get _ => ⟨q.queue.tail, q.got ++ q.queue.head?.toList⟩

/-- A reader asks for the kind of the next field. -/
def Allows (q : FieldQueue) : Event → Prop
  | .put _ => True
  | .get k => q.queue.head?.map BufferField.kind = some k

instance (q : FieldQueue) : (e : Event) → Decidable (q.Allows e)
  | .put _ => .isTrue trivial
  | .get k => inferInstanceAs (Decidable (q.queue.head?.map BufferField.kind = some k))

/-- The fields written. -/
def puts (es : List Event) : List BufferField :=
  es.filterMap fun e => match e with
    | .put f => some f
    | .get _ => none

/-- What has been read, and after it what has not, is what has been written. -/
theorem got_append_queue (q : FieldQueue) (es : List Event) :
    (Transition.run step q es).got ++ (Transition.run step q es).queue =
      q.got ++ q.queue ++ puts es := by
  induction es generalizing q with
  | nil => simp [puts]
  | cons e es ih =>
    rw [Transition.run_cons, ih]
    cases e with
    | put f => simp [step, puts]
    | get k => cases hqueue : q.queue <;> simp [step, puts, hqueue]

end FieldQueue

/-! ### Reading undoes writing -/

namespace Buffer

@[simp] theorem length_intBytes (w : ℕ) (x : ℤ) : (intBytes w x).length = w :=
  BigEndian.length_bytes w _

theorem intOf_intBytes (w : ℕ) (x : ℤ) : intOf w (intBytes w x) = x.bmod (2 ^ (8 * w)) := by
  have hpos : (0 : ℤ) < 2 ^ (8 * w) := Int.pow_pos (by decide)
  have hnonneg := Int.emod_nonneg x (Int.ne_of_gt hpos)
  have hlt := Int.emod_lt_of_pos x hpos
  have hmod : (x % 2 ^ (8 * w)).toNat % 2 ^ (8 * w) = (x % 2 ^ (8 * w)).toNat := by
    refine Nat.mod_eq_of_lt ((Int.toNat_lt hnonneg).mpr ?_)
    push_cast
    exact hlt
  rw [intOf, intBytes, BigEndian.nat_bytes, hmod, Int.toNat_of_nonneg hnonneg]
  have hbmod := Int.emod_bmod x (2 ^ (8 * w))
  push_cast at hbmod
  exact hbmod

theorem put_eq (b : Buffer) (f : BufferField) : b.put f = b.append f.bytes := by
  cases f <;> rfl

section Holds

variable {b : Buffer} {q : ByteQueue} {rest : Bytes}

theorem Holds.peekBytes (h : b.Holds q) {bs : Bytes} (hq : q.bytes = bs ++ rest) :
    b.peekBytes bs.length = some bs := by
  rw [h.layout.peekBytes (by rw [hq, List.length_append]; omega), hq, List.take_left]

theorem Holds.peekInt (h : b.Holds q) {w : ℕ} {x : ℤ} (hq : q.bytes = intBytes w x ++ rest) :
    b.peekInt w = some (x.bmod (2 ^ (8 * w))) := by
  have hpeek := h.peekBytes hq
  rw [length_intBytes] at hpeek
  rw [Buffer.peekInt, hpeek, Option.map_some, intOf_intBytes]

/-- What has been put in front is read back. -/
theorem Holds.prependInt (h : b.Holds q) {w : ℕ} (hw : w ≤ q.front) (x : ℤ) :
    ∃ b', b.prependInt w x = some b' ∧ b'.peekInt w = some (x.bmod (2 ^ (8 * w))) := by
  have hroom : (intBytes w x).length ≤ q.front := by rwa [length_intBytes]
  obtain ⟨b', hprepend, hholds⟩ := h.prepend hroom
  exact ⟨b', hprepend, hholds.peekInt rfl⟩

/-- A field at the front is read back, and what is behind it is left. -/
theorem Holds.get (h : b.Holds q) {f : BufferField} (hq : q.bytes = f.bytes ++ rest) :
    ∃ b' front, b.get f.kind = some (f, b') ∧ b'.Holds ⟨rest, front⟩ := by
  have hlen : f.bytes.length ≤ q.bytes.length := by
    rw [hq, List.length_append]
    exact Nat.le_add_right _ _
  obtain ⟨b', hretrieve, hholds⟩ := h.retrieve hlen
  have hdrop : q.bytes.drop f.bytes.length = rest := by rw [hq, List.drop_left]
  rw [ByteQueue.retrieve, hdrop] at hholds
  refine ⟨b', _, ?_, hholds⟩
  cases f with
  | int64 x =>
    have hpeek := h.peekInt (w := 8) hq
    have hretrieve : b.retrieve 8 = some b' := hretrieve
    simp [BufferField.kind, Buffer.get, readInt64, readInt, peekInt64, hpeek, retrieveInt64,
      hretrieve]
  | int32 x =>
    have hpeek := h.peekInt (w := 4) hq
    have hretrieve : b.retrieve 4 = some b' := hretrieve
    simp [BufferField.kind, Buffer.get, readInt32, readInt, peekInt32, hpeek, retrieveInt32,
      hretrieve]
  | int16 x =>
    have hpeek := h.peekInt (w := 2) hq
    have hretrieve : b.retrieve 2 = some b' := hretrieve
    simp [BufferField.kind, Buffer.get, readInt16, readInt, peekInt16, hpeek, retrieveInt16,
      hretrieve]
  | int8 x =>
    have hpeek := h.peekInt (w := 1) hq
    have hretrieve : b.retrieve 1 = some b' := hretrieve
    simp [BufferField.kind, Buffer.get, readInt8, readInt, peekInt8, hpeek, retrieveInt8,
      hretrieve]
  | string str =>
    have hpeek := h.peekBytes hq
    have hretrieve : b.retrieve str.length = some b' := hretrieve
    simp only [BufferField.bytes] at hpeek
    simp [BufferField.kind, Buffer.get, retrieveAsString, hpeek, hretrieve]

end Holds

/-- The buffer holds the fields that have not been read. -/
def Contains (b : Buffer) (fields : List BufferField) : Prop :=
  ∃ front, b.Holds ⟨fields.flatMap BufferField.bytes, front⟩

/-- One call of a caller that keeps what it has read. -/
def serve (s : Buffer × List BufferField) : FieldQueue.Event → Option (Buffer × List BufferField)
  | .put f => (s.1.put f).map fun b => (b, s.2)
  | .get k => (s.1.get k).map fun (f, b) => (b, s.2 ++ [f])

theorem Contains.serve {b : Buffer} {q : FieldQueue} (h : b.Contains q.queue)
    {e : FieldQueue.Event} (he : q.Allows e) :
    ∃ b', serve (b, q.got) e = some (b', (q.step e).got) ∧ b'.Contains (q.step e).queue := by
  obtain ⟨front, h⟩ := h
  cases e with
  | put f =>
    obtain ⟨b', happend, h'⟩ := h.append f.bytes
    refine ⟨b', ?_, front, ?_⟩
    · simp only [Buffer.serve, put_eq, happend, Option.map_some, FieldQueue.step]
    · simpa [FieldQueue.step] using h'
  | get k =>
    cases hqueue : q.queue with
    | nil => simp [FieldQueue.Allows, hqueue] at he
    | cons f rest =>
      obtain rfl : f.kind = k := by simpa [FieldQueue.Allows, hqueue] using he
      rw [hqueue] at h
      obtain ⟨b', front', hget, h'⟩ := h.get (f := f) List.flatMap_cons
      refine ⟨b', ?_, front', ?_⟩
      · simp [Buffer.serve, hget, FieldQueue.step, hqueue]
      · simpa only [FieldQueue.step, hqueue, List.tail_cons] using h'

theorem Contains.serves {b : Buffer} {q : FieldQueue} (h : b.Contains q.queue)
    {es : List FieldQueue.Event} (hes : Transition.Meets FieldQueue.step FieldQueue.Allows q es) :
    ∃ b', es.foldlM Buffer.serve (b, q.got) = some (b', (Transition.run FieldQueue.step q es).got) ∧
      b'.Contains (Transition.run FieldQueue.step q es).queue := by
  induction es generalizing b q with
  | nil => exact ⟨b, rfl, h⟩
  | cons e es ih =>
    obtain ⟨b₁, hserve, h₁⟩ := h.serve hes.1
    obtain ⟨b', hserves, h'⟩ := ih h₁ hes.2
    refine ⟨b', ?_, h'⟩
    rw [List.foldlM_cons, hserve]
    exact hserves

/-- **Reading undoes writing.** However integers of all widths and strings are written and read in
turn, if every read is of the kind of the next field, no assertion fails, the fields read are the
first of those written, in order, and the bytes of the others are left in the buffer. -/
theorem fields_of_meets (initialSize : ℕ) {es : List FieldQueue.Event}
    (hes : Transition.Meets FieldQueue.step FieldQueue.Allows {} es) :
    ∃ b got rest, es.foldlM serve (init initialSize, []) = some (b, got) ∧
      got ++ rest = FieldQueue.puts es ∧ b.readable = rest.flatMap BufferField.bytes := by
  have hstart : (init initialSize).Contains ({} : FieldQueue).queue := ⟨_, holds_init initialSize⟩
  obtain ⟨b, hserves, front, h⟩ := hstart.serves hes
  refine ⟨b, _, _, hserves, ?_, h.readable⟩
  simpa using FieldQueue.got_append_queue {} es

/-- Two frames of the codec, and an integer of eight bytes. -/
theorem fields_of_meets_frames :
    let es : List FieldQueue.Event := [.put (.int32 1), .put (.string [7]), .get .int32,
      .put (.int64 (-2)), .get (.string 1), .get .int64, .put (.int16 (-3)), .put (.int8 4)]
    ∃ b got rest, es.foldlM serve (init 0, []) = some (b, got) ∧
      got ++ rest = FieldQueue.puts es ∧ b.readable = rest.flatMap BufferField.bytes :=
  fields_of_meets 0 (by decide)

end Buffer

/-! ### The codec -/

namespace Codec

/-- The length is written by `send` as `prependInt32` writes it. -/
theorem intBytes_length (message : Bytes) :
    Buffer.intBytes 4 (Int32.ofInt message.length).toInt = BigEndian.bytes32 message.length := by
  have hmod : ((Int32.ofInt message.length).toInt % 2 ^ (8 * 4)).toNat =
      message.length % 2 ^ (8 * 4) := by
    rw [Int32.toInt_ofInt]
    have hemod : Int.bmod message.length Int32.size % (Int32.size : ℤ) =
        (message.length : ℤ) % (Int32.size : ℤ) := Int.bmod_emod
    have hsize : (2 : ℤ) ^ (8 * 4) = (Int32.size : ℤ) := rfl
    rw [hsize, hemod]
    rfl
  have hbytes := BigEndian.bytes_nat (BigEndian.bytes 4 message.length)
  rw [BigEndian.length_bytes, BigEndian.nat_bytes] at hbytes
  rw [Buffer.intBytes, hmod, hbytes, BigEndian.bytes32_eq]

/-- `send` is `append` and `prependInt32`. -/
theorem sendBuffer_eq_prependInt32 (message : Bytes) :
    sendBuffer message = ((Buffer.init Buffer.kInitialSize).append message).bind fun buf =>
      buf.prependInt32 (Int32.ofInt message.length) := by
  simp only [sendBuffer, Buffer.prependInt32, Buffer.prependInt, intBytes_length]

/-- `onMessage` reads the length as `peekInt32` does. -/
theorem peekInt32_eq {buf : Buffer} {b₀ b₁ b₂ b₃ : UInt8}
    (h : buf.peekBytes kHeaderLen = some [b₀, b₁, b₂, b₃]) :
    buf.peekInt32.map Int32.toInt = some (networkToHost32 b₀ b₁ b₂ b₃) := by
  have hpeek : buf.peekInt 4 = some (networkToHost32 b₀ b₁ b₂ b₃) := by
    rw [kHeaderLen] at h
    rw [Buffer.peekInt, h, Option.map_some]
    unfold Buffer.intOf networkToHost32
    rw [BigEndian.nat32_eq]
  rw [Buffer.peekInt32, hpeek, Option.map_some, Option.map_some, Int32.toInt_ofInt]
  unfold networkToHost32
  exact congrArg some Int.bmod_bmod

end Codec
