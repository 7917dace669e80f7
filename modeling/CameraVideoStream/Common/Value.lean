import CameraVideoStream.Common.Codec

/-!
# The resolution, and numbers in a byte buffer

`common/common.h` fixes the resolution that the server asks the camera for and that the client
decodes.

`set_value` and `get_value` (`common/common.cc`) store a `uint32_t` in four bytes, the most
significant first, and load it again. `get_value` shifts bytes that have been promoted to `int`, so
that the first of them can make the `int` negative, and converts what it gets to `uint32_t`.

These are the four bytes of a header of the codec, which reads them as an `int32_t` and tests for a
negative number and for one that is too large. On what `get_value` loads this is one test
(`Common.value_spec`).

## Main definitions

* `Common.width`, `Common.height`.
* `Common.setValue`, `Common.getValue`.

## Main results

* `Common.setValue_eq`, `Common.getValue_eq_some_iff`, `Common.value_spec`.
-/

open Codec

namespace Common

/-- `WIDTH`. -/
def width : ℕ := 1920

/-- `HEIGHT`. -/
def height : ℕ := 1080

/-- `set_value(value, buf)`, on a buffer of which four bytes can be written. -/
def setValue (value : UInt32) (buf : Bytes) : Option Bytes :=
  match buf with
  | _ :: _ :: _ :: _ :: rest =>
    some (((value >>> 24) &&& 0xFF).toUInt8 :: ((value >>> 16) &&& 0xFF).toUInt8 ::
      ((value >>> 8) &&& 0xFF).toUInt8 :: (value &&& 0xFF).toUInt8 :: rest)
  | _ => none

/-- A byte, promoted to `int` and shifted. -/
def shifted (byte : UInt8) (n : Int32) : Int32 := Int32.ofNat byte.toNat <<< n

/-- `get_value(buf)`, on a buffer of which four bytes can be read. -/
def getValue (buf : Bytes) : Option UInt32 :=
  match buf with
  | b₀ :: b₁ :: b₂ :: b₃ :: _ =>
    some ((shifted b₀ 24).toUInt32 + (shifted b₁ 16).toUInt32 + (shifted b₂ 8).toUInt32 +
      (Int32.ofNat b₃.toNat).toUInt32)
  | _ => none

/-! ### The bytes -/

theorem toUInt8_and (w : UInt32) : (w &&& 0xFF).toUInt8 = UInt8.ofNat w.toNat := by
  apply UInt8.toNat_inj.mp
  simp only [UInt32.toNat_toUInt8, UInt32.toNat_and, UInt8.toNat_ofNat']
  show (w.toNat &&& (2 ^ 8 - 1)) % 2 ^ 8 = _
  rw [Nat.and_two_pow_sub_one_eq_mod, Nat.mod_mod]

/-- The four bytes are those of the number in network order. -/
theorem setValue_eq {buf : Bytes} (h : 4 ≤ buf.length) (value : UInt32) :
    setValue value buf = some (BigEndian.bytes32 value.toNat ++ buf.drop 4) := by
  match buf with
  | [] | [_] | [_, _] | [_, _, _] => simp at h
  | _ :: _ :: _ :: _ :: rest =>
    simp only [setValue, toUInt8_and, BigEndian.bytes32]
    simp [UInt32.toNat_shiftRight, Nat.shiftRight_eq_div_pow]

/-- A byte that is shifted into the sign of an `int` is back where it was in the `uint32_t`. -/
theorem toNat_shifted (b : UInt8) :
    (shifted b 24).toUInt32.toNat = b.toNat * 2 ^ 24 ∧
      (shifted b 16).toUInt32.toNat = b.toNat * 2 ^ 16 ∧
      (shifted b 8).toUInt32.toNat = b.toNat * 2 ^ 8 := by
  have hb := b.toNat_lt
  refine ⟨?_, ?_, ?_⟩ <;>
  · rw [shifted, ← UInt32.toNat_toBitVec]
    simp [Int32.toBitVec_shiftLeft, Nat.shiftLeft_eq]
    omega

/-- What four bytes are loaded as. -/
theorem getValue_cons (b₀ b₁ b₂ b₃ : UInt8) (rest : Bytes) :
    getValue (b₀ :: b₁ :: b₂ :: b₃ :: rest) =
      some (UInt32.ofNat (BigEndian.nat32 b₀ b₁ b₂ b₃)) := by
  have hlt := BigEndian.nat32_lt b₀ b₁ b₂ b₃
  obtain ⟨h₀, -, -⟩ := toNat_shifted b₀
  obtain ⟨-, h₁, -⟩ := toNat_shifted b₁
  obtain ⟨-, -, h₂⟩ := toNat_shifted b₂
  have h₃ := b₃.toNat_lt
  rw [getValue, Option.some.injEq]
  apply UInt32.toNat_inj.mp
  unfold BigEndian.nat32 at hlt ⊢
  rw [UInt32.toNat_add, UInt32.toNat_add, UInt32.toNat_add, h₀, h₁, h₂, Int32.toUInt32_ofNat',
    UInt32.toNat_ofNat', UInt32.toNat_ofNat']
  omega

/-- A number is loaded exactly off a buffer that begins with its bytes. -/
theorem getValue_eq_some_iff {buf : Bytes} {value : UInt32} :
    getValue buf = some value ↔ ∃ rest, buf = BigEndian.bytes32 value.toNat ++ rest := by
  constructor
  · intro h
    match buf with
    | [] | [_] | [_, _] | [_, _, _] => simp [getValue] at h
    | b₀ :: b₁ :: b₂ :: b₃ :: rest =>
      rw [getValue_cons, Option.some.injEq] at h
      refine ⟨rest, ?_⟩
      rw [← h, UInt32.toNat_ofNat_of_lt' (BigEndian.nat32_lt b₀ b₁ b₂ b₃),
        BigEndian.bytes32_nat32]
      rfl
  · rintro ⟨rest, rfl⟩
    rw [BigEndian.bytes32, List.cons_append, List.cons_append, List.cons_append, List.cons_append,
      getValue_cons, BigEndian.nat32_bytes32 value.toNat_lt, UInt32.ofNat_toNat]

/-! ### The headers of the codec -/

/-- The bytes of a length that does not fit are those of what is left of it. -/
theorem bytes32_mod (n : ℕ) : BigEndian.bytes32 (n % 2 ^ 32) = BigEndian.bytes32 n := by
  simp only [BigEndian.bytes32, List.cons.injEq, and_true]
  refine ⟨?_, ?_, ?_, ?_⟩ <;>
  · apply UInt8.toNat_inj.mp
    rw [UInt8.toNat_ofNat', UInt8.toNat_ofNat']
    omega

/-- The two tests of `onMessage` on the `int32_t` are one test on the `uint32_t`. -/
theorem invalidHead_iff {buf : Bytes} :
    InvalidHead buf ↔ ∃ value, getValue buf = some value ∧ 65536 * 20 < value.toNat := by
  match buf with
  | [] | [_] | [_, _] | [_, _, _] => simp [InvalidHead, getValue]
  | b₀ :: b₁ :: b₂ :: b₃ :: rest =>
    have hlt := BigEndian.nat32_lt b₀ b₁ b₂ b₃
    rw [getValue_cons]
    simp only [Option.some.injEq, exists_eq_left', InvalidHead,
      UInt32.toNat_ofNat_of_lt' hlt]
    rcases networkToHost32_cases b₀ b₁ b₂ b₃ with ⟨heq, hsmall⟩ | ⟨hneg, hlarge⟩ <;> omega

/-- **`set_value` and `get_value`.** Storing succeeds on every buffer that has four bytes and
changes nothing behind them; loading gives back what has been stored; storing what has been loaded
changes nothing. The header that `send` puts in front of a message is its length as `set_value`
stores it; and `onMessage` shuts the connection down on a header exactly if `get_value` loads more
than `65536 * 20` from it, be it a length that is too large or one that is negative as an `int32_t`.
-/
theorem value_spec :
    (∀ value buf, 4 ≤ buf.length → ∃ buf', setValue value buf = some buf' ∧
      buf'.drop 4 = buf.drop 4 ∧ getValue buf' = some value) ∧
    (∀ value buf, getValue buf = some value → setValue value buf = some buf) ∧
    (∀ message, setValue (UInt32.ofNat message.length) (0 :: 0 :: 0 :: 0 :: message) =
      some (send message)) ∧
    (∀ buf, onMessageTurn buf = .refuse ↔
      ∃ value, getValue buf = some value ∧ 65536 * 20 < value.toNat) := by
  refine ⟨fun value buf h => ?_, fun value buf h => ?_, fun message => ?_, fun buf => ?_⟩
  · refine ⟨_, setValue_eq h value, rfl, ?_⟩
    exact getValue_eq_some_iff.mpr ⟨_, rfl⟩
  · obtain ⟨rest, rfl⟩ := getValue_eq_some_iff.mp h
    rw [setValue_eq (by simp [BigEndian.bytes32]) value]
    rfl
  · rw [setValue_eq (by simp), UInt32.toNat_ofNat', bytes32_mod]
    rfl
  · rw [onMessageTurn_eq_refuse_iff, invalidHead_iff]

/-- The largest number, whose first byte makes the `int` negative. -/
example : (setValue 0xFFFFFFFE [0, 0, 0, 0, 9]).bind getValue = some 0xFFFFFFFE := by decide

end Common
