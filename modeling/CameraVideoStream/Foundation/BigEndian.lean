import Mathlib.Algebra.Ring.Nat
import Mathlib.Data.List.Induction
import Mathlib.Tactic.Common

/-!
# Bytes in network order

The number that bytes spell, the most significant first, and the bytes that spell a number: for four
bytes and the numbers modulo `2^32`, and for any number of bytes. The two are inverse to each other.

## Main results

* `BigEndian.nat32_bytes32`, `BigEndian.bytes32_nat32`: the round trips of four bytes.
* `BigEndian.nat_bytes`, `BigEndian.bytes_nat`: the round trips of any number of bytes.
-/

namespace BigEndian

/-- The number spelled by four bytes, the most significant first. -/
def nat32 (a b c d : UInt8) : ℕ :=
  a.toNat * 2 ^ 24 + b.toNat * 2 ^ 16 + c.toNat * 2 ^ 8 + d.toNat

/-- The four bytes that spell `n` modulo `2^32`, the most significant first. -/
def bytes32 (n : ℕ) : List UInt8 :=
  [UInt8.ofNat (n / 2 ^ 24), UInt8.ofNat (n / 2 ^ 16), UInt8.ofNat (n / 2 ^ 8), UInt8.ofNat n]

@[simp] theorem length_bytes32 (n : ℕ) : (bytes32 n).length = 4 := rfl

theorem nat32_lt (a b c d : UInt8) : nat32 a b c d < 2 ^ 32 := by
  have ha := a.toNat_lt
  have hb := b.toNat_lt
  have hc := c.toNat_lt
  have hd := d.toNat_lt
  unfold nat32
  omega

/-- The bytes of a number spell it. -/
theorem nat32_bytes32 {n : ℕ} (hn : n < 2 ^ 32) :
    nat32 (UInt8.ofNat (n / 2 ^ 24)) (UInt8.ofNat (n / 2 ^ 16)) (UInt8.ofNat (n / 2 ^ 8))
      (UInt8.ofNat n) = n := by
  simp only [nat32, UInt8.toNat_ofNat']
  omega

/-- Four bytes are the bytes of the number that they spell. -/
theorem bytes32_nat32 (a b c d : UInt8) : bytes32 (nat32 a b c d) = [a, b, c, d] := by
  have ha := a.toNat_lt
  have hb := b.toNat_lt
  have hc := c.toNat_lt
  have hd := d.toNat_lt
  have byte (m : ℕ) (x : UInt8) (h : m % 2 ^ 8 = x.toNat) : UInt8.ofNat m = x := by
    apply UInt8.toNat_inj.mp
    rw [UInt8.toNat_ofNat', h]
  simp only [bytes32, nat32, List.cons.injEq, and_true]
  refine ⟨byte _ a ?_, byte _ b ?_, byte _ c ?_, byte _ d ?_⟩ <;> omega

/-! ### Any number of bytes -/

/-- The number spelled by bytes, the most significant first. -/
def nat (bs : List UInt8) : ℕ := bs.foldl (fun n b => n * 2 ^ 8 + b.toNat) 0

/-- The `w` bytes that spell `n` modulo `2^(8 * w)`, the most significant first. -/
def bytes : (w : ℕ) → ℕ → List UInt8
  | 0, _ => []
  | w + 1, n => bytes w (n / 2 ^ 8) ++ [UInt8.ofNat n]

theorem nat_concat (bs : List UInt8) (b : UInt8) : nat (bs ++ [b]) = nat bs * 2 ^ 8 + b.toNat := by
  rw [nat, List.foldl_append]
  rfl

@[simp] theorem length_bytes (w n : ℕ) : (bytes w n).length = w := by
  induction w generalizing n with
  | zero => rfl
  | succ w ih => rw [bytes, List.length_append, ih, List.length_singleton]

/-- The bytes of a number spell it. -/
theorem nat_bytes (w n : ℕ) : nat (bytes w n) = n % 2 ^ (8 * w) := by
  induction w generalizing n with
  | zero => simp [bytes, nat, Nat.mod_one]
  | succ w ih =>
    have hsplit : 2 ^ (8 * (w + 1)) = 2 ^ 8 * 2 ^ (8 * w) := by
      rw [← Nat.pow_add]
      congr 1
      omega
    rw [bytes, nat_concat, ih, UInt8.toNat_ofNat', hsplit, Nat.mod_mul]
    omega

/-- Bytes are the bytes of the number that they spell. -/
theorem bytes_nat (bs : List UInt8) : bytes bs.length (nat bs) = bs := by
  induction bs using List.reverseRecOn with
  | nil => rfl
  | append_singleton bs b ih =>
    have hb := b.toNat_lt
    have hhigh : (nat bs * 2 ^ 8 + b.toNat) / 2 ^ 8 = nat bs := by omega
    have hlow : UInt8.ofNat (nat bs * 2 ^ 8 + b.toNat) = b := by
      apply UInt8.toNat_inj.mp
      rw [UInt8.toNat_ofNat']
      omega
    rw [List.length_append, List.length_singleton, bytes, nat_concat, hhigh, hlow, ih]

theorem bytes32_eq (n : ℕ) : bytes32 n = bytes 4 n := by
  simp only [bytes32, bytes, Nat.div_div_eq_div_mul, List.nil_append, List.cons_append]
  rfl

theorem nat32_eq (a b c d : UInt8) : nat32 a b c d = nat [a, b, c, d] := by
  simp only [nat32, nat, List.foldl_cons, List.foldl_nil]
  omega

end BigEndian
