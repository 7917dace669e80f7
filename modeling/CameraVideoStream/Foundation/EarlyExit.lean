import Mathlib.Tactic.Common

/-!
# Programs with early exits

A stage of a program turns a state into an outcome: it goes on in a new state, or it leaves the
program with a result. A sequence of stages, and a loop over one stage, stop at the first exit.

`Outcome.Sat Q R` is the total-correctness postcondition of such a program: `Q` holds if it goes on,
`R` if it exits.

## Main definitions

* `Outcome`, `Outcome.bind`, `Outcome.iterate`.
* `Outcome.Sat`.

## Main results

* `Outcome.Sat.bind`: the rule of sequential composition.
* `Outcome.sat_iterate`: the rule of the loop, with an invariant.
-/

/-- How a stage ends: the program goes on in the state `s`, or it exits with the result `r`. -/
inductive Outcome (σ ρ : Type*) where
  | next (s : σ)
  | exit (r : ρ) (s : σ)

namespace Outcome

variable {σ ρ : Type*}

/-- One stage after the other. -/
def bind : Outcome σ ρ → (σ → Outcome σ ρ) → Outcome σ ρ
  | .next s, f => f s
  | .exit r s, _ => .exit r s

/-- The stages `f i`, `f (i + 1)`, … of a loop, `n` of them. -/
def iterate (f : ℕ → σ → Outcome σ ρ) : ℕ → ℕ → σ → Outcome σ ρ
  | _, 0, s => .next s
  | i, n + 1, s => (f i s).bind (iterate f (i + 1) n)

/-- If the program goes on, `Q` holds of the state; if it exits, `R` of the result and the state. -/
def Sat (Q : σ → Prop) (R : ρ → σ → Prop) : Outcome σ ρ → Prop
  | .next s => Q s
  | .exit r s => R r s

@[simp] theorem sat_next {Q : σ → Prop} {R : ρ → σ → Prop} {s : σ} :
    (next s).Sat Q R ↔ Q s := Iff.rfl

@[simp] theorem sat_exit {Q : σ → Prop} {R : ρ → σ → Prop} {r : ρ} {s : σ} :
    (exit r s).Sat Q R ↔ R r s := Iff.rfl

theorem bind_assoc (o : Outcome σ ρ) (f g : σ → Outcome σ ρ) :
    (o.bind f).bind g = o.bind fun s => (f s).bind g := by
  cases o <;> rfl

variable {Q Q' : σ → Prop} {R R' : ρ → σ → Prop}

/-- **Sequential composition.** -/
theorem Sat.bind {o : Outcome σ ρ} {f : σ → Outcome σ ρ} (h : o.Sat Q R)
    (hf : ∀ s, Q s → (f s).Sat Q' R) : (o.bind f).Sat Q' R := by
  cases o with
  | next s => exact hf s h
  | exit r s => exact h

theorem Sat.mono {o : Outcome σ ρ} (h : o.Sat Q R) (hQ : ∀ s, Q s → Q' s)
    (hR : ∀ r s, R r s → R' r s) : o.Sat Q' R' := by
  cases o with
  | next s => exact hQ s h
  | exit r s => exact hR r s h

/-- Two postconditions of one program. -/
theorem Sat.and {o : Outcome σ ρ} (h : o.Sat Q R) (h' : o.Sat Q' R') :
    o.Sat (fun s => Q s ∧ Q' s) (fun r s => R r s ∧ R' r s) := by
  cases o with
  | next s => exact ⟨h, h'⟩
  | exit r s => exact ⟨h, h'⟩

theorem sat_iterate_from {f : ℕ → σ → Outcome σ ρ} {I : ℕ → σ → Prop} {i n : ℕ}
    (hf : ∀ j s, j < i + n → I j s → (f j s).Sat (I (j + 1)) R) {s : σ} (hs : I i s) :
    (iterate f i n s).Sat (I (i + n)) R := by
  induction n generalizing i s with
  | zero => exact hs
  | succ n ih =>
    refine (hf i s (by omega) hs).bind fun t ht => ?_
    rw [show i + (n + 1) = i + 1 + n by omega]
    exact ih (fun j u hj hu => hf j u (by omega) hu) ht

/-- **Loops.** What holds before the loop and is kept by every turn of it that goes on holds after
the loop. -/
theorem sat_iterate {f : ℕ → σ → Outcome σ ρ} {I : ℕ → σ → Prop} {n : ℕ}
    (hf : ∀ j s, j < n → I j s → (f j s).Sat (I (j + 1)) R) {s : σ} (hs : I 0 s) :
    (iterate f 0 n s).Sat (I n) R := by
  have h := sat_iterate_from (n := n) (fun j s hj => hf j s (by omega)) hs
  rwa [Nat.zero_add] at h

end Outcome
