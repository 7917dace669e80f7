import CameraVideoStream.Foundation.EarlyExit
import Mathlib.Tactic.Common

/-!
# Loops that only an exit ends

`Outcome.loop body` takes turns of `body` until one of them exits. There is no result if the fuel
does not suffice, so that a loop that does not terminate has none, whatever the fuel.

## Main definitions

* `Outcome.loop`.
* `Outcome.Rel`: two outcomes are related.

## Main results

* `Outcome.exists_loop`: a loop with a measure that every turn decreases terminates.
* `Outcome.sat_of_loop`: the rule of the loop, with an invariant.
* `Outcome.loop_rel`: loops over related bodies run alike.
-/

namespace Outcome

variable {σ ρ : Type*}

/-- At most `fuel` turns of `body`: how the loop exits, if it does. -/
def loop (body : σ → Outcome σ ρ) : ℕ → σ → Option (ρ × σ)
  | 0, _ => none
  | fuel + 1, s =>
    match body s with
    | .next t => loop body fuel t
    | .exit r t => some (r, t)

variable {body : σ → Outcome σ ρ}

theorem loop_of_next {s t : σ} (h : body s = .next t) (fuel : ℕ) :
    loop body (fuel + 1) s = loop body fuel t := by
  rw [loop, h]

theorem loop_of_exit {r : ρ} {s t : σ} (h : body s = .exit r t) (fuel : ℕ) :
    loop body (fuel + 1) s = some (r, t) := by
  rw [loop, h]

/-- **Termination.** Every turn that goes on decreases the measure, so more turns than the measure
says are enough. -/
theorem exists_loop {μ : σ → ℕ} (hμ : ∀ s t, body s = .next t → μ t < μ s) {fuel : ℕ} {s : σ}
    (hfuel : μ s < fuel) : ∃ x, loop body fuel s = some x := by
  induction fuel generalizing s with
  | zero => exact absurd hfuel (Nat.not_lt_zero _)
  | succ fuel ih =>
    cases hs : body s with
    | next t =>
      rw [loop_of_next hs]
      have hlt := hμ s t hs
      exact ih (by omega)
    | exit r t => exact ⟨(r, t), loop_of_exit hs fuel⟩

/-- **Invariants.** What holds before the loop and is kept by every turn of it that goes on holds
before the turn that exits. -/
theorem sat_of_loop {I : σ → Prop} {R : ρ → σ → Prop} (hI : ∀ s, I s → (body s).Sat I R) {s : σ}
    (hs : I s) {fuel : ℕ} {r : ρ} {t : σ} (h : loop body fuel s = some (r, t)) : R r t := by
  induction fuel generalizing s with
  | zero => simp [loop] at h
  | succ fuel ih =>
    have hsat := hI s hs
    cases hb : body s with
    | next u =>
      rw [hb] at hsat
      rw [loop_of_next hb] at h
      exact ih hsat h
    | exit r' u =>
      rw [hb] at hsat
      rw [loop_of_exit hb, Option.some_inj, Prod.mk.injEq] at h
      obtain ⟨rfl, rfl⟩ := h
      exact hsat

/-! ### Simulation -/

variable {σ' ρ' : Type*} {body' : σ' → Outcome σ' ρ'}

/-- Both outcomes go on, in states with `Q`, or both exit, with `R`. -/
def Rel (Q : σ → σ' → Prop) (R : ρ → σ → ρ' → σ' → Prop) : Outcome σ ρ → Outcome σ' ρ' → Prop
  | .next s, .next s' => Q s s'
  | .exit r s, .exit r' s' => R r s r' s'
  | _, _ => False

/-- **Simulation.** If the bodies are related in related states, then where one loop exits the other
one exits with as much fuel, and the exits are related. -/
theorem loop_rel {Q : σ → σ' → Prop} {R : ρ → σ → ρ' → σ' → Prop}
    (hbody : ∀ s s', Q s s' → Rel Q R (body s) (body' s')) {s : σ} {s' : σ'} (hs : Q s s')
    {fuel : ℕ} {r' : ρ'} {t' : σ'} (h : loop body' fuel s' = some (r', t')) :
    ∃ r t, loop body fuel s = some (r, t) ∧ R r t r' t' := by
  induction fuel generalizing s s' with
  | zero => simp [loop] at h
  | succ fuel ih =>
    have hrel := hbody s s' hs
    cases hb : body s with
    | next u =>
      cases hb' : body' s' with
      | next u' =>
        rw [hb, hb'] at hrel
        rw [loop_of_next hb'] at h
        rw [loop_of_next hb]
        exact ih hrel h
      | exit r₁ u' =>
        rw [hb, hb'] at hrel
        exact hrel.elim
    | exit r u =>
      cases hb' : body' s' with
      | next u' =>
        rw [hb, hb'] at hrel
        exact hrel.elim
      | exit r₁ u' =>
        rw [hb, hb'] at hrel
        rw [loop_of_exit hb', Option.some_inj, Prod.mk.injEq] at h
        obtain ⟨rfl, rfl⟩ := h
        exact ⟨r, u, loop_of_exit hb fuel, hrel⟩

end Outcome
