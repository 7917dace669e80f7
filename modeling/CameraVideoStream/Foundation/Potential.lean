import CameraVideoStream.Foundation.Refinement

/-!
# Potentials

A potential `Φ : σ → ℕ` bounds the work that the steps of a run do, if every step pays for its work
out of the potential: whatever a step adds to the potential beyond that is its *gain*. Then the work
of the whole run, together with the potential that is left, is at most the potential at the start
and the gains (`Transition.Meets.total_add_le`).

If in every state in which the potential is not `0` there is a step that lowers it, then there is a
run after which it is `0` (`Transition.exists_run_of_potential`). And if no step raises it, and the
steps of some kind lower it, then it comes to `0` in every run in which there are enough of these,
whatever the others do (`Transition.exists_prefix_of_potential`).

## Main definitions

* `Transition.total`: the sum of a weight over the steps of a run.

## Main results

* `Transition.Meets.total_add_le`, `Transition.exists_run_of_potential`,
  `Transition.exists_prefix_of_potential`.
-/

namespace Transition

variable {σ ε : Type*} (step : σ → ε → σ)

/-- The sum of the weights `w` of the steps of the run `es` from `s`. -/
def total (w : σ → ε → ℕ) : σ → List ε → ℕ
  | _, [] => 0
  | s, e :: es => w s e + total w (step s e) es

variable {step}

/-- The weight `n` for the events with `p`. -/
theorem total_ite (p : ε → Bool) (n : ℕ) (s : σ) (es : List ε) :
    total step (fun _ e => if p e then n else 0) s es = n * es.countP p := by
  induction es generalizing s with
  | nil => rfl
  | cons e es ih =>
    rw [total, ih, List.countP_cons]
    split_ifs
    · rw [Nat.mul_add, Nat.mul_one, Nat.add_comm]
    · rw [Nat.add_zero, Nat.zero_add]

section Potential

variable {J : σ → Prop} {C : σ → ε → Prop} {Φ : σ → ℕ}

/-- **Work is paid for.** In the states with `J`, let a step that meets `C` keep `J`, and let its
work and the potential after it be no more than the potential before it and its gain. Then so it is
for a whole run. -/
theorem Meets.total_add_le {work gain : σ → ε → ℕ} (hkeep : ∀ s e, J s → C s e → J (step s e))
    (hpay : ∀ s e, J s → C s e → work s e + Φ (step s e) ≤ Φ s + gain s e) {s : σ} (hs : J s)
    {es : List ε} (hes : Meets step C s es) :
    total step work s es + Φ (Transition.run step s es) ≤ Φ s + total step gain s es := by
  induction es generalizing s with
  | nil => exact Nat.le_of_eq (Nat.add_comm _ _)
  | cons e es ih =>
    have hhead := hpay s e hs hes.1
    have htail := ih (hkeep s e hs hes.1) hes.2
    rw [total, total, run_cons]
    omega

/-- **Progress.** In the states with `J`, as long as the potential is not `0`, let there be a step
that meets `C`, keeps `J` and lowers the potential. Then there is a run of such steps to a state
with the potential `0`. -/
theorem exists_run_of_potential
    (hnext : ∀ s, J s → Φ s ≠ 0 → ∃ e, C s e ∧ J (step s e) ∧ Φ (step s e) < Φ s) {s : σ}
    (hs : J s) :
    ∃ es, es.length ≤ Φ s ∧ Meets step C s es ∧ J (run step s es) ∧ Φ (run step s es) = 0 := by
  induction hn : Φ s using Nat.strong_induction_on generalizing s with
  | h n ih =>
    by_cases hzero : Φ s = 0
    · exact ⟨[], Nat.zero_le _, trivial, hs, hzero⟩
    · obtain ⟨e, hC, hJ, hlt⟩ := hnext s hs hzero
      obtain ⟨es, hlen, hmeets, hJ', hend⟩ := ih (Φ (step s e)) (hn ▸ hlt) hJ rfl
      refine ⟨e :: es, ?_, ⟨hC, hmeets⟩, hJ', hend⟩
      rw [List.length_cons]
      omega

/-- **Progress whatever the others do.** In the states with `J`, as long as the potential is not
`0`, let every step keep `J` and pay for its work out of the potential. Then every run that does as
much work as the potential has a first part, of no more work than that, after which the potential
is `0`. -/
theorem exists_prefix_of_potential (work : σ → ε → ℕ)
    (hpay : ∀ s e, J s → Φ s ≠ 0 → J (step s e) ∧ work s e + Φ (step s e) ≤ Φ s) {s : σ}
    (hs : J s) {es : List ε} (hes : Φ s ≤ total step work s es) :
    ∃ pre, pre <+: es ∧ total step work s pre ≤ Φ s ∧ J (run step s pre) ∧
      Φ (run step s pre) = 0 := by
  induction es generalizing s with
  | nil => exact ⟨[], List.prefix_rfl, Nat.zero_le _, hs, Nat.le_zero.mp hes⟩
  | cons e es ih =>
    by_cases hzero : Φ s = 0
    · exact ⟨[], List.nil_prefix, Nat.zero_le _, hs, hzero⟩
    · obtain ⟨hJ, hle⟩ := hpay s e hs hzero
      rw [total] at hes
      obtain ⟨pre, hpre, hwork, hJ', hend⟩ := ih hJ (by omega)
      refine ⟨e :: pre, List.cons_prefix_cons.mpr ⟨rfl, hpre⟩, ?_, hJ', hend⟩
      rw [total]
      omega

end Potential

end Transition
