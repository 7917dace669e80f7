import CameraVideoStream.Foundation.Transition

/-!
# Refinement of runs

A concrete system refines an abstract one along an abstraction function `f` if every concrete step
is matched by a run of the abstract system: by no event if the abstract state stays as it is, by one
if the two systems keep step, by several if the concrete step is coarser. Then every run of the
concrete system is matched by a run of the abstract one, and what the abstract runs keep holds of
the abstraction of every state that a concrete run reaches.

The steps that are considered can be restricted on both sides: `C` is a condition on the steps of
the concrete run, `C'` what is then known of the steps of the abstract one, and `J` an invariant of
the concrete runs.

## Main definitions

* `Transition.Refinement`: the concrete system refines the abstract one.

## Main results

* `Transition.Refinement.run`: runs are matched by runs.
* `Transition.Refinement.invariant`: invariants of the abstract system.
-/

namespace Transition

variable {σ ε σ' ε' : Type*} {step : σ → ε → σ} {step' : σ' → ε' → σ'}

theorem meets_append {C : σ → ε → Prop} {s : σ} {es fs : List ε} :
    Meets step C s (es ++ fs) ↔ Meets step C s es ∧ Meets step C (run step s es) fs := by
  induction es generalizing s with
  | nil => simp [Meets]
  | cons e es ih => simp [Meets, ih, and_assoc]

theorem Meets.mono {C D : σ → ε → Prop} (hCD : ∀ s e, C s e → D s e) {s : σ} {es : List ε}
    (h : Meets step C s es) : Meets step D s es := by
  induction es generalizing s with
  | nil => trivial
  | cons e es ih => exact ⟨hCD s e h.1, ih h.2⟩

/-- What every step that meets `C` preserves holds after every run whose steps meet `C`. -/
theorem Meets.run {Inv : σ → Prop} {C : σ → ε → Prop}
    (hstep : ∀ s e, Inv s → C s e → Inv (step s e)) {s : σ} {es : List ε} (hs : Inv s)
    (h : Meets step C s es) : Inv (run step s es) :=
  h.throughout hstep hs es List.prefix_rfl

/-- In the states with `J` a step that meets `C` keeps `J`, and from the abstraction of the state
before it to that of the state after it there is a run whose steps meet `C'`. -/
structure Refinement (step : σ → ε → σ) (step' : σ' → ε' → σ') (f : σ → σ') (J : σ → Prop)
    (C : σ → ε → Prop) (C' : σ' → ε' → Prop) : Prop where
  keeps : ∀ s e, J s → C s e → J (step s e)
  matched : ∀ s e, J s → C s e →
    ∃ es', f (step s e) = Transition.run step' (f s) es' ∧ Meets step' C' (f s) es'

namespace Refinement

variable {f : σ → σ'} {J : σ → Prop} {C : σ → ε → Prop} {C' : σ' → ε' → Prop}

/-- **Runs are matched by runs.** -/
theorem run (h : Refinement step step' f J C C') {s : σ} (hs : J s) {es : List ε}
    (hes : Meets step C s es) :
    ∃ es', f (Transition.run step s es) = Transition.run step' (f s) es' ∧
      Meets step' C' (f s) es' := by
  induction es generalizing s with
  | nil => exact ⟨[], rfl, trivial⟩
  | cons e es ih =>
    obtain ⟨es₁, hrun₁, hmeets₁⟩ := h.matched s e hs hes.1
    obtain ⟨es₂, hrun₂, hmeets₂⟩ := ih (h.keeps s e hs hes.1) hes.2
    rw [hrun₁] at hrun₂ hmeets₂
    refine ⟨es₁ ++ es₂, ?_, meets_append.mpr ⟨hmeets₁, hmeets₂⟩⟩
    rw [run_cons, hrun₂, run_append]

/-- **Invariants of the abstract system.** What the abstract steps keep holds of the abstraction of
every state that a concrete run reaches. -/
theorem invariant (h : Refinement step step' f J C C') {Inv : σ' → Prop}
    (hstep : ∀ s e, Inv s → C' s e → Inv (step' s e)) {s : σ} (hs : J s) (hinv : Inv (f s))
    {es : List ε} (hes : Meets step C s es) : Inv (f (Transition.run step s es)) := by
  obtain ⟨es', hrun, hmeets⟩ := h.run hs hes
  rw [hrun]
  exact hmeets.run hstep hinv

end Refinement

end Transition
