import Mathlib.Data.List.Infix
import Mathlib.Tactic.Common

/-!
# Runs of a step function

A system is a total function `step : σ → ε → σ`: the state after the event `e` in the state `s`.
An event that cannot happen in a state leaves the state as it is, so every list of events is a
run, and a statement about every interleaving is a statement about every list.

## Main definitions

* `Transition.run`: the state after a list of events.
* `Transition.Throughout`: a property holds in every state that a run reaches.
* `Transition.Meets`: every event of a run meets a condition in the state it happens in.

## Main results

* `Transition.run_induction`: what every step preserves, every run preserves.
* `Transition.Meets.throughout`: what every step that meets a condition preserves holds throughout
  every run whose steps meet it.
* `Transition.throughout_iff_meets`: if a step keeps a property exactly when it meets a condition,
  the property holds throughout a run exactly when every step meets the condition.
* `Transition.meets_iff_meets`: the same for a property of the steps.
-/

namespace Transition

variable {σ ε : Type*} (step : σ → ε → σ)

/-- The state after the events `es`, from the state `s`. -/
def run (s : σ) (es : List ε) : σ := es.foldl step s

@[simp] theorem run_nil (s : σ) : run step s [] = s := rfl

@[simp] theorem run_cons (s : σ) (e : ε) (es : List ε) :
    run step s (e :: es) = run step (step s e) es := rfl

theorem run_append (s : σ) (es fs : List ε) :
    run step s (es ++ fs) = run step (run step s es) fs :=
  List.foldl_append

/-- **What every step preserves, every run preserves.** -/
theorem run_induction {Inv : σ → Prop} (hstep : ∀ s e, Inv s → Inv (step s e)) {s : σ}
    (hs : Inv s) (es : List ε) : Inv (run step s es) := by
  induction es generalizing s with
  | nil => exact hs
  | cons e es ih => exact ih (hstep s e hs)

/-- `P` holds in every state reached by the run `es` from `s`, the first and the last included. -/
def Throughout (P : σ → Prop) (s : σ) (es : List ε) : Prop :=
  ∀ pre, pre <+: es → P (run step s pre)

/-- Every event of the run `es` from `s` meets `C` in the state it happens in. -/
def Meets (C : σ → ε → Prop) : σ → List ε → Prop
  | _, [] => True
  | s, e :: es => C s e ∧ Meets C (step s e) es

instance decidableMeets (C : σ → ε → Prop) [∀ s e, Decidable (C s e)] :
    (s : σ) → (es : List ε) → Decidable (Meets step C s es)
  | _, [] => .isTrue trivial
  | s, e :: es => @instDecidableAnd _ _ _ (decidableMeets C (step s e) es)

variable {step}

theorem Throughout.head {P : σ → Prop} {s : σ} {es : List ε} (h : Throughout step P s es) : P s :=
  h [] List.nil_prefix

theorem throughout_nil {P : σ → Prop} {s : σ} : Throughout step P s [] ↔ P s := by
  simp [Throughout]

theorem throughout_cons {P : σ → Prop} {s : σ} {e : ε} {es : List ε} :
    Throughout step P s (e :: es) ↔ P s ∧ Throughout step P (step s e) es := by
  constructor
  · intro h
    refine ⟨h.head, fun pre hpre => ?_⟩
    have hcons : e :: pre <+: e :: es := List.cons_prefix_cons.mpr ⟨rfl, hpre⟩
    exact h (e :: pre) hcons
  · rintro ⟨hs, h⟩ pre hpre
    cases pre with
    | nil => exact hs
    | cons f pre =>
      obtain ⟨rfl, htail⟩ := List.cons_prefix_cons.mp hpre
      exact h pre htail

theorem Throughout.mono {P Q : σ → Prop} (hPQ : ∀ s, P s → Q s) {s : σ} {es : List ε}
    (h : Throughout step P s es) : Throughout step Q s es :=
  fun pre hpre => hPQ _ (h pre hpre)

/-- **Invariants of guarded runs.** What every step that meets `C` preserves holds throughout
every run whose steps meet `C`. -/
theorem Meets.throughout {Inv : σ → Prop} {C : σ → ε → Prop}
    (hstep : ∀ s e, Inv s → C s e → Inv (step s e)) {s : σ} {es : List ε} (hs : Inv s)
    (h : Meets step C s es) : Throughout step Inv s es := by
  induction es generalizing s with
  | nil => exact throughout_nil.mpr hs
  | cons e es ih => exact throughout_cons.mpr ⟨hs, ih (hstep s e hs h.1) h.2⟩

/-- A condition on the events alone. -/
theorem meets_iff_forall {C : ε → Prop} {s : σ} {es : List ε} :
    Meets step (fun _ e => C e) s es ↔ ∀ e ∈ es, C e := by
  induction es generalizing s with
  | nil => simp [Meets]
  | cons e es ih => simp [Meets, ih]

/-- Every event of a run meets two conditions if it meets each of them. -/
theorem Meets.and {C D : σ → ε → Prop} {s : σ} {es : List ε} (hC : Meets step C s es)
    (hD : Meets step D s es) : Meets step (fun s e => C s e ∧ D s e) s es := by
  induction es generalizing s with
  | nil => trivial
  | cons e es ih => exact ⟨⟨hC.1, hD.1⟩, ih hC.2 hD.2⟩

/-- **An exact condition on the steps of a run.** Let the steps of a run obey the law `L`, and let
`J` be kept as long as `P` holds. If, in the states with `J` and `P`, a step keeps `P` exactly when
it meets `C`, then `P` holds throughout the run exactly when every step of it meets `C`. -/
theorem throughout_iff_meets {J P : σ → Prop} {L C : σ → ε → Prop}
    (hJ : ∀ s e, J s → P s → L s e → P (step s e) → J (step s e))
    (hP : ∀ s e, J s → P s → L s e → (P (step s e) ↔ C s e)) {s : σ} (hJs : J s) (hPs : P s)
    {es : List ε} (hL : Meets step L s es) : Throughout step P s es ↔ Meets step C s es := by
  induction es generalizing s with
  | nil => exact iff_of_true (throughout_nil.mpr hPs) trivial
  | cons e es ih =>
    rw [throughout_cons]
    constructor
    · rintro ⟨-, h⟩
      have hC := (hP s e hJs hPs hL.1).mp h.head
      exact ⟨hC, (ih (hJ s e hJs hPs hL.1 h.head) h.head hL.2).mp h⟩
    · rintro ⟨hC, h⟩
      have hP' := (hP s e hJs hPs hL.1).mpr hC
      exact ⟨hPs, (ih (hJ s e hJs hPs hL.1 hP') hP' hL.2).mpr h⟩

/-- **An exact condition for a property of the steps.** Let the steps of a run obey the law `L`, and
let `J` be kept by the steps with `P`. If, in the states with `J`, a step has `P` exactly when it
meets `C`, then every step of the run has `P` exactly when every step of it meets `C`. -/
theorem meets_iff_meets {J : σ → Prop} {L P C : σ → ε → Prop}
    (hJ : ∀ s e, J s → L s e → P s e → J (step s e))
    (hP : ∀ s e, J s → L s e → (P s e ↔ C s e)) {s : σ} (hJs : J s) {es : List ε}
    (hL : Meets step L s es) : Meets step P s es ↔ Meets step C s es := by
  induction es generalizing s with
  | nil => exact Iff.rfl
  | cons e es ih =>
    have hhead := hP s e hJs hL.1
    constructor
    · rintro ⟨hp, h⟩
      exact ⟨hhead.mp hp, (ih (hJ s e hJs hL.1 hp) hL.2).mp h⟩
    · rintro ⟨hC, h⟩
      have hp := hhead.mpr hC
      exact ⟨hp, (ih (hJ s e hJs hL.1 hp) hL.2).mpr h⟩

end Transition
