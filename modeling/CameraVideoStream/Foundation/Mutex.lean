import Mathlib.Tactic.Common

/-!
# Mutual exclusion

A mutex is the thread that holds it, if any. It guards the critical sections of a program if always
exactly the thread that holds it is in one; so at most one is. A step of the program locks it,
unlocks it, or leaves everybody inside or outside, and so keeps this.

## Main definitions

* `Mutex.Guards`: the threads in a critical section are those that hold the mutex.

## Main results

* `Mutex.Guards.exclusive`: at most one thread is in a critical section.
* `Mutex.Guards.lock`, `Mutex.Guards.unlock`, `Mutex.Guards.stay`: the three kinds of steps.
-/

namespace Mutex

variable {τ : Type*}

/-- The threads in a critical section are those that hold the mutex. -/
def Guards (holder : Option τ) (critical : τ → Prop) : Prop :=
  ∀ t, critical t ↔ holder = some t

namespace Guards

variable {holder : Option τ} {critical critical' : τ → Prop} {t u : τ}

/-- **At most one thread is in a critical section.** -/
theorem exclusive (h : Guards holder critical) (ht : critical t) (hu : critical u) : t = u :=
  Option.some.inj (((h t).mp ht).symm.trans ((h u).mp hu))

theorem holder_eq (h : Guards holder critical) (ht : critical t) : holder = some t :=
  (h t).mp ht

/-- While the mutex is free, everybody is outside. -/
theorem outside (h : Guards none critical) (t : τ) : ¬ critical t := fun ht => by
  simpa using (h t).mp ht

/-- A thread locks the mutex and comes into its critical section. -/
theorem lock (h : Guards none critical) (ht : critical' t)
    (hsame : ∀ u, u ≠ t → (critical' u ↔ critical u)) : Guards (some t) critical' := by
  intro u
  by_cases hu : u = t
  · subst hu
    exact iff_of_true ht rfl
  · refine iff_of_false (fun hcritical => h.outside u ((hsame u hu).mp hcritical)) fun heq => ?_
    exact hu (Option.some.inj heq).symm

/-- The thread in a critical section leaves it and unlocks the mutex. -/
theorem unlock (h : Guards (some t) critical) (ht : ¬ critical' t)
    (hsame : ∀ u, u ≠ t → (critical' u ↔ critical u)) : Guards none critical' := by
  intro u
  refine iff_of_false (fun hu => ?_) (by simp)
  by_cases hut : u = t
  · exact ht (hut ▸ hu)
  · exact hut (Option.some.inj ((h u).mp ((hsame u hut).mp hu))).symm

/-- Nobody comes in or goes out. -/
theorem stay (h : Guards holder critical) (hsame : ∀ u, critical' u ↔ critical u) :
    Guards holder critical' :=
  fun u => (hsame u).trans (h u)

end Guards

end Mutex
