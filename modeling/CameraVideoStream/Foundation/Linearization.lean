import Mathlib.Data.List.Basic
import Mathlib.Tactic.Common

/-!
# Calls that take effect in one step

The threads of a program call its operations, each of them one after another, and a call takes
effect in some step between its beginning and its return. Let `calls` be the calls in the order in
which they began, `effects` those that have taken effect, in the order in which they did, and
`pending t` the call of the thread `t` that has begun and not taken effect, if there is one. In
these terms the operations are atomic if the program is always in the state that the calls `effects`
leave, one by one, and if the effects of each thread are its calls, in order, except for the pending
one.

## Main definitions

* `Linearization.InOrder`: the effects of each thread are its calls, in order.

## Main results

* `Linearization.InOrder.call`, `Linearization.InOrder.effect`, `Linearization.InOrder.stay`: the
  three kinds of steps.
-/

namespace Linearization

variable {τ α : Type*} [DecidableEq τ] {thread : α → τ}

/-- The effects of each thread, and after them its pending call, are its calls, in order. -/
def InOrder (thread : α → τ) (calls effects : List α) (pending : τ → List α) : Prop :=
  ∀ t, effects.filter (thread · = t) ++ pending t = calls.filter (thread · = t)

namespace InOrder

variable {calls effects : List α} {pending pending' : τ → List α} {x : α}

/-- A call begins. -/
theorem call (h : InOrder thread calls effects pending) (hbefore : pending (thread x) = [])
    (hafter : pending' (thread x) = [x])
    (hothers : ∀ t, t ≠ thread x → pending' t = pending t) :
    InOrder thread (calls ++ [x]) effects pending' := by
  intro t
  rw [List.filter_append, ← h t]
  by_cases ht : t = thread x
  · subst ht
    simp [hbefore, hafter]
  · simp [hothers t ht, show ¬ thread x = t from fun heq => ht heq.symm]

/-- A pending call takes effect. -/
theorem effect (h : InOrder thread calls effects pending) (hbefore : pending (thread x) = [x])
    (hafter : pending' (thread x) = [])
    (hothers : ∀ t, t ≠ thread x → pending' t = pending t) :
    InOrder thread calls (effects ++ [x]) pending' := by
  intro t
  rw [List.filter_append, ← h t]
  by_cases ht : t = thread x
  · subst ht
    simp [hbefore, hafter]
  · simp [hothers t ht, show ¬ thread x = t from fun heq => ht heq.symm]

/-- No call begins or takes effect. -/
theorem stay (h : InOrder thread calls effects pending) (hsame : ∀ t, pending' t = pending t) :
    InOrder thread calls effects pending' := by
  intro t
  rw [hsame t]
  exact h t

end InOrder

end Linearization
