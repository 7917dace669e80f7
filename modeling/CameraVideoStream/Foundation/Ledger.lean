import Mathlib.Algebra.Order.Group.Multiset
import Mathlib.Data.Multiset.AddSub

/-!
# Ledgers of resources

A ledger records what a program acquires and what it releases, entry by entry. Replayed from what is
held at first, it gives what is held at the end; releasing something that is not held makes it
invalid, for good.

## Main definitions

* `Ledger.Entry`, `Ledger.post`, `Ledger.replay`.

## Main results

* `Ledger.replay_acquire`, `Ledger.replay_release`: what a list of acquisitions or releases does.
* `Ledger.count_eq_count`: in a valid ledger that starts and ends with nothing held, every resource
  is released as often as it is acquired.
-/

namespace Ledger

variable {R : Type*}

/-- One entry of a ledger. -/
inductive Entry (R : Type*) where
  | acquire (r : R)
  | release (r : R)
  deriving DecidableEq

variable [DecidableEq R]

/-- What is held after an entry: nothing is known any more once a resource is released that is not
held. -/
def post : Option (Multiset R) → Entry R → Option (Multiset R)
  | none, _ => none
  | some held, .acquire r => some (r ::ₘ held)
  | some held, .release r => if r ∈ held then some (held.erase r) else none

/-- What is held after a list of entries. -/
def replay (held : Option (Multiset R)) (es : List (Entry R)) : Option (Multiset R) :=
  es.foldl post held

@[simp] theorem replay_nil (held : Option (Multiset R)) : replay held [] = held := rfl

@[simp] theorem replay_cons (held : Option (Multiset R)) (e : Entry R) (es : List (Entry R)) :
    replay held (e :: es) = replay (post held e) es := rfl

theorem replay_append (held : Option (Multiset R)) (es fs : List (Entry R)) :
    replay held (es ++ fs) = replay (replay held es) fs :=
  List.foldl_append

@[simp] theorem post_acquire (held : Multiset R) (r : R) :
    post (some held) (.acquire r) = some (r ::ₘ held) := rfl

@[simp] theorem post_release (held : Multiset R) (r : R) :
    post (some (r ::ₘ held)) (.release r) = some held := by
  simp [post]

/-- Acquisitions add up. -/
theorem replay_acquire (held : Multiset R) (rs : List R) :
    replay (some held) (rs.map .acquire) = some ((rs : Multiset R) + held) := by
  induction rs generalizing held with
  | nil => simp
  | cons r rs ih =>
    rw [List.map_cons, replay_cons, post_acquire, ih, ← Multiset.cons_coe, Multiset.cons_add,
      Multiset.add_cons]

/-- What is held can be released. -/
theorem replay_release (held : Multiset R) (rs : List R) :
    replay (some ((rs : Multiset R) + held)) (rs.map .release) = some held := by
  induction rs with
  | nil => simp
  | cons r rs ih =>
    rw [List.map_cons, replay_cons, ← Multiset.cons_coe, Multiset.cons_add, post_release, ih]

theorem replay_none (es : List (Entry R)) : replay none es = none := by
  induction es with
  | nil => rfl
  | cons e es ih => exact ih

/-- What was held and what was acquired is what was released and what is held. -/
theorem count_add_count {held held' : Multiset R} {es : List (Entry R)}
    (h : replay (some held) es = some held') (r : R) :
    held.count r + es.count (.acquire r) = es.count (.release r) + held'.count r := by
  induction es generalizing held with
  | nil => simp_all
  | cons e es ih =>
    rw [List.count_cons, List.count_cons]
    cases e with
    | acquire s =>
      have hrest := ih h
      rw [Multiset.count_cons] at hrest
      simp only [beq_iff_eq, Entry.acquire.injEq, reduceCtorEq, if_false, eq_comm (a := s)]
      omega
    | release s =>
      by_cases hmem : s ∈ held
      · obtain ⟨held, rfl⟩ := Multiset.exists_cons_of_mem hmem
        rw [replay_cons, post_release] at h
        have hrest := ih h
        rw [Multiset.count_cons]
        simp only [beq_iff_eq, Entry.release.injEq, reduceCtorEq, if_false, eq_comm (a := s)]
        omega
      · simp [post, hmem, replay_none] at h

/-- **Balanced ledgers.** If nothing is held at first and nothing at the end, every resource has
been released as often as it was acquired. -/
theorem count_eq_count {es : List (Entry R)} (h : replay (some 0) es = some 0) (r : R) :
    es.count (.acquire r) = es.count (.release r) := by
  simpa using count_add_count h r

end Ledger
