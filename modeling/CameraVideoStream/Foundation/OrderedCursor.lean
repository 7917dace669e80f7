import Mathlib.Data.Finset.Max
import Mathlib.Data.Finset.Filter

/-!
# Iterating over an ordered set that changes

An iterator over a finite ordered set is a position `p : WithTop κ`: an element, or `⊤` for the end.
Iteration starts at the least element (`first`) and moves from an element to the least one above it
(`next`), in the set as it is at that moment. While the iteration goes on, elements are inserted and
erased.

Such a pass visits an element `x` when the position is at `x`. As long as the element at the
position is not erased, every element that stays in the set during the whole pass is visited exactly
once, whatever else comes and goes (`Visiting.count_eq_one`).

## Main definitions

* `OrderedCursor.first`, `OrderedCursor.next`: where the iteration starts, and how it moves.
* `OrderedCursor.Passed`: the element has had its turn.
* `OrderedCursor.Visiting`: the state of a pass.
* `OrderedCursor.ahead`: the elements that have not had their turn.

## Main results

* `OrderedCursor.Visiting.start`, `.visit`, `.advance`, `.insert`, `.erase`: what the steps of the
  pass, and the changes of the set, keep.
* `OrderedCursor.Visiting.count_eq_one`: at the end, the elements that stayed have been visited
  once.
-/

namespace OrderedCursor

variable {κ : Type*} [LinearOrder κ]

/-- The position at which the iteration starts. -/
def first (s : Finset κ) : WithTop κ := s.min

/-- The position after the element `x`. -/
def next (s : Finset κ) (x : κ) : WithTop κ := (s.filter (x < ·)).min

theorem mem_of_first_eq {s : Finset κ} {x : κ} (h : first s = x) : x ∈ s :=
  Finset.mem_of_min h

theorem first_le {s : Finset κ} {c : κ} (hc : c ∈ s) : first s ≤ c :=
  Finset.min_le hc

theorem mem_of_next_eq {s : Finset κ} {x y : κ} (h : next s x = y) : y ∈ s ∧ x < y :=
  Finset.mem_filter.mp (Finset.mem_of_min h)

theorem next_le {s : Finset κ} {x c : κ} (hc : c ∈ s) (hx : x < c) : next s x ≤ c :=
  Finset.min_le (Finset.mem_filter.mpr ⟨hc, hx⟩)

theorem lt_next (s : Finset κ) (x : κ) : (x : WithTop κ) < next s x := by
  cases h : next s x with
  | top => exact WithTop.coe_lt_top x
  | coe y => exact WithTop.coe_lt_coe.mpr (mem_of_next_eq h).2

/-- The element `c` has had its turn: it is below the position, or at the position after its
visit (`here`). -/
def Passed (pos : WithTop κ) (here : Bool) (c : κ) : Prop :=
  (c : WithTop κ) < pos ∨ here = true ∧ pos = c

/-- A pass over a set. `elems` is the set now, `stayed` are the elements that have been in it since
the pass started, `pos` is the position, `here` tells whether the element there has been visited,
and `visited` lists the elements visited, in order. -/
structure Visiting (elems stayed : Finset κ) (pos : WithTop κ) (here : Bool) (visited : List κ) :
    Prop where
  /-- The position is at an element of the set, or at the end. -/
  live : ∀ x : κ, pos = x → x ∈ elems
  stayed_subset : stayed ⊆ elems
  sorted : visited.Pairwise (· < ·)
  passed_of_mem : ∀ c ∈ visited, Passed pos here c
  mem_of_passed : ∀ c ∈ stayed, Passed pos here c → c ∈ visited

namespace Visiting

variable {elems stayed : Finset κ} {pos : WithTop κ} {here : Bool} {visited : List κ}

/-- A pass starts at the least element, with nothing visited. -/
theorem start (elems : Finset κ) : Visiting elems elems (first elems) false [] where
  live _ hx := mem_of_first_eq hx
  stayed_subset := subset_rfl
  sorted := .nil
  passed_of_mem := by simp
  mem_of_passed c hc hpassed := by
    rcases hpassed with hlt | ⟨hhere, -⟩
    · exact absurd hlt (first_le hc).not_gt
    · simp at hhere

/-- The element at the position is visited. -/
theorem visit {x : κ} (h : Visiting elems stayed x false visited) :
    Visiting elems stayed x true (visited ++ [x]) where
  live := h.live
  stayed_subset := h.stayed_subset
  sorted := by
    rw [List.pairwise_append]
    refine ⟨h.sorted, List.pairwise_singleton _ _, fun c hc y hy => ?_⟩
    rw [List.mem_singleton.mp hy]
    rcases h.passed_of_mem c hc with hlt | ⟨hhere, -⟩
    · exact WithTop.coe_lt_coe.mp hlt
    · simp at hhere
  passed_of_mem c hc := by
    rcases List.mem_append.mp hc with hc | hc
    · rcases h.passed_of_mem c hc with hlt | ⟨hhere, -⟩
      · exact .inl hlt
      · simp at hhere
    · exact .inr ⟨rfl, by rw [List.mem_singleton.mp hc]⟩
  mem_of_passed c hc hpassed := by
    rcases hpassed with hlt | ⟨-, heq⟩
    · exact List.mem_append_left _ (h.mem_of_passed c hc (.inl hlt))
    · rw [WithTop.coe_inj.mp heq]
      exact List.mem_append_right _ (List.mem_singleton_self c)

/-- The position moves on from an element that has been visited. -/
theorem advance {x : κ} (h : Visiting elems stayed x true visited) :
    Visiting elems stayed (next elems x) false visited where
  live _ hy := (mem_of_next_eq hy).1
  stayed_subset := h.stayed_subset
  sorted := h.sorted
  passed_of_mem c hc := by
    rcases h.passed_of_mem c hc with hlt | ⟨-, heq⟩
    · exact .inl (hlt.trans (lt_next elems x))
    · exact .inl (heq ▸ lt_next elems x)
  mem_of_passed c hc hpassed := by
    rcases hpassed with hlt | ⟨hhere, -⟩
    · apply h.mem_of_passed c hc
      rcases lt_trichotomy c x with hcx | rfl | hxc
      · exact .inl (WithTop.coe_lt_coe.mpr hcx)
      · exact .inr ⟨rfl, rfl⟩
      · -- an element of the set above `x` is not below the next position
        exact absurd hlt (next_le (h.stayed_subset hc) hxc).not_gt
    · simp at hhere

/-- An element is inserted. -/
theorem insert (h : Visiting elems stayed pos here visited) (c : κ) :
    Visiting (insert c elems) stayed pos here visited where
  live x hx := Finset.mem_insert_of_mem (h.live x hx)
  stayed_subset := h.stayed_subset.trans (Finset.subset_insert c elems)
  sorted := h.sorted
  passed_of_mem := h.passed_of_mem
  mem_of_passed := h.mem_of_passed

/-- An element that is not at the position is erased. -/
theorem erase (h : Visiting elems stayed pos here visited) {c : κ} (hc : pos ≠ c) :
    Visiting (elems.erase c) (stayed.erase c) pos here visited where
  live x hx := by
    refine Finset.mem_erase.mpr ⟨?_, h.live x hx⟩
    rintro rfl
    exact hc hx
  stayed_subset := Finset.erase_subset_erase c h.stayed_subset
  sorted := h.sorted
  passed_of_mem := h.passed_of_mem
  mem_of_passed d hd := h.mem_of_passed d (Finset.mem_of_mem_erase hd)

/-- **Exactly once.** At the end of the pass every element that stayed has been visited exactly
once. -/
theorem count_eq_one (h : Visiting elems stayed ⊤ here visited) {c : κ} (hc : c ∈ stayed) :
    visited.count c = 1 :=
  List.count_eq_one_of_mem (h.sorted.imp ne_of_lt)
    (h.mem_of_passed c hc (.inl (WithTop.coe_lt_top c)))

end Visiting

/-! ### The elements that have not had their turn -/

/-- The element at the position, and those above it. -/
def ahead (s : Finset κ) (pos : WithTop κ) : Finset κ := s.filter fun c => pos ≤ c

theorem mem_ahead {s : Finset κ} {pos : WithTop κ} {c : κ} : c ∈ ahead s pos ↔ c ∈ s ∧ pos ≤ c :=
  Finset.mem_filter

@[simp] theorem ahead_first (s : Finset κ) : ahead s (first s) = s :=
  Finset.filter_true_of_mem fun _ hc => first_le hc

@[simp] theorem ahead_top (s : Finset κ) : ahead s ⊤ = ∅ :=
  Finset.filter_false_of_mem fun c _ => (WithTop.coe_lt_top c).not_ge

/-- Moving on, the element at the position has had its turn, and no other. -/
theorem ahead_next (s : Finset κ) (x : κ) : ahead s (next s x) = (ahead s x).erase x := by
  ext c
  rw [Finset.mem_erase, mem_ahead, mem_ahead]
  constructor
  · rintro ⟨hc, hle⟩
    have hlt : x < c := WithTop.coe_lt_coe.mp ((lt_next s x).trans_le hle)
    exact ⟨hlt.ne', hc, WithTop.coe_le_coe.mpr hlt.le⟩
  · rintro ⟨hne, hc, hle⟩
    exact ⟨hc, next_le hc (lt_of_le_of_ne (WithTop.coe_le_coe.mp hle) hne.symm)⟩

theorem card_ahead_next {s : Finset κ} {x : κ} (hx : x ∈ s) :
    (ahead s (next s x)).card + 1 = (ahead s x).card := by
  rw [ahead_next]
  exact Finset.card_erase_add_one (mem_ahead.mpr ⟨hx, le_rfl⟩)

theorem card_ahead_insert_le (s : Finset κ) (pos : WithTop κ) (c : κ) :
    (ahead (insert c s) pos).card ≤ (ahead s pos).card + 1 := by
  have hsub : ahead (insert c s) pos ⊆ insert c (ahead s pos) := by
    intro d hd
    obtain ⟨hd, hle⟩ := mem_ahead.mp hd
    rcases Finset.mem_insert.mp hd with rfl | hd
    · exact Finset.mem_insert_self d _
    · exact Finset.mem_insert_of_mem (mem_ahead.mpr ⟨hd, hle⟩)
  exact (Finset.card_le_card hsub).trans (Finset.card_insert_le c _)

theorem card_ahead_erase_le (s : Finset κ) (pos : WithTop κ) (c : κ) :
    (ahead (s.erase c) pos).card ≤ (ahead s pos).card :=
  Finset.card_le_card (Finset.filter_subset_filter _ (Finset.erase_subset c s))

end OrderedCursor
