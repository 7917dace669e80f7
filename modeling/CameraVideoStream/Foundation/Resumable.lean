import Mathlib.Data.List.Induction
import Mathlib.Tactic.Common

/-!
# Resumable parsers

A parser reads a stream that arrives in chunks. It looks at the front of the input it has not read
yet: either it must wait for more input, or it refuses the input, or it reads one item and is left
with the rest (`Turn`). It is *resumable* when more input changes neither an item that it has read
nor a refusal. After each chunk the parser takes turns for as long as it reads items (`drain`).

The items that a resumable parser reads, the input it leaves and whether it has refused depend on
the bytes received only, not on the chunks they came in (`Resumable.feed_eq`). A refused input
stays refused, and nothing behind it is ever read (`Resumable.feed_refused`).

## Main definitions

* `Turn`: what the parser does at the front of its input.
* `Resumable`: more input changes neither items nor refusals.
* `drain`: turns for as long as items are read.
* `Reads`: the items read off the front of an input, as a relation.
* `Feed`, `feed`: the state of a receiver that drains its buffer after each chunk.

## Main results

* `Resumable.drain_eq_iff`: draining is determined by what is read and by how the reading stops.
* `Resumable.drain_append`: draining `s ++ t` is draining `s`, then what it left followed by `t`.
* `Resumable.feed_eq`: chunks do not matter.
* `Resumable.feed_refused`: refusals are absorbing.
-/

/-- What a parser does at the front of its unread input. -/
inductive Turn (α β : Type*) where
  /-- The front of the input is incomplete. -/
  | wait
  /-- The front of the input is refused. -/
  | refuse
  /-- An item is read, with the given input left. -/
  | item (b : β) (rest : List α)
  deriving DecidableEq

/-- A parser is resumable when it needs input to act, consumes input with each item, and more
input changes neither an item nor a refusal. -/
structure Resumable {α β : Type*} (turn : List α → Turn α β) : Prop where
  nil : turn [] = .wait
  lt : ∀ {s b r}, turn s = .item b r → r.length < s.length
  item_append : ∀ {s b r}, turn s = .item b r → ∀ t, turn (s ++ t) = .item b (r ++ t)
  refuse_append : ∀ {s}, turn s = .refuse → ∀ t, turn (s ++ t) = .refuse

/-- The result of draining an input: the items read, the input left, and whether the parser has
refused it. -/
@[ext] structure Drained (α β : Type*) where
  items : List β
  rest : List α
  refused : Bool
  deriving DecidableEq

variable {α β : Type*} (turn : List α → Turn α β)

/-- At most `fuel` turns. -/
def drainFuel : (fuel : ℕ) → List α → Drained α β
  | 0, s => ⟨[], s, false⟩
  | fuel + 1, s =>
    match turn s with
    | .wait => ⟨[], s, false⟩
    | .refuse => ⟨[], s, true⟩
    | .item b r =>
      let d := drainFuel fuel r
      ⟨b :: d.items, d.rest, d.refused⟩

/-- Turns for as long as items are read. Each item takes input, so one turn more than the input
is long is enough (`Resumable.drainFuel_eq`). -/
def drain (s : List α) : Drained α β := drainFuel turn (s.length + 1) s

/-- `Reads turn s bs r`: reading the items `bs` one after the other off `s` leaves `r`. -/
inductive Reads : List α → List β → List α → Prop where
  | nil (s : List α) : Reads s [] s
  | cons {s r u : List α} {b : β} {bs : List β} (h : turn s = .item b r) (hr : Reads r bs u) :
      Reads s (b :: bs) u

/-- The state of a receiver: its unread input, the items it has delivered, and how many times it
has refused. -/
structure Feed (α β : Type*) where
  buf : List α := []
  delivered : List β := []
  refusals : ℕ := 0
  deriving DecidableEq

/-- A chunk is appended to the unread input, and the input is drained. -/
def Feed.receive (f : Feed α β) (chunk : List α) : Feed α β :=
  let d := drain turn (f.buf ++ chunk)
  { buf := d.rest
    delivered := f.delivered ++ d.items
    refusals := if d.refused then f.refusals + 1 else f.refusals }

/-- The receiver after the chunks `cs`. -/
def feed (cs : List (List α)) : Feed α β := cs.foldl (Feed.receive turn) {}

variable {turn}

theorem Reads.append {s r : List α} {bs : List β} (h : Resumable turn) (hr : Reads turn s bs r)
    (t : List α) : Reads turn (s ++ t) bs (r ++ t) := by
  induction hr with
  | nil s => exact .nil (s ++ t)
  | cons hs _ ih => exact .cons (h.item_append hs t) ih

/-! ### Draining -/

theorem drain_wait {s : List α} (hs : turn s = .wait) : drain turn s = ⟨[], s, false⟩ := by
  simp only [drain, drainFuel, hs]

theorem drain_refuse {s : List α} (hs : turn s = .refuse) : drain turn s = ⟨[], s, true⟩ := by
  simp only [drain, drainFuel, hs]

namespace Resumable

/-- Two amounts of fuel that both exceed the input's length do the same. -/
theorem drainFuel_congr (h : Resumable turn) {m n : ℕ} {s : List α} (hm : s.length < m)
    (hn : s.length < n) : drainFuel turn m s = drainFuel turn n s := by
  induction m generalizing n s with
  | zero => omega
  | succ m ih =>
    obtain ⟨n, rfl⟩ : ∃ k, n = k + 1 := ⟨n - 1, by omega⟩
    simp only [drainFuel]
    cases hs : turn s with
    | wait => rfl
    | refuse => rfl
    | item b r =>
      have hr := h.lt hs
      simp only [ih (n := n) (s := r) (by omega) (by omega)]

/-- More fuel than the input is long changes nothing. -/
theorem drainFuel_eq (h : Resumable turn) {fuel : ℕ} {s : List α} (hf : s.length < fuel) :
    drainFuel turn fuel s = drain turn s :=
  h.drainFuel_congr hf (Nat.lt_succ_self _)

theorem drain_item (h : Resumable turn) {s r : List α} {b : β} (hs : turn s = .item b r) :
    drain turn s =
      ⟨b :: (drain turn r).items, (drain turn r).rest, (drain turn r).refused⟩ := by
  simp only [drain, drainFuel, hs]
  rw [h.drainFuel_eq (h.lt hs)]
  rfl

/-- Reading some items first changes nothing. -/
theorem drain_of_reads (h : Resumable turn) {s r : List α} {bs : List β}
    (hr : Reads turn s bs r) :
    drain turn s =
      ⟨bs ++ (drain turn r).items, (drain turn r).rest, (drain turn r).refused⟩ := by
  induction hr with
  | nil s => rfl
  | cons hs _ ih => rw [h.drain_item hs, ih]; rfl

/-- Draining reads its items and stops where nothing more can be read. -/
theorem reads_drain (h : Resumable turn) (s : List α) :
    Reads turn s (drain turn s).items (drain turn s).rest ∧
      turn (drain turn s).rest = if (drain turn s).refused then .refuse else .wait := by
  induction hn : s.length using Nat.strongRecOn generalizing s with
  | ind n ih =>
    cases hs : turn s with
    | wait => simpa [drain_wait hs, hs] using Reads.nil s
    | refuse => simpa [drain_refuse hs, hs] using Reads.nil s
    | item b r =>
      obtain ⟨hread, hstop⟩ := ih r.length (hn ▸ h.lt hs) r rfl
      rw [h.drain_item hs]
      exact ⟨.cons hs hread, hstop⟩

/-- Draining is determined by the items read and by how the reading stops. -/
theorem drain_eq_iff (h : Resumable turn) {s : List α} {d : Drained α β} :
    drain turn s = d ↔ Reads turn s d.items d.rest ∧
      turn d.rest = if d.refused then .refuse else .wait := by
  constructor
  · rintro rfl
    exact h.reads_drain s
  · rintro ⟨hread, hstop⟩
    rw [h.drain_of_reads hread]
    cases hd : d.refused with
    | true =>
      rw [drain_refuse (by simpa [hd] using hstop)]
      exact Drained.ext (List.append_nil _) rfl hd.symm
    | false =>
      rw [drain_wait (by simpa [hd] using hstop)]
      exact Drained.ext (List.append_nil _) rfl hd.symm

/-- **More input.** Draining `s ++ t` is draining `s`, then what it left followed by `t`. -/
theorem drain_append (h : Resumable turn) (s t : List α) :
    drain turn (s ++ t) =
      ⟨(drain turn s).items ++ (drain turn ((drain turn s).rest ++ t)).items,
        (drain turn ((drain turn s).rest ++ t)).rest,
        (drain turn ((drain turn s).rest ++ t)).refused⟩ :=
  h.drain_of_reads ((h.reads_drain s).1.append h t)

/-- A refused input stays refused, and what comes behind it is left unread. -/
theorem drain_append_of_refused (h : Resumable turn) {s : List α}
    (hs : (drain turn s).refused = true) (t : List α) :
    drain turn (s ++ t) = ⟨(drain turn s).items, (drain turn s).rest ++ t, true⟩ := by
  have hstop := (h.reads_drain s).2
  rw [hs] at hstop
  rw [h.drain_append, drain_refuse (h.refuse_append hstop t), List.append_nil]

/-! ### Chunks -/

theorem feed_concat (cs : List (List α)) (c : List α) :
    feed turn (cs ++ [c]) = (feed turn cs).receive turn c := by
  simp [feed]

/-- **Chunks do not matter.** What a receiver has delivered, what it has left unread and whether it
has refused are those of draining the whole input at once. -/
theorem feed_eq (h : Resumable turn) (cs : List (List α)) :
    (feed turn cs).delivered = (drain turn cs.flatten).items ∧
      (feed turn cs).buf = (drain turn cs.flatten).rest ∧
      (0 < (feed turn cs).refusals ↔ (drain turn cs.flatten).refused = true) := by
  induction cs using List.reverseRecOn with
  | nil => simp [feed, drain_wait h.nil]
  | append_singleton cs c ih =>
    obtain ⟨hdel, hbuf, href⟩ := ih
    have happ := h.drain_append cs.flatten c
    rw [feed_concat, List.flatten_append, List.flatten_singleton]
    refine ⟨?_, ?_, ?_⟩
    · simp only [Feed.receive, hdel, hbuf, happ]
    · simp only [Feed.receive, hbuf, happ]
    · cases hd : (drain turn cs.flatten).refused with
      | true =>
        -- refused before: refused again at once
        have hpos := href.mpr hd
        have hc := h.drain_append_of_refused hd c
        rw [hc]
        refine iff_of_true ?_ rfl
        simp only [Feed.receive]
        split <;> omega
      | false =>
        have hzero : (feed turn cs).refusals = 0 := by
          by_contra hne
          simp [href.mp (Nat.pos_of_ne_zero hne)] at hd
        rw [happ]
        simp only [Feed.receive, hbuf, hzero]
        split <;> simp_all

/-- **Refusals are absorbing.** Once the receiver has refused, a further chunk delivers nothing
and is left unread behind what was left before. -/
theorem feed_refused (h : Resumable turn) {cs : List (List α)}
    (hs : turn (feed turn cs).buf = .refuse) (cs' : List (List α)) :
    (feed turn (cs ++ cs')).delivered = (feed turn cs).delivered ∧
      (feed turn (cs ++ cs')).buf = (feed turn cs).buf ++ cs'.flatten := by
  obtain ⟨hdel, hbuf, -⟩ := h.feed_eq cs
  obtain ⟨hdel', hbuf', -⟩ := h.feed_eq (cs ++ cs')
  have hd : (drain turn cs.flatten).refused = true := by
    have hstop := (h.reads_drain cs.flatten).2
    rw [← hbuf, hs] at hstop
    by_contra hne
    simp [hne] at hstop
  rw [List.flatten_append, h.drain_append_of_refused hd] at hdel' hbuf'
  exact ⟨hdel'.trans hdel.symm, hbuf'.trans (by rw [hbuf])⟩

end Resumable
