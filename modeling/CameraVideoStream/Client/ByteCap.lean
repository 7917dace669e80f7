import CameraVideoStream.Client.DisplayImage
import CameraVideoStream.Foundation.Transition

/-!
# The limit on the bytes queued

`push` (`client/display_image.cc`) takes any `uint32_t` as the size of an image, adds it to the
counter modulo `2^32` and only then compares with the limit. With sizes as large as that the sum can
wrap: the image is then accepted although it does not fit, and the counter is no longer the sum of
the sizes queued. The limit is exact precisely as long as no sum wraps
(`DisplayImage.admitsExactly_iff_meets`).

## Main definitions

* `DisplayImage.Call`, `DisplayImage.step`: any calls of the two functions.
* `DisplayImage.AdmitsExactly`, `DisplayImage.WithinLimit`: what the limit is to do.
* `DisplayImage.SumFits`: the condition on a call.

## Main results

* `DisplayImage.admitsExactly_iff_meets`.
-/

open Codec

namespace DisplayImage

/-- A call of one of the two functions. -/
inductive Call where
  | push (image : Bytes) (size : UInt32)
  | pop
  deriving DecidableEq

/-- The queue after a call; a queue that is empty is not popped. -/
def step (d : DisplayImage) : Call → DisplayImage
  | .push image size => (d.push image size).2
  | .pop => d.pop.elim d Prod.snd

/-- What the callers are to keep: there are `size` bytes at `image`, and the queue is not empty when
it is popped. -/
def Lawful (d : DisplayImage) : Call → Prop
  | .push image size => size.toNat ≤ image.length
  | .pop => d.imageQueue ≠ []

/-- An image is accepted exactly when it fits. -/
def AdmitsExactly (d : DisplayImage) : Call → Prop
  | .push image size =>
    (d.push image size).1 = true ↔ d.queuedSize + size.toNat ≤ 1024 * 1024 * 10
  | .pop => True

/-- The bytes queued are within the limit. -/
def WithinLimit (d : DisplayImage) : Prop := d.queuedSize ≤ 1024 * 1024 * 10

/-- The sizes queued and the one pushed add up to a number that fits a `uint32_t`. -/
def SumFits (d : DisplayImage) : Call → Prop
  | .push _ size => d.queuedSize + size.toNat < 2 ^ 32
  | .pop => True

instance (d : DisplayImage) : (c : Call) → Decidable (d.Lawful c)
  | .push image size => inferInstanceAs (Decidable (size.toNat ≤ image.length))
  | .pop => inferInstanceAs (Decidable (d.imageQueue ≠ []))

instance (d : DisplayImage) : (c : Call) → Decidable (d.SumFits c)
  | .push _ size => inferInstanceAs (Decidable (d.queuedSize + size.toNat < 2 ^ 32))
  | .pop => inferInstanceAs (Decidable True)

/-- On an accounted queue a call admits exactly unless its sum wraps. A sum that wraps comes out
below the limit, whatever is queued. -/
theorem admitsExactly_iff {d : DisplayImage} (hd : d.Accounted) (c : Call) :
    d.AdmitsExactly c ↔ d.SumFits c := by
  cases c with
  | pop => exact Iff.rfl
  | push image size =>
    have hle := hd.le
    have hsize := size.toNat_lt
    constructor
    · intro h
      by_contra hwrap
      have hsum : (d.totalImageSize + size).toNat + 2 ^ 32 = d.queuedSize + size.toNat := by
        rw [SumFits] at hwrap
        rw [UInt32.toNat_add, hd.total]
        omega
      have htest : ¬ maxTotalImageSize < d.totalImageSize + size := by
        rw [UInt32.lt_iff_toNat_lt, toNat_maxTotalImageSize]
        omega
      have haccepted : (d.push image size).1 = true := by rw [DisplayImage.push, if_neg htest]
      have hfit := h.mp haccepted
      omega
    · intro hlt
      rw [AdmitsExactly, push_of_lt hd image hlt]
      split_ifs with hfit
      · exact iff_of_true rfl hfit
      · exact iff_of_false (by simp) hfit

/-- A call that admits exactly keeps the accounts. -/
theorem Accounted.step {d : DisplayImage} (hd : d.Accounted) {c : Call} (hlaw : d.Lawful c)
    (hexact : d.AdmitsExactly c) : (d.step c).Accounted := by
  cases c with
  | push image size => exact hd.push hlaw ((admitsExactly_iff hd _).mp hexact)
  | pop =>
    cases hpop : d.pop with
    | none => exact absurd (pop_eq_none_iff.mp hpop) hlaw
    | some r =>
      obtain ⟨-, -, haccounted⟩ := hd.pop hpop
      rwa [DisplayImage.step, hpop]

/-- **The limit on the bytes queued.** In every run of `push`, with any sizes, and of `pop` on a
queue that is not empty: every image is accepted exactly when it fits and the bytes queued never
exceed the limit, exactly when no push is of a size that makes the exact sum exceed a `uint32_t`. -/
theorem admitsExactly_iff_meets {cs : List Call} (hcs : Transition.Meets step Lawful {} cs) :
    Transition.Meets step AdmitsExactly {} cs ∧ Transition.Throughout step WithinLimit {} cs ↔
      Transition.Meets step SumFits {} cs := by
  have hiff : Transition.Meets step AdmitsExactly {} cs ↔ Transition.Meets step SumFits {} cs :=
    Transition.meets_iff_meets (J := Accounted) (fun _ _ hd hlaw hexact => hd.step hlaw hexact)
      (fun _ c hd _ => admitsExactly_iff hd c) accounted_empty hcs
  constructor
  · rintro ⟨hexact, -⟩
    exact hiff.mp hexact
  · intro hfits
    have hexact := hiff.mpr hfits
    have haccounted : Transition.Throughout step Accounted {} cs :=
      (hcs.and hexact).throughout (fun _ _ hd h => hd.step h.1 h.2) accounted_empty
    exact ⟨hexact, haccounted.mono fun _ hd => hd.le⟩

/-- Two images are pushed and one is popped. -/
theorem admitsExactly_iff_meets_two :
    let cs : List Call := [.push [1, 2, 3] 2, .push [4] 1, .pop]
    Transition.Meets step AdmitsExactly {} cs ∧ Transition.Throughout step WithinLimit {} cs ↔
      Transition.Meets step SumFits {} cs :=
  admitsExactly_iff_meets ⟨by decide, by decide, by decide, trivial⟩

/-- One byte is queued; an image of `2^32 - 1` bytes makes the sum zero and is accepted. -/
theorem not_admitsExactly :
    ¬ ∀ cs, Transition.Meets step Lawful {} cs →
      Transition.Meets step AdmitsExactly {} cs ∧ Transition.Throughout step WithinLimit {} cs := by
  intro h
  have hone : (step {} (.push [0] 1)).Accounted :=
    accounted_empty.step (by decide) ((admitsExactly_iff accounted_empty _).mpr (by decide))
  have hhuge :
      ((0xffffffff : UInt32).toNat) ≤ (List.replicate (2 ^ 32 - 1) (0 : UInt8)).length := by
    rw [List.length_replicate]
    decide
  obtain ⟨⟨-, hexact, -⟩, -⟩ :=
    h [.push [0] 1, .push (List.replicate (2 ^ 32 - 1) 0) 0xffffffff] ⟨by decide, hhuge, trivial⟩
  exact absurd ((admitsExactly_iff hone _).mp hexact) (by decide)

end DisplayImage
