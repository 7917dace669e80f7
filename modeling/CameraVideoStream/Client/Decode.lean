import CameraVideoStream.Client.Client
import CameraVideoStream.Common.Value

/-!
# What the display thread decodes

`threadFunction` (`client/display_image.cc`) hands every image that it pops to `cv::imdecode` as a
matrix of `HEIGHT` times `WIDTH` elements of three bytes over `image->data()`, however many bytes
the image has. An image is a message that the codec has delivered, and the codec delivers fewer
bytes than that, so the matrix always reaches beyond the image
(`ChatClient.decodesInside_iff_meets`).

## Main definitions

* `DisplayImage.matLength`: the number of bytes of the matrix.
* `ChatClient.DecodesInside`: every matrix so far has been inside its image.

## Main results

* `ChatClient.decodesInside_iff_meets`.
-/

open Codec

/-- The bytes of `cv::Mat(HEIGHT, WIDTH, CV_8UC3, image->data())`, from `image->data()` on. -/
def DisplayImage.matLength : ℕ := Common.height * Common.width * 3

theorem DisplayImage.matLength_eq : DisplayImage.matLength = 6220800 := rfl

namespace ChatClient

/-- Of every image that has been popped the matrix is inside the image. -/
def DecodesInside (c : ChatClient) : Prop :=
  ∀ image ∈ c.popped, DisplayImage.matLength ≤ image.length

instance (c : ChatClient) : Decidable c.DecodesInside :=
  inferInstanceAs (Decidable (∀ image ∈ c.popped, DisplayImage.matLength ≤ image.length))

/-- The display thread does not pop. -/
def PopsNothing (c : ChatClient) (e : Event) : Prop := e = .pop → c.displayPc = .checking

/-- The images popped are no longer than the codec delivers. -/
theorem Inv.length_popped {c : ChatClient} (h : c.Inv) :
    ∀ image ∈ c.popped, image.length ≤ maxLen := by
  intro image himage
  have hmem : image ∈ (c.arrivals.filter Arrival.accepted).map Arrival.message := by
    rw [← h.images]
    exact List.mem_append_left _ himage
  obtain ⟨a, ha, rfl⟩ := List.mem_map.mp hmem
  exact h.lengths a (List.mem_of_mem_filter ha)

theorem Inv.length_popped_lt {c : ChatClient} (h : c.Inv) :
    ∀ image ∈ c.popped, image.length < DisplayImage.matLength := by
  intro image himage
  have hmax : maxLen = 1310720 := rfl
  have hle := h.length_popped image himage
  rw [DisplayImage.matLength_eq]
  omega

theorem Inv.decodesInside_iff {c : ChatClient} (h : c.Inv) : c.DecodesInside ↔ c.popped = [] := by
  constructor
  · intro hinside
    refine List.eq_nil_iff_forall_not_mem.mpr fun image himage => ?_
    exact Nat.not_lt.mpr (hinside image himage) (h.length_popped_lt image himage)
  · intro hnil
    simp [DecodesInside, hnil]

/-- Only a pop takes an image. -/
theorem popped_step {c : ChatClient} {e : Event} (he : c.PopsNothing e) :
    (c.step e).popped = c.popped := by
  cases e with
  | receive chunk => cases hpc : c.networkPc <;> simp [step, hpc]
  | turn =>
    cases hpc : c.networkPc with
    | idle => simp [step, hpc]
    | inOnMessage =>
      simp only [step, hpc, onMessageStep]
      cases onMessageTurn c.inputBuffer <;> rfl
  | check =>
    cases hpc : c.displayPc with
    | checking =>
      simp only [step, hpc]
      split_ifs <;> rfl
    | popping => simp [step, hpc]
  | pop => simp [step, he rfl]

/-- A pop takes an image, which is there. -/
theorem Inv.popped_pop {c : ChatClient} (h : c.Inv) (hpc : c.displayPc = .popping) :
    (c.step .pop).popped ≠ [] := by
  cases hpop : c.displayImage.pop with
  | none => exact absurd (DisplayImage.pop_eq_none_iff.mp hpop) (h.nonempty hpc)
  | some r =>
    simp only [step, hpc, ChatClient.popStep, hpop]
    exact List.append_ne_nil_of_right_ne_nil _ (List.cons_ne_nil _ _)

theorem Inv.decodesInside_step {c : ChatClient} (h : c.Inv) (hinside : c.DecodesInside)
    (e : Event) :
    (c.step e).DecodesInside ↔ c.PopsNothing e := by
  rw [(inv_step c e h).decodesInside_iff]
  constructor
  · rintro hnil rfl
    by_contra hpc
    have hpopping : c.displayPc = .popping := by
      cases hpc' : c.displayPc with
      | checking => exact absurd hpc' hpc
      | popping => rfl
    exact h.popped_pop hpopping hnil
  · intro he
    rw [popped_step he]
    exact h.decodesInside_iff.mp hinside

/-- **No image is as long as the matrix over it.** In every run, whatever arrives and however the
threads interleave, each image that is popped is shorter than the matrix that is decoded; so all of
them are inside their images only in the runs in which the display thread pops nothing. -/
theorem decodesInside_iff_meets (es : List Event) :
    (∀ image ∈ (Transition.run step {} es).popped, image.length < DisplayImage.matLength) ∧
      (Transition.Throughout step DecodesInside {} es ↔
        Transition.Meets step PopsNothing {} es) := by
  refine ⟨(inv_run es).length_popped_lt, ?_⟩
  exact Transition.throughout_iff_meets (J := Inv) (L := fun _ _ => True)
    (fun c e h _ _ _ => inv_step c e h) (fun _ e h hinside _ => h.decodesInside_step hinside e)
    inv_init (by decide) (Transition.meets_iff_forall.mpr fun _ _ => trivial)

/-- One byte is sent, and decoded as if it were 6220800. -/
theorem not_decodesInside : ¬ ∀ es, (Transition.run step {} es).DecodesInside := by
  intro h
  exact absurd (h [.receive [0, 0, 0, 1, 7], .turn, .check, .pop]) (by decide)

end ChatClient
