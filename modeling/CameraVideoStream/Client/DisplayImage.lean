import CameraVideoStream.Common.Codec
import Mathlib.Algebra.BigOperators.Group.List.Basic

/-!
# The display queue

`DisplayImage` (`client/display_image.cc`) queues images between the network thread and the display
thread and keeps the sum of their sizes in the `uint32_t` counter `total_image_size_`. `push`
refuses an image that would take the counter above `MAX_TOTAL_IMAGE_SIZE`, `pop` takes the oldest
image. Counter and sizes are added and subtracted modulo `2^32`.

## Main definitions

* `DisplayImage`, `DisplayImage.push`, `DisplayImage.pop`.
* `DisplayImage.queuedSize`: the exact sum of the sizes queued.
* `DisplayImage.Accounted`: the counter is that sum, and the sum is within the limit.

## Main results

* `DisplayImage.push_of_lt`, `DisplayImage.push_message`: on an accounted queue, `push` accepts an
  image exactly when it fits if the sum that it tests does not wrap, which it does for no message
  that the codec delivers.
* `DisplayImage.Accounted.push`, `DisplayImage.Accounted.pop`: both operations keep the accounts.
-/

open Codec

/-- `MAX_TOTAL_IMAGE_SIZE`. -/
def maxTotalImageSize : UInt32 := 1024 * 1024 * 10

/-- `DisplayImage`, with the images of `image_queue_` from the front to the back. -/
structure DisplayImage where
  totalImageSize : UInt32 := 0
  imageQueue : List Bytes := []
  deriving DecidableEq

namespace DisplayImage

/-- `DisplayImage::push` of the `size` bytes at `image`: what it returns, and the queue after it. -/
def push (d : DisplayImage) (image : Bytes) (size : UInt32) : Bool × DisplayImage :=
  if maxTotalImageSize < d.totalImageSize + size then
    (false, d)
  else
    (true,
      { imageQueue := d.imageQueue ++ [image.take size.toNat]
        totalImageSize := d.totalImageSize + size })

/-- `DisplayImage::pop`: the image taken, and the queue after it. There is no result on an empty
queue, whose `front()` is undefined. -/
def pop (d : DisplayImage) : Option (Bytes × DisplayImage) :=
  match d.imageQueue with
  | [] => none
  | image :: rest =>
    some (image,
      { imageQueue := rest
        totalImageSize := d.totalImageSize - UInt32.ofNat image.length })

/-- The exact sum of the sizes queued. -/
def queuedSize (d : DisplayImage) : ℕ := (d.imageQueue.map List.length).sum

/-- The counter is the exact sum of the sizes queued, and that sum is within the limit. -/
structure Accounted (d : DisplayImage) : Prop where
  total : d.totalImageSize.toNat = d.queuedSize
  le : d.queuedSize ≤ 1024 * 1024 * 10

theorem accounted_empty : Accounted {} := ⟨rfl, by decide⟩

/-- A rejected push leaves the queue and the counter as they were. -/
theorem push_of_false {d : DisplayImage} {image : Bytes} {size : UInt32}
    (h : (d.push image size).1 = false) : (d.push image size).2 = d := by
  simp only [push] at h ⊢
  split_ifs at h ⊢
  rfl

theorem pop_eq_none_iff {d : DisplayImage} : d.pop = none ↔ d.imageQueue = [] := by
  simp only [pop]
  split <;> simp_all

theorem toNat_maxTotalImageSize : maxTotalImageSize.toNat = 10485760 := rfl

/-- The size of a message that the codec delivers, as the `uint32_t` that `push` takes. -/
theorem toNat_ofNat_length {m : Bytes} (hm : m.length ≤ maxLen) :
    (UInt32.ofNat m.length).toNat = m.length := by
  have hmax : maxLen = 1310720 := rfl
  rw [UInt32.toNat_ofNat']
  omega

/-- **Admission is exact unless the sum wraps.** On an accounted queue `push` accepts an image
exactly when the sizes queued and its own add up to at most the limit, provided that the sum fits a
`uint32_t`. -/
theorem push_of_lt {d : DisplayImage} (hd : d.Accounted) (image : Bytes) {size : UInt32}
    (hlt : d.queuedSize + size.toNat < 2 ^ 32) :
    d.push image size =
      if d.queuedSize + size.toNat ≤ 1024 * 1024 * 10 then
        (true,
          { imageQueue := d.imageQueue ++ [image.take size.toNat]
            totalImageSize := d.totalImageSize + size })
      else (false, d) := by
  have hsum : (d.totalImageSize + size).toNat = d.queuedSize + size.toNat := by
    rw [UInt32.toNat_add, hd.total]
    omega
  have htest : maxTotalImageSize < d.totalImageSize + size ↔
      ¬ d.queuedSize + size.toNat ≤ 1024 * 1024 * 10 := by
    rw [UInt32.lt_iff_toNat_lt, toNat_maxTotalImageSize, hsum]
    omega
  by_cases hfit : d.queuedSize + size.toNat ≤ 1024 * 1024 * 10
  · rw [if_pos hfit, push, if_neg (by rw [htest]; exact not_not.mpr hfit)]
  · rw [if_neg hfit, push, if_pos (htest.mpr hfit)]

/-- A push whose sum does not wrap keeps the accounts. -/
theorem Accounted.push {d : DisplayImage} (hd : d.Accounted) {image : Bytes} {size : UInt32}
    (himage : size.toNat ≤ image.length) (hlt : d.queuedSize + size.toNat < 2 ^ 32) :
    (d.push image size).2.Accounted := by
  rw [push_of_lt hd image hlt]
  by_cases hfit : d.queuedSize + size.toNat ≤ 1024 * 1024 * 10
  · have hqueued : ((d.imageQueue ++ [image.take size.toNat]).map List.length).sum =
        d.queuedSize + size.toNat := by
      simp [queuedSize, himage]
    rw [if_pos hfit]
    refine ⟨?_, hqueued.trans_le hfit⟩
    rw [queuedSize, hqueued, UInt32.toNat_add, hd.total]
    omega
  · rw [if_neg hfit]
    exact hd

/-- The sum for a message does not wrap. -/
theorem Accounted.add_length_lt {d : DisplayImage} (hd : d.Accounted) {m : Bytes}
    (hm : m.length ≤ maxLen) : d.queuedSize + (UInt32.ofNat m.length).toNat < 2 ^ 32 := by
  have hmax : maxLen = 1310720 := rfl
  have hle := hd.le
  rw [toNat_ofNat_length hm]
  omega

/-- **Admission is exact for messages.** A message that the codec delivers is accepted exactly when
it fits, and it is then queued as it is. -/
theorem push_message {d : DisplayImage} (hd : d.Accounted) {m : Bytes} (hm : m.length ≤ maxLen) :
    d.push m (UInt32.ofNat m.length) =
      if d.queuedSize + m.length ≤ 1024 * 1024 * 10 then
        (true,
          { imageQueue := d.imageQueue ++ [m]
            totalImageSize := d.totalImageSize + UInt32.ofNat m.length })
      else (false, d) := by
  have hpush := push_of_lt hd m (hd.add_length_lt hm)
  rwa [toNat_ofNat_length hm, List.take_length] at hpush

/-- Pushing a message keeps the accounts. -/
theorem Accounted.push_message {d : DisplayImage} (hd : d.Accounted) {m : Bytes}
    (hm : m.length ≤ maxLen) : (d.push m (UInt32.ofNat m.length)).2.Accounted :=
  hd.push (toNat_ofNat_length hm).le (hd.add_length_lt hm)

/-- Popping keeps the accounts, and its subtraction does not underflow. -/
theorem Accounted.pop {d : DisplayImage} (hd : d.Accounted) {image : Bytes} {d' : DisplayImage}
    (h : d.pop = some (image, d')) :
    d.imageQueue = image :: d'.imageQueue ∧ image.length ≤ d.totalImageSize.toNat ∧
      d'.Accounted := by
  obtain ⟨total, queue⟩ := d
  cases queue with
  | nil => simp [DisplayImage.pop] at h
  | cons head rest =>
    obtain ⟨rfl, rfl⟩ : head = image ∧ _ = d' := by simpa [DisplayImage.pop] using h
    have htotal : total.toNat = head.length + (rest.map List.length).sum := hd.total
    have hle : head.length + (rest.map List.length).sum ≤ 1024 * 1024 * 10 := hd.le
    have hsize : (UInt32.ofNat head.length).toNat = head.length := by
      rw [UInt32.toNat_ofNat']
      omega
    refine ⟨rfl, htotal ▸ Nat.le_add_right _ _, ?_, ?_⟩
    · change (total - UInt32.ofNat head.length).toNat = (rest.map List.length).sum
      rw [UInt32.toNat_sub_of_le _ _ (by rw [UInt32.le_iff_toNat_le]; omega)]
      omega
    · change (rest.map List.length).sum ≤ _
      omega

end DisplayImage
