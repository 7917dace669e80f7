import CameraVideoStream.Common.Stream
import CameraVideoStream.Common.Value

/-!
# The frames that the server sends

`sendThreadFunc` (`server/server.cc`) allocates `WIDTH*HEIGHT*3/2` bytes for a captured frame and
sends the frame through `codec_.send`, which checks nothing. The decoder accepts `65536 * 20` bytes,
less than half of that. So the client receives exactly the sequences of frames that stay within the
decoder's limit (`Server.frames_delivered_iff`); a longer frame costs the connection.
-/

namespace Server

open Codec

/-- The size of the buffer that `sendThreadFunc` captures frames into. -/
def captureCapacity : ℕ := Common.width * Common.height * 3 / 2

theorem captureCapacity_eq : captureCapacity = 3110400 := rfl

/-- **A frame that is too long costs the connection.** The client is given the frames before the
first one that the decoder does not accept, and shuts the connection down. -/
theorem receiver_of_long_frame {pre post : List Bytes} {f : Bytes}
    (hpre : ∀ g ∈ pre, g.length ≤ 65536 * 20) (hlong : 65536 * 20 < f.length)
    (hcap : f.length ≤ captureCapacity) {cs : List Bytes}
    (hcut : cs.flatten = sendAll (pre ++ f :: post)) :
    (receiver cs).delivered = pre ∧ 0 < (receiver cs).refusals := by
  have hint : f.length < 2 ^ 31 := by
    rw [captureCapacity_eq] at hcap
    omega
  have hbad : InvalidHead (send f ++ sendAll post) := invalidHead_send hlong hint _
  have hdrain : onMessage cs.flatten = ⟨pre, send f ++ sendAll post, true⟩ := by
    rw [hcut, sendAll_append, sendAll_cons, onMessage_sendAll_append hpre,
      onMessage_of_invalidHead hbad, List.append_nil]
  obtain ⟨hdel, -, href⟩ := receiver_eq cs
  rw [hdrain] at hdel href
  exact ⟨hdel, href.mpr rfl⟩

/-- **The frames that reach the client.** Frames that fit the capture buffer, sent on one
connection and cut into chunks in any way, are all delivered and the connection is not shut down,
exactly when none of them is longer than the decoder accepts. -/
theorem frames_delivered_iff {frames : List Bytes} (hcap : ∀ f ∈ frames, f.length ≤ captureCapacity)
    {cs : List Bytes} (hcut : cs.flatten = sendAll frames) :
    ((receiver cs).delivered = frames ∧ (receiver cs).refusals = 0) ↔
      ∀ f ∈ frames, f.length ≤ 65536 * 20 := by
  constructor
  · rintro ⟨-, href⟩
    by_contra hlong
    -- the first frame that is too long
    obtain ⟨f, hf⟩ : ∃ f, frames.find? (fun f => decide (65536 * 20 < f.length)) = some f := by
      rw [← Option.isSome_iff_exists, List.find?_isSome]
      simpa using hlong
    obtain ⟨hlt, pre, post, rfl, hpre⟩ := List.find?_eq_some_iff_append.mp hf
    have hpos := (receiver_of_long_frame (by simpa using hpre) (by simpa using hlt)
      (hcap f (by simp)) hcut).2
    omega
  · intro hlen
    obtain ⟨hdel, href, -⟩ := receiver_sendAll hlen hcut
    exact ⟨hdel, href⟩

/-- Two short frames, the cut inside the first one. -/
theorem frames_delivered_iff_two :
    ((receiver [[0, 0, 0, 2, 5], [6, 0, 0, 0, 0]]).delivered = [[5, 6], []] ∧
        (receiver [[0, 0, 0, 2, 5], [6, 0, 0, 0, 0]]).refusals = 0) ↔
      ∀ f ∈ [[5, 6], ([] : Bytes)], f.length ≤ 65536 * 20 :=
  @frames_delivered_iff [[5, 6], []] (by decide) _ (by decide)

/-- A frame one byte longer than the decoder accepts fits the capture buffer and shuts the
connection down. -/
theorem not_frames_delivered :
    ¬ ∀ frames cs, (∀ f ∈ frames, f.length ≤ captureCapacity) → cs.flatten = sendAll frames →
      (receiver cs).delivered = frames ∧ (receiver cs).refusals = 0 := by
  intro h
  have hlen : (List.replicate (65536 * 20 + 1) (0 : UInt8)).length = 65536 * 20 + 1 :=
    List.length_replicate
  generalize List.replicate (65536 * 20 + 1) (0 : UInt8) = f at hlen
  have hcap : f.length ≤ captureCapacity := by
    rw [captureCapacity_eq]
    omega
  have hcut : [sendAll [f]].flatten = sendAll ([] ++ f :: []) := List.flatten_singleton
  have hpos := (receiver_of_long_frame (by simp) (by omega) hcap hcut).2
  have hzero := (h [f] [sendAll [f]] (by simpa using hcap) List.flatten_singleton).2
  omega

end Server
