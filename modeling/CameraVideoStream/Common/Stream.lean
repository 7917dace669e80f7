import CameraVideoStream.Common.Codec

/-!
# The codec on streams cut into chunks

A connection receives a byte stream in chunks and `onMessage` runs after each of them. What it
delivers, what it leaves unread and whether it calls `conn->shutdown()` depend on the stream only
(`Codec.receiver_eq`, `Codec.receiver_cut`), and on the frames of valid messages it delivers
exactly these messages (`Codec.receiver_sendAll`).

The unread bytes stay below the length of the longest frame unless an invalid header arrives. The
loop leaves that header in the buffer and only the sending direction is shut down, so whatever the
peer goes on sending piles up behind it: the bound holds exactly on the streams that end soon
enough after their first invalid header (`Codec.unread_lt_iff`).

## Main results

* `Codec.receiver_eq`: the receiving end is `onMessage` on the whole stream.
* `Codec.receiver_sendAll`, `Codec.receiver_cut`, `Codec.unread_lt_iff`.
-/

namespace Codec

/-- **The receiving end depends on the stream only.** -/
theorem receiver_eq (cs : List Bytes) :
    (receiver cs).delivered = (onMessage cs.flatten).items ∧
      (receiver cs).buf = (onMessage cs.flatten).rest ∧
      (0 < (receiver cs).refusals ↔ (onMessage cs.flatten).refused = true) :=
  resumable_onMessageTurn.feed_eq cs

theorem refusals_eq_zero_iff (cs : List Bytes) :
    (receiver cs).refusals = 0 ↔ (onMessage cs.flatten).refused = false := by
  have h := (receiver_eq cs).2.2
  cases hd : (onMessage cs.flatten).refused with
  | true => simpa using Nat.ne_of_gt (h.mpr hd)
  | false =>
    refine iff_of_true ?_ rfl
    by_contra hne
    exact absurd (h.mp (Nat.pos_of_ne_zero hne)) (by simp [hd])

/-- What `onMessage` delivers and leaves unread: the stream is the frames of the delivered messages
followed by the unread bytes, none of the messages is too long, and `conn->shutdown()` is called
exactly when an invalid header stands at the front of the unread bytes. -/
theorem onMessage_spec (s : Bytes) :
    (∀ m ∈ (onMessage s).items, m.length ≤ maxLen) ∧
      s = sendAll (onMessage s).items ++ (onMessage s).rest ∧
      ((onMessage s).refused = true ↔ InvalidHead (onMessage s).rest) := by
  obtain ⟨hreads, hstop⟩ := resumable_onMessageTurn.reads_drain s
  obtain ⟨hlen, hs⟩ := reads_iff.mp hreads
  refine ⟨hlen, hs, ?_⟩
  rw [← onMessageTurn_eq_refuse_iff, onMessage, hstop]
  cases (drain onMessageTurn s).refused <;> simp

/-- If `conn->shutdown()` is not called, fewer bytes are left unread than the longest frame has. -/
theorem length_rest_lt {s : Bytes} (h : (onMessage s).refused = false) :
    (onMessage s).rest.length < kHeaderLen + maxLen := by
  have hstop := (resumable_onMessageTurn.reads_drain s).2
  rw [onMessage] at h ⊢
  rw [h] at hstop
  exact length_lt_of_wait (by simpa using hstop)

/-! ### Round trip -/

/-- **Round trip under fragmentation.** The frames that `send` writes for the messages `ms`, none
of them longer than `65536 * 20`, cut into chunks in any way, make `onMessage` deliver exactly
`ms`; `conn->shutdown()` is never called and nothing is left unread. -/
theorem receiver_sendAll {ms : List Bytes} (hms : ∀ m ∈ ms, m.length ≤ 65536 * 20)
    {cs : List Bytes} (hcut : cs.flatten = sendAll ms) :
    (receiver cs).delivered = ms ∧ (receiver cs).refusals = 0 ∧ (receiver cs).buf = [] := by
  have hdrain : onMessage cs.flatten = ⟨ms, [], false⟩ := by
    have hsplit := onMessage_sendAll_append hms []
    rwa [List.append_nil, onMessage_nil, List.append_nil, ← hcut] at hsplit
  obtain ⟨hdel, hbuf, -⟩ := receiver_eq cs
  rw [hdrain] at hdel hbuf
  exact ⟨hdel, (refusals_eq_zero_iff cs).mpr (by rw [hdrain]), hbuf⟩

/-- A zero-length message and one of three bytes, the cuts inside both headers. -/
theorem receiver_sendAll_two :
    (receiver [[0, 0], [0, 0, 0, 0], [], [0, 3, 7, 8], [9]]).delivered = [[], [7, 8, 9]] ∧
      (receiver [[0, 0], [0, 0, 0, 0], [], [0, 3, 7, 8], [9]]).refusals = 0 ∧
      (receiver [[0, 0], [0, 0, 0, 0], [], [0, 3, 7, 8], [9]]).buf = [] :=
  @receiver_sendAll [[], [7, 8, 9]] (by decide) _ (by decide)

/-! ### Fragmentation -/

/-- Behind an invalid header nothing is delivered and nothing is consumed. -/
theorem receiver_append_of_invalidHead {cs : List Bytes} (h : InvalidHead (receiver cs).buf)
    (cs' : List Bytes) :
    (receiver (cs ++ cs')).delivered = (receiver cs).delivered ∧
      (receiver (cs ++ cs')).buf = (receiver cs).buf ++ cs'.flatten :=
  resumable_onMessageTurn.feed_refused (onMessageTurn_eq_refuse_iff.mpr h) cs'

/-- **Decoding does not depend on fragmentation.** Two ways of cutting one stream into chunks end
with the same messages delivered and the same bytes unread, and agree on whether
`conn->shutdown()` was called. Once an invalid header stands at the front of the unread bytes,
no later chunk causes a delivery or consumes a byte. -/
theorem receiver_cut (cs cs' : List Bytes) :
    (cs.flatten = cs'.flatten →
      (receiver cs).delivered = (receiver cs').delivered ∧
        (receiver cs).buf = (receiver cs').buf ∧
        (0 < (receiver cs).refusals ↔ 0 < (receiver cs').refusals)) ∧
    (InvalidHead (receiver cs).buf →
      (receiver (cs ++ cs')).delivered = (receiver cs).delivered ∧
        (receiver (cs ++ cs')).buf = (receiver cs).buf ++ cs'.flatten) := by
  constructor
  · intro hflat
    obtain ⟨hdel, hbuf, href⟩ := receiver_eq cs
    obtain ⟨hdel', hbuf', href'⟩ := receiver_eq cs'
    rw [hflat] at hdel hbuf href
    exact ⟨hdel.trans hdel'.symm, hbuf.trans hbuf'.symm, href.trans href'.symm⟩
  · intro hbad
    exact receiver_append_of_invalidHead hbad cs'

/-- A header of length `-1`, whole or cut, and three bytes behind it. -/
theorem receiver_cut_minus_one :
    (receiver [[255, 255, 255, 255]]).buf = (receiver [[255], [255, 255], [255]]).buf ∧
      (receiver ([[255, 255, 255, 255]] ++ [[1, 2], [3]])).delivered = [] := by
  have h := receiver_cut [[255, 255, 255, 255]] [[255], [255, 255], [255]]
  have h' := receiver_cut [[255, 255, 255, 255]] [[1, 2], [3]]
  have hbad : InvalidHead (receiver [[255, 255, 255, 255]]).buf := by
    rw [show (receiver [[255, 255, 255, 255]]).buf = [255, 255, 255, 255] by decide]
    exact .inr (by decide)
  exact ⟨(h.1 (by decide)).2.1, (h'.2 hbad).1.trans (by decide)⟩

/-! ### Unread bytes -/

/-- **The bytes held per connection.** After every return of `onMessage` fewer than
`4 + 65536 * 20` bytes are unread, exactly when the stream carries fewer than that many bytes from
its first invalid header on: whenever the stream is the frames of valid messages followed by bytes
that begin with an invalid header, these bytes number fewer than `4 + 65536 * 20`. -/
theorem unread_lt_iff (cs : List Bytes) :
    (∀ pre, pre <+: cs → (receiver pre).buf.length < 4 + 65536 * 20) ↔
      ∀ ms r, (∀ m ∈ ms, m.length ≤ 65536 * 20) → cs.flatten = sendAll ms ++ r →
        InvalidHead r → r.length < 4 + 65536 * 20 := by
  constructor
  · intro hbound ms r hms hcut hbad
    have hdrain : onMessage cs.flatten = ⟨ms, r, true⟩ := by
      rw [hcut, onMessage_sendAll_append hms, onMessage_of_invalidHead hbad, List.append_nil]
    have hbuf := (receiver_eq cs).2.1
    rw [hdrain] at hbuf
    simpa [hbuf] using hbound cs List.prefix_rfl
  · rintro hstream pre ⟨post, rfl⟩
    rw [(receiver_eq pre).2.1]
    obtain ⟨hlen, hsplit, href⟩ := onMessage_spec pre.flatten
    cases hd : (onMessage pre.flatten).refused with
    | false => exact length_rest_lt hd
    | true =>
      -- the invalid header at the front of the unread bytes is the one of the whole stream
      have hwhole : (pre ++ post).flatten =
          sendAll (onMessage pre.flatten).items ++
            ((onMessage pre.flatten).rest ++ post.flatten) := by
        rw [List.flatten_append, ← List.append_assoc, ← hsplit]
      have hall := hstream _ _ hlen hwhole ((href.mp hd).append post.flatten)
      rw [List.length_append] at hall
      omega

/-- A header of length `-1` and as many bytes behind it as the longest message has: all of them
stay in the receive buffer. -/
theorem not_unread_lt :
    ¬ ∀ pre, pre <+: [[255, 255, 255, 255], List.replicate (65536 * 20) 0] →
      (receiver pre).buf.length < 4 + 65536 * 20 := by
  intro h
  have hhead : (receiver [[255, 255, 255, 255]]).buf = [255, 255, 255, 255] := by decide
  have hbad : InvalidHead (receiver [[255, 255, 255, 255]]).buf := by
    rw [hhead]
    exact .inr (by decide)
  have hbuf (t : Bytes) : (receiver [[255, 255, 255, 255], t]).buf.length = 4 + t.length := by
    have happ := (receiver_append_of_invalidHead hbad [t]).2
    rw [hhead, List.flatten_singleton] at happ
    exact (congrArg List.length happ).trans List.length_append
  have hlt := h _ List.prefix_rfl
  rw [hbuf, List.length_replicate] at hlt
  exact Nat.lt_irrefl _ hlt

end Codec
