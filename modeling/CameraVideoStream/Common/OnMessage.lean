import CameraVideoStream.Common.Stream
import CameraVideoStream.Foundation.Loop

/-!
# One call of `onMessage`

`LengthHeaderCodec::onMessage` (`common/codec.h`) as the loop that it is: it goes on after each
message that it delivers and ends with the first `break`, or when fewer than `kHeaderLen` bytes are
left. At least four bytes are consumed each time round, so the loop terminates, and what it delivers
and leaves unread is the only way to write the receive buffer as frames of valid messages followed
by bytes at which the loop ends (`Codec.onMessage_call`).

## Main definitions

* `Codec.Reading`, `Codec.onMessageBody`: a call in progress, and the body of its loop.
* `Codec.IncompletePayload`: a valid length stands at the front, and bytes of its payload are
  missing.
* `Codec.Parses`: what a call is to do with the receive buffer.

## Main results

* `Codec.parses_iff`: it is done by `Codec.onMessage`, and by nothing else.
* `Codec.onMessage_call`.
-/

namespace Codec

/-- A call of `onMessage` in progress: the receive buffer, the messages given to `messageCallback_`,
and the number of calls of `conn->shutdown()`. -/
@[ext] structure Reading (β : Type) where
  buf : β
  delivered : List Bytes := []
  shutdowns : ℕ := 0
  deriving DecidableEq

/-- The body of the `while` loop on the list of the unread bytes. -/
def onMessageBody (c : Reading Bytes) : Outcome (Reading Bytes) Unit :=
  match onMessageTurn c.buf with
  | .wait => .exit () c
  | .refuse => .exit () { c with shutdowns := c.shutdowns + 1 }
  | .item message rest => .next { c with buf := rest, delivered := c.delivered ++ [message] }

/-- A valid length stands at the front of the unread bytes, and they end before its payload. -/
def IncompletePayload : Bytes → Prop
  | b₀ :: b₁ :: b₂ :: b₃ :: payload =>
    0 ≤ networkToHost32 b₀ b₁ b₂ b₃ ∧ networkToHost32 b₀ b₁ b₂ b₃ ≤ 65536 * 20 ∧
      ((b₀ :: b₁ :: b₂ :: b₃ :: payload).length : ℤ) < 4 + networkToHost32 b₀ b₁ b₂ b₃
  | _ => False

/-- What a call is to do with the receive buffer `b`. -/
structure Parses (b : Bytes) (c : Reading Bytes) : Prop where
  split : b = sendAll c.delivered ++ c.buf
  lengths : ∀ m ∈ c.delivered, m.length ≤ 65536 * 20
  stops : c.buf.length < 4 ∧ c.shutdowns = 0 ∨ InvalidHead c.buf ∧ c.shutdowns = 1 ∨
    IncompletePayload c.buf ∧ c.shutdowns = 0

/-- A drained buffer as the end of a call. -/
def Reading.ofDrained (d : Drained UInt8 Bytes) : Reading Bytes where
  buf := d.rest
  delivered := d.items
  shutdowns := if d.refused then 1 else 0

/-! ### Where the loop ends -/

theorem onMessageTurn_eq_wait_iff {s : Bytes} :
    onMessageTurn s = .wait ↔ s.length < 4 ∨ IncompletePayload s := by
  unfold onMessageTurn IncompletePayload
  split
  · rename_i b₀ b₁ b₂ b₃ payload
    have hhead : kHeaderLen = 4 := rfl
    simp only [List.length_cons, hhead]
    split_ifs with hbad hfull
    · exact iff_of_false (by simp) (by omega)
    · exact iff_of_false (by simp) (by omega)
    · exact iff_of_true rfl (by omega)
  · rename_i hshort
    exact iff_of_true rfl (.inl (length_lt_of_no_header hshort))

/-- The receive buffer can be parsed in one way only, and `onMessage` finds it. -/
theorem parses_iff {b : Bytes} {c : Reading Bytes} :
    Parses b c ↔ c = .ofDrained (onMessage b) := by
  constructor
  · rintro ⟨hsplit, hlengths, hstops⟩
    have hreads : Reads onMessageTurn b c.delivered c.buf := reads_iff.mpr ⟨hlengths, hsplit⟩
    have hdrain (refused : Bool)
        (hstop : onMessageTurn c.buf = if refused then .refuse else .wait) :
        onMessage b = ⟨c.delivered, c.buf, refused⟩ :=
      resumable_onMessageTurn.drain_eq_iff.mpr ⟨hreads, hstop⟩
    rcases hstops with ⟨hshort, hcalls⟩ | ⟨hbad, hcalls⟩ | ⟨hpart, hcalls⟩
    · rw [hdrain false (onMessageTurn_eq_wait_iff.mpr (.inl hshort))]
      exact Reading.ext rfl rfl hcalls
    · rw [hdrain true (onMessageTurn_eq_refuse_iff.mpr hbad)]
      exact Reading.ext rfl rfl hcalls
    · rw [hdrain false (onMessageTurn_eq_wait_iff.mpr (.inr hpart))]
      exact Reading.ext rfl rfl hcalls
  · rintro rfl
    obtain ⟨hlengths, hsplit, hrefused⟩ := onMessage_spec b
    refine ⟨hsplit, hlengths, ?_⟩
    cases hd : (onMessage b).refused with
    | true => exact .inr (.inl ⟨hrefused.mp hd, by simp [Reading.ofDrained, hd]⟩)
    | false =>
      have hstop := (resumable_onMessageTurn.reads_drain b).2
      rw [← onMessage, hd] at hstop
      have hzero : (Reading.ofDrained (onMessage b)).shutdowns = 0 := by
        simp [Reading.ofDrained, hd]
      rcases onMessageTurn_eq_wait_iff.mp hstop with hshort | hpart
      · exact .inl ⟨hshort, hzero⟩
      · exact .inr (.inr ⟨hpart, hzero⟩)

/-! ### The loop -/

/-- What has been read off the receive buffer `b` at the head of the loop. -/
structure Reaches (b : Bytes) (c : Reading Bytes) : Prop where
  split : b = sendAll c.delivered ++ c.buf
  lengths : ∀ m ∈ c.delivered, m.length ≤ 65536 * 20
  shutdowns : c.shutdowns = 0

theorem Reaches.onMessageBody {b : Bytes} {c : Reading Bytes} (h : Reaches b c) :
    (onMessageBody c).Sat (Reaches b) (fun _ => Parses b) := by
  rw [Codec.onMessageBody]
  cases hturn : onMessageTurn c.buf with
  | wait =>
    refine ⟨h.split, h.lengths, ?_⟩
    rcases onMessageTurn_eq_wait_iff.mp hturn with hshort | hpart
    · exact .inl ⟨hshort, h.shutdowns⟩
    · exact .inr (.inr ⟨hpart, h.shutdowns⟩)
  | refuse =>
    refine ⟨h.split, h.lengths, .inr (.inl ⟨onMessageTurn_eq_refuse_iff.mp hturn, ?_⟩)⟩
    show c.shutdowns + 1 = 1
    rw [h.shutdowns]
  | item message rest =>
    obtain ⟨hlen, hbuf⟩ := onMessageTurn_eq_item_iff.mp hturn
    refine ⟨?_, ?_, h.shutdowns⟩
    · rw [sendAll_append, sendAll_cons, sendAll_nil, List.append_nil, List.append_assoc, ← hbuf]
      exact h.split
    · simpa [or_imp, forall_and] using ⟨h.lengths, hlen⟩

/-- At least the header is consumed each time round. -/
theorem length_of_onMessageBody {c d : Reading Bytes} (h : onMessageBody c = .next d) :
    d.buf.length + 4 ≤ c.buf.length := by
  rw [onMessageBody] at h
  cases hturn : onMessageTurn c.buf with
  | wait => simp [hturn] at h
  | refuse => simp [hturn] at h
  | item message rest =>
    obtain ⟨-, hbuf⟩ := onMessageTurn_eq_item_iff.mp hturn
    simp only [hturn, Outcome.next.injEq] at h
    subst h
    rw [hbuf, send, List.length_append, List.length_append, BigEndian.length_bytes32]
    show rest.length + 4 ≤ 4 + message.length + rest.length
    omega

/-- Enough turns for the length of the receive buffer end the loop as `onMessage` ends it. -/
theorem loop_onMessageBody {b : Bytes} {fuel : ℕ} (hfuel : b.length < 4 * fuel) :
    Outcome.loop onMessageBody fuel { buf := b } = some ((), .ofDrained (onMessage b)) := by
  have hstart : Reaches b { buf := b } := ⟨rfl, by simp, rfl⟩
  have hdec : ∀ c d, onMessageBody c = .next d → d.buf.length / 4 < c.buf.length / 4 := by
    intro c d h
    have hlen := length_of_onMessageBody h
    omega
  have hturns : b.length / 4 < fuel := by omega
  obtain ⟨⟨⟨⟩, c⟩, hloop⟩ := Outcome.exists_loop (s := { buf := b }) hdec hturns
  have hparses : Parses b c :=
    Outcome.sat_of_loop (R := fun _ => Parses b) (fun _ h => h.onMessageBody) hstart hloop
  rw [hloop, parses_iff.mp hparses]

/-- **One call of `onMessage`.** On every receive buffer `b` the loop terminates, after at most one
turn for every four bytes and one more. It leaves the only decomposition of `b` into the frames of
messages no longer than `65536 * 20` and unread bytes that are shorter than a header, or begin with
an invalid length, or begin with a valid one whose payload they do not hold; `conn->shutdown()` is
called once in the second case and not at all in the others. -/
theorem onMessage_call (b : Bytes) :
    ∃ c, (∀ fuel, b.length < 4 * fuel →
        Outcome.loop onMessageBody fuel { buf := b } = some ((), c)) ∧
      Parses b c ∧ ∀ c', Parses b c' → c' = c :=
  ⟨.ofDrained (onMessage b), fun _ hfuel => loop_onMessageBody hfuel, parses_iff.mpr rfl,
    fun _ h => parses_iff.mp h⟩

end Codec
