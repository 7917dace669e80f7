import CameraVideoStream.Common.Codec
import CameraVideoStream.Foundation.Linearization
import CameraVideoStream.Foundation.Mutex
import CameraVideoStream.Foundation.Potential
import Mathlib.Logic.Function.Basic

/-!
# Writing to the server

`ChatClient::write` (`client/client.cc`) can be called by any thread. It locks `mutex_`, tests
`connection_`, and sends the message through the pointer; `ChatClient::onConnection` sets or resets
`connection_` in the thread of the event loop, under the same mutex. Between the test and the use of
the pointer the connection could go down; the mutex prevents it.

Here every one of these is a step, and the steps of any number of threads interleave in any way that
the mutex allows. What they come to is what the calls of `write` and `onConnection` come to one
after the other, where each is one step: a call of `write` takes effect when it sends its message,
or finds that there is no connection; one of `onConnection` when it sets the pointer.

## Main definitions

* `WritingClient`, `WritingClient.step`: the threads, the mutex and the connection.
* `ConnectionHolder`, `ConnectionHolder.step`: the same, with calls that are one step each.

## Main results

* `WritingClient.run_writing`, `WritingClient.exists_returned`.
-/

open Codec

/-- The threads that write, and the one of the event loop. -/
inductive Party (ω : Type*) where
  | writer (w : ω)
  | loop
  deriving DecidableEq

/-- A call of `write` by one of the threads, or of `onConnection`. -/
inductive Call (κ ω : Type*) where
  | write (w : ω) (message : Bytes)
  | onConnection (conn : κ) (connected : Bool)

/-- The thread that calls. -/
def Call.party {κ ω : Type*} : Call κ ω → Party ω
  | write w _ => .writer w
  | onConnection _ _ => .loop

/-- A call of `codec_.send` by a thread that writes. -/
structure Written (κ ω : Type*) where
  writer : ω
  conn : κ
  message : Bytes

/-! ### Calls that are one step each -/

/-- `connection_`, and what has been sent through it. -/
structure ConnectionHolder (κ ω : Type*) where
  connection : Option κ := none
  sent : List (Written κ ω) := []

namespace ConnectionHolder

variable {κ ω : Type*}

/-- One call. Without a connection the message is dropped. -/
def step (c : ConnectionHolder κ ω) : Call κ ω → ConnectionHolder κ ω
  | .write w message =>
    match c.connection with
    | none => c
    | some conn => { c with sent := c.sent ++ [⟨w, conn, message⟩] }
  | .onConnection conn connected => { c with connection := if connected then some conn else none }

end ConnectionHolder

/-! ### The threads -/

/-- Where a thread that writes is: not in `write`, or before it locks the mutex, tests
`connection_`, sends the message, or unlocks. -/
inductive WritePc where
  | idle
  | locking (message : Bytes)
  | testing (message : Bytes)
  | sending (message : Bytes)
  | unlocking

/-- Where the thread of the event loop is: not in `onConnection`, or before it locks the mutex, sets
`connection_`, or unlocks. -/
inductive LoopPc (κ : Type*) where
  | idle
  | locking (conn : κ) (connected : Bool)
  | assigning (conn : κ) (connected : Bool)
  | unlocking

/-- The thread is between `lock` and `unlock`. -/
def WritePc.inside : WritePc → Bool
  | testing _ | sending _ | unlocking => true
  | idle | locking _ => false

def LoopPc.inside {κ : Type*} : LoopPc κ → Bool
  | assigning _ _ | unlocking => true
  | idle | locking _ _ => false

/-- The call that has not taken effect yet. -/
def WritePc.pending {κ ω : Type*} (w : ω) : WritePc → List (Call κ ω)
  | locking message | testing message | sending message => [.write w message]
  | idle | unlocking => []

def LoopPc.pending {κ ω : Type*} : LoopPc κ → List (Call κ ω)
  | locking conn connected | assigning conn connected => [.onConnection conn connected]
  | idle | unlocking => []

/-- The steps to the return of the call. -/
def WritePc.remaining : WritePc → ℕ
  | idle => 0
  | locking _ => 4
  | testing _ => 3
  | sending _ => 2
  | unlocking => 1

def LoopPc.remaining {κ : Type*} : LoopPc κ → ℕ
  | idle => 0
  | locking _ _ => 3
  | assigning _ _ => 2
  | unlocking => 1

/-- The client, with the threads that write. `calls` and `effects` record the calls in the order in
which they began and took effect, `nullSend` a call of `send` with a null pointer. -/
structure WritingClient (κ ω : Type*) where
  writePc : ω → WritePc := fun _ => .idle
  loopPc : LoopPc κ := .idle
  mutex : Option (Party ω) := none
  connection : Option κ := none
  sent : List (Written κ ω) := []
  calls : List (Call κ ω) := []
  effects : List (Call κ ω) := []
  nullSend : Bool := false

namespace WritingClient

variable {κ ω : Type*} [DecidableEq ω]

/-- What can happen next: a thread calls `write` or `onConnection`, or takes the next step of such a
call. -/
inductive Event (κ ω : Type*) where
  | call (x : Call κ ω)
  | step (t : Party ω)

/-- A thread that writes goes on to `pc`. -/
def goto (c : WritingClient κ ω) (w : ω) (pc : WritePc) : WritingClient κ ω :=
  { c with writePc := Function.update c.writePc w pc }

/-- The next step of `ChatClient::write`. -/
def writeStep (c : WritingClient κ ω) (w : ω) : WritingClient κ ω :=
  match c.writePc w with
  | .idle => c
  | .locking message =>
    match c.mutex with
    | none => { c.goto w (.testing message) with mutex := some (.writer w) }
    | some _ => c
  | .testing message =>
    match c.connection with
    | none => { c.goto w .unlocking with effects := c.effects ++ [.write w message] }
    | some _ => c.goto w (.sending message)
  | .sending message =>
    match c.connection with
    | none => { c with nullSend := true }
    | some conn =>
      { c.goto w .unlocking with
        sent := c.sent ++ [⟨w, conn, message⟩]
        effects := c.effects ++ [.write w message] }
  | .unlocking => { c.goto w .idle with mutex := none }

/-- The next step of `ChatClient::onConnection`. -/
def loopStep (c : WritingClient κ ω) : WritingClient κ ω :=
  match c.loopPc with
  | .idle => c
  | .locking conn connected =>
    match c.mutex with
    | none => { c with loopPc := .assigning conn connected, mutex := some .loop }
    | some _ => c
  | .assigning conn connected =>
    { c with
      connection := if connected then some conn else none
      effects := c.effects ++ [.onConnection conn connected]
      loopPc := .unlocking }
  | .unlocking => { c with loopPc := .idle, mutex := none }

/-- One step. A thread calls only once its last call has returned. -/
def step (c : WritingClient κ ω) : Event κ ω → WritingClient κ ω
  | .call (.write w message) =>
    match c.writePc w with
    | .idle => { c.goto w (.locking message) with calls := c.calls ++ [.write w message] }
    | _ => c
  | .call (.onConnection conn connected) =>
    match c.loopPc with
    | .idle =>
      { c with
        loopPc := .locking conn connected
        calls := c.calls ++ [.onConnection conn connected] }
    | _ => c
  | .step (.writer w) => c.writeStep w
  | .step .loop => c.loopStep

/-- The thread is between `lock` and `unlock`. -/
def Critical (c : WritingClient κ ω) : Party ω → Prop
  | .writer w => (c.writePc w).inside = true
  | .loop => c.loopPc.inside = true

/-- The call of a thread that has not taken effect yet. -/
def pending (c : WritingClient κ ω) : Party ω → List (Call κ ω)
  | .writer w => (c.writePc w).pending w
  | .loop => c.loopPc.pending

/-- Without the mutex. -/
def toHolder (c : WritingClient κ ω) : ConnectionHolder κ ω := ⟨c.connection, c.sent⟩

/-- What holds after every run. -/
structure Inv (c : WritingClient κ ω) : Prop where
  guards : Mutex.Guards c.mutex c.Critical
  /-- Nobody resets the pointer after the test. -/
  connected : ∀ w message, c.writePc w = .sending message → c.connection.isSome = true
  noNullSend : c.nullSend = false
  inOrder : Linearization.InOrder Call.party c.calls c.effects c.pending
  holder : c.toHolder = Transition.run ConnectionHolder.step {} c.effects

theorem inv_init : Inv ({} : WritingClient κ ω) where
  guards t := by cases t <;> simp [Critical, WritePc.inside, LoopPc.inside]
  connected := by simp
  noNullSend := rfl
  inOrder t := by cases t <;> rfl
  holder := rfl

/-! ### What each step keeps -/

section Steps

variable {c c' : WritingClient κ ω} {w : ω} {pc : WritePc} {t : Party ω}

theorem writePc_goto_self : (c.goto w pc).writePc w = pc := by
  simp only [goto, Function.update_self]

theorem writePc_goto_of_ne {w' : ω} (hw : w' ≠ w) : (c.goto w pc).writePc w' = c.writePc w' := by
  simp only [goto, Function.update_of_ne hw]

/-- Where the thread `t` is, as far as it matters to the others. -/
theorem same_goto (hwrite : c'.writePc = (c.goto w pc).writePc) (hloop : c'.loopPc = c.loopPc)
    (ht : t ≠ .writer w) : (c'.Critical t ↔ c.Critical t) ∧ c'.pending t = c.pending t := by
  cases t with
  | writer w' =>
    have hw : w' ≠ w := fun heq => ht (congrArg Party.writer heq)
    simp only [Critical, pending, hwrite, writePc_goto_of_ne hw, and_self]
  | loop => simp only [Critical, pending, hloop, and_self]

theorem critical_writer (hwrite : c'.writePc = (c.goto w pc).writePc) :
    c'.Critical (.writer w) ↔ pc.inside = true := by
  simp only [Critical, hwrite, writePc_goto_self]

theorem pending_writer (hwrite : c'.writePc = (c.goto w pc).writePc) :
    c'.pending (.writer w) = pc.pending w := by
  simp only [pending, hwrite, writePc_goto_self]

/-- A step of `write` that neither locks nor unlocks. -/
theorem Inv.stay_writer (h : c.Inv) (hwrite : c'.writePc = (c.goto w pc).writePc)
    (hloop : c'.loopPc = c.loopPc) (hmutex : c'.mutex = c.mutex)
    (hinside : pc.inside = (c.writePc w).inside) : Mutex.Guards c'.mutex c'.Critical := by
  rw [hmutex]
  refine h.guards.stay fun t => ?_
  by_cases ht : t = .writer w
  · rw [ht, critical_writer hwrite, hinside]
    rfl
  · exact (same_goto hwrite hloop ht).1

/-- Whoever is about to send, the pointer is set. -/
theorem Inv.connected_goto (h : c.Inv) (hwrite : c'.writePc = (c.goto w pc).writePc)
    (hconnection : c'.connection = c.connection)
    (hpc : ∀ message, pc = .sending message → c.connection.isSome = true) :
    ∀ w' message, c'.writePc w' = .sending message → c'.connection.isSome = true := by
  intro w' message hw'
  rw [hwrite] at hw'
  rw [hconnection]
  by_cases hw : w' = w
  · subst hw
    rw [writePc_goto_self] at hw'
    exact hpc message hw'
  · rw [writePc_goto_of_ne hw] at hw'
    exact h.connected w' message hw'

/-- A step of `write` in which no call begins or takes effect. -/
theorem Inv.inOrder_goto (h : c.Inv) (hwrite : c'.writePc = (c.goto w pc).writePc)
    (hloop : c'.loopPc = c.loopPc) (hpc : pc.pending w = (c.writePc w).pending (κ := κ) w) :
    Linearization.InOrder Call.party c.calls c.effects c'.pending := by
  refine h.inOrder.stay fun t => ?_
  by_cases ht : t = .writer w
  · rw [ht, pending_writer hwrite, hpc]
    rfl
  · exact (same_goto hwrite hloop ht).2

/-- A call of `write` takes effect. -/
theorem Inv.effect_goto (h : c.Inv) (hwrite : c'.writePc = (c.goto w pc).writePc)
    (hloop : c'.loopPc = c.loopPc) {message : Bytes}
    (hbefore : (c.writePc w).pending (κ := κ) w = [.write w message])
    (hafter : pc.pending (κ := κ) w = []) :
    Linearization.InOrder Call.party c.calls (c.effects ++ [.write w message]) c'.pending :=
  h.inOrder.effect hbefore ((pending_writer hwrite).trans hafter) fun _ ht =>
    (same_goto hwrite hloop ht).2

theorem Inv.write (h : c.Inv) (w : ω) (message : Bytes) :
    (c.step (.call (.write w message))).Inv := by
  cases hpc : c.writePc w with
  | idle =>
    simp only [step, hpc]
    refine ⟨h.stay_writer rfl rfl rfl (by rw [hpc]; rfl), h.connected_goto rfl rfl (by simp),
      h.noNullSend, ?_, h.holder⟩
    refine h.inOrder.call ?_ (pending_writer rfl) fun t ht => (same_goto rfl rfl ht).2
    simp only [Call.party, pending, hpc, WritePc.pending]
  | locking | testing | sending | unlocking => simpa only [step, hpc] using h

theorem Inv.onConnection (h : c.Inv) (conn : κ) (connected : Bool) :
    (c.step (.call (.onConnection conn connected))).Inv := by
  cases hpc : c.loopPc with
  | idle =>
    simp only [step, hpc]
    refine { h with guards := h.guards.stay fun t => ?_
                    inOrder := h.inOrder.call ?_ rfl fun t ht => ?_ }
    · cases t with
      | writer w => exact Iff.rfl
      | loop => simp [Critical, hpc, LoopPc.inside]
    · simp only [Call.party, pending, hpc, LoopPc.pending]
    · cases t with
      | writer w => rfl
      | loop => exact absurd rfl ht
  | locking | assigning | unlocking => simpa only [step, hpc] using h

theorem Inv.writeStep (h : c.Inv) (w : ω) : (c.writeStep w).Inv := by
  cases hpc : c.writePc w with
  | idle => simpa only [WritingClient.writeStep, hpc] using h
  | locking message =>
    cases hmutex : c.mutex with
    | none =>
      simp only [WritingClient.writeStep, hpc, hmutex]
      have hguards := h.guards
      rw [hmutex] at hguards
      exact ⟨hguards.lock ((critical_writer rfl).mpr rfl) fun _ ht => (same_goto rfl rfl ht).1,
        h.connected_goto rfl rfl (by simp), h.noNullSend,
        h.inOrder_goto rfl rfl (by rw [hpc]; rfl), h.holder⟩
    | some t => simpa only [WritingClient.writeStep, hpc, hmutex] using h
  | testing message =>
    cases hconnection : c.connection with
    | none =>
      simp only [WritingClient.writeStep, hpc, hconnection]
      refine ⟨h.stay_writer rfl rfl rfl (by rw [hpc]; rfl), h.connected_goto rfl rfl (by simp),
        h.noNullSend, h.effect_goto rfl rfl (by rw [hpc]; rfl) rfl, ?_⟩
      rw [Transition.run_append, ← h.holder]
      simp [toHolder, goto, hconnection, ConnectionHolder.step]
    | some conn =>
      simp only [WritingClient.writeStep, hpc, hconnection]
      exact ⟨h.stay_writer rfl rfl rfl (by rw [hpc]; rfl),
        h.connected_goto rfl rfl (by simp [hconnection]), h.noNullSend,
        h.inOrder_goto rfl rfl (by rw [hpc]; rfl), h.holder⟩
  | sending message =>
    obtain ⟨conn, hconn⟩ := Option.isSome_iff_exists.mp (h.connected w message hpc)
    simp only [WritingClient.writeStep, hpc, hconn]
    refine ⟨h.stay_writer rfl rfl rfl (by rw [hpc]; rfl), h.connected_goto rfl rfl (by simp),
      h.noNullSend, h.effect_goto rfl rfl (by rw [hpc]; rfl) rfl, ?_⟩
    rw [Transition.run_append, ← h.holder]
    simp [toHolder, goto, hconn, ConnectionHolder.step]
  | unlocking =>
    simp only [WritingClient.writeStep, hpc]
    have hcritical : c.Critical (.writer w) := by simp [Critical, hpc, WritePc.inside]
    have hguards := h.guards
    rw [h.guards.holder_eq hcritical] at hguards
    exact ⟨hguards.unlock (fun hin => by cases (critical_writer rfl).mp hin) fun _ ht =>
        (same_goto rfl rfl ht).1,
      h.connected_goto rfl rfl (by simp), h.noNullSend,
      h.inOrder_goto rfl rfl (by rw [hpc]; rfl), h.holder⟩

/-- While the event loop is inside, nobody is about to send. -/
theorem Inv.not_sending (h : c.Inv) (hinside : c.loopPc.inside = true) (w : ω) (message : Bytes) :
    c.writePc w ≠ .sending message := by
  intro hpc
  have hw : c.Critical (.writer w) := by simp [Critical, hpc, WritePc.inside]
  cases h.guards.exclusive (u := Party.loop) hw hinside

omit [DecidableEq ω] in
/-- The threads that write are where they were. -/
theorem same_loop (hwrite : c'.writePc = c.writePc) (ht : t ≠ .loop) :
    (c'.Critical t ↔ c.Critical t) ∧ c'.pending t = c.pending t := by
  cases t with
  | writer w => simp only [Critical, pending, hwrite, and_self]
  | loop => exact absurd rfl ht

theorem Inv.loopStep (h : c.Inv) : c.loopStep.Inv := by
  cases hpc : c.loopPc with
  | idle => simpa only [WritingClient.loopStep, hpc] using h
  | locking conn connected =>
    cases hmutex : c.mutex with
    | none =>
      simp only [WritingClient.loopStep, hpc, hmutex]
      have hguards := h.guards
      rw [hmutex] at hguards
      refine { h with guards := hguards.lock rfl fun _ ht => (same_loop (by rfl) ht).1
                      inOrder := h.inOrder.stay fun t => ?_ }
      cases t with
      | writer w => rfl
      | loop => simp only [pending, hpc, LoopPc.pending]
    | some t => simpa only [WritingClient.loopStep, hpc, hmutex] using h
  | assigning conn connected =>
    simp only [WritingClient.loopStep, hpc]
    have hnone := h.not_sending (by simp [hpc, LoopPc.inside])
    refine ⟨h.guards.stay fun t => ?_, fun w message hw => absurd hw (hnone w message),
      h.noNullSend, h.inOrder.effect ?_ rfl fun _ ht => (same_loop (by rfl) ht).2, ?_⟩
    · cases t with
      | writer w => exact Iff.rfl
      | loop => simp [Critical, hpc, LoopPc.inside]
    · simp only [Call.party, pending, hpc, LoopPc.pending]
    · rw [Transition.run_append, ← h.holder]
      rfl
  | unlocking =>
    simp only [WritingClient.loopStep, hpc]
    have hcritical : c.Critical .loop := by simp [Critical, hpc, LoopPc.inside]
    have hguards := h.guards
    rw [h.guards.holder_eq hcritical] at hguards
    refine { h with guards := hguards.unlock (by simp [Critical, LoopPc.inside]) fun _ ht =>
                      (same_loop (by rfl) ht).1
                    inOrder := h.inOrder.stay fun t => ?_ }
    cases t with
    | writer w => rfl
    | loop => simp only [pending, hpc, LoopPc.pending]

theorem inv_step (c : WritingClient κ ω) (e : Event κ ω) (h : c.Inv) : (c.step e).Inv := by
  cases e with
  | call x =>
    cases x with
    | write w message => exact h.write w message
    | onConnection conn connected => exact h.onConnection conn connected
  | step t =>
    cases t with
    | writer w => exact h.writeStep w
    | loop => exact h.loopStep

theorem inv_run (es : List (Event κ ω)) : (Transition.run step {} es).Inv :=
  Transition.run_induction step inv_step inv_init es

end Steps

theorem effects_prefix_writeStep (c : WritingClient κ ω) (w : ω) :
    c.effects <+: (c.writeStep w).effects := by
  cases hpc : c.writePc w with
  | idle | unlocking => simp [writeStep, hpc, goto]
  | locking => cases hmutex : c.mutex <;> simp [writeStep, hpc, hmutex, goto]
  | testing | sending =>
    cases hconnection : c.connection <;> simp [writeStep, hpc, hconnection, goto]

omit [DecidableEq ω] in
theorem effects_prefix_loopStep (c : WritingClient κ ω) : c.effects <+: c.loopStep.effects := by
  cases hpc : c.loopPc with
  | idle | assigning | unlocking => simp [loopStep, hpc]
  | locking => cases hmutex : c.mutex <;> simp [loopStep, hpc, hmutex]

/-- What has taken effect stays so. -/
theorem effects_prefix_step (c : WritingClient κ ω) (e : Event κ ω) :
    c.effects <+: (c.step e).effects := by
  cases e with
  | call x =>
    cases x with
    | write w message => cases hpc : c.writePc w <;> simp [step, hpc, goto]
    | onConnection conn connected => cases hpc : c.loopPc <;> simp [step, hpc]
  | step t =>
    cases t with
    | writer w => exact c.effects_prefix_writeStep w
    | loop => exact c.effects_prefix_loopStep

/-- **Writing to the server.** After every run, however the single steps of any number of threads
interleave with those of the event loop: at most one thread is between `lock` and `unlock`; the
pointer, and what has been sent on which connection, are what the calls leave one after the other,
in the order in which they took effect; of each thread these are its calls, in its order and none
twice, except for the one that it may be in, so that a call that has returned comes before all that
begin later; and `send` has not been called with a null pointer, nor will it be next. -/
theorem run_writing (es : List (Event κ ω)) :
    let c := Transition.run step {} es
    (∀ t u, c.Critical t → c.Critical u → t = u) ∧
      c.toHolder = Transition.run ConnectionHolder.step {} c.effects ∧
      (∀ t, c.effects.filter (Call.party · = t) ++ c.pending t =
        c.calls.filter (Call.party · = t)) ∧
      (∀ fs, c.effects <+: (Transition.run step c fs).effects) ∧
      c.nullSend = false ∧
      ∀ w message, c.writePc w = .sending message → c.connection.isSome = true := by
  intro c
  have h : c.Inv := inv_run es
  have hkeep (d : WritingClient κ ω) (e : Event κ ω) (hd : c.effects <+: d.effects) :
      c.effects <+: (d.step e).effects := hd.trans (d.effects_prefix_step e)
  exact ⟨fun _ _ => h.guards.exclusive, h.holder, h.inOrder,
    Transition.run_induction step hkeep List.prefix_rfl, h.noNullSend, h.connected⟩

/-! ### How calls return -/

/-- The steps of its own that a thread takes before its call returns; `0` if it is in none. -/
def remaining (c : WritingClient κ ω) : Party ω → ℕ
  | .writer w => (c.writePc w).remaining
  | .loop => c.loopPc.remaining

/-- The thread is in no call of `write` or `onConnection`. -/
def Returned (c : WritingClient κ ω) : Party ω → Prop
  | .writer w => c.writePc w = .idle
  | .loop => c.loopPc = .idle

/-- The steps of the thread that `t` waits for. -/
def awaited (c : WritingClient κ ω) (t : Party ω) : ℕ :=
  match c.mutex with
  | none => 0
  | some u => if u = t then 0 else c.remaining u

/-- The event is a step of the thread `t`. -/
def Event.stepOf (t : Party ω) : Event κ ω → Bool
  | .call _ => false
  | .step u => u = t

theorem Event.eq_of_stepOf {t : Party ω} {e : Event κ ω} (he : e.stepOf t = true) :
    e = .step t := by
  cases e with
  | call x => simp [Event.stepOf] at he
  | step u => simpa [Event.stepOf] using he

/-- `1` for a step of `t` that does not find the mutex held by another thread. -/
def unhindered (t : Party ω) (c : WritingClient κ ω) (e : Event κ ω) : ℕ :=
  if e.stepOf t = true ∧ (c.mutex = none ∨ c.mutex = some t) then 1 else 0

section Remaining

variable {c : WritingClient κ ω} {t u : Party ω}

omit [DecidableEq ω] in
theorem remaining_eq_zero : c.remaining t = 0 ↔ c.Returned t := by
  cases t with
  | writer w =>
    rw [remaining, Returned]
    cases c.writePc w <;> simp [WritePc.remaining]
  | loop =>
    rw [remaining, Returned]
    cases c.loopPc <;> simp [LoopPc.remaining]

omit [DecidableEq ω] in
theorem remaining_le : c.remaining t ≤ 4 := by
  cases t with
  | writer w =>
    rw [remaining]
    cases c.writePc w <;> simp [WritePc.remaining]
  | loop =>
    rw [remaining]
    cases c.loopPc <;> simp [LoopPc.remaining]

theorem Inv.remaining_of_held (h : c.Inv) (hmutex : c.mutex = some t) :
    0 < c.remaining t ∧ c.remaining t ≤ 3 := by
  have hcritical := (h.guards t).mpr hmutex
  cases t with
  | writer w =>
    rw [remaining]
    cases hpc : c.writePc w <;> simp_all [WritePc.remaining, Critical, WritePc.inside]
  | loop =>
    rw [remaining]
    cases hpc : c.loopPc <;> simp_all [LoopPc.remaining, Critical, LoopPc.inside]

theorem Inv.awaited_le (h : c.Inv) : c.awaited t ≤ 3 := by
  rw [awaited]
  cases hmutex : c.mutex with
  | none => exact Nat.zero_le 3
  | some u =>
    simp only
    split_ifs
    · exact Nat.zero_le 3
    · exact (h.remaining_of_held hmutex).2

theorem awaited_eq_zero (hmutex : c.mutex = none ∨ c.mutex = some t) : c.awaited t = 0 := by
  rw [awaited]
  rcases hmutex with hnone | hsome
  · rw [hnone]
  · rw [hsome]
    exact if_pos rfl

/-- A step of `write` moves one thread only. -/
theorem writePc_writeStep (c : WritingClient κ ω) (w : ω) :
    ∃ pc, (c.writeStep w).writePc = (c.goto w pc).writePc ∧
      (c.writeStep w).loopPc = c.loopPc := by
  have hsame : c.writePc = (c.goto w (c.writePc w)).writePc :=
    (Function.update_eq_self w c.writePc).symm
  cases hpc : c.writePc w with
  | idle => exact ⟨_, by simp only [writeStep, hpc]; exact hsame, by simp only [writeStep, hpc]⟩
  | locking message =>
    cases hmutex : c.mutex with
    | none =>
      simp only [writeStep, hpc, hmutex]
      exact ⟨_, rfl, rfl⟩
    | some u =>
      simp only [writeStep, hpc, hmutex]
      exact ⟨_, hsame, trivial⟩
  | testing message =>
    cases hconnection : c.connection <;> simp only [writeStep, hpc, hconnection] <;>
      exact ⟨_, rfl, rfl⟩
  | sending message =>
    cases hconnection : c.connection with
    | none =>
      simp only [writeStep, hpc, hconnection]
      exact ⟨_, hsame, trivial⟩
    | some conn =>
      simp only [writeStep, hpc, hconnection]
      exact ⟨_, rfl, rfl⟩
  | unlocking =>
    simp only [writeStep, hpc]
    exact ⟨_, rfl, rfl⟩

omit [DecidableEq ω] in
theorem writePc_loopStep (c : WritingClient κ ω) : c.loopStep.writePc = c.writePc := by
  cases hpc : c.loopPc with
  | idle | assigning | unlocking => simp only [loopStep, hpc]
  | locking => cases hmutex : c.mutex <;> simp only [loopStep, hpc, hmutex]

/-- The steps of the other threads leave a thread where it is. -/
theorem same_step_of_ne (hu : u ≠ t) :
    (c.step (.step u)).remaining t = c.remaining t ∧
      ((c.step (.step u)).Critical t ↔ c.Critical t) := by
  cases u with
  | writer w =>
    obtain ⟨pc, hwrite, hloop⟩ := c.writePc_writeStep w
    cases t with
    | writer w' =>
      have hw : w' ≠ w := fun heq => hu (congrArg Party.writer heq.symm)
      simp only [step, remaining, Critical, hwrite, writePc_goto_of_ne hw, and_self]
    | loop => simp only [step, remaining, Critical, hloop, and_self]
  | loop =>
    cases t with
    | writer w => simp only [step, remaining, Critical, writePc_loopStep, and_self]
    | loop => exact absurd rfl hu

/-- While a thread is in a call, nothing but its own steps moves it. -/
theorem same_step (ht : c.remaining t ≠ 0) {e : Event κ ω} (he : e.stepOf t = false) :
    (c.step e).remaining t = c.remaining t ∧ ((c.step e).Critical t ↔ c.Critical t) := by
  cases e with
  | call x =>
    cases x with
    | write w message =>
      cases hpc : c.writePc w with
      | idle =>
        cases t with
        | writer w' =>
          have hw : w' ≠ w := by
            rintro rfl
            simp [remaining, hpc, WritePc.remaining] at ht
          simp only [step, hpc, remaining, Critical, writePc_goto_of_ne hw, and_self]
        | loop => simp only [step, hpc, remaining, Critical, goto, and_self]
      | locking | testing | sending | unlocking => simp only [step, hpc, and_self]
    | onConnection conn connected =>
      cases hpc : c.loopPc with
      | idle =>
        cases t with
        | writer w => simp only [step, hpc, remaining, Critical, and_self]
        | loop => simp [remaining, hpc, LoopPc.remaining] at ht
      | locking | assigning | unlocking => simp only [step, hpc, and_self]
  | step u => exact same_step_of_ne (by simpa [Event.stepOf] using he)

/-- A thread in `write` goes on, unless another one is inside. -/
theorem Inv.writeStep_advances (h : c.Inv) {w : ω} (hpc : (c.writePc w).remaining ≠ 0)
    (hmutex : c.mutex = none ∨ c.mutex = some (.writer w)) :
    ((c.writeStep w).writePc w).remaining < (c.writePc w).remaining ∧
      ((c.writeStep w).mutex = some (.writer w) ∨
        (c.writeStep w).mutex = none ∧ (c.writeStep w).writePc w = .idle) := by
  have hinside (hin : (c.writePc w).inside = true) : c.mutex = some (.writer w) :=
    h.guards.holder_eq (t := Party.writer w) hin
  cases hw : c.writePc w with
  | idle => simp [hw, WritePc.remaining] at hpc
  | locking message =>
    have hfree : c.mutex = none := by
      refine hmutex.resolve_right fun hself => ?_
      have hcritical := (h.guards _).mpr hself
      simp [Critical, hw, WritePc.inside] at hcritical
    simp [WritingClient.writeStep, hw, hfree, goto, WritePc.remaining]
  | testing message =>
    have hself := hinside (by simp [hw, WritePc.inside])
    cases hconnection : c.connection <;>
      simp [WritingClient.writeStep, hw, hconnection, goto, WritePc.remaining, hself]
  | sending message =>
    have hself := hinside (by simp [hw, WritePc.inside])
    obtain ⟨conn, hconn⟩ := Option.isSome_iff_exists.mp (h.connected w message hw)
    simp [WritingClient.writeStep, hw, hconn, goto, WritePc.remaining, hself]
  | unlocking => simp [WritingClient.writeStep, hw, goto, WritePc.remaining]

/-- The event loop in `onConnection` goes on, unless a thread that writes is inside. -/
theorem Inv.loopStep_advances (h : c.Inv) (hpc : c.loopPc.remaining ≠ 0)
    (hmutex : c.mutex = none ∨ c.mutex = some .loop) :
    c.loopStep.loopPc.remaining < c.loopPc.remaining ∧
      (c.loopStep.mutex = some .loop ∨ c.loopStep.mutex = none ∧ c.loopStep.loopPc = .idle) := by
  cases hloop : c.loopPc with
  | idle => simp [hloop, LoopPc.remaining] at hpc
  | locking conn connected =>
    have hfree : c.mutex = none := by
      refine hmutex.resolve_right fun hself => ?_
      have hcritical := (h.guards _).mpr hself
      simp [Critical, hloop, LoopPc.inside] at hcritical
    simp [WritingClient.loopStep, hloop, hfree, LoopPc.remaining]
  | assigning conn connected =>
    have hcritical : c.Critical .loop := by simp [Critical, hloop, LoopPc.inside]
    simp [WritingClient.loopStep, hloop, LoopPc.remaining, h.guards.holder_eq hcritical]
  | unlocking => simp [WritingClient.loopStep, hloop, LoopPc.remaining]

/-- **A thread in a call goes on, unless another one is inside**, and unlocks the mutex only when it
returns. -/
theorem Inv.remaining_step (h : c.Inv) (ht : c.remaining t ≠ 0)
    (hmutex : c.mutex = none ∨ c.mutex = some t) :
    (c.step (.step t)).remaining t < c.remaining t ∧
      ((c.step (.step t)).mutex = some t ∨
        (c.step (.step t)).mutex = none ∧ (c.step (.step t)).Returned t) := by
  cases t with
  | writer w => exact h.writeStep_advances ht hmutex
  | loop => exact h.loopStep_advances ht hmutex

/-- A thread that finds the mutex held by another one stays where it is. -/
theorem Inv.step_hindered (h : c.Inv) (ht : c.remaining t ≠ 0)
    (hmutex : ¬ (c.mutex = none ∨ c.mutex = some t)) : c.step (.step t) = c := by
  obtain ⟨hsome, hother⟩ := not_or.mp hmutex
  obtain ⟨u, hu⟩ := Option.ne_none_iff_exists'.mp hsome
  have hout : ¬ c.Critical t := fun hcritical => hother (h.guards.holder_eq hcritical)
  cases t with
  | writer w =>
    rw [Critical] at hout
    rw [remaining] at ht
    cases hpc : c.writePc w with
    | idle => simp [hpc, WritePc.remaining] at ht
    | locking message => simp only [step, WritingClient.writeStep, hpc, hu]
    | testing | sending | unlocking => simp [hpc, WritePc.inside] at hout
  | loop =>
    rw [Critical] at hout
    rw [remaining] at ht
    cases hpc : c.loopPc with
    | idle => simp [hpc, LoopPc.remaining] at ht
    | locking => simp only [step, WritingClient.loopStep, hpc, hu]
    | assigning | unlocking => simp [hpc, LoopPc.inside] at hout

/-- Every step pays for itself: one that `t` takes unhindered brings it closer to the return, and
any other leaves it where it is. -/
theorem Inv.unhindered_add_le (h : c.Inv) (ht : c.remaining t ≠ 0) (e : Event κ ω) :
    c.unhindered t e + (c.step e).remaining t ≤ c.remaining t := by
  rw [unhindered]
  split_ifs with hown
  · obtain ⟨hstep, hmutex⟩ := hown
    rw [Event.eq_of_stepOf hstep]
    have hlt := (h.remaining_step ht hmutex).1
    omega
  · rw [Nat.zero_add]
    cases hstep : e.stepOf t with
    | true =>
      rw [Event.eq_of_stepOf hstep, h.step_hindered ht fun hmutex => hown ⟨hstep, hmutex⟩]
    | false => exact (same_step ht hstep).1.le

/-- The thread inside pays with each of its steps, and stays inside until it returns. -/
theorem Inv.inside_step (h : c.Inv) (ht : c.Critical t) (e : Event κ ω) :
    (if e.stepOf t then 1 else 0) + (c.step e).remaining t ≤ c.remaining t ∧
      ((c.step e).Critical t ∨ (c.step e).mutex = none ∧ (c.step e).Returned t) := by
  have hheld := h.guards.holder_eq ht
  have hne : c.remaining t ≠ 0 := Nat.ne_of_gt (h.remaining_of_held hheld).1
  have hinv := inv_step c e h
  cases hstep : e.stepOf t with
  | true =>
    obtain ⟨hlt, hkept⟩ := h.remaining_step hne (.inr hheld)
    rw [Event.eq_of_stepOf hstep] at hinv ⊢
    rw [if_pos rfl, Nat.one_add_le_iff]
    exact ⟨hlt, hkept.imp_left (hinv.guards t).mpr⟩
  | false =>
    obtain ⟨hsame, hcritical⟩ := same_step hne hstep
    rw [hsame, if_neg Bool.false_ne_true, Nat.zero_add]
    exact ⟨Nat.le_refl _, .inl (hcritical.mpr ht)⟩

/-- The thread inside goes on, or, if there is none, `t` itself; then `t` is closer to the return of
its call. -/
theorem Inv.exists_closer (h : c.Inv) (ht : c.remaining t + c.awaited t ≠ 0) :
    ∃ u, (u = t ∨ c.mutex = some u) ∧
      (c.step (.step u)).remaining t + (c.step (.step u)).awaited t <
        c.remaining t + c.awaited t ∧
      ((c.step (.step u)).mutex = none ∨ (c.step (.step u)).mutex = some u) := by
  by_cases hmutex : c.mutex = none ∨ c.mutex = some t
  · -- `t` does not wait for anybody
    rw [awaited_eq_zero hmutex] at ht ⊢
    obtain ⟨hlt, hkept⟩ := h.remaining_step ht hmutex
    have hmutex' : (c.step (.step t)).mutex = none ∨ (c.step (.step t)).mutex = some t :=
      hkept.symm.imp_left And.left
    refine ⟨t, .inl rfl, ?_, hmutex'⟩
    rw [awaited_eq_zero hmutex']
    exact hlt
  · obtain ⟨hsome, hother⟩ := not_or.mp hmutex
    obtain ⟨u, hu⟩ := Option.ne_none_iff_exists'.mp hsome
    have hne : t ≠ u := fun heq => hother (heq ▸ hu)
    obtain ⟨hlt, hkept⟩ := h.remaining_step (Nat.ne_of_gt (h.remaining_of_held hu).1) (.inr hu)
    have hawaited : c.awaited t = c.remaining u := by
      rw [awaited, hu]
      exact if_neg hne.symm
    have hle : (c.step (.step u)).awaited t ≤ (c.step (.step u)).remaining u := by
      rw [awaited]
      rcases hkept with hheld | ⟨hnone, -⟩
      · rw [hheld]
        exact (if_neg hne.symm).le
      · rw [hnone]
        exact Nat.zero_le _
    refine ⟨u, .inr hu, ?_, hkept.symm.imp_left And.left⟩
    rw [(same_step_of_ne hne.symm).1, hawaited]
    omega

/-- **A call returns in every run in which its thread is not overtaken for ever.** -/
theorem Inv.returns (h : c.Inv) (t : Party ω) {fs : List (Event κ ω)}
    (hfs : 4 ≤ Transition.total step (unhindered t) c fs) :
    ∃ pre, pre <+: fs ∧ Transition.total step (unhindered t) c pre ≤ 4 ∧
      (Transition.run step c pre).Returned t := by
  obtain ⟨pre, hpre, hwork, -, hzero⟩ :=
    Transition.exists_prefix_of_potential (Φ := (remaining · t)) (J := Inv) (unhindered t)
      (fun c e hc hne => ⟨inv_step c e hc, hc.unhindered_add_le hne e⟩) h (remaining_le.trans hfs)
  exact ⟨pre, hpre, hwork.trans remaining_le, remaining_eq_zero.mp hzero⟩

/-- **The thread inside unlocks the mutex in every run in which it takes its steps.** -/
theorem Inv.leaves (h : c.Inv) (hmutex : c.mutex = some u) {fs : List (Event κ ω)}
    (hfs : 3 ≤ fs.countP (Event.stepOf u)) :
    ∃ pre, pre <+: fs ∧ pre.countP (Event.stepOf u) ≤ 3 ∧
      (Transition.run step c pre).mutex = none ∧ (Transition.run step c pre).Returned u := by
  have hcount (gs : List (Event κ ω)) :
      Transition.total step (fun _ e => if e.stepOf u then 1 else 0) c gs =
        gs.countP (Event.stepOf u) :=
    (Transition.total_ite _ _ _ _).trans (Nat.one_mul _)
  have henough := (h.remaining_of_held hmutex).2.trans hfs
  rw [← hcount] at henough
  obtain ⟨pre, hpre, hwork, ⟨hinv, hkept⟩, hzero⟩ :=
    Transition.exists_prefix_of_potential (Φ := (remaining · u))
      (J := fun c : WritingClient κ ω => c.Inv ∧ (c.Critical u ∨ c.mutex = none ∧ c.Returned u))
      (fun _ (e : Event κ ω) => if e.stepOf u then 1 else 0)
      (fun c e ⟨hc, hkept⟩ hne => by
        have hcritical := hkept.resolve_right fun hout => hne (remaining_eq_zero.mpr hout.2)
        obtain ⟨hle, hkept'⟩ := hc.inside_step hcritical e
        exact ⟨⟨inv_step c e hc, hkept'⟩, hle⟩)
      ⟨h, .inl ((h.guards u).mpr hmutex)⟩ henough
  rw [hcount] at hwork
  refine ⟨pre, hpre, hwork.trans (h.remaining_of_held hmutex).2,
    hkept.resolve_left fun hcritical => ?_⟩
  exact Nat.ne_of_gt (hinv.remaining_of_held (hinv.guards.holder_eq hcritical)).1 hzero

/-- A thread can return, by its own steps and those of the thread that holds the mutex. -/
theorem Inv.can_return (h : c.Inv) (t : Party ω) :
    ∃ us : List (Party ω), us.length ≤ 7 ∧ (∀ u ∈ us, u = t ∨ c.mutex = some u) ∧
      (Transition.run step c (us.map .step)).Returned t := by
  -- nobody but `t` comes in
  have hnext (s : WritingClient κ ω)
      (hs : s.Inv ∧ (s.mutex = none ∨ s.mutex = some t ∨ s.mutex = c.mutex))
      (hne : s.remaining t + s.awaited t ≠ 0) : ∃ u, (u = t ∨ c.mutex = some u) ∧
        ((s.step (.step u)).Inv ∧ ((s.step (.step u)).mutex = none ∨
          (s.step (.step u)).mutex = some t ∨ (s.step (.step u)).mutex = c.mutex)) ∧
        (s.step (.step u)).remaining t + (s.step (.step u)).awaited t <
          s.remaining t + s.awaited t := by
    obtain ⟨u, hu, hlt, hkept⟩ := hs.1.exists_closer hne
    have hu' : u = t ∨ c.mutex = some u := by
      rcases hu with hself | hheld
      · exact .inl hself
      · rcases hs.2 with hnone | hself | hsame
        · simp [hheld] at hnone
        · exact .inl (by simpa [hheld] using hself)
        · exact .inr (hsame ▸ hheld)
    refine ⟨u, hu', ⟨inv_step s _ hs.1, ?_⟩, hlt⟩
    rcases hkept with hnone | hheld
    · exact .inl hnone
    · rcases hu' with hself | hsame
      · exact .inr (.inl (hself ▸ hheld))
      · exact .inr (.inr (hheld.trans hsame.symm))
  obtain ⟨us, hlen, hmeets, -, hzero⟩ :=
    Transition.exists_run_of_potential (C := fun _ u => u = t ∨ c.mutex = some u) hnext
      ⟨h, .inr (.inr rfl)⟩
  refine ⟨us, hlen.trans (Nat.add_le_add remaining_le h.awaited_le),
    Transition.meets_iff_forall.mp hmeets, remaining_eq_zero.mp ?_⟩
  have hrun : Transition.run step c (us.map .step) =
      Transition.run (fun s u => step s (.step u)) c us := List.foldl_map
  rw [hrun]
  exact Nat.eq_zero_of_add_eq_zero_right hzero

end Remaining

/-- **How calls return.** From every state that a run reaches, and for every thread `t`, whatever
the others do and whatever calls begin: in every continuation, by the time that `t` has taken four
steps that did not find the mutex held by another thread, it is in no call, or has returned from it;
and by the time that the thread that holds the mutex has taken three steps, it has unlocked it. And
there is a continuation of at most seven steps, those of `t` and of the thread that holds the mutex,
after which `t` is in no call. -/
theorem exists_returned (es : List (Event κ ω)) (t : Party ω) :
    let c := Transition.run step {} es
    (∀ fs, 4 ≤ Transition.total step (unhindered t) c fs →
      ∃ pre, pre <+: fs ∧ Transition.total step (unhindered t) c pre ≤ 4 ∧
        (Transition.run step c pre).Returned t) ∧
      (∀ fs, c.mutex = some t → 3 ≤ fs.countP (Event.stepOf t) →
        ∃ pre, pre <+: fs ∧ pre.countP (Event.stepOf t) ≤ 3 ∧
          (Transition.run step c pre).mutex = none ∧ (Transition.run step c pre).Returned t) ∧
      ∃ us : List (Party ω), us.length ≤ 7 ∧ (∀ u ∈ us, u = t ∨ c.mutex = some u) ∧
        (Transition.run step c (us.map .step)).Returned t := by
  intro c
  have h : c.Inv := inv_run es
  exact ⟨fun _ hfs => h.returns t hfs, fun _ hmutex hfs => h.leaves hmutex hfs, h.can_return t⟩

/-- A thread waits for another one that is inside, and then goes on. -/
theorem exists_returned_waiting :
    let c : WritingClient ℕ ℕ := Transition.run step {}
      [.call (.write 0 [7]), .call (.write 1 [8]), .step (.writer 1)]
    let fs : List (Event ℕ ℕ) :=
      [.step (.writer 0), .step (.writer 1), .step (.writer 1), .step (.writer 0),
        .call (.onConnection 5 true), .step (.writer 0), .step (.writer 0), .step (.writer 0)]
    ∃ pre, pre <+: fs ∧ Transition.total step (unhindered (.writer 0)) c pre ≤ 4 ∧
      (Transition.run step c pre).Returned (.writer 0) :=
  (exists_returned [.call (.write 0 [7]), .call (.write 1 [8]), .step (.writer 1)]
    (.writer 0)).1 _ (by decide)

end WritingClient
