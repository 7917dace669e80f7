import CameraVideoStream.Foundation.Ledger
import Mathlib.Data.Finset.Filter
import Mathlib.Data.Finset.Basic
import Mathlib.Data.Int.Notation

/-!
# The calls that the camera module makes, and what the kernel makes of them

`server/cameraapp.cc` talks to a Video4Linux device through `open`, `ioctl`, `select`, `mmap`,
`munmap` and `close`, and to the heap through `calloc` and `free`. A run of the module leaves a list
of such calls with their results (`V4l2.Event`). From it follow the descriptors that are open, those
that are streaming and the buffers that are queued in the driver (`V4l2.Os`), and what the process
holds (`V4l2.held`).

## Main definitions

* `V4l2.Event`, `V4l2.Ioctl`: the calls.
* `V4l2.Os`, `V4l2.Os.ofTrace`: the descriptors and the queues of the driver.
* `V4l2.Resource`, `V4l2.held`: the ledger of descriptors, mappings and heap blocks.
* `V4l2.mappedAt`: how many bytes can be read at an address.
-/

namespace V4l2

/-- `V4L2_BUF_TYPE_VIDEO_CAPTURE` and `V4L2_BUF_TYPE_VIDEO_CAPTURE_MPLANE`. -/
inductive BufType where
  | videoCapture
  | videoCaptureMplane
  deriving DecidableEq

/-- The requests, with what the module puts into them. `dqBuf` carries the index of the buffer that
the driver hands out. The type of the static `vbuf` is unset until streaming has been on. -/
inductive Ioctl where
  | queryCap
  | sInput (index : UInt32)
  | sParm (type : BufType) (numerator denominator : UInt32)
  | sFmt (type : BufType) (width height : UInt32)
  | gFmt
  | reqBufs (type : BufType) (count : UInt32)
  | queryBuf (type : BufType) (index : ℕ)
  | qBuf (type : Option BufType) (index : ℕ)
  | dqBuf (type : Option BufType) (index : ℕ)
  | streamOn (type : BufType)
  | streamOff (type : BufType)
  deriving DecidableEq

/-- A call and its result. `open` that fails gives a negative descriptor, `calloc` that fails the
null pointer, `mmap` that fails `MAP_FAILED`. `memcpy` copies `length` bytes from the first plane of
the buffer `index`. -/
inductive Event where
  | openDevice (fd : ℤ)
  | ioctl (fd : ℤ) (request : Ioctl) (ok : Bool)
  | select (fd : ℤ)
  | close (fd : ℤ)
  | mmap (addr : UInt64) (length : ℕ) (offset : UInt32)
  | munmap (addr : UInt64) (length : ℕ)
  | calloc (ptr : UInt64)
  | free (ptr : UInt64)
  | memcpy (index : ℕ) (length : ℤ)
  deriving DecidableEq

/-! ### Descriptors and queues -/

/-- The descriptors that are open, those of them that are streaming, and the buffers queued in the
driver, by descriptor and index. `misused` records a call on a descriptor that is not open. -/
structure Os where
  opened : Finset ℤ := ∅
  streaming : Finset ℤ := ∅
  queued : Finset (ℤ × ℕ) := ∅
  misused : Bool := false
  deriving DecidableEq

namespace Os

/-- A call on the descriptor `fd`. -/
def use (os : Os) (fd : ℤ) : Os :=
  { os with misused := os.misused || decide (fd ∉ os.opened) }

/-- The driver gives up all buffers of `fd`. -/
def dropBuffers (os : Os) (fd : ℤ) : Os :=
  { os with queued := os.queued.filter (·.1 ≠ fd) }

/-- What a request that succeeds does. -/
def serve (os : Os) (fd : ℤ) : Ioctl → Os
  | .qBuf _ index => { os with queued := insert (fd, index) os.queued }
  | .dqBuf _ index => { os with queued := os.queued.erase (fd, index) }
  | .streamOn _ => { os with streaming := insert fd os.streaming }
  | .streamOff _ => { os with streaming := os.streaming.erase fd }.dropBuffers fd
  | _ => os

/-- What a call does. A descriptor that is new is not streaming and has no buffers; closing one ends
its streaming. -/
def issue (os : Os) : Event → Os
  | .openDevice fd =>
    if 0 ≤ fd then
      { os with
        opened := insert fd os.opened
        streaming := os.streaming.erase fd }.dropBuffers fd
    else
      os
  | .ioctl fd request ok => if ok then (os.use fd).serve fd request else os.use fd
  | .select fd => os.use fd
  | .close fd =>
    { os.use fd with
      opened := os.opened.erase fd
      streaming := os.streaming.erase fd }.dropBuffers fd
  | _ => os

/-- The state after the calls `trace`. -/
def ofTrace (trace : List Event) : Os := trace.foldl issue {}

@[simp] theorem ofTrace_nil : ofTrace [] = {} := rfl

@[simp] theorem ofTrace_concat (trace : List Event) (e : Event) :
    ofTrace (trace ++ [e]) = (ofTrace trace).issue e := by
  simp [ofTrace]

/-- A call on an open descriptor is no misuse. -/
theorem use_eq {os : Os} {fd : ℤ} (h : fd ∈ os.opened) : os.use fd = os := by
  simp [use, h]

theorem issue_ioctl {os : Os} {fd : ℤ} (h : fd ∈ os.opened) (request : Ioctl) (ok : Bool) :
    os.issue (.ioctl fd request ok) = if ok then os.serve fd request else os := by
  rw [issue, use_eq h]

theorem queued_issue_ioctl (os : Os) (fd : ℤ) (request : Ioctl) (ok : Bool) :
    (os.issue (.ioctl fd request ok)).queued =
      if ok then (os.serve fd request).queued else os.queued := by
  cases ok with
  | false => rfl
  | true => cases request <;> rfl

theorem issue_openDevice (os : Os) {fd : ℤ} (h : 0 ≤ fd) :
    os.issue (.openDevice fd) =
      { os with
        opened := insert fd os.opened
        streaming := os.streaming.erase fd }.dropBuffers fd := by
  rw [issue, if_pos h]

theorem issue_close {os : Os} {fd : ℤ} (h : fd ∈ os.opened) :
    os.issue (.close fd) =
      { os with
        opened := os.opened.erase fd
        streaming := os.streaming.erase fd }.dropBuffers fd := by
  rw [issue, use_eq h]

end Os

/-- The calls on `fd` that neither open nor close it and neither start nor stop its streaming, and
those that are not about a descriptor. -/
def Event.Quiet (fd : ℤ) : Event → Prop
  | .openDevice _ => False
  | .close _ => False
  | .ioctl fd' (.streamOn _) ok => fd' = fd ∧ ok = false
  | .ioctl fd' (.streamOff _) ok => fd' = fd ∧ ok = false
  | .ioctl fd' _ _ => fd' = fd
  | .select fd' => fd' = fd
  | _ => True

/-- Quiet calls on an open descriptor leave all descriptors as they are. -/
theorem Event.Quiet.issue {fd : ℤ} {e : Event} (he : e.Quiet fd) {os : Os} (hfd : fd ∈ os.opened) :
    (os.issue e).opened = os.opened ∧ (os.issue e).streaming = os.streaming ∧
      (os.issue e).misused = os.misused := by
  cases e with
  | ioctl fd' request ok =>
    cases request <;> cases ok <;> simp_all [Quiet, Os.issue, Os.serve, Os.use_eq]
  | _ => simp_all [Quiet, Os.issue, Os.use_eq]

/-- The requests that neither move a buffer nor start or stop streaming. -/
def Ioctl.Plain : Ioctl → Prop
  | .qBuf _ _ => False
  | .dqBuf _ _ => False
  | .streamOn _ => False
  | .streamOff _ => False
  | _ => True

/-- The calls that ask or set up the device and hold nothing. -/
def Event.Plain : Event → Prop
  | .ioctl _ request _ => request.Plain
  | _ => False

/-- The calls that a `cam_init` that succeeds makes. -/
def Event.Initial : Event → Prop
  | .openDevice _ => True
  | .ioctl _ (.qBuf _ _) _ => True
  | .ioctl _ request _ => request.Plain
  | .mmap _ _ _ => True
  | .calloc _ => True
  | .free _ => True
  | _ => False

theorem Event.Plain.initial {e : Event} (he : e.Plain) : e.Initial := by
  cases e with
  | ioctl fd request ok => cases request <;> trivial
  | _ => exact he.elim

/-- The calls that move no buffer and drop none. -/
def Event.KeepsQueue : Event → Prop
  | .openDevice _ => False
  | .close _ => False
  | .ioctl _ (.qBuf _ _) _ => False
  | .ioctl _ (.dqBuf _ _) ok => ok = false
  | .ioctl _ (.streamOff _) ok => ok = false
  | _ => True

theorem Event.KeepsQueue.issue {e : Event} (he : e.KeepsQueue) (os : Os) :
    (os.issue e).queued = os.queued := by
  cases e with
  | ioctl fd request ok => cases request <;> cases ok <;> first | rfl | simp [KeepsQueue] at he
  | openDevice fd => exact he.elim
  | close fd => exact he.elim
  | _ => rfl

theorem Event.Plain.keepsQueue {e : Event} (he : e.Plain) : e.KeepsQueue := by
  cases e with
  | ioctl fd request ok => cases request <;> trivial
  | _ => exact he.elim

theorem Os.queued_ofTrace_append {es : List Event} (hes : ∀ e ∈ es, e.KeepsQueue)
    (trace : List Event) : (ofTrace (trace ++ es)).queued = (ofTrace trace).queued := by
  induction es generalizing trace with
  | nil => rw [List.append_nil]
  | cons e es ih =>
    rw [List.append_cons, ih fun e' he' => hes e' (List.mem_cons_of_mem _ he'), ofTrace_concat,
      (hes e List.mem_cons_self).issue]

/-! ### The ledger -/

/-- What the process holds: a descriptor, a mapping, a heap block. -/
inductive Resource where
  | descriptor (fd : ℤ)
  | mapping (addr : UInt64) (length : ℕ)
  | block (ptr : UInt64)
  deriving DecidableEq

/-- `MAP_FAILED`. -/
def mapFailed : UInt64 := 0xffffffffffffffff

open Ledger in
/-- The entries of a call in the ledger. A call that fails acquires nothing, and the null pointer
can be freed. -/
def Event.entries : Event → List (Entry Resource)
  | .openDevice fd => if 0 ≤ fd then [.acquire (.descriptor fd)] else []
  | .close fd => [.release (.descriptor fd)]
  | .mmap addr length _ => if addr = mapFailed then [] else [.acquire (.mapping addr length)]
  | .munmap addr length => [.release (.mapping addr length)]
  | .calloc ptr => if ptr = 0 then [] else [.acquire (.block ptr)]
  | .free ptr => if ptr = 0 then [] else [.release (.block ptr)]
  | _ => []

/-- What is held after the calls `trace`; nothing is known once something has been released that was
not held. -/
def held (trace : List Event) : Option (Multiset Resource) :=
  Ledger.replay (some 0) (trace.flatMap Event.entries)

@[simp] theorem held_nil : held [] = some 0 := rfl

theorem held_append (trace events : List Event) :
    held (trace ++ events) = Ledger.replay (held trace) (events.flatMap Event.entries) := by
  rw [held, List.flatMap_append, Ledger.replay_append]
  rfl

@[simp] theorem held_concat (trace : List Event) (e : Event) :
    held (trace ++ [e]) = Ledger.replay (held trace) e.entries := by
  rw [held_append, List.flatMap_singleton]

/-- What `calloc` that gave `ptr` has acquired. -/
def blocks (ptr : UInt64) : Multiset Resource := if ptr = 0 then 0 else {.block ptr}

theorem held_calloc {trace : List Event} {h : Multiset Resource} (hheld : held trace = some h)
    (ptr : UInt64) : held (trace ++ [.calloc ptr]) = some (blocks ptr + h) := by
  rw [held_concat, hheld, Event.entries, blocks]
  split_ifs
  · simp
  · simp

theorem held_free {trace : List Event} {h : Multiset Resource} {ptr : UInt64}
    (hheld : held trace = some (blocks ptr + h)) : held (trace ++ [.free ptr]) = some h := by
  rw [held_concat, hheld, Event.entries, blocks]
  split_ifs
  · simp
  · simp

/-- Calls without entries leave the ledger as it is. -/
theorem held_append_of_entries {es : List Event} (hes : ∀ e ∈ es, e.entries = [])
    (trace : List Event) : held (trace ++ es) = held trace := by
  rw [held_append, List.flatMap_eq_nil_iff.mpr hes, Ledger.replay_nil]

theorem Event.Plain.entries {e : Event} (he : e.Plain) : e.entries = [] := by
  cases e with
  | ioctl fd request ok => rfl
  | _ => exact he.elim

/-! ### What is mapped at an address -/

/-- What a call does to the number `n` of bytes that are mapped at `addr`. `mmap` never gives an
address twice as long as something is mapped there. -/
def mapsAt (addr : UInt64) (n : ℕ) : Event → ℕ
  | .mmap start length _ => if start = addr ∧ start ≠ mapFailed then max n length else n
  | .munmap start _ => if start = addr then 0 else n
  | _ => n

/-- The number of bytes that are mapped at `addr` after the calls `trace`. -/
def mappedAt (trace : List Event) (addr : UInt64) : ℕ := trace.foldl (mapsAt addr) 0

/-- The calls that neither map nor unmap. -/
def Event.KeepsMemory : Event → Prop
  | .mmap _ _ _ => False
  | .munmap _ _ => False
  | _ => True

theorem mappedAt_append_of_keeps {es : List Event} (hes : ∀ e ∈ es, e.KeepsMemory)
    (trace : List Event) (addr : UInt64) : mappedAt (trace ++ es) addr = mappedAt trace addr := by
  rw [mappedAt, List.foldl_append, ← mappedAt]
  generalize mappedAt trace addr = n
  induction es with
  | nil => rfl
  | cons e es ih =>
    have hkeeps : mapsAt addr n e = n := by
      have he := hes e List.mem_cons_self
      cases e <;> first | rfl | exact he.elim
    rw [List.foldl_cons, hkeeps]
    exact ih fun e' he' => hes e' (List.mem_cons_of_mem _ he')

/-- Nothing is mapped at `MAP_FAILED`. -/
theorem mappedAt_mapFailed (trace : List Event) : mappedAt trace mapFailed = 0 := by
  induction trace using List.reverseRecOn with
  | nil => rfl
  | append_singleton trace e ih =>
    rw [mappedAt, List.foldl_append, ← mappedAt, ih]
    cases e with
    | mmap start length offset => exact if_neg fun h => h.2 h.1
    | munmap start length => exact ite_self 0
    | _ => rfl

/-- What has been mapped stays mapped as long as nothing is unmapped. -/
theorem le_mappedAt {trace : List Event} (hkept : ∀ e ∈ trace, ∀ start n, e ≠ .munmap start n)
    {addr : UInt64} {length : ℕ} {offset : UInt32} (hmem : .mmap addr length offset ∈ trace)
    (hmap : addr ≠ mapFailed) : length ≤ mappedAt trace addr := by
  induction trace using List.reverseRecOn with
  | nil => simp at hmem
  | append_singleton trace e ih =>
    have hmono : mappedAt trace addr ≤ mapsAt addr (mappedAt trace addr) e := by
      cases e with
      | mmap start n offset =>
        rw [mapsAt]
        split_ifs
        · exact le_max_left _ _
        · exact le_rfl
      | munmap start n => exact absurd rfl (hkept _ (by simp) start n)
      | _ => exact le_rfl
    rw [mappedAt, List.foldl_append, ← mappedAt]
    rcases List.mem_append.mp hmem with hold | hnew
    · exact (ih (fun e' he' => hkept e' (List.mem_append_left _ he')) hold).trans hmono
    · rw [← List.mem_singleton.mp hnew]
      exact (le_max_right _ _).trans_eq (if_pos ⟨rfl, hmap⟩).symm

end V4l2
