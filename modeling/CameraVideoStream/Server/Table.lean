import CameraVideoStream.Server.Queue

/-!
# The table of the buffers

`camera_capture` and `camera_deinit` read `camera.buffers[i].start[j]` and
`camera.buffers[i].length[j]` for every buffer that `camera.buf_count` counts and every plane of it.
`cam_init` enters whatever `mmap` gives, `MAP_FAILED` included, and as many planes as the driver
says, while `struct buffer` has room for four and the others are entered over what is behind. So a
successful `cam_init` leaves a usable table
exactly if every `mmap` has succeeded and no buffer has more than four planes
(`CameraApp.usableTable_iff`). That every buffer has been queued exactly once is so in any case.

## Main definitions

* `CameraApp.UsableTable`: what a successful `cam_init` is to leave.
* `CameraApp.MapsAll`: the condition on what the driver answers.

## Main results

* `CameraApp.Initialised.countP_queues`: every buffer is queued once.
* `CameraApp.usableTable_iff`.
-/

open V4l2

/-- `VIDIOC_QBUF` of the buffer `n`, with success. -/
def V4l2.Event.queues (n : ℕ) : Event → Bool
  | .ioctl _ (.qBuf _ index) ok => ok && decide (index = n)
  | _ => false

theorem V4l2.Event.KeepsQueue.queues {e : Event} (he : e.KeepsQueue) (n : ℕ) :
    e.queues n = false := by
  cases e with
  | ioctl fd request ok =>
    cases request with
    | qBuf type index => exact he.elim
    | _ => rfl
  | _ => rfl

namespace CameraApp

/-- What a successful `cam_init` from `m` to `m'` is to leave: each plane that is read has room in
`struct buffer`, and is entered with the address and the length of a mapping that has succeeded;
each buffer has been queued exactly once. -/
structure UsableTable (m m' : CameraApp) : Prop where
  planes : ∀ n < m'.buffersCount, ∀ j < m'.planeCount, j < 4
  mapped : ∀ n < m'.buffersCount, ∀ j < m'.planeCount,
    (m'.camera.table n j).start ≠ mapFailed ∧
      ∃ offset, Event.mmap (m'.camera.table n j).start (m'.camera.table n j).length offset ∈
        m'.callsSince m
  queued : ∀ n < m'.buffersCount, (m'.callsSince m).countP (Event.queues n) = 1

/-- The buffers that `camera.buf_count` is to count. -/
def countedBuffers (a : InitAnswers) : ℕ := (toInt (a.reqBufs.getD 0)).toNat

/-- The buffers that are counted have no more planes than `struct buffer`, and each of these is
mapped with success. -/
structure MapsAll (a : InitAnswers) : Prop where
  numPlanes : 0 < countedBuffers a → a.numPlanes ≤ 4
  mmap : ∀ n < countedBuffers a, ∀ j < a.numPlanes, a.mmap n j ≠ mapFailed

theorem countedBuffers_le (a : InitAnswers) : countedBuffers a ≤ reqCount a := by
  rw [countedBuffers, reqCount]
  rcases toInt_cases (a.reqBufs.getD 0) with ⟨heq, -⟩ | ⟨hneg, -⟩ <;> omega

/-! ### Every buffer is queued once -/

theorem countP_queueCalls (a : InitAnswers) (m : CameraApp) (i n : ℕ) :
    (queueCalls a m i).countP (Event.queues n) = if i = n then 1 else 0 := by
  have hplanes (e : Event) (he : e.KeepsQueue) : (m.mplaneCall e).countP (Event.queues n) = 0 := by
    refine List.countP_eq_zero.mpr fun e' he' => ?_
    rw [mem_mplaneCall he', he.queues]
    exact Bool.false_ne_true
  rw [queueCalls, List.countP_append, List.countP_append, hplanes _ (by trivial),
    hplanes _ (by trivial), List.countP_singleton]
  simp [Event.queues]

theorem countP_queueLoop (a : InitAnswers) (m : CameraApp) (k n : ℕ) :
    ((List.range k).flatMap (queueCalls a m)).countP (Event.queues n) = if n < k then 1 else 0 := by
  induction k with
  | zero => rfl
  | succ k ih =>
    rw [List.range_succ, List.flatMap_append, List.flatMap_singleton, List.countP_append, ih,
      countP_queueCalls]
    split_ifs <;> omega

theorem Initialised.countP_queues {a : InitAnswers} {index : ℤ} {m m' : CameraApp}
    (h : Initialised a index m m') {n : ℕ} (hn : n < reqCount a) :
    (m'.callsSince m).countP (Event.queues n) = 1 := by
  obtain ⟨setup, hsetup, hcalls⟩ := h.callsSince
  have hnone : ∀ es : List Event, (∀ e ∈ es, e.KeepsQueue) → es.countP (Event.queues n) = 0 := by
    intro es hes
    refine List.countP_eq_zero.mpr fun e he => ?_
    rw [(hes e he).queues]
    exact Bool.false_ne_true
  have hquery : ∀ e ∈ (List.range (reqCount a)).flatMap (queryCalls a m'), e.KeepsQueue := by
    intro e he
    obtain ⟨i, -, hi⟩ := List.mem_flatMap.mp he
    exact keepsQueue_queryCalls a m' i e hi
  rw [hcalls, List.countP_cons_of_neg Bool.false_ne_true, List.countP_append, List.countP_append,
    hnone _ hsetup, hnone _ hquery, countP_queueLoop, if_pos hn]

/-! ### The table -/

theorem Initialised.buffersCount {a : InitAnswers} {index : ℤ} {m m' : CameraApp}
    (h : Initialised a index m m') : m'.buffersCount = countedBuffers a := by
  rw [CameraApp.buffersCount, h.bufCount, countedBuffers]

/-- **When a successful `cam_init` leaves a usable table.** Whatever kind of device it is, however
many buffers and planes the driver answers and whatever the calls give: if `cam_init` returns `0`,
every plane that is read later is entered with a mapping that has succeeded and has room in `struct
buffer`, and every buffer has been queued exactly once, exactly when every `mmap` for the buffers
counted has succeeded and they have no more than four planes. -/
theorem usableTable_iff {a : InitAnswers} {index width height : ℤ} {m : CameraApp}
    (hinit : (m.camInit a index width height).1 = some 0) :
    UsableTable m (m.camInit a index width height).2 ↔ MapsAll a := by
  have h := initialised_of_camInit hinit
  generalize (m.camInit a index width height).2 = m' at h
  have hcount := h.buffersCount
  have hreq {n : ℕ} (hn : n < countedBuffers a) : n < reqCount a :=
    hn.trans_le (countedBuffers_le a)
  constructor
  · rintro ⟨hplanes, hmapped, -⟩
    rw [hcount] at hplanes hmapped
    have hfour : 0 < countedBuffers a → m'.planeCount ≤ 4 := by
      intro hpos
      by_contra hfive
      exact absurd (hplanes 0 hpos 4 (by omega)) (Nat.lt_irrefl 4)
    refine ⟨h.planeCount ▸ hfour, fun n hn j hj => ?_⟩
    rw [← h.planeCount] at hj
    have hstart := (hmapped n hn j hj).1
    rwa [h.table (hfour (Nat.zero_lt_of_lt hn)) n (hreq hn) j hj] at hstart
  · rintro ⟨hfour, hmmap⟩
    refine ⟨fun n hn j hj => ?_, fun n hn j hj => ?_, fun n hn => ?_⟩
    · rw [hcount] at hn
      rw [h.planeCount] at hj
      exact hj.trans_le (hfour (Nat.zero_lt_of_lt hn))
    · rw [hcount] at hn
      have hle : m'.planeCount ≤ 4 := h.planeCount ▸ hfour (Nat.zero_lt_of_lt hn)
      rw [h.table hle n (hreq hn) j hj]
      exact ⟨hmmap n hn j (h.planeCount ▸ hj), _, h.mmapCall_mem (hreq hn) hj⟩
    · rw [hcount] at hn
      exact h.countP_queues (hreq hn)

/-- A device with two buffers that can be mapped. -/
theorem usableTable_iff_two :
    UsableTable {} (({} : CameraApp).camInit (.singlePlanar 2 100) 0 1920 1080).2 ↔
      MapsAll (.singlePlanar 2 100) :=
  usableTable_iff (by decide)

/-- The only buffer cannot be mapped: `cam_init` enters `MAP_FAILED` and returns `0`. -/
theorem not_usableTable :
    ¬ ∀ a index width height (m : CameraApp), (m.camInit a index width height).1 = some 0 →
      UsableTable m (m.camInit a index width height).2 := by
  intro h
  let a : InitAnswers := { InitAnswers.singlePlanar 1 100 with mmap := fun _ _ => mapFailed }
  have htable := h a 0 1920 1080 {} (by decide)
  exact (htable.mapped 0 (by decide) 0 (by decide)).1 (by decide)

end CameraApp
