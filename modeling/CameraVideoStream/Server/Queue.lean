import CameraVideoStream.Foundation.Transition
import CameraVideoStream.Server.Buffers
import CameraVideoStream.Server.CameraCapture

/-!
# The buffers in the driver

`cam_init` queues every buffer in the driver, `camera_capture` takes one out and queues it again,
and `VIDIOC_STREAMOFF` makes the driver give all of them up. `camera_streamon` queues none. So while
streaming is on every buffer is in the driver, until streaming is switched on again after it has
been switched off (`CameraApp.KeepsBuffers`): then the driver has no buffer, or at most the one that
a `camera_capture` in between has queued.

## Main definitions

* `CameraApp.AllQueued`: every buffer is in the driver.
* `CameraApp.History`: what has become of the buffers.
* `CameraApp.Lawful`: what V4L2 promises about the answers.
* `CameraApp.KeepsBuffers`: the condition on the calls.

## Main results

* `CameraApp.allQueued_iff_meets`.
-/

open V4l2

namespace CameraApp

/-- What has become of the buffers that `cam_init` queued: the driver kept them; it dropped them;
it dropped them, and `VIDIOC_QBUF` has been issued since. -/
inductive History where
  | kept
  | dropped
  | requeued
  deriving DecidableEq

/-- The history after one more call. -/
def History.next : History → Event → History
  | _, .ioctl _ (.streamOff _) true => .dropped
  | .dropped, .ioctl _ (.qBuf _ _) _ => .requeued
  | h, _ => h

/-- The history of the calls made so far. -/
def history (m : CameraApp) : History := m.trace.foldl History.next .kept

@[simp] theorem history_sys (m : CameraApp) (e : Event) :
    (m.sys e).history = m.history.next e := by
  simp [history, sys]

/-- The buffers that `camera.buf_count` counts. -/
def buffersCount (m : CameraApp) : ℕ := m.camera.bufCount.toNat

/-- Buffer `i` is queued in the driver. -/
def Queued (m : CameraApp) (i : ℕ) : Prop := (m.camera.videofd, i) ∈ m.os.queued

instance (m : CameraApp) (i : ℕ) : Decidable (m.Queued i) :=
  inferInstanceAs (Decidable ((m.camera.videofd, i) ∈ m.os.queued))

theorem buffersCount_congr {m m' : CameraApp} (h : m'.camera.bufCount = m.camera.bufCount) :
    m'.buffersCount = m.buffersCount := by
  rw [buffersCount, buffersCount, h]

theorem queued_congr {m m' : CameraApp} (hfd : m'.camera.videofd = m.camera.videofd)
    (hqueued : m'.os.queued = m.os.queued) (i : ℕ) : m'.Queued i ↔ m.Queued i := by
  rw [Queued, Queued, hfd, hqueued]

/-- While streaming is on, every buffer is queued in the driver. -/
def AllQueued (m : CameraApp) : Prop := m.streamOn = true → ∀ i < m.buffersCount, m.Queued i

/-- The answers to a capture are as V4L2 promises: `VIDIOC_DQBUF` takes out a buffer that is queued,
or fails, and `VIDIOC_QBUF` succeeds on a buffer exactly when it is not queued. -/
structure CaptureLawful (m : CameraApp) (a : CaptureAnswers) : Prop where
  dequeue : ∀ d, a.dqBuf = some d → m.Queued d.index.toNat
  queue : (m.dequeue a).vbuf.index.toNat < m.buffersCount →
    (a.qBuf = true ↔ ¬ (m.dequeue a).Queued (m.dequeue a).vbuf.index.toNat)

/-- The answers are as V4L2 promises, and only the three functions of a device in use are called. -/
def Lawful (m : CameraApp) : Call → Prop
  | .cameraStreamon _ => True
  | .cameraCapture a =>
    a.select ≠ -1 → a.select ≠ 0 → (m.sys (.select m.camera.videofd)).CaptureLawful a
  | .cameraStreamoff _ => True
  | _ => False

/-- Streaming is switched on only if the driver has kept the buffers; after it has dropped them only
if there is none, or only one and `camera_capture` has queued that since. -/
def KeepsBuffers (m : CameraApp) : Call → Prop
  | .cameraStreamon a => m.crashed = false → a.streamOn = true →
      match m.history with
      | .kept => True
      | .dropped => m.buffersCount = 0
      | .requeued => m.buffersCount ≤ 1
  | _ => True

/-- What the calls keep, as long as every buffer is queued while streaming is on. -/
structure QueueInv (m : CameraApp) : Prop where
  bounded : 0 < m.buffersCount → ∀ i, m.Queued i → i < m.buffersCount
  index : 0 < m.buffersCount → m.vbuf.index.toNat < m.buffersCount
  kept : m.history = .kept → ∀ i < m.buffersCount, m.Queued i
  dropped : m.history = .dropped → ∀ i < m.buffersCount, ¬ m.Queued i
  /-- Only the buffer of `vbuf` has been queued since. -/
  requeued : m.history = .requeued → ∀ i < m.buffersCount, (m.Queued i ↔ i = m.vbuf.index.toNat)

/-! ### Calls that move no buffer -/

theorem next_of_keepsQueue {e : Event} (he : e.KeepsQueue) (h : History) : h.next e = h := by
  cases e with
  | ioctl fd request ok =>
    cases h <;> cases request <;> cases ok <;> first | rfl | simp [Event.KeepsQueue] at he
  | _ => cases h <;> rfl

/-- From `m` to `m'` no buffer has been moved. -/
structure SameQueue (m m' : CameraApp) : Prop where
  videofd : m'.camera.videofd = m.camera.videofd
  bufCount : m'.camera.bufCount = m.camera.bufCount
  index : m'.vbuf.index = m.vbuf.index
  streamOn : m'.streamOn = m.streamOn
  crashed : m'.crashed = m.crashed
  queued : m'.os.queued = m.os.queued
  history : m'.history = m.history

theorem SameQueue.refl (m : CameraApp) : SameQueue m m := ⟨rfl, rfl, rfl, rfl, rfl, rfl, rfl⟩

theorem SameQueue.sys {m m' : CameraApp} (h : SameQueue m m') {e : Event} (he : e.KeepsQueue) :
    SameQueue m (m'.sys e) :=
  { h with
    queued := by rw [os_sys, he.issue, h.queued]
    history := by rw [history_sys, next_of_keepsQueue he, h.history] }

theorem SameQueue.buffersCount {m m' : CameraApp} (h : SameQueue m m') :
    m'.buffersCount = m.buffersCount :=
  buffersCount_congr h.bufCount

theorem SameQueue.queued_iff {m m' : CameraApp} (h : SameQueue m m') (i : ℕ) :
    m'.Queued i ↔ m.Queued i :=
  queued_congr h.videofd h.queued i

theorem QueueInv.of_sameQueue {m m' : CameraApp} (hm : m.QueueInv) (h : SameQueue m m') :
    m'.QueueInv := by
  refine ⟨?_, ?_, ?_, ?_, ?_⟩ <;>
    simp only [h.buffersCount, h.queued_iff, h.index, h.history]
  · exact hm.bounded
  · exact hm.index
  · exact hm.kept
  · exact hm.dropped
  · exact hm.requeued

/-! ### `camera_capture` -/

/-- From `m` to `m'` one buffer has been moved: that of `vbuf` has been queued, and it is the one of
an earlier call unless it was queued before. -/
structure Requeues (m m' : CameraApp) : Prop where
  streamOn : m'.streamOn = m.streamOn
  bufCount : m'.camera.bufCount = m.camera.bufCount
  history : m'.history = if m.history = .dropped then .requeued else m.history
  index : m'.vbuf.index = m.vbuf.index ∨ m.Queued m'.vbuf.index.toNat
  others : ∀ i ≠ m'.vbuf.index.toNat, (m'.Queued i ↔ m.Queued i)
  self : m'.vbuf.index.toNat < m.buffersCount → m'.Queued m'.vbuf.index.toNat

theorem Requeues.buffersCount {m m' : CameraApp} (h : Requeues m m') :
    m'.buffersCount = m.buffersCount :=
  buffersCount_congr h.bufCount

/-- The buffer that is queued is one of those that `camera.buf_count` counts. -/
theorem Requeues.index_lt {m m' : CameraApp} (h : Requeues m m') (hm : m.QueueInv)
    (hpos : 0 < m.buffersCount) : m'.vbuf.index.toNat < m.buffersCount := by
  rcases h.index with hsame | hqueued
  · rw [hsame]
    exact hm.index hpos
  · exact hm.bounded hpos _ hqueued

/-- No buffer is lost. -/
theorem Requeues.queued {m m' : CameraApp} (h : Requeues m m') {i : ℕ} (hi : i < m.buffersCount)
    (hqueued : m.Queued i) : m'.Queued i := by
  by_cases hself : i = m'.vbuf.index.toNat
  · rw [hself]
    exact h.self (hself ▸ hi)
  · exact (h.others i hself).mpr hqueued

theorem QueueInv.of_requeues {m m' : CameraApp} (hm : m.QueueInv) (h : Requeues m m') :
    m'.QueueInv where
  bounded hpos i hi := by
    rw [h.buffersCount] at hpos ⊢
    by_cases hself : i = m'.vbuf.index.toNat
    · rw [hself]
      exact h.index_lt hm hpos
    · exact hm.bounded hpos i ((h.others i hself).mp hi)
  index hpos := by
    rw [h.buffersCount] at hpos ⊢
    exact h.index_lt hm hpos
  kept hkept i hi := by
    rw [h.buffersCount] at hi
    rw [h.history] at hkept
    split_ifs at hkept
    exact h.queued hi (hm.kept hkept i hi)
  dropped hdropped := by
    rw [h.history] at hdropped
    split_ifs at hdropped with hold
    exact absurd hdropped hold
  requeued hrequeued i hi := by
    rw [h.buffersCount] at hi
    have hlt := h.index_lt hm (Nat.zero_lt_of_lt hi)
    by_cases hself : i = m'.vbuf.index.toNat
    · exact iff_of_true (hself ▸ h.self hlt) hself
    · refine iff_of_false ?_ hself
      rw [h.others i hself]
      rw [h.history] at hrequeued
      split_ifs at hrequeued with hold
      · exact hm.dropped hold i hi
      · -- the only buffer queued is that of `vbuf`, and it stays that of `vbuf`
        rw [hm.requeued hrequeued i hi]
        rcases h.index with hsame | hqueued
        · rwa [← hsame]
        · rwa [← (hm.requeued hrequeued _ hlt).mp hqueued]

/-- From `m` to `m'` the buffer of `vbuf` may have been taken out. -/
structure Dequeues (m m' : CameraApp) : Prop where
  streamOn : m'.streamOn = m.streamOn
  camera : m'.camera = m.camera
  history : m'.history = m.history
  index : m'.vbuf.index = m.vbuf.index ∨ m.Queued m'.vbuf.index.toNat
  others : ∀ i ≠ m'.vbuf.index.toNat, (m'.Queued i ↔ m.Queued i)

theorem dequeues_dequeue {m : CameraApp} {a : CaptureAnswers}
    (hlaw : ∀ d, a.dqBuf = some d → m.Queued d.index.toNat) : Dequeues m (m.dequeue a) := by
  cases hdq : a.dqBuf with
  | none =>
    have hsame : SameQueue m (m.ioctl (.dqBuf m.vbuf.type m.vbuf.index.toNat) false) :=
      (SameQueue.refl m).sys rfl
    simp only [dequeue, hdq]
    exact ⟨rfl, rfl, hsame.history, .inl rfl, fun i _ => hsame.queued_iff i⟩
  | some d =>
    have hhist (h : History) (fd : ℤ) (t : Option BufType) (i : ℕ) :
        h.next (.ioctl fd (.dqBuf t i) true) = h := by cases h <;> rfl
    simp only [dequeue, hdq]
    refine ⟨rfl, rfl, (history_sys _ _).trans (hhist _ _ _ _), .inr (hlaw d hdq), fun i hi => ?_⟩
    show (m.camera.videofd, i) ∈ (m.ioctl (.dqBuf m.vbuf.type d.index.toNat) true).os.queued ↔ _
    have hne : i ≠ d.index.toNat := hi
    rw [ioctl, os_sys, Os.queued_issue_ioctl, if_pos rfl]
    simp [Os.serve, Queued, hne]

/-- The copy moves no buffer, or kills the module. -/
theorem copyFrame_moves (m : CameraApp) (a : CaptureAnswers) (len : ℤ) :
    (m.copyFrame a len).Sat (SameQueue m) (fun _ m' => m'.crashed = true) := by
  rw [copyFrame]
  split_ifs
  · rfl
  · cases memcpy m.data a.memory (m.camera.table m.vbuf.index.toNat 0).start
        (mappedLength { m with len := len } m.vbuf.index.toNat) len with
    | none => rfl
    | some data =>
      exact { (SameQueue.refl m).sys (e := .memcpy m.vbuf.index.toNat len) trivial with }

/-- The buffer that has been taken out is queued, or is queued already. -/
theorem Dequeues.requeues {m m₁ m₂ : CameraApp} (hd : Dequeues m m₁) (h : SameQueue m₁ m₂)
    {ok : Bool} (hqueue : m₁.vbuf.index.toNat < m.buffersCount →
      (ok = true ↔ ¬ m₁.Queued m₁.vbuf.index.toNat)) (type : Option BufType) :
    Requeues m (m₂.ioctl (.qBuf type m₂.vbuf.index.toNat) ok) := by
  -- `VIDIOC_QBUF` leaves everything but the queue as it is
  have hindex : (m₂.ioctl (.qBuf type m₂.vbuf.index.toNat) ok).vbuf.index = m₁.vbuf.index :=
    h.index
  have hqueued (i : ℕ) :
      (m₂.ioctl (.qBuf type m₂.vbuf.index.toNat) ok).Queued i ↔
        ok = true ∧ i = m₁.vbuf.index.toNat ∨ m₁.Queued i := by
    rw [← h.queued_iff i, h.index]
    show (m₂.camera.videofd, i) ∈ (m₂.ioctl _ ok).os.queued ↔ _
    rw [ioctl, os_sys, Os.queued_issue_ioctl]
    cases ok <;> simp [Os.serve, Queued]
  refine ⟨h.streamOn.trans hd.streamOn, ?_, ?_, ?_, ?_, ?_⟩
  · show m₂.camera.bufCount = m.camera.bufCount
    rw [h.bufCount, hd.camera]
  · rw [ioctl, history_sys, h.history, hd.history]
    cases m.history <;> rfl
  · rw [hindex]
    exact hd.index
  · intro i hi
    have hne : i ≠ m₁.vbuf.index.toNat := by rwa [← hindex]
    rw [← hd.others i hne]
    simpa [hne] using hqueued i
  · intro hlt
    rw [hindex] at hlt ⊢
    rw [hqueued]
    by_cases hself : m₁.Queued m₁.vbuf.index.toNat
    · exact .inr hself
    · exact .inl ⟨(hqueue hlt).mpr hself, rfl⟩

theorem captureReady_cases {m : CameraApp} {a : CaptureAnswers} (hlaw : m.CaptureLawful a) :
    (m.captureReady a).2.crashed = true ∨ Requeues m (m.captureReady a).2 := by
  have hd := dequeues_dequeue hlaw.dequeue
  have hqueue := hlaw.queue
  rw [captureReady]
  generalize m.dequeue a = m₁ at hd hqueue
  have hmoves := copyFrame_moves m₁ a (toInt m₁.vbuf.bytesused)
  cases hcopy : m₁.copyFrame a (toInt m₁.vbuf.bytesused) with
  | exit r m₂ =>
    rw [hcopy] at hmoves
    exact .inl hmoves
  | next m₂ =>
    rw [hcopy] at hmoves
    exact .inr (hd.requeues hmoves hqueue m₂.vbuf.type)

/-! ### `camera_streamon` and `camera_streamoff` -/

theorem SameQueue.allQueued {m m' : CameraApp} (h : SameQueue m m') (hm : m.AllQueued) :
    m'.AllQueued := by
  rw [AllQueued, h.streamOn, h.buffersCount]
  exact fun hon i hi => (h.queued_iff i).mpr (hm hon i hi)

theorem Requeues.allQueued {m m' : CameraApp} (h : Requeues m m') (hm : m.AllQueued) :
    m'.AllQueued := by
  rw [AllQueued, h.streamOn, h.buffersCount]
  exact fun hon i hi => h.queued hi (hm hon i hi)

/-- `camera_streamon` that succeeds moves no buffer, sets `streamOn` and clears `vbuf`. -/
structure Starts (m m' : CameraApp) : Prop where
  videofd : m'.camera.videofd = m.camera.videofd
  bufCount : m'.camera.bufCount = m.camera.bufCount
  index : m'.vbuf.index = 0
  streamOn : m'.streamOn = true
  crashed : m'.crashed = m.crashed
  queued : m'.os.queued = m.os.queued
  history : m'.history = m.history

theorem starts_prepareVbuf {m m' : CameraApp} (h : SameQueue m m') (planes : UInt64) :
    Starts m ({ m' with streamOn := true }.prepareVbuf planes) := by
  rw [prepareVbuf]
  split_ifs
  · exact { h.sys (e := .calloc planes) trivial with index := rfl, streamOn := rfl }
  · exact { h with index := rfl, streamOn := rfl }

theorem starts_cameraStreamon {a : StreamonAnswers} (hok : a.streamOn = true) (m : CameraApp) :
    Starts m (m.cameraStreamon a).2 := by
  rw [cameraStreamon, hok, if_pos rfl]
  exact starts_prepareVbuf ((SameQueue.refl m).sys (by trivial)) a.calloc

theorem sameQueue_cameraStreamon {a : StreamonAnswers} (hok : a.streamOn = false) (m : CameraApp) :
    SameQueue m (m.cameraStreamon a).2 := by
  simp only [cameraStreamon, hok]
  exact (SameQueue.refl m).sys trivial

theorem Starts.buffersCount {m m' : CameraApp} (h : Starts m m') :
    m'.buffersCount = m.buffersCount :=
  buffersCount_congr h.bufCount

theorem Starts.queued_iff {m m' : CameraApp} (h : Starts m m') (i : ℕ) :
    m'.Queued i ↔ m.Queued i :=
  queued_congr h.videofd h.queued i

/-- Once streaming is on again every buffer is queued exactly if the driver has kept the buffers, or
there are no more than it has been given since. -/
theorem Starts.allQueued_iff {m m' : CameraApp} (h : Starts m m') (hm : m.QueueInv) :
    m'.AllQueued ↔
      match m.history with
      | .kept => True
      | .dropped => m.buffersCount = 0
      | .requeued => m.buffersCount ≤ 1 := by
  have hall : m'.AllQueued ↔ ∀ i < m.buffersCount, m.Queued i := by
    rw [AllQueued, h.buffersCount]
    simp only [h.streamOn, h.queued_iff, forall_const]
  rw [hall]
  cases hhist : m.history with
  | kept => exact iff_of_true (hm.kept hhist) trivial
  | dropped =>
    constructor
    · intro hqueued
      by_contra hpos
      exact hm.dropped hhist 0 (by omega) (hqueued 0 (by omega))
    · intro hzero i hi
      omega
  | requeued =>
    constructor
    · intro hqueued
      by_contra htwo
      have hfirst := (hm.requeued hhist 0 (by omega)).mp (hqueued 0 (by omega))
      have hsecond := (hm.requeued hhist 1 (by omega)).mp (hqueued 1 (by omega))
      omega
    · intro hone i hi
      have hlt := hm.index (by omega)
      exact (hm.requeued hhist i hi).mpr (by omega)

theorem QueueInv.of_starts {m m' : CameraApp} (hm : m.QueueInv) (h : Starts m m')
    (hall : m'.AllQueued) : m'.QueueInv := by
  have hiff := (h.allQueued_iff hm).mp hall
  refine ⟨?_, ?_, ?_, ?_, ?_⟩ <;>
    simp only [h.buffersCount, h.queued_iff, h.index, h.history]
  · exact hm.bounded
  · exact fun hpos => hpos
  · exact hm.kept
  · exact hm.dropped
  · intro hhist i hi
    rw [hhist] at hiff
    have hlt := hm.index (by omega)
    rw [hm.requeued hhist i hi]
    simp only [UInt32.toNat_zero]
    omega

/-- `camera_streamoff` that succeeds makes the driver drop every buffer. -/
structure Drops (m m' : CameraApp) : Prop where
  bufCount : m'.camera.bufCount = m.camera.bufCount
  index : m'.vbuf.index = m.vbuf.index
  streamOn : m'.streamOn = false
  notQueued : ∀ i, ¬ m'.Queued i
  history : m'.history = .dropped

theorem drops_cameraStreamoff {m : CameraApp} (hon : m.streamOn = true) :
    Drops m (m.cameraStreamoff true).2 := by
  rw [cameraStreamoff, hon, if_neg (by simp), if_pos rfl]
  -- the state after `VIDIOC_STREAMOFF`
  have hoff : ∀ i, (m.camera.videofd, i) ∉ (m.ioctl (.streamOff m.bufType) true).os.queued := by
    intro i
    rw [ioctl, os_sys, Os.queued_issue_ioctl, if_pos rfl]
    simp [Os.serve, Os.dropBuffers]
  have hhist : (m.ioctl (.streamOff m.bufType) true).history = .dropped := by
    rw [ioctl, history_sys]
    cases m.history <;> rfl
  have hfree : SameQueue (m.ioctl (.streamOff m.bufType) true)
      ((m.ioctl (.streamOff m.bufType) true).freePlanes m.vbuf.planes) := by
    rw [freePlanes]
    split_ifs
    · exact (SameQueue.refl _).sys trivial
    · exact .refl _
  refine ⟨hfree.bufCount, hfree.index, rfl, fun i hi => ?_, hfree.history.trans hhist⟩
  exact hoff i ((hfree.queued_iff i).mp hi)

theorem Drops.buffersCount {m m' : CameraApp} (h : Drops m m') :
    m'.buffersCount = m.buffersCount :=
  buffersCount_congr h.bufCount

theorem QueueInv.of_drops {m m' : CameraApp} (hm : m.QueueInv) (h : Drops m m') : m'.QueueInv where
  bounded _ i hi := absurd hi (h.notQueued i)
  index := by
    rw [h.index, h.buffersCount]
    exact hm.index
  kept := by simp [h.history]
  dropped _ i _ := h.notQueued i
  requeued := by simp [h.history]

theorem Drops.allQueued {m m' : CameraApp} (h : Drops m m') : m'.AllQueued := by
  simp [AllQueued, h.streamOn]

theorem sameQueue_cameraStreamoff {m : CameraApp} {ok : Bool}
    (h : m.streamOn = false ∨ ok = false) : SameQueue m (m.cameraStreamoff ok).2 := by
  cases hon : m.streamOn with
  | false => simpa [cameraStreamoff, hon] using SameQueue.refl m
  | true =>
    have hok : ok = false := h.resolve_left (by simp [hon])
    rw [cameraStreamoff, hon, hok, if_neg (by simp), if_neg (by simp)]
    exact (SameQueue.refl m).sys rfl

/-! ### Calls -/

/-- Every buffer is queued while streaming is on, unless the module has died. -/
def BuffersInDriver (m : CameraApp) : Prop := m.crashed = true ∨ m.AllQueued

/-- The module has died, or the queue is as it is to be. -/
def QueueSound (m : CameraApp) : Prop := m.crashed = true ∨ m.QueueInv

theorem SameQueue.requeues {m m₁ m' : CameraApp} (h : SameQueue m m₁) (h' : Requeues m₁ m') :
    Requeues m m' where
  streamOn := h'.streamOn.trans h.streamOn
  bufCount := h'.bufCount.trans h.bufCount
  history := by rw [h'.history, h.history]
  index := by simpa only [h.index, h.queued_iff] using h'.index
  others i hi := by rw [h'.others i hi, h.queued_iff]
  self := by simpa only [h.buffersCount] using h'.self

/-- A capture moves no buffer, or queues one, or kills the module. -/
theorem cameraCapture_cases {m : CameraApp} {a : CaptureAnswers}
    (hlaw : m.Lawful (.cameraCapture a)) :
    (m.cameraCapture a).2.crashed = true ∨ SameQueue m (m.cameraCapture a).2 ∨
      Requeues m (m.cameraCapture a).2 := by
  cases hopen : m.devOpen with
  | false =>
    rw [cameraCapture_of_closed hopen]
    exact .inr (.inl (.refl m))
  | true =>
    have hselect : SameQueue m (m.sys (.select m.camera.videofd)) :=
      (SameQueue.refl m).sys trivial
    by_cases hready : a.Ready
    · rw [cameraCapture_of_ready hopen hready]
      rcases captureReady_cases (hlaw hready.1 hready.2) with hdead | hrequeues
      · exact .inl hdead
      · exact .inr (.inr (hselect.requeues hrequeues))
    · rw [cameraCapture_of_not_ready hopen hready]
      exact .inr (.inl hselect)

/-- What a call does, as long as every buffer is queued while streaming is on. -/
theorem run_queue {m : CameraApp} (hlive : m.crashed = false) (hm : m.QueueInv)
    (hall : m.AllQueued) {c : Call} (hlaw : m.Lawful c) :
    ((m.run c).BuffersInDriver ↔ m.KeepsBuffers c) ∧
      ((m.run c).BuffersInDriver → (m.run c).QueueSound) := by
  have hsame {m' : CameraApp} (h : SameQueue m m') : m'.BuffersInDriver ∧ m'.QueueSound :=
    ⟨.inr (h.allQueued hall), .inr (hm.of_sameQueue h)⟩
  cases c with
  | camInit a index width height => exact hlaw.elim
  | cameraDeinit => exact hlaw.elim
  | cameraStreamon a =>
    cases hok : a.streamOn with
    | false =>
      obtain ⟨hbuffers, hsound⟩ := hsame (sameQueue_cameraStreamon hok m)
      exact ⟨iff_of_true hbuffers (by simp [KeepsBuffers, hok]), fun _ => hsound⟩
    | true =>
      have hstarts := starts_cameraStreamon hok m
      have hlive' : ¬ (m.cameraStreamon a).2.crashed = true := by simp [hstarts.crashed, hlive]
      have hiff : (m.cameraStreamon a).2.BuffersInDriver ↔ (m.cameraStreamon a).2.AllQueued :=
        or_iff_right hlive'
      refine ⟨?_, fun hbuffers => .inr (hm.of_starts hstarts (hiff.mp hbuffers))⟩
      show (m.cameraStreamon a).2.BuffersInDriver ↔ _
      rw [hiff, hstarts.allQueued_iff hm]
      simp [KeepsBuffers, hok, hlive]
  | cameraCapture a =>
    rcases cameraCapture_cases hlaw with hdead | h | h
    · exact ⟨iff_of_true (.inl hdead) trivial, fun _ => .inl hdead⟩
    · exact ⟨iff_of_true (hsame h).1 trivial, fun _ => (hsame h).2⟩
    · exact ⟨iff_of_true (.inr (h.allQueued hall)) trivial, fun _ => .inr (hm.of_requeues h)⟩
  | cameraStreamoff ok =>
    by_cases hdrops : m.streamOn = true ∧ ok = true
    · have hdrop := drops_cameraStreamoff hdrops.1
      rw [← hdrops.2] at hdrop
      exact ⟨iff_of_true (.inr hdrop.allQueued) trivial, fun _ => .inr (hm.of_drops hdrop)⟩
    · have h : SameQueue m (m.cameraStreamoff ok).2 := sameQueue_cameraStreamoff (by grind)
      exact ⟨iff_of_true (hsame h).1 trivial, fun _ => (hsame h).2⟩

theorem step_queue {m : CameraApp} (hm : m.QueueSound) (hall : m.BuffersInDriver) {c : Call}
    (hlaw : m.Lawful c) :
    ((m.step c).BuffersInDriver ↔ m.KeepsBuffers c) ∧
      ((m.step c).BuffersInDriver → (m.step c).QueueSound) := by
  cases hlive : m.crashed with
  | true =>
    have hkeeps : m.KeepsBuffers c := by
      cases c with
      | cameraStreamon a => simp [KeepsBuffers, hlive]
      | _ => trivial
    rw [step_of_crashed hlive]
    exact ⟨iff_of_true hall hkeeps, fun _ => hm⟩
  | false =>
    have hdead : ¬ m.crashed = true := by simp [hlive]
    rw [step, if_neg hdead]
    exact run_queue hlive (hm.resolve_left hdead) (hall.resolve_left hdead) hlaw

/-! ### After `cam_init` -/

theorem keepsQueue_queryCalls (a : InitAnswers) (m : CameraApp) (n : ℕ) :
    ∀ e ∈ queryCalls a m n, e.KeepsQueue := by
  intro e he
  simp only [queryCalls, List.mem_append, List.mem_singleton, List.mem_map] at he
  rcases he with ((he | rfl) | ⟨j, -, rfl⟩) | he
  · exact mem_mplaneCall he ▸ trivial
  · trivial
  · trivial
  · exact mem_mplaneCall he ▸ trivial

/-- The calls `queueCalls` for the first `k` buffers queue these. -/
theorem mem_queued_queueCalls (a : InitAnswers) (m : CameraApp) (trace : List Event) (k : ℕ)
    (p : ℤ × ℕ) :
    p ∈ (Os.ofTrace (trace ++ (List.range k).flatMap (queueCalls a m))).queued ↔
      p.1 = m.camera.videofd ∧ p.2 < k ∨ p ∈ (Os.ofTrace trace).queued := by
  induction k with
  | zero => simp
  | succ k ih =>
    have hcalloc : ∀ e ∈ m.mplaneCall (.calloc (a.callocQueue k)), e.KeepsQueue :=
      fun e he => mem_mplaneCall he ▸ trivial
    have hfree : ∀ e ∈ m.mplaneCall (.free (a.callocQueue k)), e.KeepsQueue :=
      fun e he => mem_mplaneCall he ▸ trivial
    rw [List.range_succ, List.flatMap_append, List.flatMap_singleton, queueCalls]
    simp only [← List.append_assoc]
    rw [Os.queued_ofTrace_append hfree, Os.ofTrace_concat, Os.queued_issue_ioctl, if_pos rfl]
    simp only [Os.serve, Finset.mem_insert]
    rw [Os.queued_ofTrace_append hcalloc, ih, Prod.ext_iff]
    grind

/-! ### Runs -/

theorem Initialised.queued_iff {a : InitAnswers} {data : Codec.Bytes} {len index : ℤ}
    {m : CameraApp}
    (h : Initialised a index (atStart data len) m) (i : ℕ) :
    m.Queued i ↔ i < reqCount a := by
  obtain ⟨setup, hsetup, htrace⟩ := h.trace
  have hquery : ∀ e ∈ (List.range (reqCount a)).flatMap (queryCalls a m), e.KeepsQueue := by
    intro e he
    obtain ⟨n, -, hn⟩ := List.mem_flatMap.mp he
    exact keepsQueue_queryCalls a m n e hn
  rw [Queued, os, htrace, mem_queued_queueCalls, Os.queued_ofTrace_append hquery, Os.ofTrace_concat,
    Event.KeepsQueue.issue (by trivial),
    Os.queued_ofTrace_append fun e he => (hsetup e he).keepsQueue]
  simp [Os.ofTrace, Os.issue, Os.dropBuffers, h.videofd_nonneg]

/-- Only `VIDIOC_STREAMOFF` makes the driver drop the buffers. -/
theorem history_kept {es : List Event}
    (hes : ∀ e ∈ es, ∀ fd type, e ≠ .ioctl fd (.streamOff type) true) :
    es.foldl History.next .kept = .kept := by
  induction es with
  | nil => rfl
  | cons e es ih =>
    have hnext : History.next .kept e = .kept := by
      have hne := hes e List.mem_cons_self
      cases e with
      | ioctl fd request ok => cases request <;> cases ok <;> first | rfl | simp at hne
      | _ => rfl
    rw [List.foldl_cons, hnext]
    exact ih fun e' he' => hes e' (List.mem_cons_of_mem _ he')

theorem Initialised.history {a : InitAnswers} {data : Codec.Bytes} {len index : ℤ} {m : CameraApp}
    (h : Initialised a index (atStart data len) m) : m.history = .kept := by
  refine history_kept fun e he fd type => ?_
  rcases h.initial e he with hnil | hinitial
  · simp at hnil
  · rintro rfl
    exact hinitial.elim

/-- After a successful `cam_init` every buffer is with the driver. -/
theorem Initialised.queueInv {a : InitAnswers} {data : Codec.Bytes} {len index : ℤ} {m : CameraApp}
    (h : Initialised a index (atStart data len) m) :
    m.QueueInv := by
  have hcount : m.buffersCount = (toInt (a.reqBufs.getD 0)).toNat := by
    rw [buffersCount, h.bufCount]
  have hle : m.buffersCount ≤ reqCount a ∧ (0 < m.buffersCount → m.buffersCount = reqCount a) := by
    rw [hcount, reqCount]
    rcases toInt_cases (a.reqBufs.getD 0) with ⟨heq, -⟩ | ⟨hneg, -⟩ <;> omega
  refine ⟨?_, ?_, ?_, ?_, ?_⟩
  · intro hpos i hi
    rw [hle.2 hpos]
    exact (h.queued_iff i).mp hi
  · intro hpos
    rw [h.vbuf]
    exact hpos
  · exact fun _ i hi => (h.queued_iff i).mpr (by omega)
  · simp [h.history]
  · simp [h.history]

/-- **While streaming, every buffer is with the driver.** After a successful `cam_init`, for every
run of the other three functions with answers as V4L2 promises them: every buffer is queued in the
driver whenever streaming is on and no call is in progress, exactly when streaming is never switched
on again after it has been switched off (but for no buffer, or one that has been queued since). -/
theorem allQueued_iff_meets {a : InitAnswers} {data : Codec.Bytes} {len index width height : ℤ}
    (hinit : ((atStart data len).camInit a index width height).1 = some 0) {cs : List Call}
    (hlaw : Transition.Meets step Lawful ((atStart data len).camInit a index width height).2 cs) :
    Transition.Throughout step BuffersInDriver
        ((atStart data len).camInit a index width height).2 cs ↔
      Transition.Meets step KeepsBuffers
        ((atStart data len).camInit a index width height).2 cs := by
  have h := initialised_of_camInit hinit
  have hoff : ((atStart data len).camInit a index width height).2.BuffersInDriver :=
    .inr (by simp [AllQueued, h.streamOn])
  exact Transition.throughout_iff_meets (J := QueueSound)
    (fun m c hm hall hL => (step_queue hm hall hL).2)
    (fun m c hm hall hL => (step_queue hm hall hL).1)
    (.inr h.queueInv) hoff hlaw

/-- Two buffers; streaming is switched on, buffer `1` is captured, and streaming is switched off. -/
theorem allQueued_iff_meets_once :
    Transition.Throughout step BuffersInDriver
        ((atStart (List.replicate 50 0) (-1)).camInit (.singlePlanar 2 100) 0 1920 1080).2
        [.cameraStreamon ⟨true, 0⟩, .cameraCapture ⟨1, some ⟨1, 50, 0⟩, fun _ => 0, true⟩,
          .cameraStreamoff true] ↔
      Transition.Meets step KeepsBuffers
        ((atStart (List.replicate 50 0) (-1)).camInit (.singlePlanar 2 100) 0 1920 1080).2
        [.cameraStreamon ⟨true, 0⟩, .cameraCapture ⟨1, some ⟨1, 50, 0⟩, fun _ => 0, true⟩,
          .cameraStreamoff true] := by
  refine allQueued_iff_meets (by decide) ⟨trivial, fun _ _ => ⟨?_, fun _ => ?_⟩, trivial, trivial⟩
  · rintro d hd
    rw [← Option.some.inj hd]
    decide
  · decide

/-- One buffer; streaming is switched on, off and on again: the driver has no buffer. -/
theorem not_allQueued :
    ¬ ∀ a data len index width height cs,
      ((atStart data len).camInit a index width height).1 = some 0 →
      Transition.Meets step Lawful ((atStart data len).camInit a index width height).2 cs →
      Transition.Throughout step BuffersInDriver
        ((atStart data len).camInit a index width height).2 cs := by
  intro h
  have hrun := h (.singlePlanar 1 100) [] (-1) 0 1920 1080
    [.cameraStreamon ⟨true, 0⟩, .cameraStreamoff true, .cameraStreamon ⟨true, 0⟩] (by decide)
    ⟨trivial, trivial, trivial, trivial⟩ _ List.prefix_rfl
  have hall := hrun.resolve_left (by decide)
  exact absurd (hall (by decide) 0 (by decide)) (by decide)

end CameraApp
