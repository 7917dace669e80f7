import CameraVideoStream.Foundation.Potential
import CameraVideoStream.Server.Streaming

/-!
# Buffers that are lost

A capture whose `VIDIOC_QBUF` fails keeps the buffer that it has taken out, and nobody is told. Over
a run of captures, a frame is paid for with a buffer that is queued in the driver, and only a
`VIDIOC_QBUF` that succeeds gives one back. A capture whose `VIDIOC_DQBUF` fails queues the buffer
of `vbuf` once more, so the one that was lost last can come back; but as soon as another one has
been taken out, it is lost for good.

## Main definitions

* `CameraApp.frames`, `CameraApp.givenBack`: what a capture takes and gives.

## Main results

* `CameraApp.frames_add_queuedCount_le`: what a capture costs.
* `CameraApp.lost_capture`: a lost buffer stays lost.
* `CameraApp.starves_of_meets`.
-/

open V4l2

namespace CameraApp

/-- A frame that the process is given: the call is made, and returns `0`. -/
def frames (m : CameraApp) (c : CaptureAnswers) : ℕ :=
  if m.crashed = false ∧ (m.cameraCapture c).1 = some 0 then 1 else 0

/-- The number of buffers that the call, if it is made, gives to the driver. -/
def givenBack (m : CameraApp) (c : CaptureAnswers) : ℕ :=
  if m.crashed = true then 0 else (m.given c).length

/-- The buffers that are queued once `VIDIOC_DQBUF` has returned. -/
def afterDequeue (m : CameraApp) (c : CaptureAnswers) : Finset (ℤ × ℕ) :=
  if c.dqBuf.isSome then
    m.os.queued.erase (m.camera.videofd, (c.fill m.vbuf).index.toNat)
  else
    m.os.queued

/-- The buffers that are queued once `VIDIOC_QBUF` has returned. -/
def afterQueue (m : CameraApp) (c : CaptureAnswers) : Finset (ℤ × ℕ) :=
  if c.qBuf then
    insert (m.camera.videofd, (c.fill m.vbuf).index.toNat) (m.afterDequeue c)
  else
    m.afterDequeue c

section Capture

variable {m : CameraApp} {c : CaptureAnswers}

theorem Captured.queued_eq {m' : CameraApp} {bytes : ℤ} (h : Captured c bytes m m') :
    m'.os.queued = m.afterQueue c := by
  rw [os, h.trace, captureCalls, fillCalls, afterQueue, afterDequeue]
  simp only [Os.ofTrace, List.foldl_append, List.foldl_cons, List.foldl_nil]
  rw [Os.queued_issue_ioctl]
  simp only [Os.issue, Os.use]
  cases c.qBuf <;> cases c.dqBuf.isSome <;> rfl

theorem Died.queued_eq {m' : CameraApp} {bytes : ℤ} (h : Died c bytes m m') :
    m'.os.queued = m.afterDequeue c := by
  have hcopy : ∀ e ∈ (if m.camera.buffers = 0 then [] else
      [Event.memcpy (c.fill m.vbuf).index.toNat bytes]), e.KeepsQueue := by
    split_ifs <;> simp [Event.KeepsQueue]
  rw [os, h.trace, fatalCalls, fillCalls, afterDequeue, ← List.append_assoc,
    Os.queued_ofTrace_append hcopy]
  simp only [Os.ofTrace, List.foldl_append, List.foldl_cons, List.foldl_nil]
  rw [Os.queued_issue_ioctl]
  cases c.dqBuf.isSome <;> rfl

theorem Captured.given_eq {bytes : ℤ} (h : Captured c bytes m (m.cameraCapture c).2) :
    (m.given c).length = if c.qBuf then 1 else 0 := by
  rw [given, callsSince_eq h.trace, captureCalls, fillCalls]
  cases c.dqBuf.isSome <;> cases c.qBuf <;> rfl

/-- **How a capture ends**, and the buffers that are queued then: it is not made, or does not get
past `select`; it dies; or it goes through all its steps. -/
theorem capture_cases (hopen : m.devOpen = true) (c : CaptureAnswers) :
    ((m.capture c).os.queued = m.os.queued ∧ (m.capture c).vbuf = m.vbuf ∧ m.frames c = 0) ∨
    (c.Ready ∧ (m.capture c).os.queued = m.afterDequeue c ∧
      (m.capture c).vbuf = c.fill m.vbuf ∧ m.frames c = 0) ∨
    (c.Ready ∧ (m.capture c).os.queued = m.afterQueue c ∧ (m.capture c).vbuf = c.fill m.vbuf ∧
      m.frames c = (if c.dqBuf.isSome then 1 else 0) ∧
      m.givenBack c = if c.qBuf then 1 else 0) := by
  cases hlive : m.crashed with
  | true =>
    have hsame : m.capture c = m := if_pos hlive
    exact .inl ⟨by rw [hsame], by rw [hsame], by simp [frames, hlive]⟩
  | false =>
    have hstep : m.capture c = (m.cameraCapture c).2 := by simp [capture, step, hlive, run]
    rw [hstep]
    by_cases hready : c.Ready
    · by_cases hcopy : m.CopySurvives c
      · obtain ⟨hret, h⟩ := captured_cameraCapture hopen hready hcopy
        refine .inr (.inr ⟨hready, h.queued_eq, h.vbuf, ?_, ?_⟩)
        · rw [frames, hret, hlive]
          cases c.dqBuf.isSome <;> rfl
        · rw [givenBack, hlive, if_neg (by simp), h.given_eq]
      · obtain ⟨hret, h⟩ := died_cameraCapture hopen hready hcopy
        exact .inr (.inl ⟨hready, h.queued_eq, h.vbuf, by simp [frames, hret]⟩)
    · rw [cameraCapture_of_not_ready hopen hready]
      refine .inl ⟨?_, rfl, by simp [frames, cameraCapture_of_not_ready hopen hready]⟩
      rw [os_sys]
      rfl

/-- The buffers of one device. -/
def countOn (fd : ℤ) (queued : Finset (ℤ × ℕ)) : ℕ := (queued.filter (·.1 = fd)).card

theorem countOn_erase {fd : ℤ} {i : ℕ} {queued : Finset (ℤ × ℕ)} (h : (fd, i) ∈ queued) :
    countOn fd (queued.erase (fd, i)) + 1 = countOn fd queued := by
  rw [countOn, countOn, Finset.filter_erase]
  exact Finset.card_erase_add_one (Finset.mem_filter.mpr ⟨h, rfl⟩)

theorem countOn_insert_le (fd : ℤ) (i : ℕ) (queued : Finset (ℤ × ℕ)) :
    countOn fd (insert (fd, i) queued) ≤ countOn fd queued + 1 := by
  rw [countOn, countOn, Finset.filter_insert, if_pos rfl]
  exact Finset.card_insert_le _ _

/-- What `VIDIOC_DQBUF` takes, where it takes out a buffer that is queued. -/
theorem countOn_afterDequeue (hready : c.Ready) (hlaw : m.TakesQueued c) :
    countOn m.camera.videofd (m.afterDequeue c) + (if c.dqBuf.isSome then 1 else 0) =
      m.queuedCount := by
  rw [afterDequeue, queuedCount]
  cases hd : c.dqBuf with
  | none => rfl
  | some d =>
    rw [(c.fill_of_dequeued hd m.vbuf).1]
    exact countOn_erase (hlaw hready d hd)

/-- **What a capture costs.** -/
theorem frames_add_queuedCount_le (hopen : m.devOpen = true) (hlaw : m.TakesQueued c) :
    m.frames c + (m.capture c).queuedCount ≤ m.queuedCount + m.givenBack c := by
  have hcamera := (capture_keeps hopen c).1
  have hcount : (m.capture c).queuedCount =
      countOn m.camera.videofd (m.capture c).os.queued := by
    rw [queuedCount, hcamera, countOn]
  rcases capture_cases hopen c with ⟨hqueued, -, hframes⟩ | ⟨hready, hqueued, -, hframes⟩ |
    ⟨hready, hqueued, -, hframes, hgiven⟩
  · rw [hcount, hqueued, hframes, Nat.zero_add]
    exact Nat.le_add_right _ _
  · have htaken := countOn_afterDequeue hready hlaw
    rw [hcount, hqueued, hframes]
    omega
  · have htaken := countOn_afterDequeue hready hlaw
    have hinsert := countOn_insert_le m.camera.videofd (c.fill m.vbuf).index.toNat
      (m.afterDequeue c)
    rw [hcount, hqueued, hframes, hgiven, afterQueue]
    by_cases hq : c.qBuf = true
    · rw [if_pos hq, if_pos hq]
      omega
    · rw [if_neg hq, if_neg hq]
      omega

/-- The buffer is not queued, and `vbuf` is not about it. -/
structure Lost (i : ℕ) (m : CameraApp) : Prop where
  devOpen : m.devOpen = true
  notQueued : ¬ m.Queued i
  index : m.vbuf.index.toNat ≠ i

/-- **A lost buffer stays lost.** -/
theorem lost_capture {i : ℕ} (h : Lost i m) (hlaw : m.TakesQueued c) : Lost i (m.capture c) := by
  obtain ⟨hcamera, hdev, -⟩ := capture_keeps h.devOpen c
  have hqueued (queued : Finset (ℤ × ℕ)) (heq : (m.capture c).os.queued = queued)
      (hnot : (m.camera.videofd, i) ∉ queued) : ¬ (m.capture c).Queued i := by
    rwa [Queued, hcamera, heq]
  -- a buffer that is taken out is queued
  have hfill (hready : c.Ready) : (c.fill m.vbuf).index.toNat ≠ i := by
    cases hd : c.dqBuf with
    | none => simpa [CaptureAnswers.fill, hd] using h.index
    | some d =>
      rw [(c.fill_of_dequeued hd m.vbuf).1]
      rintro rfl
      exact h.notQueued (hlaw hready d hd)
  have hdequeue : (m.camera.videofd, i) ∉ m.afterDequeue c := by
    rw [afterDequeue]
    split_ifs
    · exact fun hmem => h.notQueued (Finset.mem_of_mem_erase hmem)
    · exact h.notQueued
  rcases capture_cases h.devOpen c with ⟨hsame, hvbuf, -⟩ | ⟨hready, hsame, hvbuf, -⟩ |
    ⟨hready, hsame, hvbuf, -⟩
  · exact ⟨hdev, hqueued _ hsame h.notQueued, by rw [hvbuf]; exact h.index⟩
  · exact ⟨hdev, hqueued _ hsame hdequeue, by rw [hvbuf]; exact hfill hready⟩
  · refine ⟨hdev, hqueued _ hsame ?_, by rw [hvbuf]; exact hfill hready⟩
    rw [afterQueue]
    split_ifs
    · rw [Finset.mem_insert, not_or]
      exact ⟨fun heq => hfill hready (Prod.mk.inj heq).2.symm, hdequeue⟩
    · exact hdequeue

end Capture

/-- **Starvation.** After `cam_init` and `camera_streamon`, in every run of captures in which
`VIDIOC_DQBUF` takes out buffers that are queued, whatever else the calls answer: the captures that
have returned `0` and the buffers that are still queued are together at most as many as were queued
at the start and have been given back since. And a buffer that is not queued and is not the one that
`vbuf` is about, at any time, is never queued again. -/
theorem starves_of_meets {m : CameraApp} (hm : m.Started) {cs : List CaptureAnswers}
    (hlaw : Transition.Meets capture TakesQueued m cs) :
    Transition.total capture frames m cs + (Transition.run capture m cs).queuedCount ≤
        m.queuedCount + Transition.total capture givenBack m cs ∧
      ∀ pre post, cs = pre ++ post → ∀ i,
        ¬ (Transition.run capture m pre).Queued i →
        (Transition.run capture m pre).vbuf.index.toNat ≠ i →
          ¬ (Transition.run capture m cs).Queued i := by
  have hkeep (m : CameraApp) (c : CaptureAnswers) (hopen : m.devOpen = true)
      (_ : m.TakesQueued c) : (m.capture c).devOpen = true := (capture_keeps hopen c).2.1
  refine ⟨hlaw.total_add_le hkeep (fun _ _ hopen h => frames_add_queuedCount_le hopen h)
    hm.clear.1, ?_⟩
  rintro pre post rfl i hnot hindex
  obtain ⟨hpre, hpost⟩ := Transition.meets_append.mp hlaw
  have hlost : Lost i (Transition.run capture m pre) :=
    ⟨hpre.run hkeep hm.clear.1, hnot, hindex⟩
  rw [Transition.run_append]
  exact (hpost.run (fun _ _ h => lost_capture h) hlost).notQueued

/-- Of two buffers the first is lost, and comes back when `VIDIOC_DQBUF` fails. -/
theorem starves_of_meets_two :
    let m := ((atStart (List.replicate 50 0) (-1)).camInit (.singlePlanar 2 100) 0 1920
      1080).2.cameraStreamon ⟨true, 0⟩ |>.2
    let cs : List CaptureAnswers :=
      [⟨1, some ⟨1, 50, 0⟩, fun _ => 0, false⟩, ⟨1, none, fun _ => 0, true⟩]
    Transition.total capture frames m cs + (Transition.run capture m cs).queuedCount ≤
        m.queuedCount + Transition.total capture givenBack m cs ∧
      ∀ pre post, cs = pre ++ post → ∀ i,
        ¬ (Transition.run capture m pre).Queued i →
        (Transition.run capture m pre).vbuf.index.toNat ≠ i →
          ¬ (Transition.run capture m cs).Queued i := by
  intro m cs
  refine starves_of_meets started_two ⟨fun _ d hd => ?_, fun _ d hd => ?_, trivial⟩
  · rw [← Option.some.inj hd]
    decide
  · cases hd

end CameraApp
