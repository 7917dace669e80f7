import CameraVideoStream.Server.CameraApp

/-!
# What `cam_init` does

The stages of `cam_init` after the one that opens the device are *quiet*: they make calls on the
descriptor that was opened, and none that opens or closes one or starts or stops streaming, until
they go on, close the descriptor and return `-1`, or die of a null pointer.

## Main definitions

* `CameraApp.Quiet`, `CameraApp.QuietStage`.

## Main results

* `CameraApp.quietStage_bind`, `CameraApp.quietStage_iterate`: quiet stages compose.
-/

open V4l2

namespace CameraApp

/-- A call is made, as the device sees it. -/
@[simp] theorem os_sys (m : CameraApp) (e : Event) : (m.sys e).os = m.os.issue e :=
  Os.ofTrace_concat m.trace e

/-- A call is made, as the ledger of what is held sees it. -/
@[simp] theorem held_sys (m : CameraApp) (e : Event) :
    (m.sys e).held = Ledger.replay m.held e.entries :=
  V4l2.held_concat m.trace e

/-! ### Quiet stages -/

/-- From `m` to `m'` only quiet calls have been made, and the flags are the same. -/
structure Quiet (m m' : CameraApp) : Prop where
  videofd : m'.camera.videofd = m.camera.videofd
  devOpen : m'.devOpen = m.devOpen
  streamOn : m'.streamOn = m.streamOn
  crashed : m'.crashed = m.crashed
  opened : m'.os.opened = m.os.opened
  streaming : m'.os.streaming = m.os.streaming
  misused : m'.os.misused = m.os.misused

/-- `camera.videofd` is open. -/
def Usable (m : CameraApp) : Prop := m.camera.videofd ∈ m.os.opened

theorem Quiet.refl (m : CameraApp) : Quiet m m := ⟨rfl, rfl, rfl, rfl, rfl, rfl, rfl⟩

theorem Quiet.trans {m₁ m₂ m₃ : CameraApp} (h : Quiet m₁ m₂) (h' : Quiet m₂ m₃) : Quiet m₁ m₃ where
  videofd := h'.videofd.trans h.videofd
  devOpen := h'.devOpen.trans h.devOpen
  streamOn := h'.streamOn.trans h.streamOn
  crashed := h'.crashed.trans h.crashed
  opened := h'.opened.trans h.opened
  streaming := h'.streaming.trans h.streaming
  misused := h'.misused.trans h.misused

/-- Quiet calls leave the descriptor open. -/
theorem Quiet.usable {m m' : CameraApp} (h : Quiet m m') (hm : m.Usable) : m'.Usable := by
  rw [Usable, h.videofd, h.opened]
  exact hm

/-- One more quiet call, on a descriptor that is open. -/
theorem Quiet.sys {m m' : CameraApp} (h : Quiet m m') (hm : m.Usable) {e : Event}
    (he : e.Quiet m.camera.videofd) : Quiet m (m'.sys e) := by
  have hfd : m.camera.videofd ∈ m'.os.opened := by
    rw [h.opened]
    exact hm
  obtain ⟨hopened, hstreaming, hmisused⟩ := he.issue hfd
  exact { h with
    opened := by rw [os_sys, hopened, h.opened]
    streaming := by rw [os_sys, hstreaming, h.streaming]
    misused := by rw [os_sys, hmisused, h.misused] }

/-- Many more quiet calls. -/
theorem Quiet.sysAll {m m' : CameraApp} (h : Quiet m m') (hm : m.Usable) {es : List Event}
    (hes : ∀ e ∈ es, e.Quiet m.camera.videofd) : Quiet m (m'.sysAll es) := by
  induction es generalizing m' with
  | nil => simpa [CameraApp.sysAll] using h
  | cons e es ih =>
    have hcons : m'.sysAll (e :: es) = (m'.sys e).sysAll es := by
      simp [CameraApp.sysAll, CameraApp.sys]
    rw [hcons]
    exact ih (h.sys hm (hes e (by simp))) fun e' he' => hes e' (by simp [he'])

/-- What else `cam_init` writes to `camera` is not its descriptor. -/
theorem Quiet.setCamera {m m' : CameraApp} (h : Quiet m m') {camera : CameraHandle}
    (hfd : camera.videofd = m'.camera.videofd) : Quiet m (m'.setCamera camera) :=
  { h with videofd := hfd.trans h.videofd }

theorem Quiet.ioctl {m m' : CameraApp} (h : Quiet m m') (hm : m.Usable) {request : Ioctl}
    (ok : Bool) (hquiet : ∀ fd, (Event.ioctl fd request ok).Quiet fd) :
    Quiet m (m'.ioctl request ok) := by
  rw [CameraApp.ioctl, h.videofd]
  exact h.sys hm (hquiet _)

/-- How a stage leaves `cam_init`: it dies, or it closes the descriptor and returns `-1`. -/
def Failed (m : CameraApp) (r : Option ℤ) (m' : CameraApp) : Prop :=
  r = none ∧ m'.crashed = true ∨
    r = some (-1) ∧ ∃ m₁, Quiet m m₁ ∧ m' = m₁.sys (.close m₁.camera.videofd)

/-- A stage that fails after quiet calls fails. -/
theorem Failed.of_quiet {m m₁ m' : CameraApp} {r : Option ℤ} (h : Failed m₁ r m')
    (hm : Quiet m m₁) : Failed m r m' := by
  rcases h with hdead | ⟨hr, m₂, hm₂, hclose⟩
  · exact .inl hdead
  · exact .inr ⟨hr, m₂, hm.trans hm₂, hclose⟩

/-- After quiet calls the descriptor is closed and `-1` returned. -/
theorem failed_closeAndFail {m m₁ : CameraApp} (h : Quiet m m₁) :
    m₁.closeAndFail.Sat (Quiet m) (Failed m) :=
  .inr ⟨rfl, m₁, h, rfl⟩

theorem failed_crash (m m₁ : CameraApp) : m₁.crash.Sat (Quiet m) (Failed m) := .inl ⟨rfl, rfl⟩

/-- A stage that makes quiet calls only, until it goes on or leaves `cam_init`. -/
def QuietStage (f : CameraApp → Stage) : Prop :=
  ∀ m : CameraApp, m.Usable → (f m).Sat (Quiet m) (Failed m)

/-- A quiet stage that comes after quiet calls. -/
theorem QuietStage.sat_of_quiet {f : CameraApp → Stage} (hf : QuietStage f) {m m₁ : CameraApp}
    (hm : m.Usable) (h : Quiet m m₁) : (f m₁).Sat (Quiet m) (Failed m) :=
  (hf m₁ (h.usable hm)).mono (fun _ hQ => h.trans hQ) (fun _ _ hR => hR.of_quiet h)

/-- Two quiet stages, one after the other. -/
theorem quietStage_bind {f g : CameraApp → Stage} (hf : QuietStage f) (hg : QuietStage g) :
    QuietStage fun m => (f m).bind g :=
  fun m hm => (hf m hm).bind fun _ h => hg.sat_of_quiet hm h

/-- A loop of quiet stages. -/
theorem quietStage_iterate {f : ℕ → CameraApp → Stage} (hf : ∀ n, QuietStage (f n)) (n : ℕ) :
    QuietStage (Outcome.iterate f 0 n) :=
  fun m hm => Outcome.sat_iterate (I := fun _ => Quiet m)
    (fun j _ _ h => (hf j).sat_of_quiet hm h) (Quiet.refl m)

/-- A request that is to succeed. -/
theorem quietStage_check (request : Ioctl) (ok : Bool)
    (hquiet : ∀ fd, (Event.ioctl fd request ok).Quiet fd) : QuietStage (check request ok) := by
  intro m hm
  have h : Quiet m (m.ioctl request ok) := (Quiet.refl m).ioctl hm ok hquiet
  rw [check]
  split_ifs
  · exact h
  · exact failed_closeAndFail h

theorem quietStage_setInput (a : InitAnswers) : QuietStage (setInput a) :=
  quietStage_check (.sInput 0) a.sInput fun _ => rfl

theorem quietStage_setParm (a : InitAnswers) : QuietStage (setParm a) := fun m =>
  quietStage_check (.sParm m.bufType 1 m.camera.fps) a.sParm (fun _ => rfl) m

/-- `VIDIOC_QUERYCAP` and the choice of `driver_type`. -/
theorem quietStage_queryCap (a : InitAnswers) : QuietStage (queryCap a) := by
  intro m hm
  have h : Quiet m (m.ioctl .queryCap a.queryCap.isSome) := (Quiet.refl m).ioctl hm _ fun _ => rfl
  simp only [queryCap]
  split_ifs
  · exact failed_closeAndFail h
  · exact h.setCamera rfl
  · exact h.setCamera rfl
  · exact failed_closeAndFail h

theorem Quiet.getFormat {m m' : CameraApp} (h : Quiet m m') (hm : m.Usable) (a : InitAnswers)
    (fmt : Format) : Quiet m (m'.getFormat a fmt) := by
  rw [CameraApp.getFormat]
  split_ifs
  · have hget : Quiet m (m'.ioctl .gFmt a.gFmt.isSome) := h.ioctl hm _ fun _ => rfl
    exact hget.setCamera rfl
  · exact h

/-- `VIDIOC_S_FMT`, and `VIDIOC_G_FMT` on a multi-planar device. -/
theorem quietStage_setFormat (a : InitAnswers) : QuietStage (setFormat a) := by
  intro m hm
  have h (ok : Bool) :
      Quiet m (m.ioctl (.sFmt m.bufType m.camera.winWidth m.camera.winHeight) ok) :=
    (Quiet.refl m).ioctl hm ok fun _ => rfl
  rw [setFormat]
  cases a.sFmt with
  | none => exact failed_closeAndFail (h false)
  | some fmt =>
    refine Quiet.getFormat (Quiet.setCamera (h true) ?_) hm a fmt
    rfl

/-- `VIDIOC_REQBUFS` and the allocation of `camera.buffers`. -/
theorem quietStage_requestBuffers (a : InitAnswers) : QuietStage (requestBuffers a) := by
  intro m hm
  have h (ok : Bool) : Quiet m (m.ioctl (.reqBufs m.bufType 4) ok) :=
    (Quiet.refl m).ioctl hm ok fun _ => rfl
  rw [requestBuffers]
  cases a.reqBufs with
  | none => exact failed_closeAndFail (h false)
  | some count => exact ((h true).sys hm (e := .calloc a.callocBuffers) trivial).setCamera rfl

theorem Quiet.callocPlanes {m m' : CameraApp} (h : Quiet m m') (hm : m.Usable) (ptr : UInt64) :
    Quiet m (m'.callocPlanes ptr) := by
  rw [CameraApp.callocPlanes]
  split_ifs
  · exact h.sys hm trivial
  · exact h

theorem Quiet.freePlanes {m m' : CameraApp} (h : Quiet m m') (hm : m.Usable) (ptr : UInt64) :
    Quiet m (m'.freePlanes ptr) := by
  rw [CameraApp.freePlanes]
  split_ifs
  · exact h.sys hm trivial
  · exact h

theorem Quiet.prepareVbuf {m m' : CameraApp} (h : Quiet m m') (hm : m.Usable) (planes : UInt64) :
    Quiet m (m'.prepareVbuf planes) := by
  simp only [CameraApp.prepareVbuf]
  split_ifs
  · exact { h.sys hm (e := .calloc planes) trivial with }
  · exact { h with }

/-- The plane is mapped, or `camera.buffers` is null and the process dies. -/
theorem quietStage_mapPlane (a : InitAnswers) (planes : ℕ → PlaneInfo) (n j : ℕ) :
    QuietStage (mapPlane a planes n j) := by
  intro m hm
  rw [mapPlane]
  split_ifs
  · exact failed_crash m m
  · exact { (Quiet.refl m).sys hm (e := .mmap _ _ _) trivial with }

theorem quietStage_mapMplane (a : InitAnswers) (planes : ℕ → PlaneInfo) (n j : ℕ) :
    QuietStage (mapMplane a planes n j) := by
  intro m hm
  rw [mapMplane]
  split_ifs
  · exact failed_crash m m
  · exact quietStage_mapPlane a planes n j m hm

theorem quietStage_mapBuffer (a : InitAnswers) (planes : ℕ → PlaneInfo) (n : ℕ) :
    QuietStage (mapBuffer a planes n) := by
  intro m hm
  rw [mapBuffer]
  split_ifs
  · have h := quietStage_iterate (quietStage_mapMplane a planes n) m.camera.nplanes m hm
    exact h.bind fun m' hm' => hm'.freePlanes hm _
  · exact quietStage_mapPlane a planes n 0 m hm

/-- `VIDIOC_QUERYBUF` for one buffer, and its mappings. -/
theorem quietStage_queryBuffer (a : InitAnswers) (n : ℕ) : QuietStage (queryBuffer a n) := by
  intro m hm
  have hcalloc := (Quiet.refl m).callocPlanes hm (a.callocQuery n)
  have h (ok : Bool) : Quiet m ((m.callocPlanes (a.callocQuery n)).ioctl
      (.queryBuf (m.callocPlanes (a.callocQuery n)).bufType n) ok) :=
    hcalloc.ioctl hm ok fun _ => rfl
  rw [queryBuffer]
  cases a.queryBuf n with
  | none =>
    exact failed_closeAndFail (((h false).freePlanes hm _).sys hm (e := .free _) trivial)
  | some planes => exact (quietStage_mapBuffer a planes n).sat_of_quiet hm (h true)

/-- `VIDIOC_QBUF` for one buffer. -/
theorem quietStage_queueBuffer (a : InitAnswers) (n : ℕ) : QuietStage (queueBuffer a n) := by
  intro m hm
  have hcalloc := (Quiet.refl m).callocPlanes hm (a.callocQueue n)
  have h : Quiet m ((m.callocPlanes (a.callocQueue n)).ioctl
      (.qBuf (m.callocPlanes (a.callocQueue n)).bufType n) (a.qBuf n)) :=
    hcalloc.ioctl hm _ fun _ => rfl
  simp only [queueBuffer]
  split_ifs
  · exact h.freePlanes hm _
  · exact failed_closeAndFail ((h.freePlanes hm _).sys hm (e := .free _) trivial)

/-- All of `cam_init` after `open`. -/
theorem quietStage_setUp (a : InitAnswers) : QuietStage (setUp a) :=
  quietStage_bind (quietStage_queryCap a) <|
  quietStage_bind (quietStage_setInput a) <|
  quietStage_bind (quietStage_setParm a) <|
  quietStage_bind (quietStage_setFormat a) <|
  quietStage_bind (quietStage_requestBuffers a) <|
  quietStage_bind (quietStage_iterate (quietStage_queryBuffer a) _) <|
  quietStage_iterate (quietStage_queueBuffer a) _

/-! ### The device is open -/

@[simp] theorem openDevice_os (a : InitAnswers) (index width height : ℤ) (m : CameraApp) :
    (m.openDevice a index width height).os = m.os.issue (.openDevice a.videofd) :=
  os_sys _ _

@[simp] theorem openDevice_videofd (a : InitAnswers) (index width height : ℤ) (m : CameraApp) :
    (m.openDevice a index width height).camera.videofd = a.videofd := rfl

/-- The descriptor that `open` has returned is open. -/
theorem usable_openDevice {a : InitAnswers} (hfd : 0 ≤ a.videofd) (index width height : ℤ)
    (m : CameraApp) : (m.openDevice a index width height).Usable := by
  simp [Usable, Os.issue, Os.dropBuffers, hfd]

/-- What the quiet calls on a device that has just been opened leave. -/
theorem Quiet.of_openDevice {a : InitAnswers} (hfd : 0 ≤ a.videofd) {index width height : ℤ}
    {m m₁ : CameraApp} (h : Quiet (m.openDevice a index width height) m₁) :
    m₁.camera.videofd = a.videofd ∧ m₁.os.opened = insert a.videofd m.os.opened ∧
      m₁.os.streaming = m.os.streaming.erase a.videofd ∧ m₁.os.misused = m.os.misused := by
  rw [h.videofd, h.opened, h.streaming, h.misused, openDevice_os, Os.issue_openDevice _ hfd]
  exact ⟨rfl, rfl, rfl, rfl⟩

/-- **How `cam_init` ends.** It could not open the device; or, after quiet calls on the descriptor,
it has set `devOpen` and returns `0`, or it has closed the descriptor and returns `-1`, or it has
died. -/
theorem camInit_cases (a : InitAnswers) (index width height : ℤ) (m : CameraApp) :
    let m₀ := m.openDevice a index width height
    (a.videofd < 0 ∧ m.camInit a index width height = (some (-1), m₀)) ∨
    (0 ≤ a.videofd ∧
      ((∃ m₁, setUp a m₀ = .next m₁ ∧ Quiet m₀ m₁ ∧
        m.camInit a index width height = (some 0, { m₁ with devOpen := true })) ∨
      (∃ r m₁, setUp a m₀ = .exit r m₁ ∧ Failed m₀ r m₁ ∧
        m.camInit a index width height = (r, m₁)))) := by
  intro m₀
  by_cases hfd : a.videofd < 0
  · exact .inl ⟨hfd, by rw [camInit, if_pos hfd]⟩
  · have hopen : 0 ≤ a.videofd := by omega
    have hsat := quietStage_setUp a m₀ (usable_openDevice hopen index width height m)
    rw [camInit, if_neg hfd]
    cases hset : setUp a m₀ with
    | next m₁ =>
      rw [hset] at hsat
      exact .inr ⟨hopen, .inl ⟨m₁, rfl, hsat, rfl⟩⟩
    | exit r m₁ =>
      rw [hset] at hsat
      exact .inr ⟨hopen, .inr ⟨r, m₁, rfl, hsat, rfl⟩⟩

/-! ### The device answers -/

end CameraApp

/-- No call of `cam_init` that makes it return `-1` fails. -/
structure InitAnswers.Serves (a : InitAnswers) : Prop where
  videofd : 0 ≤ a.videofd
  queryCap : (a.queryCap.getD 0) &&& (capVideoCapture ||| capVideoCaptureMplane) ≠ 0
  sInput : a.sInput = true
  sParm : a.sParm = true
  sFmt : a.sFmt.isSome = true
  reqBufs : a.reqBufs.isSome = true
  queryBuf : ∀ n < CameraApp.reqCount a, (a.queryBuf n).isSome = true
  qBuf : ∀ n < CameraApp.reqCount a, a.qBuf n = true

namespace CameraApp

/-- The stage does not return `-1`. -/
def Persists (o : Stage) : Prop := o.Sat (fun _ => True) (fun r _ => r ≠ some (-1))

/-- Two stages of which neither returns `-1`. -/
theorem Persists.bind {o : Stage} {f : CameraApp → Stage} (h : Persists o)
    (hf : ∀ m, Persists (f m)) : Persists (o.bind f) :=
  Outcome.Sat.bind h fun m _ => hf m

/-- A loop of stages of which none returns `-1`. -/
theorem persists_iterate {f : ℕ → CameraApp → Stage} {n : ℕ}
    (hf : ∀ j < n, ∀ m, Persists (f j m)) (m : CameraApp) : Persists (Outcome.iterate f 0 n m) :=
  Outcome.sat_iterate (I := fun _ _ => True) (fun j m hj _ => hf j hj m) trivial

theorem persists_crash (m : CameraApp) : Persists m.crash := by simp [Persists, crash]

theorem persists_check {ok : Bool} (hok : ok = true) (request : Ioctl) (m : CameraApp) :
    Persists (check request ok m) := by
  rw [check, if_pos hok]
  trivial

/-- A device that can capture in neither way has none of the two capabilities. -/
theorem capture_eq_zero {c : UInt32} (hm : c &&& capVideoCaptureMplane = 0)
    (hc : c &&& capVideoCapture = 0) : c &&& (capVideoCapture ||| capVideoCaptureMplane) = 0 := by
  have hdistrib : c &&& (capVideoCapture ||| capVideoCaptureMplane) =
      c &&& capVideoCapture ||| c &&& capVideoCaptureMplane := by
    rw [← UInt32.toBitVec_inj]
    exact BitVec.and_or_distrib_left
  rw [hdistrib, hm, hc]
  rfl

theorem le_zero_iff {c : UInt32} : c ≤ 0 ↔ c = 0 := by
  rw [UInt32.le_iff_toNat_le, ← UInt32.toNat_inj]
  exact Nat.le_zero

/-- A device that can capture is taken. -/
theorem persists_queryCap {a : InitAnswers} (ha : a.Serves) (m : CameraApp) :
    Persists (queryCap a m) := by
  simp only [queryCap, if_neg (le_zero_iff.not.mpr ha.queryCap)]
  split_ifs with hm hc
  · trivial
  · trivial
  · exact absurd (capture_eq_zero (not_not.mp hm) (not_not.mp hc)) ha.queryCap

theorem persists_mapPlane (a : InitAnswers) (planes : ℕ → PlaneInfo) (n j : ℕ) (m : CameraApp) :
    Persists (mapPlane a planes n j m) := by
  rw [mapPlane]
  split_ifs
  · exact persists_crash m
  · trivial

theorem persists_mapMplane (a : InitAnswers) (planes : ℕ → PlaneInfo) (n j : ℕ) (m : CameraApp) :
    Persists (mapMplane a planes n j m) := by
  rw [mapMplane]
  split_ifs
  · exact persists_crash m
  · exact persists_mapPlane a planes n j m

/-- A buffer that the device describes is mapped, even if `mmap` fails. -/
theorem persists_queryBuffer {a : InitAnswers} {n : ℕ} (hn : (a.queryBuf n).isSome = true)
    (m : CameraApp) : Persists (queryBuffer a n m) := by
  obtain ⟨planes, hplanes⟩ := Option.isSome_iff_exists.mp hn
  simp only [queryBuffer, hplanes, mapBuffer]
  split_ifs
  · exact (persists_iterate (fun j _ m => persists_mapMplane a planes n j m) _).bind
      fun _ => trivial
  · exact persists_mapPlane a planes n 0 _

/-- If the device answers, `cam_init` does not return `-1`. -/
theorem persists_setUp {a : InitAnswers} (ha : a.Serves) (m : CameraApp) :
    Persists (setUp a m) := by
  refine (persists_queryCap ha m).bind fun m => ?_
  refine (persists_check ha.sInput _ m).bind fun m => ?_
  refine (persists_check ha.sParm _ m).bind fun m => ?_
  refine Persists.bind ?_ fun m => Persists.bind ?_ fun m => Persists.bind ?_ fun m => ?_
  · obtain ⟨fmt, hfmt⟩ := Option.isSome_iff_exists.mp ha.sFmt
    simp only [setFormat, hfmt]
    trivial
  · obtain ⟨count, hcount⟩ := Option.isSome_iff_exists.mp ha.reqBufs
    simp only [requestBuffers, hcount]
    trivial
  · exact persists_iterate (fun n hn m => persists_queryBuffer (ha.queryBuf n hn) m) m
  · refine persists_iterate (fun n hn m => ?_) m
    simp only [queueBuffer, if_pos (ha.qBuf n hn)]
    trivial

end CameraApp
