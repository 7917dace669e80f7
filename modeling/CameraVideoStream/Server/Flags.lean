import CameraVideoStream.Foundation.Transition
import CameraVideoStream.Server.CamInit
import CameraVideoStream.Server.CameraCapture

/-!
# The flags of the camera module

`devOpen` and `streamOn` are to say whether `camera.videofd` is an open descriptor and whether the
driver is streaming on it. `cam_init` overwrites the descriptor whatever the flags are,
`camera_streamon` tests neither flag, and `camera_deinit` leaves `streamOn` as it is. So the flags
say what they are to say as long as the functions are called in order (`CameraApp.InOrder`): no
second `cam_init` unless streaming is off and the device answers, `camera_streamon` on an open
device only, `camera_deinit` with streaming off only.

## Main definitions

* `CameraApp.Tracks`: the flags say what they are to say.
* `CameraApp.InOrder`: the condition on the calls.

## Main results

* `CameraApp.tracks_of_meets`: in every run whose calls are in order, the flags track the device.
-/

open V4l2

namespace CameraApp

/-- The flags track the device. -/
structure Tracks (m : CameraApp) : Prop where
  devOpen : m.devOpen = true ↔ m.camera.videofd ∈ m.os.opened
  streamOn : m.streamOn = true ↔ m.camera.videofd ∈ m.os.streaming
  /-- Streaming is on only while the device is open. -/
  devOpen_of_streamOn : m.streamOn = true → m.devOpen = true
  /-- Every `ioctl`, `select` and `close` has been issued on an open descriptor. -/
  notMisused : m.os.misused = false

/-- The condition on a call, in the state before it. -/
def InOrder (m : CameraApp) : Call → Prop
  | .camInit a _ _ _ => m.devOpen = false ∨ m.streamOn = false ∧ a.Serves
  | .cameraStreamon _ => m.devOpen = true
  | .cameraCapture _ => True
  | .cameraStreamoff _ => True
  | .cameraDeinit => m.streamOn = false

/-- What the calls keep. -/
structure FlagsInv (m : CameraApp) : Prop extends Tracks m where
  nonneg : ∀ fd ∈ m.os.opened, 0 ≤ fd
  streaming_subset : m.os.streaming ⊆ m.os.opened

theorem flagsInv_atStart (data : Codec.Bytes) (len : ℤ) : (atStart data len).FlagsInv where
  devOpen := by simp [os, atStart]
  streamOn := by simp [os]
  devOpen_of_streamOn := by simp
  notMisused := rfl
  nonneg := by simp [os]
  streaming_subset := by simp [os]

theorem FlagsInv.usable {m : CameraApp} (h : m.FlagsInv) (hopen : m.devOpen = true) : m.Usable :=
  h.devOpen.mp hopen

theorem FlagsInv.of_quiet {m m' : CameraApp} (h : m.FlagsInv) (hq : Quiet m m') : m'.FlagsInv where
  devOpen := by rw [hq.devOpen, hq.videofd, hq.opened, h.devOpen]
  streamOn := by rw [hq.streamOn, hq.videofd, hq.streaming, h.streamOn]
  devOpen_of_streamOn := by
    rw [hq.streamOn, hq.devOpen]
    exact h.devOpen_of_streamOn
  notMisused := by rw [hq.misused, h.notMisused]
  nonneg := by
    rw [hq.opened]
    exact h.nonneg
  streaming_subset := by
    rw [hq.streaming, hq.opened]
    exact h.streaming_subset

/-! ### What the calls keep -/

/-- The module has died, or the flags track the device. -/
def Sound (m : CameraApp) : Prop := m.crashed = true ∨ m.FlagsInv

/-- With streaming off, the flags track the device if `devOpen` does and the driver is not
streaming. -/
theorem FlagsInv.of_off {m : CameraApp} (hoff : m.streamOn = false)
    (hdev : m.devOpen = true ↔ m.camera.videofd ∈ m.os.opened)
    (hidle : m.camera.videofd ∉ m.os.streaming) (hmisused : m.os.misused = false)
    (hnonneg : ∀ fd ∈ m.os.opened, 0 ≤ fd) (hsub : m.os.streaming ⊆ m.os.opened) :
    m.FlagsInv where
  devOpen := hdev
  streamOn := by simp [hoff, hidle]
  devOpen_of_streamOn := by simp [hoff]
  notMisused := hmisused
  nonneg := hnonneg
  streaming_subset := hsub

/-- With streaming off, the descriptor is closed. -/
theorem FlagsInv.of_close {m : CameraApp} (husable : m.Usable) (hoff : m.streamOn = false)
    (hclosed : m.devOpen = false) (hmisused : m.os.misused = false)
    (hnonneg : ∀ fd ∈ m.os.opened, 0 ≤ fd) (hsub : m.os.streaming ⊆ m.os.opened) :
    (m.sys (.close m.camera.videofd)).FlagsInv := by
  have hos := Os.issue_close husable
  refine .of_off hoff ?_ ?_ ?_ ?_ ?_ <;> rw [os_sys, hos]
  · exact iff_of_false (by simp [sys, hclosed]) (Finset.notMem_erase _ _)
  · exact Finset.notMem_erase _ _
  · exact hmisused
  · exact fun fd hfd => hnonneg fd (Finset.mem_of_mem_erase hfd)
  · exact Finset.erase_subset_erase _ hsub

/-- A `cam_init` in order starts with streaming off. -/
theorem FlagsInv.off_of_inOrder {m : CameraApp} (h : m.FlagsInv) {a : InitAnswers}
    (horder : m.devOpen = false ∨ m.streamOn = false ∧ a.Serves) : m.streamOn = false := by
  rcases horder with hclosed | ⟨hoff, -⟩
  · by_contra hon
    simp [h.devOpen_of_streamOn (by simpa using hon)] at hclosed
  · exact hoff

theorem FlagsInv.openFailed {m : CameraApp} (h : m.FlagsInv) (hclosed : m.devOpen = false)
    (hoff : m.streamOn = false) {a : InitAnswers} (hfd : a.videofd < 0) (index width height : ℤ) :
    (m.openDevice a index width height).FlagsInv := by
  have hos : (m.openDevice a index width height).os = m.os := by
    rw [openDevice_os, Os.issue, if_neg hfd.not_ge]
  have hnot : a.videofd ∉ m.os.opened := fun hmem => absurd (h.nonneg _ hmem) hfd.not_ge
  refine .of_off hoff ?_ ?_ ?_ ?_ ?_ <;> rw [hos]
  · exact iff_of_false (by simp [openDevice, sys, setCamera, hclosed]) hnot
  · exact fun hmem => hnot (h.streaming_subset hmem)
  · exact h.notMisused
  · exact h.nonneg
  · exact h.streaming_subset

theorem FlagsInv.camInit {m : CameraApp} (h : m.FlagsInv) {a : InitAnswers}
    (horder : m.devOpen = false ∨ m.streamOn = false ∧ a.Serves) (index width height : ℤ) :
    (m.camInit a index width height).2.Sound := by
  have hoff := h.off_of_inOrder horder
  rcases camInit_cases a index width height m with ⟨hfd, hr⟩ | ⟨hfd, hready | hfailed⟩
  · have hclosed : m.devOpen = false :=
      horder.resolve_right fun hs => absurd hs.2.videofd hfd.not_ge
    rw [hr]
    exact .inr (h.openFailed hclosed hoff hfd index width height)
  all_goals
    have hnonneg : ∀ fd ∈ insert a.videofd m.os.opened, 0 ≤ fd := by
      simpa [hfd] using h.nonneg
    have hsub : m.os.streaming.erase a.videofd ⊆ insert a.videofd m.os.opened :=
      (Finset.erase_subset _ _).trans (h.streaming_subset.trans (Finset.subset_insert _ _))
  · -- the device is ready
    obtain ⟨m₁, -, hq, hr⟩ := hready
    obtain ⟨hvideofd, hopened, hstreaming, hmisused⟩ := hq.of_openDevice hfd
    rw [← hopened] at hnonneg hsub
    rw [← hstreaming] at hsub
    rw [hr]
    refine .inr (.of_off (hq.streamOn.trans hoff) ?_ ?_ (hmisused.trans h.notMisused) hnonneg hsub)
    · show true = true ↔ m₁.camera.videofd ∈ m₁.os.opened
      simp [hvideofd, hopened]
    · show m₁.camera.videofd ∉ m₁.os.streaming
      simp [hvideofd, hstreaming]
  · obtain ⟨r, m₁, hset, hfail, hr⟩ := hfailed
    rw [hr]
    rcases hfail with ⟨-, hdead⟩ | ⟨hret, m₂, hq, rfl⟩
    · exact .inl hdead
    · -- the device did not answer
      obtain ⟨-, hopened, hstreaming, hmisused⟩ := hq.of_openDevice hfd
      rw [← hopened] at hnonneg hsub
      rw [← hstreaming] at hsub
      have hclosed : m.devOpen = false := by
        refine horder.resolve_right fun hs => ?_
        have hpersists := persists_setUp hs.2 (m.openDevice a index width height)
        rw [hset] at hpersists
        exact hpersists hret
      exact .inr (.of_close (hq.usable (usable_openDevice hfd index width height m))
        (hq.streamOn.trans hoff) (hq.devOpen.trans hclosed) (hmisused.trans h.notMisused) hnonneg
        hsub)

theorem FlagsInv.cameraStreamon {m : CameraApp} (h : m.FlagsInv) (hopen : m.devOpen = true)
    (a : StreamonAnswers) : (m.cameraStreamon a).2.FlagsInv := by
  have hm := h.usable hopen
  cases hok : a.streamOn with
  | false =>
    have hq : Quiet m (m.ioctl (.streamOn m.bufType) false) :=
      (Quiet.refl m).ioctl hm _ fun _ => ⟨rfl, rfl⟩
    simp only [CameraApp.cameraStreamon, hok]
    exact h.of_quiet hq
  | true =>
    have hos : (m.ioctl (.streamOn m.bufType) true).os =
        { m.os with streaming := insert m.camera.videofd m.os.streaming } := by
      rw [ioctl, os_sys, Os.issue_ioctl hm]
      rfl
    have hon : FlagsInv { m.ioctl (.streamOn m.bufType) true with streamOn := true } := by
      refine ⟨⟨?_, ?_, fun _ => hopen, ?_⟩, ?_, ?_⟩
      · exact hos ▸ h.devOpen
      · exact iff_of_true rfl (hos ▸ Finset.mem_insert_self _ _)
      · exact hos ▸ h.notMisused
      · exact hos ▸ h.nonneg
      · exact hos ▸ Finset.insert_subset hm h.streaming_subset
    simp only [CameraApp.cameraStreamon, hok]
    exact hon.of_quiet ((Quiet.refl _).prepareVbuf (hon.usable hopen) _)

/-- A capture makes quiet calls only. -/
theorem Captured.quiet {c : CaptureAnswers} {bytes : ℤ} {m m' : CameraApp}
    (h : Captured c bytes m m') (hm : m.Usable) : Quiet m m' := by
  have hcalls : ∀ e ∈ m.captureCalls c bytes, e.Quiet m.camera.videofd := by
    simp [captureCalls, fillCalls, Event.Quiet]
  have hquiet := (Quiet.refl m).sysAll hm hcalls
  have hos : m'.os = (m.sysAll (m.captureCalls c bytes)).os := by
    rw [os, h.trace]
    rfl
  exact ⟨by rw [h.camera], h.devOpen, h.streamOn, h.crashed, hos ▸ hquiet.opened,
    hos ▸ hquiet.streaming, hos ▸ hquiet.misused⟩

theorem FlagsInv.cameraCapture {m : CameraApp} (h : m.FlagsInv) (c : CaptureAnswers) :
    (m.cameraCapture c).2.Sound := by
  cases hopen : m.devOpen with
  | false =>
    rw [cameraCapture_of_closed hopen]
    exact .inr h
  | true =>
    have hm := h.usable hopen
    by_cases hready : c.Ready
    · by_cases hcopy : m.CopySurvives c
      · obtain ⟨-, hcaptured⟩ := captured_cameraCapture hopen hready hcopy
        exact .inr (h.of_quiet (hcaptured.quiet hm))
      · exact .inl (died_cameraCapture hopen hready hcopy).2.crashed
    · rw [cameraCapture_of_not_ready hopen hready]
      exact .inr (h.of_quiet ((Quiet.refl m).sys hm rfl))

theorem FlagsInv.cameraStreamoff {m : CameraApp} (h : m.FlagsInv) (ok : Bool) :
    (m.cameraStreamoff ok).2.FlagsInv := by
  cases hon : m.streamOn with
  | false => simpa [CameraApp.cameraStreamoff, hon] using h
  | true =>
    have hm := h.usable (h.devOpen_of_streamOn hon)
    cases ok with
    | false =>
      have hq : Quiet m (m.ioctl (.streamOff m.bufType) false) :=
        (Quiet.refl m).ioctl hm _ fun _ => ⟨rfl, rfl⟩
      simp only [CameraApp.cameraStreamoff, hon]
      exact h.of_quiet hq
    | true =>
      have hos : (m.ioctl (.streamOff m.bufType) true).os =
          { m.os with streaming := m.os.streaming.erase m.camera.videofd }.dropBuffers
            m.camera.videofd := by
        rw [ioctl, os_sys, Os.issue_ioctl hm]
        rfl
      have hoff : FlagsInv { m.ioctl (.streamOff m.bufType) true with streamOn := false } := by
        refine .of_off rfl ?_ ?_ ?_ ?_ ?_
        · exact hos ▸ h.devOpen
        · exact hos ▸ Finset.notMem_erase _ _
        · exact hos ▸ h.notMisused
        · exact hos ▸ h.nonneg
        · exact hos ▸ (Finset.erase_subset _ _).trans h.streaming_subset
      have hfree := (Quiet.refl (m.ioctl (.streamOff m.bufType) true)).freePlanes
        (hoff.usable (h.devOpen_of_streamOn hon)) m.vbuf.planes
      simp only [CameraApp.cameraStreamoff, hon]
      exact hoff.of_quiet { hfree with streamOn := rfl }

theorem FlagsInv.cameraDeinit {m : CameraApp} (h : m.FlagsInv) (hoff : m.streamOn = false) :
    m.cameraDeinit.Sound := by
  cases hopen : m.devOpen with
  | false => exact .inr (by simpa [CameraApp.cameraDeinit, hopen] using h)
  | true =>
    have hm := h.usable hopen
    rw [CameraApp.cameraDeinit, hopen, if_neg (by simp)]
    split_ifs
    · exact .inl rfl
    · have hunmap : Quiet m (m.sysAll (m.mappedSlots.map fun s => .munmap s.start s.length)) :=
        (Quiet.refl m).sysAll hm (by simp [Event.Quiet])
      have hfree := hunmap.sys hm (e := .free m.camera.buffers) trivial
      have hinv := h.of_quiet hfree
      exact .inr (FlagsInv.of_close (m := { CameraApp.sys _ _ with devOpen := false })
        (hfree.usable hm) (hfree.streamOn.trans hoff) rfl hinv.notMisused hinv.nonneg
        hinv.streaming_subset)

theorem FlagsInv.step {m : CameraApp} (h : m.FlagsInv) (hlive : m.crashed = false) (c : Call)
    (horder : m.InOrder c) : (m.step c).Sound := by
  rw [CameraApp.step, hlive, if_neg (by simp)]
  cases c with
  | camInit a index width height => exact h.camInit horder index width height
  | cameraStreamon a => exact .inr (h.cameraStreamon horder a)
  | cameraCapture a => exact h.cameraCapture a
  | cameraStreamoff ok => exact .inr (h.cameraStreamoff ok)
  | cameraDeinit => exact h.cameraDeinit horder

theorem Sound.step (m : CameraApp) (c : Call) (h : m.Sound) (horder : m.InOrder c) :
    (m.step c).Sound := by
  cases hlive : m.crashed with
  | true =>
    rw [CameraApp.step, hlive, if_pos rfl]
    exact h
  | false => exact (h.resolve_left (by simp [hlive])).step hlive c horder

/-- **The flags track the device.** In every run whose calls are in order, whatever the system calls
answer, after each call the module has died or its flags track the device. -/
theorem tracks_of_meets {data : Codec.Bytes} {len : ℤ} {cs : List Call}
    (h : Transition.Meets step InOrder (atStart data len) cs) :
    Transition.Throughout step (fun m => m.crashed = true ∨ m.Tracks) (atStart data len) cs :=
  (h.throughout Sound.step (.inr (flagsInv_atStart data len))).mono fun _ hs =>
    hs.imp_right fun hi => hi.toTracks

/-- A session, and an attempt to open a device that is not there. -/
theorem tracks_of_meets_session :
    Transition.Throughout step (fun m => m.crashed = true ∨ m.Tracks)
      (atStart (List.replicate 50 0) (-1))
      [.camInit (.singlePlanar 2 100) 0 1920 1080, .cameraStreamon ⟨true, 0⟩,
        .cameraCapture ⟨1, some ⟨1, 50, 0⟩, fun _ => 0, true⟩, .cameraStreamoff true,
        .cameraDeinit,
        .camInit { InitAnswers.singlePlanar 2 100 with videofd := -1 } 1 1920 1080] :=
  tracks_of_meets ⟨.inl (by decide), by unfold InOrder; decide, trivial, trivial,
    by unfold InOrder; decide, .inl (by decide), trivial⟩

/-- `camera_deinit` while streaming is on closes the device and leaves `streamOn` set. -/
theorem not_tracks :
    ¬ ∀ data len cs, Transition.Throughout step (fun m => m.crashed = true ∨ m.Tracks)
      (atStart data len) cs := by
  intro h
  have hrun := h [] (-1) [.camInit (.singlePlanar 2 100) 0 1920 1080, .cameraStreamon ⟨true, 0⟩,
    .cameraDeinit] _ List.prefix_rfl
  have htracks := hrun.resolve_left (by decide)
  exact absurd (htracks.devOpen_of_streamOn (by decide)) (by decide)

end CameraApp
