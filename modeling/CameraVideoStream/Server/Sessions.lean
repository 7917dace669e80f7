import CameraVideoStream.Foundation.Transition
import CameraVideoStream.Server.CameraCapture
import CameraVideoStream.Server.Mappings

/-!
# Sessions

A session opens the device, switches streaming on, captures, switches streaming off and closes the
device. What its five parts acquire they release: the ledger of descriptors, mappings and heap
blocks is balanced at the end of each session, whatever kind of device the session before was on.

`camera_deinit` counts the buffers in an `int`, and `cam_init` in a `uint32_t`, so the driver must
not answer `2^31` buffers or more. And a session comes to its end only if no capture of it ends the
process (`CameraApp.DiedInCopy`).

## Main definitions

* `CameraApp.Session`, `CameraApp.runSession`.
* `CameraApp.Complete`: the calls of the session succeed that are to succeed.
* `CameraApp.Running`: what is held in the middle of a session.
* `CameraApp.Clean`: nothing is held, and what has been acquired has been released as often.

## Main results

* `CameraApp.Clean.runSession`: what a session leaves.
* `CameraApp.clean_of_meets`: nothing is held after each session.
-/

open V4l2

namespace CameraApp

/-! ### The middle of a session -/

/-- What `camera_deinit` releases. -/
def owned (m : CameraApp) : Multiset Resource :=
  mappings m.mappedSlots + (blocks m.camera.buffers + {.descriptor m.camera.videofd})

/-- The planes of `vbuf`, which are allocated on a multi-planar device while streaming is on. -/
def vbufPlanes (m : CameraApp) : Multiset Resource :=
  if m.streamOn = true ∧ m.camera.driverType = .videoCaptureMplane then blocks m.vbuf.planes else 0

/-- In the middle of a session: what `camera_streamoff` and `camera_deinit` release is held. -/
structure Running (m : CameraApp) : Prop where
  devOpen : m.devOpen = true
  alive : m.crashed = false
  buffers : m.camera.buffers ≠ 0
  held : m.held = some (m.vbufPlanes + m.owned)

/-- A capture has ended the process in its copy. -/
def DiedInCopy (m : CameraApp) : Prop :=
  m.crashed = true ∧ ∃ n bytes, m.trace.getLast? = some (.memcpy n bytes)

/-- A process that has ended goes on doing nothing. -/
theorem run_of_crashed {m : CameraApp} (hdead : m.crashed = true) (cs : List Call) :
    Transition.run step m cs = m := by
  induction cs with
  | nil => rfl
  | cons c cs ih => rw [Transition.run_cons, step_of_crashed hdead, ih]

/-- The planes that `camera_deinit` unmaps are those that `cam_init` has mapped. -/
theorem Initialised.mappedSlots {a : InitAnswers} {index : ℤ} {m m' : CameraApp}
    (h : Initialised a index m m') (hplanes : a.numPlanes ≤ 4) (hcount : reqCount a < 2 ^ 31) :
    m'.mappedSlots = planesOf a (reqCount a) := by
  have hint : (toInt (a.reqBufs.getD 0)).toNat = reqCount a := by
    rw [reqCount] at hcount ⊢
    rcases toInt_cases (a.reqBufs.getD 0) with ⟨heq, -⟩ | ⟨-, hge⟩ <;> omega
  rw [CameraApp.mappedSlots, h.bufCount, hint, planesOf, ← h.planeCount]
  refine List.flatMap_congr fun n hn => List.map_congr_left fun j hj => ?_
  exact h.table (h.planeCount ▸ hplanes) n (List.mem_range.mp hn) j (List.mem_range.mp hj)

/-- After `cam_init`, if every plane could be mapped. -/
theorem Initialised.running {a : InitAnswers} {index : ℤ} {m m' : CameraApp}
    (h : Initialised a index m m') (hplanes : a.numPlanes ≤ 4) (hcount : reqCount a < 2 ^ 31)
    (hbuf : a.callocBuffers ≠ 0)
    (hmmap : ∀ n < reqCount a, ∀ j < a.numPlanes, a.mmap n j ≠ mapFailed)
    (hlive : m.crashed = false) (hoff : m.streamOn = false) (hheld : m.held = some 0) :
    m'.Running where
  devOpen := h.devOpen
  alive := h.crashed.trans hlive
  buffers := by
    rw [h.buffers]
    exact hbuf
  held := by
    have hall : acquired (planesOf a (reqCount a)) = planesOf a (reqCount a) := by
      refine acquired_eq_self fun s hs => ?_
      obtain ⟨n, hn, j, hj, rfl⟩ := mem_planesOf.mp hs
      exact hmmap n hn j hj
    rw [h.held hheld, hall, owned, h.mappedSlots hplanes hcount, h.buffers, h.videofd, vbufPlanes,
      if_neg (by simp [h.streamOn, hoff]), zero_add]

/-- From `m` to `m'` nothing has been acquired or released. -/
structure SameLedger (m m' : CameraApp) : Prop where
  camera : m'.camera = m.camera
  planes : m'.vbuf.planes = m.vbuf.planes
  devOpen : m'.devOpen = m.devOpen
  streamOn : m'.streamOn = m.streamOn
  crashed : m'.crashed = m.crashed
  held : m'.held = m.held

theorem SameLedger.refl (m : CameraApp) : SameLedger m m := ⟨rfl, rfl, rfl, rfl, rfl, rfl⟩

theorem SameLedger.sys {m m' : CameraApp} (h : SameLedger m m') {e : Event} (he : e.entries = []) :
    SameLedger m (m'.sys e) :=
  { h with held := by rw [held_sys, he, Ledger.replay_nil, h.held] }

theorem owned_congr {m m' : CameraApp} (h : m'.camera = m.camera) : m'.owned = m.owned := by
  rw [owned, owned, mappedSlots, mappedSlots, planeCount, planeCount, h]

theorem Running.of_sameLedger {m m' : CameraApp} (hm : m.Running) (h : SameLedger m m') :
    m'.Running where
  devOpen := h.devOpen.trans hm.devOpen
  alive := h.crashed.trans hm.alive
  buffers := h.camera ▸ hm.buffers
  held := by
    rw [h.held, hm.held, owned_congr h.camera, vbufPlanes, vbufPlanes, h.streamOn, h.camera,
      h.planes]

/-! ### The five functions -/

theorem Captured.sameLedger {c : CaptureAnswers} {bytes : ℤ} {m m' : CameraApp}
    (h : Captured c bytes m m') : SameLedger m m' where
  camera := h.camera
  planes := by rw [h.vbuf, c.planes_fill]
  devOpen := h.devOpen
  streamOn := h.streamOn
  crashed := h.crashed
  held := by
    have hcalls : ∀ e ∈ m.captureCalls c bytes, e.entries = [] := by
      simp [captureCalls, fillCalls, Event.entries]
    rw [CameraApp.held, h.trace, held_append_of_entries hcalls, CameraApp.held]

/-- With a table of buffers, the last thing that a capture that dies has tried is the copy. -/
theorem Died.diedInCopy {c : CaptureAnswers} {bytes : ℤ} {m m' : CameraApp}
    (h : Died c bytes m m') (hbuf : m.camera.buffers ≠ 0) : m'.DiedInCopy := by
  refine ⟨h.crashed, (c.fill m.vbuf).index.toNat, bytes, ?_⟩
  rw [h.trace, fatalCalls, if_neg hbuf, ← List.append_assoc, List.getLast?_concat]

/-- A capture acquires and releases nothing, or it ends the process. -/
theorem Running.cameraCapture {m : CameraApp} (hm : m.Running) (c : CaptureAnswers) :
    SameLedger m (m.step (.cameraCapture c)) ∨ (m.step (.cameraCapture c)).DiedInCopy := by
  rw [step_of_alive hm.alive, run]
  by_cases hready : c.Ready
  · by_cases hcopy : m.CopySurvives c
    · exact .inl (captured_cameraCapture hm.devOpen hready hcopy).2.sameLedger
    · exact .inr ((died_cameraCapture hm.devOpen hready hcopy).2.diedInCopy hm.buffers)
  · rw [cameraCapture_of_not_ready hm.devOpen hready]
    exact .inl ((SameLedger.refl m).sys rfl)

/-- So do captures in a row. -/
theorem Running.captures {m : CameraApp} (hm : m.Running) (cs : List CaptureAnswers) :
    (Transition.run step m (cs.map .cameraCapture)).DiedInCopy ∨
      (Transition.run step m (cs.map .cameraCapture)).Running ∧
        (Transition.run step m (cs.map .cameraCapture)).streamOn = m.streamOn := by
  induction cs generalizing m with
  | nil => exact .inr ⟨hm, rfl⟩
  | cons c cs ih =>
    rw [List.map_cons, Transition.run_cons]
    rcases hm.cameraCapture c with hsame | hdied
    · rw [← hsame.streamOn]
      exact ih (hm.of_sameLedger hsame)
    · rw [run_of_crashed hdied.1]
      exact .inl hdied

/-- `camera_streamon` with streaming off. -/
theorem Running.cameraStreamon {m : CameraApp} (hm : m.Running) (hoff : m.streamOn = false)
    (a : StreamonAnswers) :
    (m.step (.cameraStreamon a)).Running ∧
      (m.step (.cameraStreamon a)).streamOn = a.streamOn := by
  have hheld : m.held = some m.owned := by
    rw [hm.held, vbufPlanes, if_neg (by simp [hoff]), zero_add]
  rw [step_of_alive hm.alive, run, CameraApp.cameraStreamon]
  cases a.streamOn with
  | false =>
    have hsame : SameLedger m (m.ioctl (.streamOn m.bufType) false) := (SameLedger.refl m).sys rfl
    exact ⟨hm.of_sameLedger hsame, hoff⟩
  | true =>
    have hon : (m.ioctl (.streamOn m.bufType) true).held = some m.owned :=
      (held_sys _ _).trans hheld
    rw [if_pos rfl, prepareVbuf]
    split_ifs with hmplane
    · refine ⟨⟨hm.devOpen, hm.alive, hm.buffers, ?_⟩, rfl⟩
      rw [vbufPlanes, if_pos ⟨rfl, hmplane⟩]
      exact held_calloc hon a.calloc
    · refine ⟨⟨hm.devOpen, hm.alive, hm.buffers, ?_⟩, rfl⟩
      rw [vbufPlanes, if_neg fun h => hmplane h.2, zero_add]
      exact hon

/-- `camera_streamoff` that succeeds if streaming is on. -/
theorem Running.cameraStreamoff {m : CameraApp} (hm : m.Running) {ok : Bool}
    (hok : m.streamOn = true → ok = true) :
    (m.step (.cameraStreamoff ok)).Running ∧
      (m.step (.cameraStreamoff ok)).streamOn = false := by
  rw [step_of_alive hm.alive, run, CameraApp.cameraStreamoff]
  cases hon : m.streamOn with
  | false => exact ⟨hm, hon⟩
  | true =>
    rw [if_neg (by simp), if_pos (hok hon)]
    have hheld : (m.ioctl (.streamOff m.bufType) ok).held = some (m.vbufPlanes + m.owned) :=
      (held_sys _ _).trans hm.held
    rw [freePlanes]
    split_ifs with hmplane
    · rw [vbufPlanes, if_pos ⟨hon, hmplane⟩] at hheld
      refine ⟨⟨hm.devOpen, hm.alive, hm.buffers, ?_⟩, rfl⟩
      rw [vbufPlanes, if_neg (by simp), zero_add]
      exact held_free hheld
    · rw [vbufPlanes, if_neg fun h => hmplane h.2] at hheld
      refine ⟨⟨hm.devOpen, hm.alive, hm.buffers, ?_⟩, rfl⟩
      rw [vbufPlanes, if_neg (by simp)]
      exact hheld

/-- Nothing is held, and both flags are off. Every resource that has been acquired has been released
as often, under the same address and with the same length. -/
structure Clean (m : CameraApp) : Prop where
  devOpen : m.devOpen = false
  streamOn : m.streamOn = false
  alive : m.crashed = false
  held : m.held = some 0
  balanced : ∀ r, (m.trace.flatMap Event.entries).count (.acquire r) =
    (m.trace.flatMap Event.entries).count (.release r)

theorem clean_atStart (data : Codec.Bytes) (len : ℤ) : (atStart data len).Clean :=
  ⟨rfl, rfl, rfl, rfl, fun _ => rfl⟩

/-- `camera_deinit` with streaming off. -/
theorem Running.cameraDeinit {m : CameraApp} (hm : m.Running) (hoff : m.streamOn = false) :
    (m.step .cameraDeinit).Clean := by
  have hheld : V4l2.held m.trace = some (mappings m.mappedSlots +
      (blocks m.camera.buffers + ({.descriptor m.camera.videofd} + 0))) := by
    rw [show V4l2.held m.trace = _ from hm.held, vbufPlanes, if_neg (by simp [hoff]), zero_add,
      owned, add_zero]
  have hunmap := held_free (held_munmapCalls hheld)
  rw [step_of_alive hm.alive, run, CameraApp.cameraDeinit, if_neg (by simp [hm.devOpen]),
    if_neg fun h => hm.buffers h.1]
  have hclose : V4l2.held (m.trace ++ m.mappedSlots.map (fun s => .munmap s.start s.length) ++
      [.free m.camera.buffers] ++ [.close m.camera.videofd]) = some 0 := by
    rw [held_concat, hunmap]
    exact Ledger.post_release (0 : Multiset Resource) _
  exact ⟨rfl, hoff, hm.alive, hclose, Ledger.count_eq_count hclose⟩

/-! ### Sessions -/

/-- A session, with what the calls that its five parts make answer. -/
structure Session where
  init : InitAnswers
  index : ℤ
  width : ℤ
  height : ℤ
  streamon : StreamonAnswers
  captures : List CaptureAnswers
  streamoff : Bool

/-- The calls of a session. -/
def Session.calls (s : Session) : List Call :=
  [.camInit s.init s.index s.width s.height, .cameraStreamon s.streamon] ++
    s.captures.map .cameraCapture ++ [.cameraStreamoff s.streamoff, .cameraDeinit]

/-- The state after a session. -/
def runSession (m : CameraApp) (s : Session) : CameraApp := Transition.run step m s.calls

/-- `cam_init` succeeds, with no more planes than `struct buffer` has and with all allocations and
mappings; and `camera_streamoff` succeeds if streaming is on. -/
@[mk_iff] structure Complete (m : CameraApp) (s : Session) : Prop where
  init : (m.camInit s.init s.index s.width s.height).1 = some 0
  numPlanes : s.init.numPlanes ≤ 4
  callocBuffers : s.init.callocBuffers ≠ 0
  mmap : ∀ n < reqCount s.init, ∀ j < s.init.numPlanes, s.init.mmap n j ≠ mapFailed
  streamoff : s.streamon.streamOn = true → s.streamoff = true

instance (m : CameraApp) (s : Session) : Decidable (m.Complete s) :=
  decidable_of_iff _ (complete_iff m s).symm

/-- **What a session leaves.** Nothing, unless one of its captures has ended the process. -/
theorem Clean.runSession {m : CameraApp} (hm : m.Clean) {s : Session} (hs : m.Complete s)
    (hcount : reqCount s.init < 2 ^ 31) :
    (m.runSession s).Clean ∨ (m.runSession s).DiedInCopy := by
  have h := initialised_of_camInit hs.init
  have hinit : (m.step (.camInit s.init s.index s.width s.height)).Running := by
    rw [step_of_alive hm.alive]
    exact h.running hs.numPlanes hcount hs.callocBuffers hs.mmap hm.alive hm.streamOn hm.held
  have hoff : (m.step (.camInit s.init s.index s.width s.height)).streamOn = false := by
    rw [step_of_alive hm.alive]
    exact h.streamOn.trans hm.streamOn
  obtain ⟨hstream, hon⟩ := hinit.cameraStreamon hoff s.streamon
  rw [CameraApp.runSession, Session.calls, Transition.run_append, Transition.run_append]
  simp only [Transition.run_cons, Transition.run_nil]
  rcases hstream.captures s.captures with hdied | ⟨hrun, hkept⟩
  · rw [step_of_crashed hdied.1, step_of_crashed hdied.1]
    exact .inr hdied
  · obtain ⟨hidle, hoff⟩ := hrun.cameraStreamoff fun hstreaming =>
      hs.streamoff (hon.symm.trans (hkept.symm.trans hstreaming))
    exact .inl (hidle.cameraDeinit hoff)

/-- **Complete sessions are balanced.** However many complete sessions are run one after the other,
on devices of either kind and of any index, with any number of captures and whatever these come to:
at the end of each of them both flags are off, nothing is held, and every resource has been released
as often as it has been acquired, under the same address and with the same length, provided that no
driver answers `2^31` buffers or more; a session that does not come to its end has had the process
ended by the copy of one of its captures. -/
theorem clean_of_meets {data : Codec.Bytes} {len : ℤ} {ss : List Session}
    (hss : Transition.Meets runSession Complete (atStart data len) ss)
    (hcount : ∀ s ∈ ss, reqCount s.init < 2 ^ 31) :
    Transition.Throughout runSession (fun m => m.Clean ∨ m.DiedInCopy) (atStart data len) ss := by
  refine (hss.and (Transition.meets_iff_forall.mpr hcount)).throughout
    (fun m s hm hs => ?_) (.inl (clean_atStart data len))
  rcases hm with hm | hdied
  · exact hm.runSession hs.1 hs.2
  · rw [runSession, run_of_crashed hdied.1]
    exact .inr hdied

/-- A session on a single-planar device with two buffers, and one on a multi-planar device with one
buffer of two planes. -/
theorem clean_of_meets_two :
    let single : Session :=
      { init := .singlePlanar 2 100, index := 0, width := 1920, height := 1080,
        streamon := ⟨true, 0⟩, captures := [⟨1, some ⟨1, 50, 0⟩, fun _ => 0, true⟩],
        streamoff := true }
    let multi : Session :=
      { single with
        init :=
          { InitAnswers.singlePlanar 1 100 with
            queryCap := some capVideoCaptureMplane
            sFmt := some ⟨1920, 1080, 2⟩
            callocQuery := fun _ => 0x2000
            mmap := fun _ j => 0x100000 * (UInt64.ofNat j + 1)
            callocQueue := fun _ => 0x2000 }
        index := 1
        streamon := ⟨true, 0x3000⟩ }
    Transition.Throughout runSession (fun m => m.Clean ∨ m.DiedInCopy)
      (atStart (List.replicate 50 0) (-1)) [single, multi] := by
  intro single multi
  exact clean_of_meets (by decide) (by decide)

end CameraApp
