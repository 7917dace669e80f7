import CameraVideoStream.Server.Capture
import CameraVideoStream.Server.PassEnds
import CameraVideoStream.Server.Queue

/-!
# The server process does not die

Four things end the process: a null pointer that `cam_init` or `camera_capture` writes or reads
through; a `memcpy` that reads more than is mapped or writes more than there is room for; an
exception for a `std::string` of negative length; and an iterator that is not valid. The pointers
are those that `calloc` has given. The number of bytes that are copied is the one in
`vbuf.bytesused`, which `VIDIOC_DQBUF` has filled in or, where it has failed, an earlier one has;
and the string is as long as the last capture has stored, `-1` before the first one. If the
allocations succeed, in an admissible run none of this happens (`ServerProcess.alive_of_meets`).

So nothing but the process itself keeps the sending thread from the end of a pass.

## Main definitions

* `InitAnswers.Allocates`: the allocations that `cam_init` does not check succeed.
* `CameraApp.Backed`: what the table of the buffers says is mapped.
* `ServerProcess.Alive`.

## Main results

* `CameraApp.camInit_survives`: how `cam_init` ends then.
* `CameraApp.Backed.cameraCapture`: how `camera_capture` ends then.
* `ServerProcess.run_turns`, `ServerProcess.alive_of_meets`.
-/

open V4l2

/-- `camera.buffers` is allocated, and on a multi-planar device the planes of every request. -/
structure InitAnswers.Allocates (a : InitAnswers) : Prop where
  buffers : a.callocBuffers ≠ 0
  planes : a.queryCap.getD 0 &&& capVideoCaptureMplane ≠ 0 →
    ∀ n < CameraApp.reqCount a, a.callocQuery n ≠ 0

namespace CameraApp

/-! ### `cam_init` -/

theorem hasType_prepare (a : InitAnswers) (m : CameraApp) :
    (prepare a m).Sat (HasType a) (fun _ _ => True) := by
  refine (hasType_queryCap a m).bind fun m h => ?_
  refine (h.check _ _).bind fun m h => ?_
  refine (h.check _ _).bind fun m h => Outcome.Sat.bind (Q := HasType a) ?_ fun m h => ?_
  · rw [setFormat]
    cases a.sFmt with
    | none => trivial
    | some fmt =>
      rw [Outcome.sat_next, getFormat]
      split_ifs <;> exact h
  · rw [requestBuffers]
    cases a.reqBufs with
    | none => trivial
    | some count => exact h

theorem mapPlane_survives (a : InitAnswers) (planes : ℕ → PlaneInfo) (n j : ℕ) {m : CameraApp}
    (hbuf : m.camera.buffers ≠ 0) :
    (mapPlane a planes n j m).Sat (fun m' => m'.camera.buffers ≠ 0) (fun r _ => r ≠ none) := by
  rw [mapPlane, if_neg hbuf]
  exact hbuf

/-- A turn of the loop over the buffers does not die. -/
theorem queryBuffer_survives (a : InitAnswers) (n : ℕ) {m : CameraApp}
    (hbuf : m.camera.buffers ≠ 0)
    (hplanes : m.camera.driverType = .videoCaptureMplane → a.callocQuery n ≠ 0) :
    (queryBuffer a n m).Sat (fun _ => True) (fun r _ => r ≠ none) := by
  have hcalloc : (m.callocPlanes (a.callocQuery n)).camera = m.camera := by
    rw [callocPlanes]
    split_ifs <;> rfl
  rw [queryBuffer]
  cases a.queryBuf n with
  | none => simp [closeAndFail]
  | some planes =>
    rw [← hcalloc] at hbuf hplanes
    simp only [mapBuffer]
    split_ifs with hmplane
    · refine Outcome.Sat.bind (Q := fun m' : CameraApp => m'.camera.buffers ≠ 0) ?_
        fun _ _ => trivial
      refine Outcome.sat_iterate (I := fun _ (m' : CameraApp) => m'.camera.buffers ≠ 0)
        (fun j m' _ h => ?_) hbuf
      rw [mapMplane, if_neg (hplanes hmplane)]
      exact mapPlane_survives a planes n j h
    · refine Outcome.Sat.mono (mapPlane_survives a planes n 0 ?_) (fun _ _ => trivial)
        fun _ _ h => h
      exact hbuf

theorem setUp_survives {a : InitAnswers} (ha : a.Allocates) (m : CameraApp) :
    (setUp a m).Sat (fun _ => True) (fun r _ => r ≠ none) := by
  rw [setUp_eq]
  have hprepare : (prepare a m).Sat (fun m' => m'.camera.buffers ≠ 0 ∧ HasType a m')
      (fun r _ => r ≠ none) := by
    refine ((prepare_sat a m).and (hasType_prepare a m)).mono (fun m' h => ?_) fun r m' h => ?_
    · obtain ⟨⟨-, halloc⟩, htype⟩ := h
      exact ⟨by rw [halloc.buffers]; exact ha.buffers, htype⟩
    · obtain ⟨⟨-, rfl, -⟩, -⟩ := h
      simp
  refine hprepare.bind fun m₁ ⟨hbuf, htype⟩ => ?_
  refine Outcome.Sat.bind (Q := fun _ => True) ?_ fun m₂ _ => ?_
  · refine (Outcome.sat_iterate (I := fun _ => SameDevice m₁) (fun n m₂ hn h => ?_)
      (SameDevice.refl m₁)).mono (fun _ _ => trivial) fun _ _ h => h
    have hplanes : m₂.camera.driverType = .videoCaptureMplane → a.callocQuery n ≠ 0 := by
      rw [h.driverType]
      exact fun hmplane => ha.planes (htype.mp hmplane) n hn
    refine ((filled_queryBuffer a n m₂).and
      (queryBuffer_survives a n (by rwa [h.buffers]) hplanes)).mono
      (fun m₃ h₃ => h.trans h₃.1.toSameDevice) fun _ _ h₃ => h₃.2
  · refine Outcome.sat_iterate (I := fun _ _ => True) (fun n m₃ _ _ => ?_) trivial
    simp only [queueBuffer]
    split_ifs
    · trivial
    · simp [closeAndFail]

/-- If the allocations succeed, `cam_init` returns. -/
theorem camInit_survives {a : InitAnswers} (ha : a.Allocates) (index width height : ℤ)
    (m : CameraApp) :
    (m.camInit a index width height).1 ≠ none ∧
      (m.camInit a index width height).2.crashed = m.crashed := by
  rcases camInit_cases a index width height m with
    ⟨-, hr⟩ | ⟨-, ⟨m₁, -, hq, hr⟩ | ⟨r, m₁, hset, hfail, hr⟩⟩
  · rw [hr]
    exact ⟨by simp, rfl⟩
  · rw [hr]
    exact ⟨by simp, hq.crashed⟩
  · have hsat := setUp_survives ha (m.openDevice a index width height)
    rw [hset, Outcome.sat_exit] at hsat
    rcases hfail with ⟨hnone, -⟩ | ⟨-, m₂, hq, hclose⟩
    · exact absurd hnone hsat
    · rw [hr, hclose]
      exact ⟨hsat, hq.crashed⟩

/-! ### `camera_streamon` and `camera_capture` -/

/-- There is a table of buffers, that of a single-planar device says truly how many bytes are
mapped, and nothing has been written beyond an array. -/
structure Backed (m : CameraApp) : Prop where
  devOpen : m.devOpen = true
  buffers : m.camera.buffers ≠ 0
  overrun : m.overrun = false
  mapped : m.camera.driverType ≠ .videoCaptureMplane →
    ∀ n < m.buffersCount, (m.camera.table n 0).length ≤ m.mappedLength n

/-- After `cam_init` has succeeded on the module as it is when the process starts. -/
theorem Initialised.backed {a : InitAnswers} {data : Codec.Bytes} {len index : ℤ} {m : CameraApp}
    (h : Initialised a index (atStart data len) m) (ha : a.Allocates) (hpath : PathFits index)
    (hplanes : a.numPlanes ≤ 4)
    (hmap : ∀ n < reqCount a, ∀ j < a.numPlanes, a.mmap n j ≠ mapFailed) : m.Backed where
  devOpen := h.devOpen
  buffers := by
    rw [h.buffers]
    exact ha.buffers
  overrun := by
    rw [h.overrun (h.planeCount.trans_le hplanes), decide_eq_true hpath]
    rfl
  mapped hsingle n hn := by
    have hcount : m.planeCount = 1 := if_neg hsingle
    have hone : a.numPlanes = 1 := h.planeCount.symm.trans hcount
    have hreq : n < reqCount a := by
      rw [buffersCount, h.bufCount] at hn
      rw [reqCount]
      rcases toInt_cases (a.reqBufs.getD 0) with ⟨heq, -⟩ | ⟨hneg, -⟩ <;> omega
    rw [h.table (by omega) n hreq 0 (by omega)]
    exact h.le_mappedLength (trace_atStart data len) (by omega) hreq (hmap n hreq 0 (by omega))

theorem Backed.of_sameMemory {m m' : CameraApp} (hm : m.Backed) (h : SameMemory m m') :
    m'.Backed := by
  refine ⟨h.devOpen.trans hm.devOpen, h.camera ▸ hm.buffers, h.overrun.trans hm.overrun,
    fun hsingle n hn => ?_⟩
  rw [buffersCount, h.camera] at hn
  rw [h.camera] at hsingle
  rw [h.mapped, h.camera]
  exact hm.mapped hsingle n hn

/-- No bytes can always be copied. -/
theorem Backed.copyFits_zero {m : CameraApp} (hm : m.Backed) (n : ℕ) : m.CopyFits n (toInt 0) := by
  have hzero : toInt 0 = 0 := by decide
  rw [hzero]
  exact ⟨hm.buffers, Nat.zero_le _, Nat.zero_le _⟩

/-- The copy is survived: of what the driver has reported, or else of what `vbuf` counts, if that
can be copied. -/
theorem Backed.copySurvives {m : CameraApp} (hm : m.Backed) (hclear : m.MplaneClear)
    {c : CaptureAnswers} (hready : c.Ready) (hlaw : m.FillsVbuf c)
    (hreport : ∀ d, c.dqBuf = some d → m.PlainReport d)
    (hagain : m.CopyFits m.vbuf.index.toNat (toInt m.vbuf.bytesused)) : m.CopySurvives c := by
  rw [CopySurvives]
  by_cases hmplane : m.camera.driverType = .videoCaptureMplane
  · rw [hclear.fill hready hlaw hmplane]
    exact hm.copyFits_zero _
  · cases hd : c.dqBuf with
    | none =>
      -- the bytes that an earlier capture has counted are copied again
      have hstale : c.fill m.vbuf = m.vbuf := by simp [CaptureAnswers.fill, hd]
      rwa [hstale]
    | some d =>
      obtain ⟨hindex, hbytes⟩ := c.fill_of_dequeued hd m.vbuf
      obtain ⟨hlt, hlength, hroom, hint, -⟩ := hreport d hd
      have hpayload : m.payload d = d.bytesused.toNat := if_neg hmplane
      rw [hpayload] at hlength hroom hint
      rw [hindex, hbytes]
      exact copyFits_of_le hm.buffers (hlength.trans (hm.mapped hmplane _ hlt)) hroom hint

/-- **A capture does not die**, and the bytes that it has counted could be copied again. -/
theorem Backed.cameraCapture {m : CameraApp} (hm : m.Backed) (hclear : m.MplaneClear)
    {c : CaptureAnswers} (hlaw : m.FillsVbuf c)
    (hreport : c.Ready → ∀ d, c.dqBuf = some d → m.PlainReport d)
    (hagain : m.CopyFits m.vbuf.index.toNat (toInt m.vbuf.bytesused)) :
    (m.cameraCapture c).1 ≠ none ∧ (m.cameraCapture c).2.crashed = m.crashed ∧
      (m.cameraCapture c).2.Backed ∧
      (m.cameraCapture c).2.CopyFits (m.cameraCapture c).2.vbuf.index.toNat
        (toInt (m.cameraCapture c).2.vbuf.bytesused) := by
  by_cases hready : c.Ready
  · have hcopy := hm.copySurvives hclear hready hlaw (hreport hready) hagain
    obtain ⟨hret, h⟩ := captured_cameraCapture hm.devOpen hready hcopy
    have hsame := h.sameMemory hcopy.2.2
    refine ⟨?_, h.crashed, hm.of_sameMemory hsame, ?_⟩
    · rw [hret]
      split_ifs <;> simp
    · rw [hsame.copyFits_iff, h.vbuf]
      exact hcopy
  · have hselect : Kept m (m.sys (.select m.camera.videofd)) := (Kept.refl m).sys trivial rfl
    rw [cameraCapture_of_not_ready hm.devOpen hready]
    exact ⟨by simp, rfl, hm.of_sameMemory hselect.toSameMemory,
      (hselect.copyFits_iff _ _).mpr hagain⟩

/-- `cam_init` leaves `vbuf` as it is when the process starts. -/
theorem Initialised.bytesused {a : InitAnswers} {data : Codec.Bytes} {len index : ℤ}
    {m : CameraApp} (h : Initialised a index (atStart data len) m) : m.vbuf.bytesused = 0 := by
  simp [h.vbuf, atStart]

end CameraApp

namespace ServerProcess

variable {κ : Type*} [LinearOrder κ]

/-! ### The process -/

/-- The allocations of the process succeed. -/
def Allocates : Event κ → Prop
  | .camInit a => a.Allocates
  | _ => True

/-- What holds as long as the steps are admissible and the allocations succeed. -/
structure Alive (s : ServerProcess κ) : Prop where
  inv : s.Inv
  server : s.server.Inv
  silent : s.Silent
  terminated : s.terminated = false
  crashed : s.app.crashed = false
  backed : s.threadPc = .starting ∨ s.threadPc = .looping → s.app.Backed
  cleared : s.threadPc = .starting → s.app.vbuf.bytesused = 0
  /-- The bytes that `vbuf` counts could be copied again. -/
  again : s.threadPc = .looping →
    s.app.CopyFits s.app.vbuf.index.toNat (toInt s.app.vbuf.bytesused)
  /-- During a pass there is a frame to be sent. -/
  loaded : s.server.sendPc ≠ .capturing → 0 ≤ s.app.len

theorem alive_init : Alive ({} : ServerProcess κ) where
  inv := inv_init
  server := ChatServer.inv_init
  silent := silent_init
  terminated := rfl
  crashed := rfl
  backed h := by simp at h
  cleared h := by simp at h
  again h := by simp at h
  loaded h := absurd rfl h

section Steps

variable {s : ServerProcess κ}

theorem Alive.dead (h : s.Alive) : s.dead = false := by
  simp [ServerProcess.dead, h.terminated, h.crashed, h.server.noFault]

/-- The state after an admissible step, but for what ends the process. -/
theorem Alive.kept (h : s.Alive) {e : Event κ} (hadm : s.Admissible e) :
    (s.step e).Inv ∧ (s.step e).server.Inv ∧ (s.step e).Silent := by
  obtain ⟨es, hrun, hmeets⟩ := matched_step s e hadm
  refine ⟨inv_step s e h.inv hadm, ?_, silent_step s e h.silent⟩
  rw [hrun]
  exact hmeets.run ChatServer.inv_step h.server

/-- The length that a capture which succeeds has stored. -/
theorem len_nonneg {m : CameraApp} (hm : m.MplaneClear) {c : CaptureAnswers}
    (hlaw : m.FillsVbuf c) (hplain : m.PlainPayload c) (hret : (m.cameraCapture c).1 = some 0) :
    0 ≤ (m.cameraCapture c).2.len := by
  obtain ⟨d, -, hlen, -⟩ := (CameraApp.delivers_iff hm hlaw).mpr hplain hret
  rw [hlen]
  exact Int.natCast_nonneg _

theorem Alive.camInit (h : s.Alive) {a : InitAnswers} (hadm : s.Admissible (.camInit a))
    (ha : a.Allocates) (hpc : s.threadPc = .initialising)
    (hstep : s.step (.camInit a) = s.initStep a) : (s.step (.camInit a)).Alive := by
  obtain ⟨hinv, hserver, hsilent⟩ := h.kept hadm
  obtain ⟨hreturns, hcrashed⟩ := CameraApp.camInit_survives ha 0 Common.width Common.height s.app
  have hcapturing := (h.silent (by simp [hpc])).2.2
  have happ := h.inv.initial hpc h.dead
  rw [hstep, initStep] at hinv hserver hsilent ⊢
  cases hret : (s.app.camInit a 0 Common.width Common.height).1 with
  | none => exact absurd hret hreturns
  | some ret =>
    simp only [hret] at hinv hserver hsilent ⊢
    rcases camInit_ret hret with rfl | rfl
    · have hinit : CameraApp.Initialised a 0 (CameraApp.atStart [] (-1))
          (s.app.camInit a 0 Common.width Common.height).2 := by
        rw [happ] at hret ⊢
        exact CameraApp.initialised_of_camInit hret
      exact ⟨hinv, hserver, hsilent, h.terminated, hcrashed.trans h.crashed,
        fun _ => hinit.backed ha (by decide) hadm.1 hadm.2, fun _ => hinit.bytesused, by simp,
        fun hpass => absurd hcapturing hpass⟩
    · exact ⟨hinv, hserver, hsilent, h.terminated, hcrashed.trans h.crashed, by simp, by simp,
        by simp, fun hpass => absurd hcapturing hpass⟩

theorem Alive.cameraStreamon (h : s.Alive) {a : StreamonAnswers} {buf : Codec.Bytes}
    (hpc : s.threadPc = .starting) (hstep : s.step (.cameraStreamon a buf) = s.streamonStep a buf) :
    (s.step (.cameraStreamon a buf)).Alive := by
  obtain ⟨hinv, hserver, hsilent⟩ := h.kept (e := .cameraStreamon a buf) trivial
  have hkept := CameraApp.kept_cameraStreamon a s.app
  have hbacked : CameraApp.Backed { (s.app.cameraStreamon a).2 with data := buf, len := -1 } := by
    have hm := (h.backed (.inl hpc)).of_sameMemory hkept.toSameMemory
    exact ⟨hm.devOpen, hm.buffers, hm.overrun, hm.mapped⟩
  have hzero : (s.app.cameraStreamon a).2.vbuf.bytesused = 0 := by
    rcases hkept.vbuf with ⟨-, hsame⟩ | hzero
    · exact hsame.trans (h.cleared hpc)
    · exact hzero
  rw [hstep, streamonStep] at hinv hserver hsilent ⊢
  refine ⟨hinv, hserver, hsilent, h.terminated, hkept.crashed.trans h.crashed, fun _ => hbacked,
    by simp, fun _ => ?_, fun hpass => absurd (h.silent (by simp [hpc])).2.2 hpass⟩
  have hnone := hbacked.copyFits_zero (s.app.cameraStreamon a).2.vbuf.index.toNat
  rwa [← hzero] at hnone

theorem Alive.cameraCapture (h : s.Alive) {c : CaptureAnswers}
    (hadm : s.Admissible (.cameraCapture c)) (hpc : s.threadPc = .looping)
    (hcapturing : s.server.sendPc = .capturing)
    (hstep : s.step (.cameraCapture c) = s.captureStep c) : (s.step (.cameraCapture c)).Alive := by
  obtain ⟨hinv, hserver, hsilent⟩ := h.kept hadm
  have hclear := h.inv.clear (.inr hpc)
  obtain ⟨hreturns, hcrashed, hbacked, hagain⟩ :=
    (h.backed (.inr hpc)).cameraCapture hclear hadm.1 hadm.2 (h.again hpc)
  rw [hstep, captureStep] at hinv hserver hsilent ⊢
  cases hret : (s.app.cameraCapture c).1 with
  | none => exact absurd hret hreturns
  | some ret =>
    simp only [hret] at hinv hserver hsilent ⊢
    split_ifs at hinv hserver hsilent ⊢ with hneg
    · exact ⟨hinv, hserver, hsilent, h.terminated, hcrashed.trans h.crashed, fun _ => hbacked,
        by simp [hpc], fun _ => hagain, fun hpass => absurd hcapturing hpass⟩
    · refine ⟨hinv, hserver, hsilent, h.terminated, hcrashed.trans h.crashed, fun _ => hbacked,
        by simp [hpc], fun _ => hagain, fun _ => ?_⟩
      rcases cameraCapture_ret hret with rfl | rfl
      · exact len_nonneg hclear hadm.1 (plainPayload hadm.2) hret
      · exact absurd (by decide) hneg

theorem Alive.server_step (h : s.Alive) {e : ChatServer.Event κ}
    (hadm : s.Admissible (.server e)) (hstep : s.step (.server e) = s.serverStep e) :
    (s.step (.server e)).Alive := by
  obtain ⟨hinv, hserver, hsilent⟩ := h.kept hadm
  rcases serverStep_cases s e with hsame | hend | ⟨hcapture, hnext⟩
  · rwa [hstep, hsame]
  · -- a frame that is sent has a length
    have hne : s.serverStep e ≠ { s with terminated := true } := by
      cases e with
      | send =>
        rw [serverStep]
        split_ifs with hnegative
        · exact absurd (h.loaded (by simp [hnegative.1])) (by omega)
        · exact fun heq => absurd (congrArg ServerProcess.terminated heq) (by simp [h.terminated])
      | capture | begin | compare | advance | onConnection =>
        exact fun heq => absurd (congrArg ServerProcess.terminated heq) (by
          simp [serverStep, h.terminated])
    exact absurd hend hne
  · rw [hstep, hnext] at hinv hserver hsilent ⊢
    refine ⟨hinv, hserver, hsilent, h.terminated, h.crashed, h.backed, h.cleared, h.again,
      fun hpass => ?_⟩
    exact h.loaded fun hcapturing => hpass (waiting_step hcapturing hcapture).2

end Steps

theorem alive_step (s : ServerProcess κ) (e : Event κ) (h : s.Alive)
    (hadm : s.Admissible e ∧ Allocates e) : (s.step e).Alive := by
  rcases step_cases s e with hsame | ⟨-, hstep⟩
  · rwa [hsame]
  · rcases hstep with ⟨a, rfl, hpc, hstep⟩ | ⟨a, buf, rfl, hpc, hstep⟩ |
      ⟨c, rfl, hpc, hcapturing, hstep⟩ | ⟨e, rfl, hstep⟩
    · exact h.camInit hadm.1 hadm.2 hpc hstep
    · exact h.cameraStreamon hpc hstep
    · exact h.cameraCapture hadm.1 hpc hcapturing hstep
    · exact h.server_step hadm.1 hstep

/-! ### Passes end -/

/-- A run of the sending thread in a pass is one of the process. -/
theorem run_turns {s : ServerProcess κ} (h : s.Alive) {es : List (ChatServer.Event κ)}
    (hes : Transition.Meets ChatServer.step (fun t e => ChatServer.turn t.sendPc = some e)
      s.server es) :
    Transition.run step s (es.map .server) =
        { s with server := Transition.run ChatServer.step s.server es } ∧
      Transition.Meets step (fun s e => s.Admissible e ∧ Allocates e) s (es.map .server) := by
  induction es generalizing s with
  | nil => exact ⟨rfl, trivial⟩
  | cons e es ih =>
    have hadm : s.Admissible (.server e) := ChatServer.spares_turn hes.1
    have hnext := alive_step s (.server e) h ⟨hadm, trivial⟩
    have hstep : s.step (.server e) = { s with server := s.server.step e } := by
      have hlive : s.step (.server e) = s.serverStep e := by simp [step, h.dead]
      rw [hlive]
      cases e with
      | capture result => exact absurd hes.1 (ChatServer.turn_ne_capture _ result)
      | send =>
        have hloaded : ¬ (s.server.sendPc = .sending ∧ s.app.len < 0) := by
          rintro ⟨hpc, hnegative⟩
          have := h.loaded (by simp [hpc])
          omega
        rw [serverStep, if_neg hloaded]
      | begin | compare | advance | onConnection => rfl
    obtain ⟨hrun, hmeets⟩ := ih hnext (by rw [hstep]; exact hes.2)
    refine ⟨?_, ⟨hadm, trivial⟩, hmeets⟩
    rw [List.map_cons, Transition.run_cons, hrun, hstep]
    rfl

end ServerProcess
