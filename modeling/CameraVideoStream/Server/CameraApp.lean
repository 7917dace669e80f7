import CameraVideoStream.Common.Codec
import CameraVideoStream.Foundation.EarlyExit
import CameraVideoStream.Server.V4l2

/-!
# The camera module

The five functions of `server/cameraapp.cc` over its static variables `camera`, `vbuf`, `devOpen`
and `streamOn`. What the kernel and the heap answer to the calls of a function is a parameter of it
(`InitAnswers`, `StreamonAnswers`, `CaptureAnswers`), so that a statement for all parameters is one
for every device and every failure.

A function that reads or writes through a null pointer ends the process, and so does a `memcpy`
that reads more than is mapped or writes more than it is given: the function gives no result and the
state is marked `crashed`.

`camera.buffers` is a block of words: a `struct buffer` is four addresses and, behind them, four
lengths. `start[j]` and `length[j]` of a plane beyond the fourth are the words that are found there:
a length of the same buffer, or an address of the next one. Such a write beyond an array is also
recorded in `overrun`, and so is a path too long for `camera_path`.

## Main definitions

* `CameraApp`: the static variables, the memory that the caller passes to `camera_capture`, and the
  calls made so far.
* `CameraApp.camInit`, `CameraApp.cameraStreamon`, `CameraApp.cameraCapture`,
  `CameraApp.cameraStreamoff`, `CameraApp.cameraDeinit`.
* `CameraApp.Call`, `CameraApp.step`: one call of the module.
-/

open V4l2 Codec

/-- `camera.driver_type`: `0` before `cam_init` has found out, or the capability found. -/
inductive DriverType where
  | unset
  | videoCapture
  | videoCaptureMplane
  deriving DecidableEq

/-- One plane of a `struct buffer`: an element of `start` and the one of `length`. -/
structure Slot where
  start : UInt64 := 0
  length : ℕ := 0
  deriving DecidableEq

/-- `camera_handle`. `words` is what `buffers` points to. -/
structure CameraHandle where
  cameraIndex : ℤ := 0
  videofd : ℤ := 0
  driverType : DriverType := .unset
  buffers : UInt64 := 0
  words : ℕ → UInt64 := fun _ => 0
  bufCount : ℤ := 0
  nplanes : ℕ := 0
  winWidth : UInt32 := 0
  winHeight : UInt32 := 0
  fps : UInt32 := 0

/-- `camera.buffers[n].start[j]` and `camera.buffers[n].length[j]`. -/
def CameraHandle.table (camera : CameraHandle) (n j : ℕ) : Slot where
  start := camera.words (8 * n + j)
  length := (camera.words (8 * n + 4 + j)).toNat

/-- `vbuf`, of type `struct v4l2_buffer`. `planeBytesused` is `m.planes[0].bytesused`. -/
structure Vbuf where
  index : UInt32 := 0
  type : Option BufType := none
  bytesused : UInt32 := 0
  length : ℕ := 0
  planes : UInt64 := 0
  planeBytesused : UInt32 := 0

/-- The module. `data` and `len` are what the arguments of `camera_capture` point to, `trace` lists
the calls made so far. -/
structure CameraApp where
  camera : CameraHandle := {}
  vbuf : Vbuf := {}
  devOpen : Bool := false
  streamOn : Bool := false
  data : Bytes := []
  len : ℤ := -1
  trace : List Event := []
  overrun : Bool := false
  crashed : Bool := false

/-- What `VIDIOC_S_FMT` and `VIDIOC_G_FMT` answer. -/
structure Format where
  width : UInt32
  height : UInt32
  numPlanes : UInt8

/-- What `VIDIOC_QUERYBUF` answers for a plane; a single-planar buffer is one plane. -/
structure PlaneInfo where
  length : UInt32
  offset : UInt32

/-- What the calls of `cam_init` answer; `none` and `false` stand for failure. The planes of the
buffer `n` are `queryBuf n`, their addresses `mmap n`. -/
structure InitAnswers where
  videofd : ℤ
  queryCap : Option UInt32
  sInput : Bool
  sParm : Bool
  sFmt : Option Format
  gFmt : Option Format
  reqBufs : Option UInt32
  callocBuffers : UInt64
  callocQuery : ℕ → UInt64
  queryBuf : ℕ → Option (ℕ → PlaneInfo)
  mmap : ℕ → ℕ → UInt64
  callocQueue : ℕ → UInt64
  qBuf : ℕ → Bool

/-- A single-planar device that answers every call, with `count` buffers of `length` bytes. -/
def InitAnswers.singlePlanar (count length : UInt32) : InitAnswers where
  videofd := 3
  queryCap := some 0x00000001
  sInput := true
  sParm := true
  sFmt := some ⟨1920, 1080, 0⟩
  gFmt := none
  reqBufs := some count
  callocBuffers := 0x1000
  callocQuery _ := 0
  queryBuf _ := some fun _ => ⟨length, 0⟩
  mmap n _ := 0x100000 * (UInt64.ofNat n + 1)
  callocQueue _ := 0
  qBuf _ := true

/-- What the calls of `camera_streamon` answer. -/
structure StreamonAnswers where
  streamOn : Bool
  calloc : UInt64

/-- What `VIDIOC_DQBUF` writes into `vbuf` and its first plane. -/
structure Dequeued where
  index : UInt32
  bytesused : UInt32
  planeBytesused : UInt32

/-- What the calls of `camera_capture` answer, and what the device has left in memory. -/
structure CaptureAnswers where
  select : ℤ
  dqBuf : Option Dequeued
  memory : UInt64 → UInt8
  qBuf : Bool

/-- `V4L2_CAP_VIDEO_CAPTURE`. -/
def capVideoCapture : UInt32 := 0x00000001

/-- `V4L2_CAP_VIDEO_CAPTURE_MPLANE`. -/
def capVideoCaptureMplane : UInt32 := 0x00001000

/-- A `uint32_t` stored in an `int`. -/
def toInt (x : UInt32) : ℤ := Int.bmod x.toNat (2 ^ 32)

theorem toInt_cases (x : UInt32) :
    toInt x = x.toNat ∧ x.toNat < 2 ^ 31 ∨ toInt x < 0 ∧ 2 ^ 31 ≤ x.toNat := by
  have hlt : x.toNat < 2 ^ 32 := x.toNat_lt
  unfold toInt
  generalize x.toNat = n at hlt ⊢
  rw [Int.bmod_def]
  split <;> omega

namespace CameraApp

/-- The descriptors and the queues after the calls made so far. -/
def os (m : CameraApp) : Os := Os.ofTrace m.trace

/-- What the process holds after the calls made so far. -/
def held (m : CameraApp) : Option (Multiset Resource) := V4l2.held m.trace

/-- The module when the process starts, with the arguments that `camera_capture` is going to be
called with. -/
def atStart (data : Bytes) (len : ℤ) : CameraApp := { data := data, len := len }

@[simp] theorem trace_atStart (data : Bytes) (len : ℤ) : (atStart data len).trace = [] := rfl

@[simp] theorem streamOn_atStart (data : Bytes) (len : ℤ) : (atStart data len).streamOn = false :=
  rfl

/-- A call. -/
def sys (m : CameraApp) (e : Event) : CameraApp := { m with trace := m.trace ++ [e] }

/-- The calls of a loop. -/
def sysAll (m : CameraApp) (es : List Event) : CameraApp := { m with trace := m.trace ++ es }

/-- `ioctl(camera.videofd, …)`. -/
def ioctl (m : CameraApp) (request : Ioctl) (ok : Bool) : CameraApp :=
  m.sys (.ioctl m.camera.videofd request ok)

/-- The calls made since `m`. -/
def callsSince (m' m : CameraApp) : List Event := m'.trace.drop m.trace.length

theorem callsSince_eq {m m' : CameraApp} {es : List Event} (h : m'.trace = m.trace ++ es) :
    m'.callsSince m = es := by
  rw [callsSince, h, List.drop_left]

/-- Members of `camera` are assigned. -/
def setCamera (m : CameraApp) (camera : CameraHandle) : CameraApp := { m with camera := camera }

/-- The type that goes with `camera.driver_type`. -/
def bufType (m : CameraApp) : BufType :=
  if m.camera.driverType = .videoCaptureMplane then .videoCaptureMplane else .videoCapture

/-- The end of a function: what it returns, `none` if it does not return. -/
abbrev Result := Option ℤ × CameraApp

/-- A stage of `cam_init`: it goes on, or leaves the function with a result. -/
abbrev Stage := Outcome CameraApp (Option ℤ)

/-- A read or write where there is nothing to be read or written. -/
def crash (m : CameraApp) : Stage := .exit none { m with crashed := true }

/-- `close(camera.videofd); return -1;` -/
def closeAndFail (m : CameraApp) : Stage := .exit (some (-1)) (m.sys (.close m.camera.videofd))

/-- An `ioctl` that `cam_init` gives up on when it fails. -/
def check (request : Ioctl) (ok : Bool) (m : CameraApp) : Stage :=
  if ok then .next (m.ioctl request ok) else (m.ioctl request ok).closeAndFail

/-! ### `cam_init` -/

/-- What `sprintf(camera_path, "%s%d", "/dev/video", index)` writes, without the final zero. -/
def cameraPath (index : ℤ) : List Char :=
  ['/', 'd', 'e', 'v', '/', 'v', 'i', 'd', 'e', 'o'] ++
    (if index < 0 then ['-'] else []) ++ Nat.toDigits 10 index.natAbs

/-- The path and the final zero fit `char camera_path[16]`. -/
def PathFits (index : ℤ) : Prop := (cameraPath index).length < 16

instance (index : ℤ) : Decidable (PathFits index) :=
  inferInstanceAs (Decidable ((cameraPath index).length < 16))

/-- The numbers of at most five characters. -/
theorem pathFits_iff (index : ℤ) : PathFits index ↔ -10000 < index ∧ index < 100000 := by
  have hdigits {k : ℕ} (hk : 0 < k) :
      (Nat.toDigits 10 index.natAbs).length ≤ k ↔ index.natAbs < 10 ^ k :=
    Nat.length_toDigits_le_iff (by omega) hk
  have hfour := hdigits (k := 4) (by omega)
  have hfive := hdigits (k := 5) (by omega)
  rw [PathFits, cameraPath, List.length_append, List.length_append]
  split_ifs with hneg <;> simp only [List.length_cons, List.length_nil] <;> omega

/-- "1.open /dev/videoX node". -/
def openDevice (a : InitAnswers) (index width height : ℤ) (m : CameraApp) : CameraApp :=
  let m := m.setCamera { m.camera with
    winWidth := UInt32.ofInt width
    winHeight := UInt32.ofInt height
    fps := if width = 1280 then 60 else 90
    cameraIndex := index
    videofd := a.videofd }
  { m.sys (.openDevice a.videofd) with overrun := m.overrun || !decide (PathFits index) }

/-- "2.Query device capabilities". They are all zero when the query fails. -/
def queryCap (a : InitAnswers) (m : CameraApp) : Stage :=
  let m := m.ioctl .queryCap a.queryCap.isSome
  let capabilities := a.queryCap.getD 0
  if capabilities &&& (capVideoCapture ||| capVideoCaptureMplane) ≤ 0 then
    m.closeAndFail
  else if capabilities &&& capVideoCaptureMplane ≠ 0 then
    .next (m.setCamera { m.camera with driverType := .videoCaptureMplane })
  else if capabilities &&& capVideoCapture ≠ 0 then
    .next (m.setCamera { m.camera with driverType := .videoCapture })
  else
    m.closeAndFail

/-- "3.select the current video input". -/
def setInput (a : InitAnswers) (m : CameraApp) : Stage := check (.sInput 0) a.sInput m

/-- `VIDIOC_S_PARM`. -/
def setParm (a : InitAnswers) (m : CameraApp) : Stage :=
  check (.sParm m.bufType 1 m.camera.fps) a.sParm m

/-- `VIDIOC_G_FMT` on a multi-planar device. Its failure leaves the format as `VIDIOC_S_FMT` gave
it. -/
def getFormat (a : InitAnswers) (fmt : Format) (m : CameraApp) : CameraApp :=
  if m.camera.driverType = .videoCaptureMplane then
    let m := m.ioctl .gFmt a.gFmt.isSome
    m.setCamera { m.camera with nplanes := (a.gFmt.getD fmt).numPlanes.toNat }
  else
    m

/-- `VIDIOC_S_FMT`, which may change the size asked for. -/
def setFormat (a : InitAnswers) (m : CameraApp) : Stage :=
  let m := m.ioctl (.sFmt m.bufType m.camera.winWidth m.camera.winHeight) a.sFmt.isSome
  match a.sFmt with
  | none => m.closeAndFail
  | some fmt =>
    let m := m.setCamera { m.camera with winWidth := fmt.width, winHeight := fmt.height }
    .next (m.getFormat a fmt)

/-- "10.Initiate Memory Mapping or User Pointer I/O", and the allocation of `camera.buffers`, which
`calloc` clears. -/
def requestBuffers (a : InitAnswers) (m : CameraApp) : Stage :=
  let m := m.ioctl (.reqBufs m.bufType 4) a.reqBufs.isSome
  match a.reqBufs with
  | none => m.closeAndFail
  | some count =>
    let m := m.sys (.calloc a.callocBuffers)
    .next (m.setCamera { m.camera with
      bufCount := toInt count
      buffers := a.callocBuffers
      words := fun _ => 0 })

/-- `req.count`. -/
def reqCount (a : InitAnswers) : ℕ := (a.reqBufs.getD 0).toNat

/-- The assignments to `camera.buffers[n].length[j]` and then to `camera.buffers[n].start[j]`. -/
def setSlot (n j : ℕ) (s : Slot) (m : CameraApp) : CameraApp :=
  let words := Function.update m.camera.words (8 * n + 4 + j) (UInt64.ofNat s.length)
  { m.setCamera { m.camera with words := Function.update words (8 * n + j) s.start } with
    overrun := m.overrun || decide (4 ≤ j) }

/-- `mmap` of plane `j` of buffer `n`. -/
def mapPlane (a : InitAnswers) (planes : ℕ → PlaneInfo) (n j : ℕ) (m : CameraApp) : Stage :=
  if m.camera.buffers = 0 then
    m.crash
  else
    let m := m.sys (.mmap (a.mmap n j) (planes j).length.toNat (planes j).offset)
    .next (m.setSlot n j ⟨a.mmap n j, (planes j).length.toNat⟩)

/-- `calloc` of the planes of a multi-planar buffer. -/
def callocPlanes (ptr : UInt64) (m : CameraApp) : CameraApp :=
  if m.camera.driverType = .videoCaptureMplane then m.sys (.calloc ptr) else m

/-- `free` of the planes of a multi-planar buffer. -/
def freePlanes (ptr : UInt64) (m : CameraApp) : CameraApp :=
  if m.camera.driverType = .videoCaptureMplane then m.sys (.free ptr) else m

/-- A turn of the loop over the planes of a multi-planar buffer, which are read through the pointer
that `calloc` gave. -/
def mapMplane (a : InitAnswers) (planes : ℕ → PlaneInfo) (n j : ℕ) (m : CameraApp) : Stage :=
  if a.callocQuery n = 0 then m.crash else m.mapPlane a planes n j

/-- The planes of buffer `n` are mapped. -/
def mapBuffer (a : InitAnswers) (planes : ℕ → PlaneInfo) (n : ℕ) (m : CameraApp) : Stage :=
  if m.camera.driverType = .videoCaptureMplane then
    (Outcome.iterate (mapMplane a planes n) 0 m.camera.nplanes m).bind
      fun m => .next (m.freePlanes (a.callocQuery n))
  else
    m.mapPlane a planes n 0

/-- A turn of the loop with `VIDIOC_QUERYBUF`. -/
def queryBuffer (a : InitAnswers) (n : ℕ) (m : CameraApp) : Stage :=
  let m := m.callocPlanes (a.callocQuery n)
  let m := m.ioctl (.queryBuf m.bufType n) (a.queryBuf n).isSome
  match a.queryBuf n with
  | none => ((m.freePlanes (a.callocQuery n)).sys (.free m.camera.buffers)).closeAndFail
  | some planes => m.mapBuffer a planes n

/-- A turn of the loop with `VIDIOC_QBUF`, "11.Exchange a buffer with the driver". -/
def queueBuffer (a : InitAnswers) (n : ℕ) (m : CameraApp) : Stage :=
  let m := m.callocPlanes (a.callocQueue n)
  let m := m.ioctl (.qBuf m.bufType n) (a.qBuf n)
  if a.qBuf n then
    .next (m.freePlanes (a.callocQueue n))
  else
    ((m.freePlanes (a.callocQueue n)).sys (.free m.camera.buffers)).closeAndFail

/-- `cam_init` on an open device, up to `devOpen = 1`. -/
def setUp (a : InitAnswers) (m : CameraApp) : Stage :=
  (queryCap a m).bind fun m =>
  (setInput a m).bind fun m =>
  (setParm a m).bind fun m =>
  (setFormat a m).bind fun m =>
  (requestBuffers a m).bind fun m =>
  (Outcome.iterate (queryBuffer a) 0 (reqCount a) m).bind fun m =>
  Outcome.iterate (queueBuffer a) 0 (reqCount a) m

/-- `cam_init(index, width, height)`. -/
def camInit (a : InitAnswers) (index width height : ℤ) (m : CameraApp) : Result :=
  let m := m.openDevice a index width height
  if a.videofd < 0 then
    (some (-1), m)
  else
    match setUp a m with
    | .next m => (some 0, { m with devOpen := true })
    | .exit r m => (r, m)

/-! ### The other functions -/

/-- `vbuf` is cleared and set up; the planes of a multi-planar device are allocated. -/
def prepareVbuf (planes : UInt64) (m : CameraApp) : CameraApp :=
  let m := { m with vbuf := { type := some m.bufType } }
  if m.camera.driverType = .videoCaptureMplane then
    { m with vbuf := { m.vbuf with length := m.camera.nplanes, planes := planes } }.sys
      (.calloc planes)
  else
    m

/-- `camera_streamon()`. -/
def cameraStreamon (a : StreamonAnswers) (m : CameraApp) : Result :=
  let m := m.ioctl (.streamOn m.bufType) a.streamOn
  if a.streamOn then
    (some 0, { m with streamOn := true }.prepareVbuf a.calloc)
  else
    (some (-1), m)

/-- The `n` bytes from the address `p` on. -/
def bytesAt (memory : UInt64 → UInt8) (p : UInt64) (n : ℕ) : Bytes :=
  (List.range n).map fun i => memory (p + UInt64.ofNat i)

/-- An `int` as the `size_t` that it is converted to: the negative ones are huge. -/
def toSize (len : ℤ) : ℕ := (len % 2 ^ 64).toNat

/-- `memcpy(data, p, len)`, where `mapped` bytes can be read at `p`. -/
def memcpy (data : Bytes) (memory : UInt64 → UInt8) (p : UInt64) (mapped : ℕ) (len : ℤ) :
    Option Bytes :=
  if toSize len ≤ mapped ∧ toSize len ≤ data.length then
    some (bytesAt memory p (toSize len) ++ data.drop (toSize len))
  else
    none

/-- `ioctl(camera.videofd, VIDIOC_DQBUF, &vbuf)`. -/
def dequeue (a : CaptureAnswers) (m : CameraApp) : CameraApp :=
  match a.dqBuf with
  | none => m.ioctl (.dqBuf m.vbuf.type m.vbuf.index.toNat) false
  | some d =>
    let m := m.ioctl (.dqBuf m.vbuf.type d.index.toNat) true
    { m with
      vbuf := { m.vbuf with
        index := d.index, bytesused := d.bytesused, planeBytesused := d.planeBytesused } }

/-- The number of bytes that can be read at `camera.buffers[n].start[0]`. -/
def mappedLength (m : CameraApp) (n : ℕ) : ℕ := mappedAt m.trace (m.camera.table n 0).start

/-- `*len` is stored; `memcpy(data, camera.buffers[vbuf.index].start[0], *len)`. -/
def copyFrame (a : CaptureAnswers) (len : ℤ) (m : CameraApp) : Stage :=
  let n := m.vbuf.index.toNat
  let m : CameraApp := { m with len := len }
  if m.camera.buffers = 0 then
    m.crash
  else
    match memcpy m.data a.memory (m.camera.table n 0).start (m.mappedLength n) len with
    | none => (m.sys (.memcpy n len)).crash
    | some data => .next { m.sys (.memcpy n len) with data := data }

/-- The part of `camera_capture` after `select`. The bytes are copied whether or not a buffer was
dequeued, and `vbuf` is queued whatever it says. -/
def captureReady (a : CaptureAnswers) (m : CameraApp) : Result :=
  let m := m.dequeue a
  match m.copyFrame a (toInt m.vbuf.bytesused) with
  | .exit r m => (r, m)
  | .next m =>
    let m := m.ioctl (.qBuf m.vbuf.type m.vbuf.index.toNat) a.qBuf
    (if a.dqBuf.isSome then some 0 else some (-1), m)

/-- `camera_capture(data, len)`. -/
def cameraCapture (a : CaptureAnswers) (m : CameraApp) : Result :=
  if !m.devOpen then
    (some (-1), m)
  else
    let m := m.sys (.select m.camera.videofd)
    if a.select = -1 then
      (some (-1), m)
    else if a.select = 0 then
      (some (-1), m)
    else
      m.captureReady a

/-- `camera_streamoff()`. -/
def cameraStreamoff (ok : Bool) (m : CameraApp) : Result :=
  if !m.streamOn then
    (some (-1), m)
  else
    let m := m.ioctl (.streamOff m.bufType) ok
    if ok then
      (some 0, { m.freePlanes m.vbuf.planes with streamOn := false })
    else
      (some (-1), m)

/-- The number of planes of a buffer. -/
def planeCount (m : CameraApp) : ℕ :=
  if m.camera.driverType = .videoCaptureMplane then m.camera.nplanes else 1

/-- The planes that `camera_deinit` unmaps, in its order. -/
def mappedSlots (m : CameraApp) : List Slot :=
  (List.range m.camera.bufCount.toNat).flatMap fun i =>
    (List.range m.planeCount).map (m.camera.table i)

/-- `camera_deinit()`. -/
def cameraDeinit (m : CameraApp) : CameraApp :=
  if !m.devOpen then
    m
  else if m.camera.buffers = 0 ∧ m.mappedSlots ≠ [] then
    { m with crashed := true }
  else
    let m := m.sysAll (m.mappedSlots.map fun s => .munmap s.start s.length)
    let m := m.sys (.free m.camera.buffers)
    let m := m.sys (.close m.camera.videofd)
    { m with devOpen := false }

/-! ### Calls of the module -/

/-- A call of one of the five functions, with what the calls it makes answer. -/
inductive Call where
  | camInit (a : InitAnswers) (index width height : ℤ)
  | cameraStreamon (a : StreamonAnswers)
  | cameraCapture (a : CaptureAnswers)
  | cameraStreamoff (ok : Bool)
  | cameraDeinit

/-- The state after a call. -/
def run (m : CameraApp) : Call → CameraApp
  | .camInit a index width height => (m.camInit a index width height).2
  | .cameraStreamon a => (m.cameraStreamon a).2
  | .cameraCapture a => (m.cameraCapture a).2
  | .cameraStreamoff ok => (m.cameraStreamoff ok).2
  | .cameraDeinit => m.cameraDeinit

/-- The state after a call, which does not happen once the process is dead. -/
def step (m : CameraApp) (c : Call) : CameraApp := if m.crashed then m else m.run c

theorem step_of_crashed {m : CameraApp} (hdead : m.crashed = true) (c : Call) : m.step c = m := by
  rw [step, if_pos hdead]

theorem step_of_alive {m : CameraApp} (hlive : m.crashed = false) (c : Call) :
    m.step c = m.run c := by
  rw [step, if_neg (by simp [hlive])]

end CameraApp
