import Chiaki.Controller
import Chiaki.Setsu

/-!
# Touchpads that come and go (`setsu.c`, `streamsession.cpp`)

udev tells which devices come and go. `setsu_poll` tells the session of it, and of what the devices that it has
connected have sent since. The session keeps in a map which touch of which touchpad is which touch of its controller.

A device of the type `SETSU_DEVICE_TYPE_MOTION` is connected and removed like the others; the motion that it sends is
not modelled.
-/

namespace Chiaki

open Infra

variable {Path : Type}

/-! ## Devices -/

/-- `SetsuDeviceType` -/
inductive SetsuDeviceType
  | touchpad
  | motion
  deriving DecidableEq

/-- `SetsuAvailDevice` -/
structure SetsuAvailDevice (Path : Type) where
  type : SetsuDeviceType
  path : Path
  connectDirty : Bool
  disconnectDirty : Bool
  deriving DecidableEq

/-- `SetsuDevice`, with all that was read from it. -/
structure SetsuDevice (Path : Type) where
  path : Path
  touchpad : Option Touchpad
  read : List InputEvent

/-- What `udev_monitor_receive_device` has received: the path, whether the device was added or removed, and its type
where it is an interesting one and there is memory for it. -/
structure UdevDevice (Path : Type) where
  devnode : Path
  added : Bool
  interesting : Option SetsuDeviceType
  deriving DecidableEq

/-- `update_udev_device`. A device that is not known is taken as a new one, also if it was removed. -/
def updateUdevDevice [DecidableEq Path] (availDev : List (SetsuAvailDevice Path)) (dev : UdevDevice Path) :
    List (SetsuAvailDevice Path) :=
  match availDev.findIdx? fun adev => adev.path = dev.devnode with
  | some i =>
    if dev.added then availDev
    else availDev.modify i fun adev => { adev with disconnectDirty := true }
  | none =>
    match dev.interesting with
    | none => availDev
    | some type => ⟨type, dev.devnode, true, false⟩ :: availDev

/-! ## The session -/

/-- An entry of `setsu_ids` -/
structure SetsuId (Path : Type) where
  key : Path × TrackingId
  id : Nat
  deriving DecidableEq

/-- What belongs to `setsu` in a `StreamSession`. Of `setsu_motion_device` it is the path, and `sent` are the touches of
`setsu_state` when `SendFeedbackState` was called for the last time. -/
structure StreamSessionSetsu (Path : Type) where
  setsuIds : List (SetsuId Path)
  touches : ControllerTouches
  buttons : Nat
  setsuMotionDevice : Option Path
  sent : List ControllerTouch

/-- The constructor. -/
def streamSessionSetsuInit : StreamSessionSetsu Path where
  setsuIds := []
  touches := controllerTouchesIdle
  buttons := 0
  setsuMotionDevice := none
  sent := controllerTouchesIdle.touches

/-- `SendFeedbackState` -/
def StreamSessionSetsu.sendFeedbackState (s : StreamSessionSetsu Path) : StreamSessionSetsu Path :=
  { s with sent := s.touches.touches }

/-- `CHIAKI_CONTROLLER_BUTTON_TOUCHPAD` -/
def controllerButtonTouchpad : Nat := 2 ^ 14

variable [DecidableEq Path]

/-- A new key in a `QMap`, which is sorted with `lt`. -/
def insertSetsuId (lt : Path × TrackingId → Path × TrackingId → Bool) (e : SetsuId Path) :
    List (SetsuId Path) → List (SetsuId Path)
  | [] => [e]
  | e' :: ids => if lt e'.key e.key then e' :: insertSetsuId lt e ids else e :: e' :: ids

/-- The entry of `setsu_ids` with a key. -/
def StreamSessionSetsu.find? (s : StreamSessionSetsu Path) (key : Path × TrackingId) : Option (SetsuId Path) :=
  s.setsuIds.find? fun e => e.key = key

/-- `SETSU_EVENT_TOUCH_UP` -/
def handleTouchUp (s : StreamSessionSetsu Path) (key : Path × TrackingId) : StreamSessionSetsu Path :=
  match s.find? key with
  | none => s.sendFeedbackState
  | some e =>
    { s with
      touches := controllerStateStopTouch s.touches e.id
      setsuIds := s.setsuIds.eraseP fun e => e.key = key }.sendFeedbackState

/-- `SETSU_EVENT_TOUCH_POSITION`. The coordinates are passed as `uint16_t`. -/
def handleTouchPosition (lt : Path × TrackingId → Path × TrackingId → Bool) (s : StreamSessionSetsu Path)
    (key : Path × TrackingId) (x y : BitVec 32) : StreamSessionSetsu Path :=
  let x := x.toNat % 2 ^ 16
  let y := y.toNat % 2 ^ 16
  match s.find? key with
  | none =>
    let (touches, cid) := controllerStateStartTouch s.touches x y
    if cid ≥ 0 then
      { s with touches := touches, setsuIds := insertSetsuId lt ⟨key, cid.toNat⟩ s.setsuIds }.sendFeedbackState
    else { s with touches := touches }
  | some e => { s with touches := controllerStateSetTouchPos s.touches e.id x y }.sendFeedbackState

/-- `HandleSetsuEvent` for what a touchpad sends. -/
def handleSetsuEvent (lt : Path × TrackingId → Path × TrackingId → Bool) (path : Path) (s : StreamSessionSetsu Path) :
    SetsuEvent → StreamSessionSetsu Path
  | .touchDown _ => s
  | .touchUp trackingId => handleTouchUp s (path, trackingId)
  | .touchPosition trackingId x y => handleTouchPosition lt s (path, trackingId) x y
  | .buttonDown _ => { s with buttons := s.buttons ||| controllerButtonTouchpad }
  | .buttonUp _ => { s with buttons := s.buttons ^^^ (s.buttons &&& controllerButtonTouchpad) }

/-- The touches of these entries are stopped. -/
def stopTouches (ids : List (SetsuId Path)) (touches : ControllerTouches) : ControllerTouches :=
  ids.foldl (fun touches e => controllerStateStopTouch touches e.id) touches

/-- `SETSU_EVENT_DEVICE_REMOVED` -/
def handleDeviceRemoved (s : StreamSessionSetsu Path) (path : Path) : SetsuDeviceType → StreamSessionSetsu Path
  | .touchpad =>
    { s with
      touches := stopTouches (s.setsuIds.filter fun e => e.key.1 = path) s.touches
      setsuIds := s.setsuIds.filter fun e => e.key.1 ≠ path }.sendFeedbackState
  | .motion => if s.setsuMotionDevice = some path then { s with setsuMotionDevice := none } else s

/-! ## `setsu_poll` -/

/-- `Setsu` and the session. -/
structure SetsuSystem (Path : Type) where
  availDev : List (SetsuAvailDevice Path)
  dev : List (SetsuDevice Path)
  session : StreamSessionSetsu Path

/-- What a call of `setsu_poll` finds: what udev says, the minima of what it can connect, and what the devices send. -/
structure SetsuPollInput (Path : Type) where
  udev : List (UdevDevice Path)
  connect : Path → Option (BitVec 32 × BitVec 32)
  events : Path → List InputEvent

/-- `SETSU_EVENT_DEVICE_ADDED`: all touchpads are connected, and one device for motion. -/
def handleDeviceAdded (connect : Path → Option (BitVec 32 × BitVec 32)) (dev : List (SetsuDevice Path))
    (session : StreamSessionSetsu Path) (path : Path) :
    SetsuDeviceType → List (SetsuDevice Path) × StreamSessionSetsu Path
  | .touchpad =>
    match connect path with
    | none => (dev, session)
    | some (minX, minY) => (⟨path, some (setsuConnect minX minY), []⟩ :: dev, session)
  | .motion =>
    if session.setsuMotionDevice.isSome then (dev, session)
    else
      match connect path with
      | none => (dev, session)
      | some _ => (⟨path, none, []⟩ :: dev, { session with setsuMotionDevice := some path })

/-- The loop of `setsu_poll` over the devices that there are. -/
def pollAvailDevices (connect : Path → Option (BitVec 32 × BitVec 32)) :
    List (SetsuAvailDevice Path) → List (SetsuDevice Path) → StreamSessionSetsu Path → SetsuSystem Path
  | [], dev, session => ⟨[], dev, session⟩
  | adev :: availDev, dev, session =>
    let (dev, session) :=
      if adev.connectDirty then handleDeviceAdded connect dev session adev.path adev.type else (dev, session)
    if adev.disconnectDirty then
      -- `kill_avail_device`
      pollAvailDevices connect availDev (dev.filter fun d => d.path ≠ adev.path)
        (handleDeviceRemoved session adev.path adev.type)
    else
      let s := pollAvailDevices connect availDev dev session
      { s with availDev := { adev with connectDirty := false } :: s.availDev }

/-- `poll_device` -/
def pollDevice (lt : Path × TrackingId → Path × TrackingId → Bool) (evs : List InputEvent) (dev : SetsuDevice Path)
    (session : StreamSessionSetsu Path) : SetsuDevice Path × StreamSessionSetsu Path :=
  match dev.touchpad with
  | none => (dev, session)
  | some touchpad =>
    let polled := deviceEvents touchpad evs
    (⟨dev.path, some polled.1, dev.read ++ evs⟩, polled.2.foldl (handleSetsuEvent lt dev.path) session)

/-- The loop of `setsu_poll` over the devices that are connected. -/
def pollDevices (lt : Path × TrackingId → Path × TrackingId → Bool) (events : Path → List InputEvent) :
    List (SetsuDevice Path) → StreamSessionSetsu Path → List (SetsuDevice Path) × StreamSessionSetsu Path
  | [], session => ([], session)
  | dev :: devs, session =>
    let polled := pollDevice lt (events dev.path) dev session
    let rest := pollDevices lt events devs polled.2
    (polled.1 :: rest.1, rest.2)

/-- `setsu_poll` in front of the loop over the devices that are connected. -/
def setsuPollAvail (input : SetsuPollInput Path) (s : SetsuSystem Path) : SetsuSystem Path :=
  pollAvailDevices input.connect (input.udev.foldl updateUdevDevice s.availDev) s.dev s.session

/-- `setsu_poll` -/
def setsuPoll (lt : Path × TrackingId → Path × TrackingId → Bool) (input : SetsuPollInput Path) (s : SetsuSystem Path) :
    SetsuSystem Path :=
  let s := setsuPollAvail input s
  let polled := pollDevices lt input.events s.dev s.session
  { s with dev := polled.1, session := polled.2 }

/-- The runs of a session, which begins with `scan_udev`. -/
def setsuRuns (lt : Path × TrackingId → Path × TrackingId → Bool) : Lts (SetsuSystem Path) (SetsuPollInput Path) :=
  Lts.ofFun (fun s => ∃ scanned : List (UdevDevice Path),
      s = ⟨scanned.foldl updateUdevDevice [], [], streamSessionSetsuInit⟩)
    fun s input => some (setsuPoll lt input s)

/-! ## What is sent -/

/-- `MAX_ABS` -/
def maxAbs (a b : Int) : Int := if a.natAbs > b.natAbs then a else b

/-- The branches for one touch of `chiaki_controller_state_or`. -/
def controllerTouchOr (a b : ControllerTouch) : ControllerTouch :=
  if a.id ≥ 0 then a else if b.id ≥ 0 then b else ⟨0, 0, -1⟩

/-- `chiaki_controller_state_or` with `out`, of which the motion stays. -/
def controllerStateOr {μ : Type} (out a b : ControllerState μ) : ControllerState μ where
  buttons := a.buttons ||| b.buttons
  l2State := max a.l2State b.l2State
  r2State := max a.r2State b.r2State
  leftX := maxAbs a.leftX b.leftX
  leftY := maxAbs a.leftY b.leftY
  rightX := maxAbs a.rightX b.rightX
  rightY := maxAbs a.rightY b.rightY
  touches := List.zipWith controllerTouchOr a.touches b.touches
  length_touches := by rw [List.length_zipWith, a.length_touches, b.length_touches, Nat.min_self]
  motion := out.motion

/-- `setsu_state` -/
def StreamSessionSetsu.setsuState {μ : Type} (motion : μ) (s : StreamSessionSetsu Path) : ControllerState μ :=
  { (controllerStateIdle motion).withTouches s.touches with buttons := s.buttons }

/-- What `SendFeedbackState` gives to the session: the state of the first controller, or of the touchpads if there is
none, together with the one of the keyboard. -/
def sendFeedbackState {μ : Type} (setsuState : ControllerState μ) (controllers : List (ControllerState μ))
    (keyboard : ControllerState μ) : ControllerState μ :=
  let state := controllers.headD setsuState
  controllerStateOr state state keyboard

end Chiaki
