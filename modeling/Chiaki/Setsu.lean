import Mathlib.Data.BitVec
import Mathlib.Data.List.FinRange

/-!
# Touchpads (`setsu.c`)

A touchpad has slots, and evdev says for the current one which touch it has and where that is. What has
changed is kept in the slot until `SYN_REPORT`: the touch that was lifted, and whether there is a new one or
a new position. `device_drain` makes events of it.

The device is one that `setsu_connect` has connected as `SETSU_DEVICE_TYPE_TOUCHPAD`.
-/

namespace Chiaki

/-- `SLOTS_COUNT` -/
def slotsCount : Nat := 16

/-- `SetsuTrackingId` -/
abbrev TrackingId := BitVec 32

/-- What evdev and a slot without a touch have for `tracking_id`. -/
def noTrackingId : TrackingId := -1

/-! ## Events -/

inductive Key
  | btnLeft
  | other
  deriving DecidableEq

/-- `type` and `code` of an `input_event`, as far as `device_event` tells them apart. -/
inductive EventCode
  | synReport
  | absMtSlot
  | absMtTrackingId
  | absMtPositionX
  | absMtPositionY
  | key (key : Key)
  | other
  deriving DecidableEq

structure InputEvent where
  code : EventCode
  value : BitVec 32
  deriving DecidableEq

/-- `SetsuEvent`, as far as a touchpad sends it. -/
inductive SetsuEvent
  | touchDown (trackingId : TrackingId)
  | touchUp (trackingId : TrackingId)
  | touchPosition (trackingId : TrackingId) (x y : BitVec 32)
  | buttonDown (button : BitVec 64)
  | buttonUp (button : BitVec 64)
  deriving DecidableEq

/-! ## The device -/

/-- One of `slots` -/
structure SetsuSlot where
  trackingIdPrev : TrackingId
  trackingId : TrackingId
  x : BitVec 32
  y : BitVec 32
  downed : Bool
  posDirty : Bool
  deriving DecidableEq

/-- `touchpad` of `SetsuDevice` -/
structure Touchpad where
  minX : BitVec 32
  minY : BitVec 32
  slots : Vector SetsuSlot slotsCount
  slotCur : Fin slotsCount
  buttonsPrev : BitVec 64
  buttonsCur : BitVec 64

def Touchpad.slot (dev : Touchpad) (i : Fin slotsCount) : SetsuSlot := dev.slots[i]

/-- `setsu_connect` -/
def setsuConnect (minX minY : BitVec 32) : Touchpad where
  minX := minX
  minY := minY
  slots := Vector.replicate slotsCount
    { trackingIdPrev := noTrackingId, trackingId := noTrackingId, x := 0, y := 0, downed := false, posDirty := false }
  slotCur := ⟨0, by decide⟩
  buttonsPrev := 0
  buttonsCur := 0

/-! ## `device_drain` -/

/-- The touch that was lifted. -/
def SetsuSlot.touchUp (s : SetsuSlot) : List SetsuEvent :=
  if s.trackingIdPrev ≠ noTrackingId then [.touchUp s.trackingIdPrev] else []

def SetsuSlot.touchDown (s : SetsuSlot) : List SetsuEvent :=
  if s.downed then [.touchDown s.trackingId] else []

def SetsuSlot.touchPosition (minX minY : BitVec 32) (s : SetsuSlot) : List SetsuEvent :=
  if s.posDirty then [.touchPosition s.trackingId (s.x - minX) (s.y - minY)] else []

/-- One turn of the loop over the slots: what it sends. -/
def SetsuSlot.drain (minX minY : BitVec 32) (s : SetsuSlot) : List SetsuEvent :=
  s.touchUp ++ s.touchDown ++ s.touchPosition minX minY

/-- One turn of the loop over the slots: what it leaves. -/
def SetsuSlot.drained (s : SetsuSlot) : SetsuSlot :=
  { s with trackingIdPrev := noTrackingId, downed := false, posDirty := false }

/-- `SETSU_BUTTON_0` -/
def setsuButton0 : BitVec 64 := 1

/-- The loop over the buttons with `n` turns to go. `1 << i` is a shift of an `int`. -/
def drainButtons (buttonsCur : BitVec 64) : (buttonsDiff : BitVec 64) → (n : Nat) → List SetsuEvent
  | _, 0 => []
  | buttonsDiff, n + 1 =>
    let button := ((1 : BitVec 32) <<< (63 - n)).signExtend 64
    let sent :=
      if buttonsDiff &&& 1 ≠ 0 then
        [if buttonsCur &&& button ≠ 0 then .buttonDown button else .buttonUp button]
      else []
    sent ++ (if buttonsDiff >>> 1 = 0 then [] else drainButtons buttonsCur (buttonsDiff >>> 1) n)

def deviceDrain (dev : Touchpad) : Touchpad × List SetsuEvent :=
  ({ dev with slots := dev.slots.map SetsuSlot.drained, buttonsPrev := dev.buttonsCur },
    (List.finRange slotsCount).flatMap (fun i => (dev.slot i).drain dev.minX dev.minY)
      ++ drainButtons dev.buttonsCur (dev.buttonsPrev ^^^ dev.buttonsCur) 64)

/-! ## `device_event` -/

/-- `ABS_MT_TRACKING_ID` -/
def SetsuSlot.setTrackingId (s : SetsuSlot) (value : TrackingId) : SetsuSlot :=
  let s :=
    if s.trackingId ≠ noTrackingId ∧ s.trackingIdPrev = noTrackingId then
      { s with trackingIdPrev := s.trackingId, x := 0, y := 0, posDirty := false }
    else s
  let s := { s with trackingId := value }
  if value ≠ noTrackingId then { s with downed := true } else s

/-- `ABS_MT_POSITION_X` -/
def SetsuSlot.setX (s : SetsuSlot) (value : BitVec 32) : SetsuSlot := { s with x := value, posDirty := true }

/-- `ABS_MT_POSITION_Y` -/
def SetsuSlot.setY (s : SetsuSlot) (value : BitVec 32) : SetsuSlot := { s with y := value, posDirty := true }

/-- What happens to `S`. -/
def Touchpad.update (dev : Touchpad) (f : SetsuSlot → SetsuSlot) : Touchpad :=
  { dev with slots := dev.slots.set dev.slotCur (f (dev.slot dev.slotCur)) }

/-- `button_from_evdev` -/
def buttonFromEvdev : Key → BitVec 64
  | .btnLeft => setsuButton0
  | .other => 0

def deviceEvent (dev : Touchpad) (ev : InputEvent) : Touchpad × List SetsuEvent :=
  match ev.code with
  | .synReport => deviceDrain dev
  | .absMtSlot =>
    if h : slotsCount ≤ ev.value.toNat then (dev, [])
    else ({ dev with slotCur := ⟨ev.value.toNat, Nat.not_le.mp h⟩ }, [])
  | .absMtTrackingId => (dev.update fun s => s.setTrackingId ev.value, [])
  | .absMtPositionX => (dev.update fun s => s.setX ev.value, [])
  | .absMtPositionY => (dev.update fun s => s.setY ev.value, [])
  | .key key =>
    let button := buttonFromEvdev key
    if button = 0 then (dev, [])
    else if ev.value ≠ 0 then ({ dev with buttonsCur := dev.buttonsCur ||| button }, [])
    else ({ dev with buttonsCur := dev.buttonsCur &&& ~~~button }, [])
  | .other => (dev, [])

/-- The events of `poll_device`, one after another. -/
def deviceEvents (dev : Touchpad) : List InputEvent → Touchpad × List SetsuEvent
  | [] => (dev, [])
  | ev :: evs =>
    let drained := deviceEvent dev ev
    let rest := deviceEvents drained.1 evs
    (rest.1, drained.2 ++ rest.2)

end Chiaki
