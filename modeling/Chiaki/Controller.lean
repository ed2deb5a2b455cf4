import Chiaki.FeedbackSender

/-!
# The touches of a controller (`controller.c`)

A touch gets the next id of a counter of 7 bits, and the first slot that is free.
-/

namespace Chiaki

open Infra

/-- `TOUCH_ID_MASK` -/
def touchIdMask : Nat := 0x7f

/-- The fields of a `ChiakiControllerState` that belong to its touches. -/
structure ControllerTouches where
  touchIdNext : Nat
  touches : List ControllerTouch
  length_touches : touches.length = controllerTouchesMax

/-- These fields after `chiaki_controller_state_set_idle`. -/
def controllerTouchesIdle : ControllerTouches where
  touchIdNext := 0
  touches := List.replicate controllerTouchesMax ⟨0, 0, -1⟩
  length_touches := length_idleTouches

def ControllerTouches.set (s : ControllerTouches) (i : Nat) (touch : ControllerTouch) :
    ControllerTouches :=
  { s with
    touches := s.touches.set i touch
    length_touches := List.length_set.trans s.length_touches }

/-- The state of a controller with other touches. -/
def ControllerState.withTouches {μ : Type} (state : ControllerState μ) (s : ControllerTouches) :
    ControllerState μ :=
  { state with
    touches := s.touches
    length_touches := s.length_touches }

/-- The first slot with a touch like this, and its index. -/
def ControllerTouches.find? (s : ControllerTouches) (p : ControllerTouch → Bool) :
    Option (Nat × ControllerTouch) :=
  (s.touches.findIdx? p).bind fun i => s.touches[i]?.map (i, ·)

/-- `chiaki_controller_state_start_touch`. The id is an `int8_t`. -/
def controllerStateStartTouch (s : ControllerTouches) (x y : Nat) : ControllerTouches × Int :=
  match s.find? fun touch => decide (touch.id < 0) with
  | none => (s, -1)
  | some (i, _) =>
    let id := (s.touchIdNext : Int).bmod (2 ^ 8)
    ({ s.set i ⟨x, y, id⟩ with touchIdNext := (s.touchIdNext + 1) &&& touchIdMask }, id)

/-- `chiaki_controller_state_stop_touch` -/
def controllerStateStopTouch (s : ControllerTouches) (id : Nat) : ControllerTouches :=
  match s.find? fun touch => decide (touch.id = id) with
  | none => s
  | some (i, touch) => s.set i { touch with id := -1 }

/-- `chiaki_controller_state_set_touch_pos` -/
def controllerStateSetTouchPos (s : ControllerTouches) (id x y : Nat) : ControllerTouches :=
  match s.find? fun touch => decide (touch.id = (id &&& touchIdMask : Nat)) with
  | none => s
  | some (i, touch) => s.set i { touch with x := x, y := y }

/-! ## Runs -/

inductive TouchLabel
  | startTouch (x y : Nat)
  | stopTouch (id : Nat)
  | setTouchPos (id x y : Nat)
  deriving DecidableEq

def touchStep (s : ControllerTouches) : TouchLabel → ControllerTouches
  | .startTouch x y => (controllerStateStartTouch s x y).1
  | .stopTouch id => controllerStateStopTouch s id
  | .setTouchPos id x y => controllerStateSetTouchPos s id x y

/-- The ids that were returned and not stopped yet, with the slots that the touches were put into. -/
abbrev LiveTouches := List (Nat × Nat)

def recordTouch (s : ControllerTouches) (label : TouchLabel) (live : LiveTouches) : LiveTouches :=
  match label with
  | .startTouch x y =>
    match s.find? fun touch => decide (touch.id < 0) with
    | none => live
    | some (i, _) => ((controllerStateStartTouch s x y).2.toNat, i) :: live
  | .stopTouch id => live.filter fun p => p.1 ≠ id
  | .setTouchPos _ _ _ => live

/-- The runs of a controller from idle on. -/
def touchRuns : Lts (ControllerTouches × LiveTouches) TouchLabel :=
  (Lts.ofFun (fun s => s = controllerTouchesIdle) fun s label => some (touchStep s label)).withHistory []
    recordTouch

end Chiaki
