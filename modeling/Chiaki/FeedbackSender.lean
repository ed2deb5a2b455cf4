import Mathlib.Algebra.Ring.Int.Defs
import Chiaki.Common
import Chiaki.Infra.Transition

/-!
# The feedback sender (`feedbacksender.c`, `feedback.c`, `controller.c`)

The state of the controller is given to the sender at any time, and a thread sends what has changed
since its last turn: sticks and motion as a feedback state, buttons and touches as events of a history.

The motion of a controller is a parameter, together with the comparison of its numbers up to a
tolerance; the formatting of the feedback state is not modelled. A turn of the thread holds
`state_mutex` until it waits again, so it is one step.
-/

namespace Chiaki

open Infra

/-! ## The controller -/

/-- `CHIAKI_CONTROLLER_TOUCHES_MAX` -/
def controllerTouchesMax : Nat := 2

/-- `CHIAKI_CONTROLLER_BUTTONS_COUNT` -/
def controllerButtonsCount : Nat := 16

/-- `CHIAKI_CONTROLLER_ANALOG_BUTTON_L2` -/
def controllerAnalogButtonL2 : Nat := 2 ^ 16

/-- `CHIAKI_CONTROLLER_ANALOG_BUTTON_R2` -/
def controllerAnalogButtonR2 : Nat := 2 ^ 17

/-- `ChiakiControllerTouch`. A negative `id` means up. -/
structure ControllerTouch where
  x : Nat
  y : Nat
  id : Int
  deriving DecidableEq, Repr

/-- `ChiakiControllerState` -/
structure ControllerState (μ : Type) where
  buttons : Nat
  l2State : UInt8
  r2State : UInt8
  leftX : Int
  leftY : Int
  rightX : Int
  rightY : Int
  touches : List ControllerTouch
  length_touches : touches.length = controllerTouchesMax
  motion : μ
  deriving DecidableEq

variable {μ : Type}

theorem length_idleTouches :
    (List.replicate controllerTouchesMax (⟨0, 0, -1⟩ : ControllerTouch)).length = controllerTouchesMax :=
  List.length_replicate

/-- `chiaki_controller_state_set_idle` -/
def controllerStateIdle (motion : μ) : ControllerState μ where
  buttons := 0
  l2State := 0
  r2State := 0
  leftX := 0
  leftY := 0
  rightX := 0
  rightY := 0
  touches := List.replicate controllerTouchesMax ⟨0, 0, -1⟩
  length_touches := length_idleTouches
  motion := motion

/-- The comparison of two touch slots. The position does not matter if there is no touch. -/
def controllerTouchEquals (a b : ControllerTouch) : Bool :=
  if a.id ≠ b.id then false
  else !(decide (a.id ≥ 0) && (decide (a.x ≠ b.x) || decide (a.y ≠ b.y)))

def controllerTouchesEqual (a b : ControllerState μ) : Bool :=
  (a.touches.zip b.touches).all fun p => controllerTouchEquals p.1 p.2

/-- The comparison of the sticks and the motion. -/
def controllerStateEqualsForFeedbackState (near : μ → μ → Bool) (a b : ControllerState μ) : Bool :=
  decide (a.leftX = b.leftX) && decide (a.leftY = b.leftY) && decide (a.rightX = b.rightX)
    && decide (a.rightY = b.rightY) && near a.motion b.motion

/-- `controller_state_equals_for_feedback_history` -/
def controllerStateEqualsForFeedbackHistory (a b : ControllerState μ) : Bool :=
  decide (a.buttons = b.buttons) && decide (a.l2State = b.l2State) && decide (a.r2State = b.r2State)
    && controllerTouchesEqual a b

/-- `chiaki_controller_state_equals` -/
def controllerStateEquals (near : μ → μ → Bool) (a b : ControllerState μ) : Bool :=
  controllerStateEqualsForFeedbackHistory a b && controllerStateEqualsForFeedbackState near a b

/-! ## Events -/

/-- A button that sends its state in a byte of its own. -/
def buttonWithState (code state : UInt8) : Option Bytes := some [0x80, code, state]

/-- A button that has two codes. -/
def buttonWithCodes (pressed released state : UInt8) : Option Bytes :=
  some [0x80, if state ≠ 0 then pressed else released]

/-- `chiaki_feedback_history_event_set_button`. There is no event for an invalid button. -/
def feedbackHistoryEventSetButton (button : Nat) (state : UInt8) : Option Bytes :=
  match button with
  | 0x1 => buttonWithState 0x88 state
  | 0x2 => buttonWithState 0x89 state
  | 0x4 => buttonWithState 0x8a state
  | 0x8 => buttonWithState 0x8b state
  | 0x10 => buttonWithState 0x82 state
  | 0x20 => buttonWithState 0x83 state
  | 0x40 => buttonWithState 0x80 state
  | 0x80 => buttonWithState 0x81 state
  | 0x100 => buttonWithState 0x84 state
  | 0x200 => buttonWithState 0x85 state
  | 0x10000 => buttonWithState 0x86 state
  | 0x20000 => buttonWithState 0x87 state
  | 0x400 => buttonWithCodes 0xaf 0x8f state
  | 0x800 => buttonWithCodes 0xb0 0x90 state
  | 0x1000 => buttonWithCodes 0xac 0x8c state
  | 0x2000 => buttonWithCodes 0xad 0x8d state
  | 0x4000 => buttonWithCodes 0xb1 0x91 state
  | 0x8000 => buttonWithCodes 0xae 0x8e state
  | _ => none

/-- `chiaki_feedback_history_event_set_touchpad` -/
def feedbackHistoryEventSetTouchpad (down : Bool) (pointerId x y : Nat) : Bytes :=
  [if down then 0xd0 else 0xc0, UInt8.ofNat (pointerId % 2 ^ 7), UInt8.ofNat (x / 2 ^ 4),
    UInt8.ofNat (x % 2 ^ 4 * 2 ^ 4) ||| UInt8.ofNat (y / 2 ^ 8), UInt8.ofNat y]

/-- The event for one of the buttons, if it has changed. -/
def buttonEvent (prev now : ControllerState μ) (i : Nat) : Option Bytes :=
  if prev.buttons.testBit i ≠ now.buttons.testBit i then
    feedbackHistoryEventSetButton (2 ^ i) (if now.buttons.testBit i then 0xff else 0)
  else none

/-- The event for L2 or R2, if it has changed. -/
def analogButtonEvent (button : Nat) (prev now : UInt8) : Option Bytes :=
  if prev ≠ now then feedbackHistoryEventSetButton button now else none

/-- The event for a touch slot, if it has changed. -/
def touchEvent (prev now : ControllerTouch) : Option Bytes :=
  if prev.id ≠ now.id ∧ prev.id ≥ 0 then
    some (feedbackHistoryEventSetTouchpad false (prev.id % 2 ^ 8).toNat prev.x prev.y)
  else if now.id ≥ 0 ∧ (prev.id ≠ now.id ∨ prev.x ≠ now.x ∨ prev.y ≠ now.y) then
    some (feedbackHistoryEventSetTouchpad true (now.id % 2 ^ 8).toNat now.x now.y)
  else none

/-- The events of `feedback_sender_send_history`, in the order in which they are pushed. -/
def feedbackHistoryEvents (prev now : ControllerState μ) : List Bytes :=
  (List.range controllerButtonsCount).filterMap (buttonEvent prev now)
    ++ (analogButtonEvent controllerAnalogButtonL2 prev.l2State now.l2State).toList
    ++ (analogButtonEvent controllerAnalogButtonR2 prev.r2State now.r2State).toList
    ++ (prev.touches.zip now.touches).filterMap fun p => touchEvent p.1 p.2

/-! ## The history -/

/-- `FEEDBACK_HISTORY_BUFFER_SIZE` -/
def feedbackHistoryBufferSize : Nat := 0x10

/-- `chiaki_feedback_history_buffer_push`: the events of the buffer from `begin` on. -/
def feedbackHistoryBufferPush (events : List Bytes) (event : Bytes) : List Bytes :=
  (event :: events).take feedbackHistoryBufferSize

/-- `chiaki_feedback_history_buffer_format` -/
def feedbackHistoryBufferFormat (events : List Bytes) (bufSize : Nat) : Option Bytes :=
  if events.flatten.length > bufSize then none else some events.flatten

/-! ## The sender -/

/-- `ChiakiFeedbackSender` -/
structure FeedbackSender (μ : Type) where
  stateSeqNum : Nat
  historySeqNum : Nat
  historyBuf : List Bytes
  shouldStop : Bool
  controllerStatePrev : ControllerState μ
  controllerState : ControllerState μ
  controllerStateChanged : Bool

/-- What the thread does.

* `state` — `chiaki_takion_send_feedback_state`
* `push` — an event is pushed to the history
* `history` — `chiaki_takion_send_feedback_history` -/
inductive FeedbackEffect (μ : Type)
  | state (seqNum : Nat) (state : ControllerState μ)
  | push (event : Bytes)
  | history (seqNum : Nat) (buf : Bytes)

/-- `chiaki_feedback_sender_init`, in memory that was cleared before. -/
def feedbackSenderInit (motion : μ) : FeedbackSender μ where
  stateSeqNum := 0
  historySeqNum := 0
  historyBuf := []
  shouldStop := false
  controllerStatePrev := controllerStateIdle motion
  controllerState := controllerStateIdle motion
  controllerStateChanged := false

/-- `chiaki_feedback_sender_set_controller_state` -/
def feedbackSenderSetControllerState (near : μ → μ → Bool) (s : FeedbackSender μ)
    (state : ControllerState μ) : FeedbackSender μ :=
  if controllerStateEquals near s.controllerState state then s
  else { s with controllerState := state, controllerStateChanged := true }

/-- `feedback_sender_send_state` -/
def feedbackSenderSendState (s : FeedbackSender μ) : FeedbackSender μ × List (FeedbackEffect μ) :=
  ({ s with stateSeqNum := (s.stateSeqNum + 1) % 2 ^ 16 }, [.state s.stateSeqNum s.controllerState])

/-- `feedback_sender_send_history_packet` -/
def feedbackSenderSendHistoryPacket (s : FeedbackSender μ) : FeedbackSender μ × List (FeedbackEffect μ) :=
  match feedbackHistoryBufferFormat s.historyBuf 0x300 with
  | none => (s, [])
  | some buf => ({ s with historySeqNum := (s.historySeqNum + 1) % 2 ^ 16 }, [.history s.historySeqNum buf])

/-- Events are pushed, and the history is sent after each of them. -/
def feedbackSenderPush : List Bytes → FeedbackSender μ → FeedbackSender μ × List (FeedbackEffect μ)
  | [], s => (s, [])
  | event :: events, s =>
    let s := { s with historyBuf := feedbackHistoryBufferPush s.historyBuf event }
    let (s, sent) := feedbackSenderSendHistoryPacket s
    let (s, rest) := feedbackSenderPush events s
    (s, .push event :: (sent ++ rest))

/-- `feedback_sender_send_history` -/
def feedbackSenderSendHistory (s : FeedbackSender μ) : FeedbackSender μ × List (FeedbackEffect μ) :=
  feedbackSenderPush (feedbackHistoryEvents s.controllerStatePrev s.controllerState) s

/-- One turn of `feedback_sender_thread_func`, after it has waited. -/
def feedbackSenderTurn (near : μ → μ → Bool) (s : FeedbackSender μ) :
    FeedbackSender μ × List (FeedbackEffect μ) :=
  let changed := s.controllerStateChanged
  let sendState := !(changed &&
    controllerStateEqualsForFeedbackState near s.controllerState s.controllerStatePrev)
  let sendHistory := changed &&
    !controllerStateEqualsForFeedbackHistory s.controllerState s.controllerStatePrev
  let s := { s with controllerStateChanged := false }
  let (s, state) := if sendState then feedbackSenderSendState s else (s, [])
  let (s, history) := if sendHistory then feedbackSenderSendHistory s else (s, [])
  ({ s with controllerStatePrev := s.controllerState }, state ++ history)

/-! ## Runs -/

/-- A sender in use, with everything that was done. `given` is the state that was given last. -/
structure FeedbackRun (μ : Type) where
  sender : FeedbackSender μ
  log : List (FeedbackEffect μ)
  given : ControllerState μ

inductive FeedbackLabel (μ : Type)
  | setControllerState (state : ControllerState μ)
  | turn
  | stop

/-- One step: a call from outside, or a turn of the thread as long as it runs. -/
def feedbackStep (near : μ → μ → Bool) (s : FeedbackRun μ) : FeedbackLabel μ → Option (FeedbackRun μ)
  | .setControllerState state =>
    some { s with sender := feedbackSenderSetControllerState near s.sender state, given := state }
  | .turn =>
    if s.sender.shouldStop then none
    else
      let (sender, effects) := feedbackSenderTurn near s.sender
      some { s with sender := sender, log := s.log ++ effects }
  | .stop => some { s with sender := { s.sender with shouldStop := true } }

def feedbackLts (near : μ → μ → Bool) (motion : μ) : Lts (FeedbackRun μ) (FeedbackLabel μ) :=
  Lts.ofFun (fun s => s = ⟨feedbackSenderInit motion, [], controllerStateIdle motion⟩) (feedbackStep near)

end Chiaki
