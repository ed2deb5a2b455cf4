import Chiaki.FeedbackSender

/-!
# The feedback history (`feedback.c`)

A ring of the last events. A new event comes to the front, in the place of the oldest one when the ring
is full, and all events are written from the newest to the oldest one.

`FeedbackSender` has the history as a list; here it is the ring that stands in memory.
-/

namespace Chiaki

/-- `CHIAKI_HISTORY_EVENT_SIZE_MAX` -/
def historyEventSizeMax : Nat := 5

/-- `ChiakiFeedbackHistoryEvent`: the first `len` bytes of `buf`. -/
structure FeedbackHistoryEvent where
  bytes : Bytes
  length_bytes : bytes.length ≤ historyEventSizeMax
  deriving DecidableEq

/-- `event->len` -/
def FeedbackHistoryEvent.len (event : FeedbackHistoryEvent) : Nat := event.bytes.length

/-- `sizeof(ChiakiFeedbackHistoryEvent)` -/
def sizeofFeedbackHistoryEvent : Nat := 16

/-- `ChiakiFeedbackHistoryBuffer`. `events` are as many as were allocated. -/
structure FeedbackHistoryBuffer where
  events : List FeedbackHistoryEvent
  size : Nat
  begin : Nat
  len : Nat
  deriving DecidableEq

/-- `chiaki_feedback_history_buffer_init`. There is no memory for more than a `size_t` counts. -/
def feedbackHistoryBufferInit (mem : Bool) (size : Nat) : Option FeedbackHistoryBuffer :=
  if !mem || decide (2 ^ 64 ≤ size * sizeofFeedbackHistoryEvent) then none
  else some
    { events := List.replicate size ⟨[], Nat.zero_le _⟩
      size := size
      begin := 0
      len := 0 }

namespace FeedbackHistoryBuffer

/-- The loop of `chiaki_feedback_history_buffer_format` over the events from the `i`-th one on: `buf`,
and `written` unless it became too much. -/
def formatLoop (s : FeedbackHistoryBuffer) (sizeMax : Nat) :
    Nat → Nat → Nat → Bytes → Except Fault (Bytes × Option Nat)
  | 0, _, written, buf => .ok (buf, some written)
  | n + 1, i, written, buf =>
    match s.events[(s.begin + i) % 2 ^ 64 % s.size]? with
    | none => .error .outOfBounds
    | some event =>
      if (written + event.len) % 2 ^ 64 > sizeMax then .ok (buf, none)
      else if buf.length < written + event.len then .error .outOfBounds
      else s.formatLoop sizeMax n (i + 1) ((written + event.len) % 2 ^ 64) (splice buf written event.bytes)

/-- `chiaki_feedback_history_buffer_format`: `buf`, `*buf_size` and the result. -/
def format (s : FeedbackHistoryBuffer) (buf : Bytes) (bufSize : Nat) :
    Except Fault (Bytes × Nat × ErrorCode) := do
  let (buf, written) ← s.formatLoop bufSize s.len 0 0 buf
  match written with
  | none => return (buf, bufSize, .bufTooSmall)
  | some written => return (buf, written, .success)

/-- `chiaki_feedback_history_buffer_push` -/
def push (s : FeedbackHistoryBuffer) (event : FeedbackHistoryEvent) :
    Except Fault FeedbackHistoryBuffer :=
  let begin := (s.begin + s.size - 1) % 2 ^ 64 % s.size
  let len := if (s.len + 1) % 2 ^ 64 ≥ s.size then s.size else (s.len + 1) % 2 ^ 64
  if begin < s.events.length then .ok { s with begin := begin, len := len, events := s.events.set begin event }
  else .error .outOfBounds

end FeedbackHistoryBuffer

/-! ## Events -/

/-- What an event is made of: the arguments of `chiaki_feedback_history_event_set_button`, or those of
`chiaki_feedback_history_event_set_touchpad`. -/
inductive FeedbackInput
  | button (id : Nat) (state : UInt8)
  | touchpad (down : Bool) (pointerId x y : Nat)
  deriving DecidableEq

def FeedbackInput.bytes? : FeedbackInput → Option Bytes
  | .button id state => feedbackHistoryEventSetButton id state
  | .touchpad down pointerId x y => some (feedbackHistoryEventSetTouchpad down pointerId x y)

end Chiaki
