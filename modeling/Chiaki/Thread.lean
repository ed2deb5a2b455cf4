import Mathlib.Algebra.Ring.Int.Defs
import Chiaki.Common

/-!
# Waiting with a deadline (`thread.c`)

The functions for POSIX, and the loops that are built on them: the heartbeats of the stream
connection, the thread of the congestion control and the thread that sends packets again.

`pthread_cond_timedwait` is a parameter. What a predicate says is a parameter as well: it changes
whenever another thread has the mutex.
-/

namespace Chiaki

/-- `struct timespec` -/
structure Timespec where
  tvSec : Int
  tvNsec : Int
  deriving DecidableEq, Repr

/-- A sum is put into 64 bits. -/
def toInt64 (n : Int) : Int := n.bmod (2 ^ 64)

/-- `set_timeout` at the time `now`. -/
def setTimeout (now : Timespec) (msFromNow : Nat) : Timespec :=
  let tvSec := toInt64 (now.tvSec + (msFromNow / 1000 : Nat))
  let tvNsec := toInt64 (now.tvNsec + (msFromNow % 1000 * 1000000 : Nat))
  if tvNsec > 1000000000 then
    { tvSec := toInt64 (tvSec + tvNsec.tdiv 1000000000), tvNsec := tvNsec.tmod 1000000000 }
  else { tvSec := tvSec, tvNsec := tvNsec }

/-- What `pthread_cond_timedwait` returns: 0, `ETIMEDOUT` or `EINVAL`. -/
inductive PthreadResult
  | ok
  | timedOut
  | invalid
  deriving DecidableEq, Repr

/-- `chiaki_cond_timedwait_abs` -/
def condTimedwaitAbs : PthreadResult → ErrorCode
  | .ok => .success
  | .timedOut => .timeout
  | .invalid => .unknown

/-- What a wait meets: the clock at its beginning, the results of `pthread_cond_timedwait` for a
deadline, one for each call, and what the predicate says, each time that it is looked at. -/
structure CondWait where
  now : Timespec
  timedwait : Timespec → Nat → PthreadResult
  pred : Nat → Bool

/-- `chiaki_cond_timedwait` -/
def condTimedwait (w : CondWait) (timeoutMs : Nat) : ErrorCode :=
  condTimedwaitAbs (w.timedwait (setTimeout w.now timeoutMs) 0)

/-- The loop of `chiaki_cond_timedwait_pred`, in which the predicate has been looked at `i` times: there is no
result if it waits after `n` more times. -/
def condTimedwaitLoop (w : CondWait) (timeout : Timespec) : Nat → Nat → Option ErrorCode
  | 0, _ => none
  | n + 1, i =>
    if w.pred i then some .success
    else
      let err := condTimedwaitAbs (w.timedwait timeout i)
      if err ≠ .success then some err
      else condTimedwaitLoop w timeout n (i + 1)

/-- `chiaki_cond_timedwait_pred`, which looks at the predicate at most `n` times. -/
def condTimedwaitPred (w : CondWait) (timeoutMs n : Nat) : Option ErrorCode :=
  condTimedwaitLoop w (setTimeout w.now timeoutMs) n 0

/-! ## Loops -/

/-- The rounds of a loop that waits in each of them: the error it was ended with, if it was. -/
def waitLoop {α : Type} (wait : α → Option ErrorCode) (goesOn : α → ErrorCode → Bool) :
    List α → Option ErrorCode
  | [] => none
  | round :: rounds =>
    match wait round with
    | none => none
    | some err => if goesOn round err then waitLoop wait goesOn rounds else some err

/-- `HEARTBEAT_INTERVAL_MS` -/
def heartbeatIntervalMs : Nat := 1000

/-- The loop of `chiaki_stream_connection_run` that sends heartbeats. -/
def streamConnectionHeartbeats (n : Nat) : List CondWait → Option ErrorCode :=
  waitLoop (fun w => condTimedwaitPred w heartbeatIntervalMs n) fun _ err => decide (err = .timeout)

/-- `CONGESTION_CONTROL_INTERVAL_MS` -/
def congestionControlIntervalMs : Nat := 200

/-- `congestion_control_thread_func` -/
def congestionControlThread (n : Nat) : List CondWait → Option ErrorCode :=
  waitLoop (fun w => condTimedwaitPred w congestionControlIntervalMs n) fun _ err => decide (err = .timeout)

/-- `TAKION_DATA_RESEND_WAKEUP_TIMEOUT_MS` -/
def takionDataResendWakeupTimeoutMs : Nat := 100

/-- A round of `takion_send_buffer_thread_func`. -/
structure ResendRound where
  packetsCount : Nat
  shouldStop : Bool
  wait : CondWait

/-- The loop of `takion_send_buffer_thread_func`, which waits without a deadline for the first packet. -/
def takionSendBufferThread (n : Nat) : List ResendRound → Option ErrorCode :=
  waitLoop
    (fun round =>
      if round.packetsCount ≠ 0 then condTimedwaitPred round.wait takionDataResendWakeupTimeoutMs n
      else some .success)
    fun round err => decide (err = .success ∨ err = .timeout) && !round.shouldStop

end Chiaki
