import Chiaki.Ctrl.Thread

/-!
# The session thread (`session.c`)

`session_thread_func` and the ctrl thread that it starts, with the calls of a user:
`chiaki_session_stop`, `chiaki_session_set_login_pin` and `chiaki_ctrl_send_message`.

What happens while a thread holds `state_mutex` or `notif_mutex` is one step, unless it waits for the
other mutex meanwhile: the session thread does so in `chiaki_ctrl_set_login_pin`, the ctrl thread in
the handlers that write the session and in `ctrl_failed`. A thread that was waiting on `state_cond`
has to take `state_mutex` again; it may also wake up for no reason.

The outcomes of the session request, of Senkusha and of the stream connection are parameters of the
steps. Events for the user and quit reasons are left out.
-/

namespace Chiaki

open Infra

variable {n : Nat}

/-- The waits of `session_thread_func`: before ctrl is started, for the session id or the first PIN
request, for a PIN, and for the session id or another PIN request behind it. -/
inductive SessionWait
  | delay
  | ctrlStart
  | pin
  | sessionId
  deriving DecidableEq, Repr

/--
Where `session_thread_func` stands.

* `wait` — about to look at its predicate
* `asleep` — in `pthread_cond_timedwait`, and `woken` when it comes back
* `setLoginPin` — in `chiaki_ctrl_set_login_pin`, and `lockNotif` when it waits for `notif_mutex` there
* `senkusha` — in `chiaki_senkusha_run` and in what is before the stream connection -/
inductive SessionPc
  | init
  | request
  | requestUnlocked
  | ctrlStart
  | wait (w : SessionWait)
  | asleep (w : SessionWait)
  | woken (w : SessionWait) (timedOut : Bool)
  | setLoginPin
  | lockNotif
  | senkusha
  | streaming
  | quitCtrl
  | join
  | quit
  | fault (f : Fault)
  deriving DecidableEq, Repr

/-- The session thread holds `state_mutex`. -/
def SessionPc.locked : SessionPc → Bool
  | .request | .ctrlStart | .wait _ | .setLoginPin | .lockNotif | .senkusha | .fault _ => true
  | _ => false

/-- The ctrl thread and `state_mutex`: it waits for it to do a step, or it has released it and will
signal `state_cond`. It holds `notif_mutex` in both. -/
inductive CtrlStateUse (n : Nat)
  | none
  | waits (l : CtrlLabel n)
  | signals

/-- `ChiakiSession`, with its threads. `signals` counts the calls of `chiaki_session_set_login_pin`
that have not signaled `state_cond` yet. -/
structure Session (n : Nat) where
  ctrl : Ctrl n
  shouldStop : Bool
  loginPinEntered : Bool
  loginPin : Bytes
  thread : SessionPc
  ctrlStarted : Bool
  ctrlStateUse : CtrlStateUse n
  signals : Nat

inductive SessionLabel (n : Nat)
  | lock
  | requestUnlock
  | requestLock
  | requested (success : Bool)
  | startCtrl (success : Bool)
  | check
  | wake
  | timeout
  | relock
  | copyPin (mem : Bool)
  | forward
  | senkusha (success : Bool)
  | streamed
  | stopCtrl
  | join
  | ctrl (l : CtrlLabel n)
  | ctrlLockState (l : CtrlLabel n)
  | ctrlUseState
  | ctrlSignal
  | stop
  | setLoginPin (pin : Bytes)
  | signal

/-- `chiaki_session_init` -/
def sessionInit (enableDualsense enableKeyboard : Bool) (sessionId : Bytes) (recvBuf : CtrlRecvBuf) :
    Session n where
  ctrl := ctrlInit
    { enableDualsense := enableDualsense
      enableKeyboard := enableKeyboard
      sessionId := sessionId
      ctrlSessionIdReceived := false
      ctrlLoginPinRequested := false
      ctrlFailed := false
      quitReason := .none } recvBuf
  shouldStop := false
  loginPinEntered := false
  loginPin := []
  thread := .init
  ctrlStarted := false
  ctrlStateUse := .none
  signals := 0

/-! ## The session thread -/

/-- `session_check_state_pred`, `session_check_state_pred_ctrl_start` and
`session_check_state_pred_pin` -/
def sessionCheckStatePred (s : Session n) (w : SessionWait) : Bool :=
  s.shouldStop || s.ctrl.session.ctrlFailed ||
    match w with
    | .delay => false
    | .ctrlStart | .sessionId =>
      s.ctrl.session.ctrlSessionIdReceived || s.ctrl.session.ctrlLoginPinRequested
    | .pin => s.loginPinEntered

/-- The head of the loop over the PIN requests, and what comes behind it. -/
def sessionPinLoop (s : Session n) : Session n :=
  if s.ctrl.session.ctrlLoginPinRequested then
    { s with
      ctrl := { s.ctrl with session := { s.ctrl.session with ctrlLoginPinRequested := false } }
      thread := .wait .pin }
  else if s.ctrl.session.ctrlSessionIdReceived then { s with thread := .senkusha }
  else { s with thread := .quitCtrl }

/-- `chiaki_cond_timedwait_pred` has returned. -/
def sessionProceed (s : Session n) (w : SessionWait) : Session n :=
  match w with
  | .delay => { s with thread := .ctrlStart }
  | .ctrlStart =>
    if s.shouldStop || s.ctrl.session.ctrlFailed then { s with thread := .quitCtrl }
    else sessionPinLoop s
  | .pin =>
    if s.shouldStop || s.ctrl.session.ctrlFailed then { s with thread := .quitCtrl }
    else if s.loginPinEntered then { s with thread := .setLoginPin }
    else { s with thread := .fault .assertion }
  | .sessionId => if s.shouldStop then { s with thread := .quitCtrl } else sessionPinLoop s

/-- `chiaki_cond_signal` -/
def Session.condSignal (s : Session n) : Session n :=
  match s.thread with
  | .asleep w => { s with thread := .woken w false }
  | _ => s

/-- The ctrl thread is not about to lock or signal for the session. -/
def Session.ctrlFree (s : Session n) : Bool :=
  match s.ctrlStateUse with
  | .none => true
  | _ => false

/-- Nobody holds `notif_mutex`. -/
def Session.notifFree (s : Session n) : Bool := s.ctrlFree && !s.ctrl.thread.locked

/-- `chiaki_ctrl_set_login_pin` has returned. -/
def sessionForwarded (s : Session n) (ctrl : Ctrl n) : Session n :=
  { s with
    ctrl := ctrl
    loginPinEntered := false
    loginPin := []
    thread := .wait .sessionId }

/-- The steps of `session_thread_func`. -/
def sessionThreadStep (s : Session n) : SessionLabel n → Option (Session n)
  | .lock =>
    match s.thread with
    | .init => some { s with thread := if s.shouldStop then .quit else .request }
    | _ => none
  | .requestUnlock =>
    match s.thread with
    | .request => some { s with thread := .requestUnlocked }
    | _ => none
  | .requestLock =>
    match s.thread with
    | .requestUnlocked => some { s with thread := .request }
    | _ => none
  | .requested success =>
    match s.thread with
    | .request => some { s with thread := if success then .wait .delay else .quit }
    | _ => none
  | .startCtrl success =>
    match s.thread with
    | .ctrlStart =>
      some (if success then { s with thread := .wait .ctrlStart, ctrlStarted := true }
        else { s with thread := .quit })
    | _ => none
  | .check =>
    match s.thread with
    | .wait w =>
      some (if sessionCheckStatePred s w then sessionProceed s w else { s with thread := .asleep w })
    | _ => none
  | .wake =>
    match s.thread with
    | .asleep w => some { s with thread := .woken w false }
    | _ => none
  | .timeout =>
    match s.thread with
    | .asleep .pin => none
    | .asleep w => some { s with thread := .woken w true }
    | _ => none
  | .relock =>
    match s.thread with
    | .woken w timedOut => some (if timedOut then sessionProceed s w else { s with thread := .wait w })
    | _ => none
  | .copyPin mem =>
    match s.thread with
    | .setLoginPin => some (if mem then { s with thread := .lockNotif } else sessionForwarded s s.ctrl)
    | _ => none
  | .forward =>
    match s.thread with
    | .lockNotif =>
      if s.notifFree then some (sessionForwarded s (ctrlSetLoginPin s.ctrl s.loginPin)) else none
    | _ => none
  | .senkusha success =>
    match s.thread with
    | .senkusha => some { s with thread := if success then .streaming else .quitCtrl }
    | _ => none
  | .streamed =>
    match s.thread with
    | .streaming => some { s with thread := .quitCtrl }
    | _ => none
  | .stopCtrl =>
    match s.thread with
    | .quitCtrl => if s.notifFree then some { s with ctrl := ctrlStop s.ctrl, thread := .join } else none
    | _ => none
  | .join =>
    match s.thread, s.ctrl.thread with
    | .join, .exited => if s.ctrlFree then some { s with thread := .quit } else none
    | _, _ => none
  | _ => none

/-! ## The ctrl thread -/

/-- A handler takes `state_mutex`. -/
def ctrlHandlerTakesState (s : Ctrl n) (msgType : Nat) (payload : Bytes) : Bool :=
  match CtrlMessageType.ofNat? msgType with
  | some .sessionId =>
    !s.session.ctrlSessionIdReceived && decide (2 ≤ payload.length)
      && decide ((payload.drop 1).length < sessionIdSizeMax - 1) && (payload.drop 1).all isSessionIdChar
  | some .loginPinReq => true
  | some .login => decide (payload.head? = some 1) && s.loginPinRequested
  | _ => false

/-- `ctrl_message_received` takes `state_mutex` for the message at the beginning of `recv_buf`. -/
def ctrlMessageTakesState (rpcrypt : RPCrypt) (s : Ctrl n) (msgType payloadSize : Nat) : Bool :=
  if payloadSize = 0 then ctrlHandlerTakesState s msgType []
  else if ctrlRecvBufSize < 8 + payloadSize then false
  else
    match rpcrypt.decrypt s.cryptCounterRemote (slice s.recvBuf.toList 8 payloadSize) with
    | .error _ => false
    | .ok plain => ctrlHandlerTakesState s msgType plain

/-- The next round of the loop over the frames takes `state_mutex`. -/
def ctrlRoundTakesState (rpcrypt : RPCrypt) (s : Ctrl n) : Bool :=
  let payloadSize := u32At s.recvBuf.toList 0
  decide (8 ≤ s.recvBufSize) && decide ((8 + payloadSize) % 2 ^ 32 ≤ s.recvBufSize)
    && ctrlMessageTakesState rpcrypt s (u16At s.recvBuf.toList 4) payloadSize

/-- A step of the ctrl thread takes `state_mutex`: in a handler, or in `ctrl_failed`. -/
def ctrlTakesState (rpcrypt : RPCrypt) (s : Ctrl n) : CtrlLabel n → Bool
  | .connectFailed => true
  | .overflow => true
  | .recv .error => true
  | .round => ctrlRoundTakesState rpcrypt s
  | _ => false

/-- The step may come from the ctrl thread, or from a thread that calls `chiaki_ctrl_send_message`.
Other calls are those of the session thread. -/
def sessionCtrlLabel (s : Session n) : CtrlLabel n → Bool
  | .setLoginPin _ | .stop => false
  | .signal _ => true
  | .start => s.ctrlStarted && s.ctrlFree
  | _ => s.ctrlFree

/-- The steps of the ctrl thread. -/
def sessionCtrlStep (rpcrypt : RPCrypt) (s : Session n) : SessionLabel n → Option (Session n)
  | .ctrl l =>
    if sessionCtrlLabel s l && !ctrlTakesState rpcrypt s.ctrl l then
      (ctrlStep rpcrypt s.ctrl l).map fun ctrl => { s with ctrl := ctrl }
    else none
  | .ctrlLockState l =>
    if sessionCtrlLabel s l && ctrlTakesState rpcrypt s.ctrl l && (ctrlStep rpcrypt s.ctrl l).isSome then
      some { s with ctrlStateUse := .waits l }
    else none
  | .ctrlUseState =>
    match s.ctrlStateUse with
    | .waits l =>
      if s.thread.locked then none
      else (ctrlStep rpcrypt s.ctrl l).map fun ctrl => { s with ctrl := ctrl, ctrlStateUse := .signals }
    | _ => none
  | .ctrlSignal =>
    match s.ctrlStateUse with
    | .signals => some { s.condSignal with ctrlStateUse := .none }
    | _ => none
  | _ => none

/-! ## The user -/

/-- `chiaki_session_stop` and `chiaki_session_set_login_pin`, which signals behind its critical
section. -/
def sessionUserStep (s : Session n) : SessionLabel n → Option (Session n)
  | .stop => if s.thread.locked then none else some { s.condSignal with shouldStop := true }
  | .setLoginPin pin =>
    if s.thread.locked then none
    else some { s with loginPinEntered := true, loginPin := pin, signals := s.signals + 1 }
  | .signal => if s.signals = 0 then none else some { s.condSignal with signals := s.signals - 1 }
  | _ => none

/-! ## The system -/

def sessionStep (rpcrypt : RPCrypt) (s : Session n) (l : SessionLabel n) : Option (Session n) :=
  match l with
  | .ctrl _ | .ctrlLockState _ | .ctrlUseState | .ctrlSignal => sessionCtrlStep rpcrypt s l
  | .stop | .setLoginPin _ | .signal => sessionUserStep s l
  | _ => sessionThreadStep s l

def SessionInitial (s : Session n) : Prop :=
  ∃ enableDualsense enableKeyboard sessionId recvBuf,
    s = sessionInit enableDualsense enableKeyboard sessionId recvBuf

def sessionLts (rpcrypt : RPCrypt) (n : Nat) : Lts (Session n) (SessionLabel n) :=
  Lts.ofFun SessionInitial (sessionStep rpcrypt)

end Chiaki
