import Chiaki.Session
import Chiaki.Session.Request

/-!
# How the session quits (`session_thread_func`)

The threads of `Chiaki.Session`, with what is left out there: the session requests, `quit_reason`, the
events, and what is started and ended. What `chiaki_ctrl_start`, Senkusha, the key generation and the
stream connection return are parameters of the steps.

A session request is one step. `ctrl_connect` calls `ctrl_failed` where its socket fails, in a step of its
own; `ctrl_thread_func` calls it again when `ctrl_connect` has returned.
-/

namespace Chiaki

open Infra

variable {n : Nat}

/-- `ChiakiEvent`, as far as the session thread sends it. -/
inductive SessionEvent
  | loginPinRequest (pinIncorrect : Bool)
  | quit (reason : QuitReason)
  | other
  deriving DecidableEq

/-- What is started, ended, or sent. `locked` says whether the session thread holds `state_mutex`. -/
inductive SessionAction
  | ctrlStarted
  | ctrlStopped
  | ctrlJoined
  | ecdhInit
  | ecdhFini
  | event (event : SessionEvent) (locked : Bool)
  deriving DecidableEq

/-- The session with the variables of `session_thread_func`. `requests` counts the session requests that are to
be repeated, `requestFailed` says that the last one has ended the session, and `returned` that the thread has. -/
structure SessionQuit (n : Nat) where
  session : Session n
  request : SessionRequest
  serverTarget : Target
  requests : Nat
  requestFailed : Bool
  pinIncorrect : Bool
  returned : Bool
  log : List SessionAction

/-- `session->quit_reason` -/
def SessionQuit.quitReason (s : SessionQuit n) : QuitReason := s.request.quitReason

def SessionQuit.setQuitReason (s : SessionQuit n) (reason : QuitReason) : SessionQuit n :=
  { s with request := { s.request with quitReason := reason } }

inductive SessionQuitLabel (n : Nat)
  | step (l : SessionLabel n)
  | request (env : SessionRequestEnv)
  | startCtrl (err : ErrorCode)
  | senkusha (init run random ecdh : ErrorCode)
  | streamed (err : ErrorCode)
  | ctrlConnect (refused : Bool)
  | event
  | quit

/-- `chiaki_session_init` -/
def sessionQuitInit (info : SessionConnectInfo) (session : Session n) (hostname : CString) : SessionQuit n where
  session := session
  request :=
    { target := if info.ps5 then .ps51 else .ps410
      hostname := hostname
      nonce := List.replicate rpcryptKeySize 0
      quitReason := .none }
  serverTarget := .ps4Unknown
  requests := 0
  requestFailed := false
  pinIncorrect := false
  returned := false
  log := []

/-! ## The session request -/

/-- A session request has returned: it is repeated up to two times with the version of the server. -/
def sessionRequested (rpcrypt : RPCrypt) (s : SessionQuit n) (result : SessionRequestResult) :
    Option (SessionQuit n) :=
  let (request, targetOut, err) := result
  let serverTarget := targetOut.getD s.serverTarget
  if s.requests < 2 ∧ err = .versionMismatch ∧ serverTarget.isUnknown = false then
    some { s with
      request := { request with target := serverTarget }
      serverTarget := serverTarget
      requests := s.requests + 1 }
  else
    (sessionStep rpcrypt s.session (.requested (decide (err = .success)))).map fun session =>
      { s with
        session := session
        request := request
        serverTarget := serverTarget
        requestFailed := decide (err ≠ .success) }

/-- The third request is given no `target_out`. -/
def sessionQuitRequest (rpcrypt : RPCrypt) (info : SessionConnectInfo) (s : SessionQuit n)
    (env : SessionRequestEnv) : Option (SessionQuit n) :=
  match s.session.thread with
  | .request =>
    match sessionThreadRequestSession info env s.request (if s.requests < 2 then some s.serverTarget else none) with
    | .error f => some { s with session := { s.session with thread := .fault f } }
    | .ok none => none
    | .ok (some result) => sessionRequested rpcrypt s result
  | _ => none

/-! ## Ctrl, Senkusha and the stream connection -/

/-- `chiaki_ctrl_start` has returned. -/
def sessionQuitStartCtrl (rpcrypt : RPCrypt) (s : SessionQuit n) (err : ErrorCode) : Option (SessionQuit n) :=
  (sessionStep rpcrypt s.session (.startCtrl (decide (err = .success)))).map fun session =>
    { s with session := session, log := if err = .success then s.log ++ [.ctrlStarted] else s.log }

/-- What comes before the stream connection goes well: `chiaki_senkusha_init`, `chiaki_senkusha_run`, which may fail but
not be canceled, `chiaki_random_bytes_crypt` and `chiaki_ecdh_init`. -/
def keysReady (init run random ecdh : ErrorCode) : Bool :=
  decide (init = .success) && decide (run ≠ .canceled) && decide (random = .success) && decide (ecdh = .success)

def sessionQuitSenkusha (rpcrypt : RPCrypt) (s : SessionQuit n) (init run random ecdh : ErrorCode) :
    Option (SessionQuit n) :=
  (sessionStep rpcrypt s.session (.senkusha (keysReady init run random ecdh))).map fun session =>
    { s with session := session, log := if keysReady init run random ecdh then s.log ++ [.ecdhInit] else s.log }

/-- What `chiaki_stream_connection_run` returns is the quit reason. -/
def streamedQuitReason (err : ErrorCode) : QuitReason :=
  if err = .disconnected then .streamConnectionRemoteDisconnected
  else if err ≠ .success ∧ err ≠ .canceled then .streamConnectionUnknown
  else .stopped

def sessionQuitStreamed (rpcrypt : RPCrypt) (s : SessionQuit n) (err : ErrorCode) : Option (SessionQuit n) :=
  (sessionStep rpcrypt s.session .streamed).map fun session =>
    { s.setQuitReason (streamedQuitReason err) with session := session, log := s.log ++ [.ecdhFini] }

/-! ## The other steps -/

/-- What `ctrl_failed` writes in a step of the ctrl thread. -/
def ctrlLabelQuitReason : CtrlLabel n → Option QuitReason
  | .connectFailed => some .ctrlConnectFailed
  | .overflow => some .ctrlUnknown
  | .recv .error => some .ctrlUnknown
  | _ => none

/-- `CHECK_STOP`, the label `ctrl_failed` of `session_thread_func`, and the function of that name. -/
def sessionStepQuitReason (s s' : Session n) (l : SessionLabel n) (reason : QuitReason) : QuitReason :=
  match l with
  | .lock => if s'.thread = .quit then .stopped else reason
  | .check | .relock =>
    if s'.thread = .quitCtrl then
      if s.shouldStop then .stopped else if reason = .none then .ctrlUnknown else reason
    else reason
  | .ctrlUseState =>
    match s.ctrlStateUse with
    | .waits l => (ctrlLabelQuitReason l).getD reason
    | _ => reason
  | _ => reason

/-- The loop over the PIN requests has taken one. -/
def sessionAsksForPin (s s' : Session n) : SessionLabel n → Bool
  | .check | .relock => s.ctrl.session.ctrlLoginPinRequested && !s'.ctrl.session.ctrlLoginPinRequested
  | _ => false

def sessionStepActions (s s' : Session n) (pinIncorrect : Bool) (l : SessionLabel n) : List SessionAction :=
  if sessionAsksForPin s s' l then [.event (.loginPinRequest pinIncorrect) true]
  else
    match l with
    | .stopCtrl => [.ctrlStopped]
    | .join => [.ctrlJoined]
    | _ => []

/-- The steps that have a label of their own here. -/
def SessionLabel.hasOutcome : SessionLabel n → Bool
  | .requested _ | .startCtrl _ | .senkusha _ | .streamed => true
  | _ => false

/-- `ctrl_connect` returns without an error. -/
def SessionLabel.connects : SessionLabel n → Bool
  | .ctrl (.connected _ _ _) => true
  | _ => false

/-- The socket of `ctrl_connect` fails. Nobody else has written `ctrl_failed` while it connects. -/
def sessionQuitCtrlConnect (s : SessionQuit n) (refused : Bool) : Option (SessionQuit n) :=
  match s.session.ctrl.thread, s.session.ctrlFree, s.session.thread.locked with
  | .connecting, true, false =>
    let ctrl := { s.session.ctrl with session := { s.session.ctrl.session with ctrlFailed := true } }
    some { s.setQuitReason (if refused then .ctrlConnectionRefused else .ctrlUnknown) with
      session := { s.session with ctrl := ctrl }.condSignal }
  | _, _, _ => none

def sessionQuitOther (rpcrypt : RPCrypt) (s : SessionQuit n) (l : SessionLabel n) : Option (SessionQuit n) :=
  if l.hasOutcome || (l.connects && s.session.ctrl.session.ctrlFailed) then none
  else
    (sessionStep rpcrypt s.session l).map fun session =>
      { s.setQuitReason (sessionStepQuitReason s.session session l s.quitReason) with
        session := session
        pinIncorrect := s.pinIncorrect || sessionAsksForPin s.session session l
        log := s.log ++ sessionStepActions s.session session s.pinIncorrect l }

/-- Another thread that may send events: ctrl, or those of the stream connection. -/
def sessionOthersSend (s : Session n) : Bool :=
  (decide (s.ctrl.thread ≠ .init) && decide (s.ctrl.thread ≠ .exited)) || decide (s.thread = .streaming)

/-- The thread of the session sends its last event and returns. -/
def sessionQuitEvent (s : SessionQuit n) : Option (SessionQuit n) :=
  match s.session.thread, s.returned with
  | .quit, false =>
    some { s with returned := true, log := s.log ++ [.event (.quit s.quitReason) s.session.thread.locked] }
  | _, _ => none

def sessionQuitStep (rpcrypt : RPCrypt) (info : SessionConnectInfo) (s : SessionQuit n) :
    SessionQuitLabel n → Option (SessionQuit n)
  | .step l => sessionQuitOther rpcrypt s l
  | .request env => sessionQuitRequest rpcrypt info s env
  | .startCtrl err => sessionQuitStartCtrl rpcrypt s err
  | .senkusha init run random ecdh => sessionQuitSenkusha rpcrypt s init run random ecdh
  | .streamed err => sessionQuitStreamed rpcrypt s err
  | .ctrlConnect refused => sessionQuitCtrlConnect s refused
  | .event =>
    if sessionOthersSend s.session then some { s with log := s.log ++ [.event .other s.session.thread.locked] }
    else none
  | .quit => sessionQuitEvent s

def sessionQuitLts (rpcrypt : RPCrypt) (info : SessionConnectInfo) (n : Nat) :
    Lts (SessionQuit n) (SessionQuitLabel n) :=
  Lts.ofFun (fun s => ∃ session hostname, SessionInitial session ∧ s = sessionQuitInit info session hostname)
    (sessionQuitStep rpcrypt info)

end Chiaki
