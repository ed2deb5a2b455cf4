import Chiaki.Infra.Transition
import Chiaki.Ctrl.Message

/-!
# The ctrl thread (`ctrl_thread_func`)

The thread takes frames out of `recv_buf`, waits for the socket or for its notification pipe, and
sends what other threads have posted.

What another thread does while it holds `notif_mutex` is one step, and so is a round of the loop
over the frames. `chiaki_ctrl_send_message` signals behind its critical section, so it takes two
steps. A pipe is signaled or not: resetting it takes out everything that was written.
-/

namespace Chiaki

open Infra

variable {n : Nat}

/-- What `recv` returns. -/
inductive CtrlRecv
  | data (chunk : Bytes)
  | closed
  | error

/-- What moves next: the ctrl thread, or another one that posts, signals or stops. -/
inductive CtrlLabel (n : Nat)
  | start
  | connected (cryptCounterLocal cryptCounterRemote : Nat) (rest : Bytes)
  | connectFailed
  | round
  | overflow
  | select (err : CtrlSelect)
  | lock
  | canceled
  | reset
  | recv (r : CtrlRecv)
  | post (t : Fin n) (message : CtrlMessage)
  | signal (t : Fin n)
  | setLoginPin (pin : Bytes)
  | stop

/-- The ctrl thread holds `notif_mutex`, for good if it has stopped with a fault. -/
def CtrlPc.locked : CtrlPc → Bool
  | .init | .connecting | .select | .selected _ | .exited => false
  | _ => true

/-- `chiaki_ctrl_init` -/
def ctrlInit (session : CtrlSession) (recvBuf : CtrlRecvBuf) : Ctrl n where
  session := session
  shouldStop := false
  loginPinEntered := false
  loginPin := []
  msgQueue := []
  notifPipe := false
  loginPinRequested := false
  recvBuf := recvBuf
  recvBufSize := 0
  cryptCounterLocal := 0
  cryptCounterRemote := 0
  thread := .init
  callers := fun _ => none
  received := []
  log := []

/-! ## The ctrl thread -/

/-- `ctrl_failed` -/
def ctrlFailed (s : Ctrl n) (reason : CtrlQuitReason) : Ctrl n :=
  { s with session := { s.session with quitReason := reason, ctrlFailed := true } }

/-- `ctrl_connect` returned: the counters that the header fields took, and what came behind the
response. The request and the response are in a buffer of 512 bytes. -/
def ctrlConnected (s : Ctrl n) (cryptCounterLocal cryptCounterRemote : Nat) (rest : Bytes) : Ctrl n :=
  { s with
    cryptCounterLocal := cryptCounterLocal
    cryptCounterRemote := cryptCounterRemote
    recvBuf := s.recvBuf.write 0 rest
    recvBufSize := rest.length
    received := rest
    thread := .loop }

/-- A round of the loop over the frames. `8 + payload_size` is a sum of 32 bits. -/
def ctrlRound (rpcrypt : RPCrypt) (s : Ctrl n) : Ctrl n :=
  if s.recvBufSize < 8 then { s with thread := .select }
  else
    let payloadSize := u32At s.recvBuf.toList 0
    let frameSize := (8 + payloadSize) % 2 ^ 32
    if s.recvBufSize < frameSize then
      if frameSize > ctrlRecvBufSize then { s with thread := .overflow }
      else { s with thread := .select }
    else
      let msgType := u16At s.recvBuf.toList 4
      let payload := slice s.recvBuf.toList 8 payloadSize
      let s := { s with log := .dispatch s.recvBufSize msgType payloadSize payload :: s.log }
      match ctrlMessageReceived rpcrypt s msgType payloadSize with
      | .error f => { s with thread := .fault f }
      | .ok s =>
        let recvBufSize := s.recvBufSize - frameSize
        if recvBufSize = 0 then { s with recvBufSize := recvBufSize }
        else if ctrlRecvBufSize < 8 + payloadSize + recvBufSize then
          { s with recvBufSize := recvBufSize, thread := .fault .outOfBounds }
        else
          { s with
            recvBufSize := recvBufSize
            recvBuf := s.recvBuf.memmove (8 + payloadSize) recvBufSize }

/-- The thread wakes up: for the pipe if it is signaled, else for the socket. -/
def ctrlSelect (s : Ctrl n) (err : CtrlSelect) : Option (Ctrl n) :=
  match err, s.notifPipe with
  | .canceled, false => none
  | .success, true => none
  | _, _ => some { s with thread := .selected err }

/-- `notif_mutex` is taken again. -/
def ctrlLock (s : Ctrl n) (err : CtrlSelect) : Ctrl n :=
  match err with
  | .canceled => { s with thread := .canceled false }
  | .success => { s with thread := .recv }
  | .unknown => { s with thread := .exited }

/-- The pipe was signaled: one more message is sent, or the login PIN, or the thread looks for
`should_stop`. -/
def ctrlCanceled (rpcrypt : RPCrypt) (s : Ctrl n) (msgQueueUpdated : Bool) : Ctrl n :=
  match s.msgQueue with
  | message :: next =>
    { ctrlMessageSend rpcrypt s message.type message.payload with
      msgQueue := next
      thread := .canceled true }
  | [] =>
    if s.loginPinEntered then
      { ctrlMessageSend rpcrypt s ctrlMessageTypeLoginPinRep s.loginPin with
        loginPinEntered := false
        loginPin := []
        thread := .reset }
    else if s.shouldStop then { s with thread := .exited }
    else if msgQueueUpdated then { s with thread := .reset }
    else { s with thread := .loop }

/-- `recv` into what is left of `recv_buf`. -/
def ctrlRecv (s : Ctrl n) : CtrlRecv → Option (Ctrl n)
  | .data chunk =>
    if chunk ≠ [] ∧ s.recvBufSize + chunk.length ≤ ctrlRecvBufSize then
      some { s with
        recvBuf := s.recvBuf.write s.recvBufSize chunk
        recvBufSize := s.recvBufSize + chunk.length
        received := s.received ++ chunk
        thread := .loop }
    else none
  | .closed => some { s with thread := .exited }
  | .error => some { ctrlFailed s .ctrlUnknown with thread := .exited }

/-! ## The other threads -/

/-- `chiaki_ctrl_send_message` up to the end of its critical section. -/
def ctrlPost (s : Ctrl n) (t : Fin n) (message : CtrlMessage) : Ctrl n :=
  { s with
    msgQueue := s.msgQueue ++ [message]
    callers := fun u => if u = t then some message else s.callers u }

/-- The rest of `chiaki_ctrl_send_message`. -/
def ctrlSignal (s : Ctrl n) (t : Fin n) : Ctrl n :=
  { s with notifPipe := true, callers := fun u => if u = t then none else s.callers u }

/-- `chiaki_ctrl_set_login_pin` -/
def ctrlSetLoginPin (s : Ctrl n) (pin : Bytes) : Ctrl n :=
  { s with loginPinEntered := true, loginPin := pin, notifPipe := true }

/-- `chiaki_ctrl_stop` -/
def ctrlStop (s : Ctrl n) : Ctrl n := { s with shouldStop := true, notifPipe := true }

/-! ## The system -/

def ctrlStep (rpcrypt : RPCrypt) (s : Ctrl n) : CtrlLabel n → Option (Ctrl n)
  | .start =>
    match s.thread with
    | .init => some { s with cryptCounterLocal := 0, cryptCounterRemote := 0, thread := .connecting }
    | _ => none
  | .connected cryptCounterLocal cryptCounterRemote rest =>
    match s.thread with
    | .connecting =>
      if rest.length ≤ ctrlRecvBufSize then
        some (ctrlConnected s cryptCounterLocal cryptCounterRemote rest)
      else none
    | _ => none
  | .connectFailed =>
    match s.thread with
    | .connecting => some { ctrlFailed s .ctrlConnectFailed with thread := .exited }
    | _ => none
  | .round =>
    match s.thread with
    | .loop => some (ctrlRound rpcrypt s)
    | _ => none
  | .overflow =>
    match s.thread with
    | .overflow => some { ctrlFailed s .ctrlUnknown with thread := .exited }
    | _ => none
  | .select err =>
    match s.thread with
    | .select => ctrlSelect s err
    | _ => none
  | .lock =>
    match s.thread with
    | .selected err => some (ctrlLock s err)
    | _ => none
  | .canceled =>
    match s.thread with
    | .canceled msgQueueUpdated => some (ctrlCanceled rpcrypt s msgQueueUpdated)
    | _ => none
  | .reset =>
    match s.thread with
    | .reset => some { s with notifPipe := false, thread := .loop }
    | _ => none
  | .recv r =>
    match s.thread with
    | .recv => ctrlRecv s r
    | _ => none
  | .post t message =>
    match s.thread.locked, s.callers t with
    | false, none => some (ctrlPost s t message)
    | _, _ => none
  | .signal t =>
    match s.callers t with
    | some _ => some (ctrlSignal s t)
    | none => none
  | .setLoginPin pin => if s.thread.locked then none else some (ctrlSetLoginPin s pin)
  | .stop => if s.thread.locked then none else some (ctrlStop s)

def CtrlInitial (s : Ctrl n) : Prop := ∃ session recvBuf, s = ctrlInit session recvBuf

def ctrlLts (rpcrypt : RPCrypt) (n : Nat) : Lts (Ctrl n) (CtrlLabel n) :=
  Lts.ofFun CtrlInitial (ctrlStep rpcrypt)

end Chiaki
