import Chiaki.Audio
import Chiaki.Infra.Transition
import Chiaki.Ecdh

/-!
# The stream connection (`streamconnection.c`)

The thread in `chiaki_stream_connection_run`, the Takion thread (`takion_thread_func` of
`takion.c`) with its callbacks, and anyone who calls `chiaki_stream_connection_stop`.

`state_mutex` is held by the running thread except where it waits for `state_cond`, sends the
connected event, or closes Takion. A callback holds it from its beginning to its end, so it is one
step. What nanopb finds in a buffer, and what memory and libraries answer, is in the labels.

The log is a history, newest first.
-/

namespace Chiaki

open Infra

variable {P S : Type}

/-! ## Protobuf messages -/

/-- `tkproto_TakionMessage_PayloadType`, as far as the handlers look at it. -/
inductive PayloadType
  | bang
  | disconnect
  | streaminfo
  | other
  deriving DecidableEq, Repr

/-- `tkproto_BangPayload`. A field that goes to a callback is the list of its occurrences. -/
structure BangPayload where
  encryptedKeyAccepted : Bool
  versionAccepted : Bool
  ecdhPubKey : List Bytes
  ecdhSig : List Bytes

/-- `tkproto_TakionMessage`. Of the stream info payload only the audio header is of interest. -/
structure TkprotoTakionMessage where
  type : PayloadType
  bangPayload : Option BangPayload
  disconnectReason : List Bytes
  streamInfoPayload : Option (List Bytes)

/-- `chiaki_pb_decode_buf` for all occurrences of a field: the last one counts, but none may be
too large. -/
def pbDecodeBuf (maxSize : Nat) (occurrences : List Bytes) : Option Bytes :=
  if occurrences.all fun buf => buf.length ≤ maxSize then some (occurrences.getLastD []) else none

/-! ## The state -/

/-- `StreamConnectionState` -/
inductive StreamConnectionState
  | idle
  | takionConnect
  | expectBang
  | expectStreaminfo
  deriving DecidableEq, Repr

/-- What the running thread waits for. -/
inductive StreamWait
  | takion
  | bang
  | streaminfo
  | heartbeat
  deriving DecidableEq, Repr

/-- Where a thread stands in `chiaki_stream_connection_run`. `enter` is before the predicate is
checked for the first time, and `connected` is where the connected event is sent. -/
inductive StreamRunPc
  | begin
  | enter (w : StreamWait)
  | waiting (w : StreamWait)
  | sendBig
  | sendHeartbeat
  | sendDisconnect (err : ErrorCode)
  | connected
  | closing (err : ErrorCode)
  | returned (err : ErrorCode) (locked : Bool)
  | finished
  deriving DecidableEq, Repr

/-- Whether `state_mutex` is held there. -/
def StreamRunPc.locked : StreamRunPc → Bool
  | .enter _ => true
  | .sendBig => true
  | .sendHeartbeat => true
  | .sendDisconnect _ => true
  | .returned _ locked => locked
  | _ => false

/-- Where the Takion thread stands: before an event, in the loop, or behind the last event, when
the socket is closed. -/
inductive StreamTakionPc
  | none
  | handshake
  | connectedEvent
  | receive
  | disconnectEvent
  | closed
  | fault (f : Fault)
  deriving DecidableEq, Repr

/-- Whether `send_buffer` of the Takion may be used. -/
inductive SendBufferLife
  | uninit
  | live
  | finalised
  deriving DecidableEq, Repr

/-- A `ChiakiGKCrypt`, by what it is created from. -/
structure GKCryptKeys where
  index : Nat
  handshakeKey : Bytes
  ecdhSecret : Bytes
  deriving DecidableEq, Repr

/-- What the outside answers in a handler. `sent` says that the message that the handler sends gets
through. -/
structure HandlerEnv where
  malloc : Bool
  pointNew : Bool
  gkcryptLocal : Bool
  gkcryptRemote : Bool
  resolutions : Bool
  sent : Bool

inductive StreamEvent
  | waitStart (w : StreamWait)
  | stateFailed
  | takionDisconnect
  | handled (state : StreamConnectionState) (pb : Option TkprotoTakionMessage) (env : HandlerEnv)
  | gkcryptNew (index : Nat)
  | gkcryptFree (index : Nat)
  | push (sendBuffer : SendBufferLife)
  | ack (sendBuffer : SendBufferLife)

/-- `ChiakiStreamConnection`, with what it uses of its session. -/
structure StreamConnection (P S : Type) where
  ecdh : Ecdh P S
  handshakeKey : Bytes
  state : StreamConnectionState
  stateFinished : Bool
  stateFailed : Bool
  shouldStop : Bool
  remoteDisconnected : Bool
  ecdhSecret : Option Bytes
  gkcryptLocal : Option GKCryptKeys
  gkcryptRemote : Option GKCryptKeys
  sendBuffer : SendBufferLife
  run : StreamRunPc
  takion : StreamTakionPc
  log : List StreamEvent

namespace StreamConnection

def emit (s : StreamConnection P S) (e : StreamEvent) : StreamConnection P S :=
  { s with log := e :: s.log }

/-- `chiaki_takion_send_buffer_push` -/
def push (s : StreamConnection P S) : StreamConnection P S := s.emit (.push s.sendBuffer)

/-- `chiaki_takion_send_message_data` with its result: the packet is pushed if `send` succeeds. -/
def send (s : StreamConnection P S) (err : ErrorCode) : StreamConnection P S :=
  if err = .success then s.push else s

/-- The label `error` of a handler. -/
def fail (s : StreamConnection P S) : StreamConnection P S :=
  { s with stateFailed := true }.emit .stateFailed

/-- A new state to wait in. -/
def setState (s : StreamConnection P S) (state : StreamConnectionState) : StreamConnection P S :=
  { s with state := state, stateFinished := false, stateFailed := false }

def setRun (s : StreamConnection P S) (pc : StreamRunPc) : StreamConnection P S := { s with run := pc }

/-- The beginning of a wait. -/
def startWait (s : StreamConnection P S) (w : StreamWait) : StreamConnection P S :=
  (s.emit (.waitStart w)).setRun (.enter w)

end StreamConnection

open StreamConnection

/-- `chiaki_stream_connection_init` -/
def streamConnectionInit (ecdh : Ecdh P S) (handshakeKey : Bytes) : StreamConnection P S where
  ecdh := ecdh
  handshakeKey := handshakeKey
  state := .idle
  stateFinished := false
  stateFailed := false
  shouldStop := false
  remoteDisconnected := false
  ecdhSecret := none
  gkcryptLocal := none
  gkcryptRemote := none
  sendBuffer := .uninit
  run := .begin
  takion := .none
  log := []

/-- `state_finished_cond_check` -/
def stateFinishedCondCheck (s : StreamConnection P S) : Bool :=
  s.stateFinished || s.shouldStop || s.remoteDisconnected

/-! ## Handlers of the Takion thread -/

/-- `stream_connection_takion_data_handle_disconnect` -/
def takionDataHandleDisconnect (s : StreamConnection P S) (msg : TkprotoTakionMessage) :
    StreamConnection P S :=
  match pbDecodeBuf 255 msg.disconnectReason with
  | none => s
  | some _ => { s with remoteDisconnected := true }

/-- `stream_connection_takion_data_idle` -/
def takionDataIdle (s : StreamConnection P S) (pb : Option TkprotoTakionMessage) :
    StreamConnection P S :=
  match pb with
  | none => s
  | some msg => if msg.type = .disconnect then takionDataHandleDisconnect s msg else s

/-- `stream_connection_init_crypt`. If the remote one cannot be created, the local one is freed. -/
def streamConnectionInitCrypt (s : StreamConnection P S) (secret : Bytes) (env : HandlerEnv) :
    ErrorCode × StreamConnection P S :=
  if !env.gkcryptLocal then (.unknown, { s with gkcryptLocal := none })
  else
    let s := { s with gkcryptLocal := some ⟨2, s.handshakeKey, secret⟩ }.emit (.gkcryptNew 2)
    if !env.gkcryptRemote then
      (.unknown, { s with gkcryptLocal := none, gkcryptRemote := none }.emit (.gkcryptFree 2))
    else
      (.success, { s with gkcryptRemote := some ⟨3, s.handshakeKey, secret⟩ }.emit (.gkcryptNew 3))

/-- The rest of `stream_connection_takion_data_expect_bang`, once the fields are checked. -/
def takionDataAcceptBang (ec : EcGroup P S) (s : StreamConnection P S) (pubKey sig : Bytes)
    (env : HandlerEnv) : StreamConnection P S :=
  if s.ecdhSecret.isSome then { s with takion := .fault .assertion }
  else if !env.malloc then s.fail
  else
    match ecdhDeriveSecret ec s.ecdh env.pointNew pubKey s.handshakeKey sig with
    | .error _ => s.fail
    | .ok secret =>
      match streamConnectionInitCrypt { s with ecdhSecret := some secret } secret env with
      | (.success, s) =>
        -- `stream_connection_send_controller_connection` comes behind the signal
        let s := { s with stateFinished := true }
        if env.sent then s.push else s.fail
      | (_, s) => s.fail

/-- The checks before that: the key and the signature of a BANG message that passes them. -/
inductive BangCheck
  | undecodable
  | unexpected (msg : TkprotoTakionMessage)
  | refused
  | accepted (pubKey sig : Bytes)

def checkBang (pb : Option TkprotoTakionMessage) : BangCheck :=
  match pb with
  | none => .undecodable
  | some msg =>
    match msg.bangPayload with
    | none => .unexpected msg
    | some bang =>
      match pbDecodeBuf 128 bang.ecdhPubKey, pbDecodeBuf 32 bang.ecdhSig with
      | some pubKey, some sig =>
        if msg.type ≠ .bang then .unexpected msg
        else if !bang.versionAccepted then .refused
        else if !bang.encryptedKeyAccepted then .refused
        else if pubKey.isEmpty then .refused
        else if sig.isEmpty then .refused
        else .accepted pubKey sig
      | _, _ => .undecodable

/-- `stream_connection_takion_data_expect_bang` -/
def takionDataExpectBang (ec : EcGroup P S) (s : StreamConnection P S)
    (pb : Option TkprotoTakionMessage) (env : HandlerEnv) : StreamConnection P S :=
  match checkBang pb with
  | .undecodable => s
  | .unexpected msg => if msg.type = .disconnect then takionDataHandleDisconnect s msg else s
  | .refused => s.fail
  | .accepted pubKey sig => takionDataAcceptBang ec s pubKey sig env

/-- `stream_connection_takion_data_expect_streaminfo` -/
def takionDataExpectStreaminfo (s : StreamConnection P S) (pb : Option TkprotoTakionMessage)
    (env : HandlerEnv) : StreamConnection P S :=
  match pb with
  | none => s
  | some msg =>
    match env.resolutions, pbDecodeBuf audioHeaderSize (msg.streamInfoPayload.getD []) with
    | true, some audioHeader =>
      if msg.type ≠ .streaminfo ∨ msg.streamInfoPayload.isNone then
        if msg.type = .disconnect then takionDataHandleDisconnect s msg else s
      else if audioHeader.length ≠ audioHeaderSize then s.fail
      else
        let s := if env.sent then s.push else s
        { s with stateFinished := true }
    | _, _ => s

/-- `stream_connection_takion_data_protobuf` -/
def takionDataProtobuf (ec : EcGroup P S) (s : StreamConnection P S)
    (pb : Option TkprotoTakionMessage) (env : HandlerEnv) : StreamConnection P S :=
  let s := s.emit (.handled s.state pb env)
  match s.state with
  | .expectBang => takionDataExpectBang ec s pb env
  | .expectStreaminfo => takionDataExpectStreaminfo s pb env
  | _ => takionDataIdle s pb

/-- `stream_connection_takion_cb` for the event that Takion is connected, or is not any more. -/
def streamConnectionTakionCb (s : StreamConnection P S) (connected : Bool) : StreamConnection P S :=
  let s := if connected then s else s.emit .takionDisconnect
  if s.state = .takionConnect then { s with stateFinished := connected, stateFailed := !connected }
  else s

/-! ## The running thread -/

/-- How the beginning of `chiaki_stream_connection_run` goes. If there is no receiver, it returns
with the mutex. -/
inductive BeginResult
  | receivers
  | connect (err : ErrorCode)
  | congestionControl (err : ErrorCode)
  | success
  deriving DecidableEq, Repr

def streamRunBegin (s : StreamConnection P S) : BeginResult → StreamConnection P S
  | .receivers => s.setRun (.returned .unknown true)
  | .connect err => (s.setState .takionConnect).setRun (.returned err false)
  | .congestionControl err =>
    { s.setState .takionConnect with takion := .handshake }.setRun (.closing err)
  | .success => { s.setState .takionConnect with takion := .handshake }.startWait .takion

/-- Behind `chiaki_cond_timedwait_pred`. `feedbackSender` is the result of
`chiaki_feedback_sender_init`. -/
def streamRunProceed (s : StreamConnection P S) (w : StreamWait) (err feedbackSender : ErrorCode) :
    StreamConnection P S :=
  match w with
  | .takion =>
    if s.shouldStop then s.setRun (.closing err)
    else if err ≠ .success then s.setRun (.closing err)
    else (s.setState .expectBang).setRun .sendBig
  | .bang =>
    if s.shouldStop then s.setRun (.sendDisconnect err)
    else if !s.stateFinished then s.setRun (.sendDisconnect .unknown)
    else (s.setState .expectStreaminfo).startWait .streaminfo
  | .streaminfo =>
    if s.shouldStop then s.setRun (.sendDisconnect err)
    else if !s.stateFinished then s.setRun (.sendDisconnect .unknown)
    else if feedbackSender ≠ .success then s.setRun (.sendDisconnect feedbackSender)
    else (s.setState .idle).setRun .connected
  | .heartbeat =>
    if err ≠ .timeout then s.setRun (.sendDisconnect .success) else s.setRun .sendHeartbeat

/-- A message of this thread is sent. -/
def streamRunSend (s : StreamConnection P S) (err : ErrorCode) : Option (StreamConnection P S) :=
  match s.run with
  | .sendBig =>
    if err = .success then some ((s.send err).startWait .bang)
    else some ((s.send err).setRun (.sendDisconnect err))
  | .sendHeartbeat => some ((s.send err).setRun (.enter .heartbeat))
  | .sendDisconnect result =>
    some ((s.send err).setRun (.closing
      (if s.shouldStop then .canceled else if s.remoteDisconnected then .disconnected else result)))
  | _ => none

/-- `chiaki_gkcrypt_free`, which takes a null pointer too. -/
def gkcryptFree (s : StreamConnection P S) (gkcrypt : Option GKCryptKeys) : StreamConnection P S :=
  match gkcrypt with
  | none => s
  | some k => s.emit (.gkcryptFree k.index)

/-- `chiaki_stream_connection_fini` -/
def streamConnectionFini (s : StreamConnection P S) : StreamConnection P S :=
  let s := gkcryptFree s s.gkcryptRemote
  let s := gkcryptFree s s.gkcryptLocal
  { s with gkcryptRemote := none, gkcryptLocal := none, ecdhSecret := none }.setRun .finished

/-! ## Steps -/

/-- What moves next. -/
inductive StreamLabel
  | begin (result : BeginResult)
  | check (feedbackSender : ErrorCode)
  | wake (timeout : Bool) (feedbackSender : ErrorCode)
  | send (err : ErrorCode)
  | relock
  | join
  | fini
  | stop
  | handshake (ok : Bool)
  | event
  | deliver (pb : Option TkprotoTakionMessage) (env : HandlerEnv)
  | ack
  | av (corrupt : Bool)
  | recvError

variable (ec : EcGroup P S)

/-- Steps of the running thread, and of who stops it. -/
def streamRunStep (s : StreamConnection P S) : StreamLabel → Option (StreamConnection P S)
  | .begin result =>
    match s.run with
    | .begin => some (streamRunBegin s result)
    | _ => none
  | .check feedbackSender =>
    match s.run with
    | .enter w =>
      if stateFinishedCondCheck s then some (streamRunProceed s w .success feedbackSender)
      else some (s.setRun (.waiting w))
    | _ => none
  | .wake timeout feedbackSender =>
    match s.run with
    | .waiting w =>
      -- when the time is over, the predicate is not looked at again
      if timeout then some (streamRunProceed s w .timeout feedbackSender)
      else if stateFinishedCondCheck s then some (streamRunProceed s w .success feedbackSender)
      else some s
    | _ => none
  | .send err =>
    -- nothing gets through a closed socket
    if err = .success ∧ s.takion = .closed then none else streamRunSend s err
  | .relock =>
    match s.run with
    | .connected => some (s.startWait .heartbeat)
    | _ => none
  | .join =>
    match s.run, s.takion with
    | .closing err, .closed => some (s.setRun (.returned err false))
    | _, _ => none
  | .fini =>
    match s.run with
    | .returned _ _ => some (streamConnectionFini s)
    | _ => none
  | .stop =>
    if s.run.locked ∨ s.run = .finished then none else some { s with shouldStop := true }
  | _ => none

/-- Steps of the Takion thread. -/
def streamTakionStep (s : StreamConnection P S) : StreamLabel → Option (StreamConnection P S)
  | .handshake ok =>
    match s.takion with
    | .handshake =>
      if ok then some { s with sendBuffer := .live, takion := .connectedEvent }
      else some { s with takion := .disconnectEvent }
    | _ => none
  | .event =>
    match s.run.locked, s.takion with
    | false, .connectedEvent => some { streamConnectionTakionCb s true with takion := .receive }
    | false, .disconnectEvent => some { streamConnectionTakionCb s false with takion := .closed }
    | _, _ => none
  | .deliver pb env =>
    match s.run.locked, s.takion with
    | false, .receive => some (takionDataProtobuf ec s pb env)
    | _, _ => none
  | .ack =>
    match s.takion with
    | .receive => some (s.emit (.ack s.sendBuffer))
    | _ => none
  | .av corrupt =>
    match s.takion with
    | .receive => some (if corrupt then s.push else s)
    | _ => none
  | .recvError =>
    match s.takion with
    | .receive => some { s with sendBuffer := .finalised, takion := .disconnectEvent }
    | _ => none
  | _ => none

/-- A failed assertion ends the process. -/
def streamStep (s : StreamConnection P S) (l : StreamLabel) : Option (StreamConnection P S) :=
  match s.takion with
  | .fault _ => none
  | _ => (streamRunStep s l).orElse fun _ => streamTakionStep ec s l

def streamLts : Lts (StreamConnection P S) StreamLabel :=
  Lts.ofFun (fun s => ∃ ecdh handshakeKey, s = streamConnectionInit ecdh handshakeKey) (streamStep ec)

end Chiaki
