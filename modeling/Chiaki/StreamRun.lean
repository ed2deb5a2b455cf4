import Chiaki.StreamConnection

/-!
# What `chiaki_stream_connection_run` holds

The steps of the stream connection together with what the function takes and gives back on its way:
`state_mutex`, the three receivers, Takion, and the two threads that send through Takion, the
congestion control (`congestioncontrol.c`) and the feedback sender.

`StreamResources` says how these are to be used. It is not what the code does: the operations of a
step, `streamOps`, are.

Takion is closed from the call of `chiaki_takion_close` on, which joins the Takion thread itself.
-/

namespace Chiaki

open Infra

variable {P S : Type}

inductive StreamReceiver
  | audio
  | haptics
  | video
  deriving DecidableEq, Repr

/-- What the function does with what it holds. `use` is a call that sends through Takion, by
whichever thread. -/
inductive StreamOp
  | lock
  | unlock
  | new (r : StreamReceiver)
  | free (r : StreamReceiver)
  | connect
  | close
  | startCongestion
  | stopCongestion
  | startFeedback
  | stopFeedback
  | use
  deriving DecidableEq, Repr

/-! ## The rules -/

/-- Something that is taken once and given back once. -/
inductive Holding
  | before
  | held
  | givenBack
  deriving DecidableEq, Repr

structure StreamResources where
  locked : Bool
  receiver : StreamReceiver → Holding
  takion : Holding
  congestion : Holding
  feedback : Holding

def StreamResources.start : StreamResources where
  locked := false
  receiver := fun _ => .before
  takion := .before
  congestion := .before
  feedback := .before

/-- What an operation leaves, if it is allowed: nothing is given back that is not held, the two
threads run only while Takion is open, and nobody sends through it then. -/
def StreamResources.after (r : StreamResources) : StreamOp → Option StreamResources
  | .lock => if r.locked then none else some { r with locked := true }
  | .unlock => if r.locked then some { r with locked := false } else none
  | .new x =>
    if r.receiver x = .before then
      some { r with receiver := fun y => if y = x then .held else r.receiver y }
    else none
  | .free x =>
    if r.receiver x = .held then
      some { r with receiver := fun y => if y = x then .givenBack else r.receiver y }
    else none
  | .connect => if r.takion = .before then some { r with takion := .held } else none
  | .close =>
    if r.takion = .held ∧ r.congestion ≠ .held ∧ r.feedback ≠ .held then
      some { r with takion := .givenBack }
    else none
  | .startCongestion =>
    if r.takion = .held ∧ r.congestion = .before then some { r with congestion := .held } else none
  | .stopCongestion =>
    if r.congestion = .held then some { r with congestion := .givenBack } else none
  | .startFeedback =>
    if r.takion = .held ∧ r.feedback = .before then some { r with feedback := .held } else none
  | .stopFeedback => if r.feedback = .held then some { r with feedback := .givenBack } else none
  | .use => if r.takion = .held then some r else none

/-- What a sequence of operations leaves, if all of them are allowed. -/
def StreamResources.afterAll (r : StreamResources) (ops : List StreamOp) : Option StreamResources :=
  ops.foldlM StreamResources.after r

/-- Nothing is held. -/
def StreamResources.Released (r : StreamResources) : Prop :=
  r.locked = false ∧ (∀ x, r.receiver x ≠ .held) ∧ r.takion ≠ .held ∧ r.congestion ≠ .held ∧
    r.feedback ≠ .held

/-! ## The operations of a step -/

/-- From the label `err_video_receiver` on. -/
def errVideoReceiver : List StreamOp := [.free .video, .free .haptics, .free .audio]

/-- From the label `close_takion` on, up to where Takion is joined. -/
def closeTakion : List StreamOp := [.unlock, .close]

/-- From the label `err_congestion_control` on. -/
def errCongestionControl : List StreamOp := .stopCongestion :: closeTakion

/-- Up to the first wait. `failed` is the receiver that cannot be created. -/
def streamBeginOps (failed : StreamReceiver) : BeginResult → List StreamOp
  | .receivers =>
    match failed with
    | .audio => [.lock]
    | .haptics => [.lock, .new .audio, .free .audio]
    | .video => [.lock, .new .audio, .new .haptics, .free .haptics, .free .audio]
  | .connect _ => [.lock, .new .audio, .new .haptics, .new .video, .unlock] ++ errVideoReceiver
  | .congestionControl _ =>
    [.lock, .new .audio, .new .haptics, .new .video, .connect] ++ closeTakion
  | .success => [.lock, .new .audio, .new .haptics, .new .video, .connect, .startCongestion]

/-- Behind a wait. -/
def streamProceedOps (s : StreamConnection P S) (w : StreamWait) (err feedbackSender : ErrorCode) :
    List StreamOp :=
  match w with
  | .takion =>
    -- `CHECK_STOP(close_takion)`
    if s.shouldStop then closeTakion
    else if err ≠ .success then errCongestionControl
    else []
  | .bang => []
  | .streaminfo =>
    if s.shouldStop then []
    else if !s.stateFinished then []
    else if feedbackSender ≠ .success then []
    else [.startFeedback, .unlock]
  | .heartbeat => if err ≠ .timeout then [.stopFeedback] else []

/-- A message is sent, and what comes behind it. -/
def streamSendOps (s : StreamConnection P S) : List StreamOp :=
  match s.run with
  | .sendDisconnect _ => .use :: errCongestionControl
  | _ => [.use]

def streamOps (s : StreamConnection P S) (failed : StreamReceiver) : StreamLabel → List StreamOp
  | .begin result => streamBeginOps failed result
  | .check feedbackSender =>
    match s.run with
    | .enter w => if stateFinishedCondCheck s then streamProceedOps s w .success feedbackSender else []
    | _ => []
  | .wake timeout feedbackSender =>
    match s.run with
    | .waiting w =>
      if timeout then streamProceedOps s w .timeout feedbackSender
      else if stateFinishedCondCheck s then streamProceedOps s w .success feedbackSender
      else []
    | _ => []
  | .send _ => streamSendOps s
  | .relock => [.lock]
  | .join => errVideoReceiver
  | _ => []

/-! ## The system -/

/-- The stream connection and the operations so far, oldest first. -/
structure StreamRun (P S : Type) where
  conn : StreamConnection P S
  ops : List StreamOp

/-- `noMemory` is the failure of the first `malloc`, in front of everything else. -/
inductive StreamRunLabel
  | stream (l : StreamLabel) (failed : StreamReceiver)
  | noMemory
  | sendCongestion
  | sendFeedback

/-- The congestion control has been started, and not stopped. -/
def congestionRuns (ops : List StreamOp) : Bool :=
  decide (.startCongestion ∈ ops ∧ .stopCongestion ∉ ops)

/-- The feedback sender has been started, and not stopped. -/
def feedbackRuns (ops : List StreamOp) : Bool :=
  decide (.startFeedback ∈ ops ∧ .stopFeedback ∉ ops)

def streamRunStepOps (ec : EcGroup P S) (s : StreamRun P S) : StreamRunLabel → Option (StreamRun P S)
  | .stream l failed =>
    (streamStep ec s.conn l).map fun conn =>
      { conn := conn, ops := s.ops ++ streamOps s.conn failed l }
  | .noMemory =>
    match s.conn.run with
    | .begin => some { s with conn := s.conn.setRun (.returned .memory false) }
    | _ => none
  | .sendCongestion => if congestionRuns s.ops then some { s with ops := s.ops ++ [.use] } else none
  | .sendFeedback => if feedbackRuns s.ops then some { s with ops := s.ops ++ [.use] } else none

def streamRunLts (ec : EcGroup P S) : Lts (StreamRun P S) StreamRunLabel :=
  Lts.ofFun (fun s => (streamLts ec).init s.conn ∧ s.ops = []) (streamRunStepOps ec)

end Chiaki
