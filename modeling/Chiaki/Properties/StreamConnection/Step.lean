import Chiaki.StreamConnection

/-!
# What a step of the stream connection keeps

* `HandlerFrame` — what no handler of the Takion thread touches, and what it may add to the history
* `StreamShape` — how the state variable, the two threads and the send buffer go together, in every
  reachable state (`streamShape_invariant`)
-/

namespace Chiaki

open Infra StreamConnection

variable {P S : Type} {ec : EcGroup P S} {s s' t : StreamConnection P S} {l : StreamLabel}

@[simp] theorem StreamConnection.send_state (s : StreamConnection P S) (err : ErrorCode) :
    (s.send err).state = s.state := by
  unfold StreamConnection.send
  split <;> rfl

@[simp] theorem StreamConnection.send_sendBuffer (s : StreamConnection P S) (err : ErrorCode) :
    (s.send err).sendBuffer = s.sendBuffer := by
  unfold StreamConnection.send
  split <;> rfl

/-! ## Handlers -/

/-- What a handler adds to the history, while the send buffer is as it is. -/
def StreamEvent.ofHandler (sendBuffer : SendBufferLife) : StreamEvent → Prop
  | .stateFailed => True
  | .gkcryptNew _ => True
  | .gkcryptFree _ => True
  | .push life => life = sendBuffer
  | _ => False

/-- What a handler keeps. -/
structure HandlerFrame (s s' : StreamConnection P S) : Prop where
  ecdh : s'.ecdh = s.ecdh
  handshakeKey : s'.handshakeKey = s.handshakeKey
  state : s'.state = s.state
  shouldStop : s'.shouldStop = s.shouldStop
  sendBuffer : s'.sendBuffer = s.sendBuffer
  run : s'.run = s.run
  takion : s'.takion = s.takion ∨ s'.takion = .fault .assertion
  /-- Only the running thread takes these back. -/
  stateFinished : s.stateFinished = true → s'.stateFinished = true
  remoteDisconnected : s.remoteDisconnected = true → s'.remoteDisconnected = true
  log : ∃ new, s'.log = new ++ s.log ∧ ∀ e ∈ new, e.ofHandler s.sendBuffer

theorem HandlerFrame.refl (s : StreamConnection P S) : HandlerFrame s s :=
  ⟨rfl, rfl, rfl, rfl, rfl, rfl, .inl rfl, id, id, [], rfl, by simp⟩

theorem HandlerFrame.trans (h : HandlerFrame s t) (h' : HandlerFrame t s') : HandlerFrame s s' where
  ecdh := h'.ecdh.trans h.ecdh
  handshakeKey := h'.handshakeKey.trans h.handshakeKey
  state := h'.state.trans h.state
  shouldStop := h'.shouldStop.trans h.shouldStop
  sendBuffer := h'.sendBuffer.trans h.sendBuffer
  run := h'.run.trans h.run
  takion := by
    rcases h'.takion with hsame | hfault
    · rw [hsame]
      exact h.takion
    · exact .inr hfault
  stateFinished := h'.stateFinished ∘ h.stateFinished
  remoteDisconnected := h'.remoteDisconnected ∘ h.remoteDisconnected
  log := by
    obtain ⟨new, hnew, hall⟩ := h.log
    obtain ⟨new', hnew', hall'⟩ := h'.log
    refine ⟨new' ++ new, by rw [hnew', hnew, List.append_assoc], ?_⟩
    intro e he
    rcases List.mem_append.mp he with he | he
    · exact h.sendBuffer ▸ hall' e he
    · exact hall e he

theorem HandlerFrame.emit {e : StreamEvent} (he : e.ofHandler s.sendBuffer) :
    HandlerFrame s (s.emit e) :=
  ⟨rfl, rfl, rfl, rfl, rfl, rfl, .inl rfl, id, id, [e], rfl, by simpa using he⟩

theorem HandlerFrame.push (s : StreamConnection P S) : HandlerFrame s s.push := .emit rfl

theorem HandlerFrame.fail (s : StreamConnection P S) : HandlerFrame s s.fail :=
  ⟨rfl, rfl, rfl, rfl, rfl, rfl, .inl rfl, id, id, [.stateFailed], rfl, by
    simp [StreamEvent.ofHandler]⟩

theorem HandlerFrame.finish (s : StreamConnection P S) :
    HandlerFrame s { s with stateFinished := true } :=
  ⟨rfl, rfl, rfl, rfl, rfl, rfl, .inl rfl, fun _ => rfl, id, [], rfl, by simp⟩

/-- The secret and the two GKCrypts are not in the frame. -/
theorem HandlerFrame.crypt (s : StreamConnection P S) (secret : Option Bytes)
    (gkcryptLocal gkcryptRemote : Option GKCryptKeys) :
    HandlerFrame s { s with
      ecdhSecret := secret, gkcryptLocal := gkcryptLocal, gkcryptRemote := gkcryptRemote } :=
  ⟨rfl, rfl, rfl, rfl, rfl, rfl, .inl rfl, id, id, [], rfl, by simp⟩

theorem takionDataHandleDisconnect_frame (s : StreamConnection P S) (msg : TkprotoTakionMessage) :
    HandlerFrame s (takionDataHandleDisconnect s msg) := by
  unfold takionDataHandleDisconnect
  split
  · exact .refl s
  · exact ⟨rfl, rfl, rfl, rfl, rfl, rfl, .inl rfl, id, fun _ => rfl, [], rfl, by simp⟩

theorem takionDataIdle_frame (s : StreamConnection P S) (pb : Option TkprotoTakionMessage) :
    HandlerFrame s (takionDataIdle s pb) := by
  unfold takionDataIdle
  split
  · exact .refl s
  · split
    · exact takionDataHandleDisconnect_frame s _
    · exact .refl s

theorem streamConnectionInitCrypt_frame (s : StreamConnection P S) (secret : Bytes) (env : HandlerEnv) :
    HandlerFrame s (streamConnectionInitCrypt s secret env).2 := by
  unfold streamConnectionInitCrypt
  split
  · exact .crypt s _ _ _
  · have hlocal : HandlerFrame s
        ({ s with gkcryptLocal := some ⟨2, s.handshakeKey, secret⟩ }.emit (.gkcryptNew 2)) :=
      (HandlerFrame.crypt s _ _ _).trans (.emit trivial)
    simp only
    split
    · exact (hlocal.trans (.crypt _ _ _ _)).trans (.emit trivial)
    · exact (hlocal.trans (.crypt _ _ _ _)).trans (.emit trivial)

theorem takionDataAcceptBang_frame (s : StreamConnection P S) (pubKey sig : Bytes) (env : HandlerEnv) :
    HandlerFrame s (takionDataAcceptBang ec s pubKey sig env) := by
  unfold takionDataAcceptBang
  split
  · exact ⟨rfl, rfl, rfl, rfl, rfl, rfl, .inr rfl, id, id, [], rfl, by simp⟩
  · split
    · exact .fail s
    · split
      · exact .fail s
      · next secret _ =>
        have hcrypt := (HandlerFrame.crypt s (some secret) s.gkcryptLocal s.gkcryptRemote).trans
          (streamConnectionInitCrypt_frame _ secret env)
        split
        · next hinit =>
          rw [hinit] at hcrypt
          simp only
          split
          · exact (hcrypt.trans (.finish _)).trans (.push _)
          · exact (hcrypt.trans (.finish _)).trans (.fail _)
        · next hinit =>
          rw [hinit] at hcrypt
          exact hcrypt.trans (.fail _)

theorem takionDataExpectBang_frame (s : StreamConnection P S) (pb : Option TkprotoTakionMessage)
    (env : HandlerEnv) : HandlerFrame s (takionDataExpectBang ec s pb env) := by
  unfold takionDataExpectBang
  split
  · exact .refl s
  · split
    · exact takionDataHandleDisconnect_frame s _
    · exact .refl s
  · exact .fail s
  · exact takionDataAcceptBang_frame s _ _ env

theorem takionDataExpectStreaminfo_frame (s : StreamConnection P S) (pb : Option TkprotoTakionMessage)
    (env : HandlerEnv) : HandlerFrame s (takionDataExpectStreaminfo s pb env) := by
  unfold takionDataExpectStreaminfo
  split
  · exact .refl s
  · split
    · split
      · split
        · exact takionDataHandleDisconnect_frame s _
        · exact .refl s
      · split
        · exact .fail s
        · simp only
          split
          · exact (HandlerFrame.push s).trans (.finish _)
          · exact .finish s
    · exact .refl s

theorem takionDataProtobuf_expectBang (pb : Option TkprotoTakionMessage) (env : HandlerEnv)
    (hstate : s.state = .expectBang) : takionDataProtobuf ec s pb env
      = takionDataExpectBang ec (s.emit (.handled .expectBang pb env)) pb env := by
  unfold takionDataProtobuf
  simp only [hstate]
  split
  · rfl
  · next h => cases hstate.symm.trans h
  · next h _ => exact absurd hstate h

theorem takionDataProtobuf_expectStreaminfo (pb : Option TkprotoTakionMessage) (env : HandlerEnv)
    (hstate : s.state = .expectStreaminfo) : takionDataProtobuf ec s pb env
      = takionDataExpectStreaminfo (s.emit (.handled .expectStreaminfo pb env)) pb env := by
  unfold takionDataProtobuf
  simp only [hstate]
  split
  · next h => cases hstate.symm.trans h
  · rfl
  · next _ h => exact absurd hstate h

/-- **What a message may change**, behind the note that it is handled. -/
theorem takionDataProtobuf_frame (s : StreamConnection P S) (pb : Option TkprotoTakionMessage)
    (env : HandlerEnv) :
    HandlerFrame (s.emit (.handled s.state pb env)) (takionDataProtobuf ec s pb env) := by
  unfold takionDataProtobuf
  simp only
  split
  · exact takionDataExpectBang_frame _ pb env
  · exact takionDataExpectStreaminfo_frame _ pb env
  · exact takionDataIdle_frame _ pb

/-- A delivery is noted, and then what its handler has to say. -/
theorem takionDataProtobuf_log (ec : EcGroup P S) (s : StreamConnection P S)
    (pb : Option TkprotoTakionMessage) (env : HandlerEnv) :
    ∃ new, (takionDataProtobuf ec s pb env).log = new ++ .handled s.state pb env :: s.log ∧
      ∀ e ∈ new, e.ofHandler s.sendBuffer :=
  (takionDataProtobuf_frame s pb env).log

/-! ## Moves -/

/-- Where the running thread goes from a wait. -/
inductive StreamProceed (s : StreamConnection P S) (err : ErrorCode) :
    StreamWait → StreamConnection P S → Prop
  | closing : StreamProceed s err .takion (s.setRun (.closing err))
  | big : s.shouldStop = false → err = .success →
      StreamProceed s err .takion ((s.setState .expectBang).setRun .sendBig)
  | disconnect {w : StreamWait} {result : ErrorCode} : w ≠ .takion →
      StreamProceed s err w (s.setRun (.sendDisconnect result))
  | streaminfo : s.stateFinished = true →
      StreamProceed s err .bang ((s.setState .expectStreaminfo).startWait .streaminfo)
  | connected : s.stateFinished = true →
      StreamProceed s err .streaminfo ((s.setState .idle).setRun .connected)
  | heartbeat : err = .timeout → StreamProceed s err .heartbeat (s.setRun .sendHeartbeat)

theorem streamRunProceed_cases (s : StreamConnection P S) (w : StreamWait)
    (err feedbackSender : ErrorCode) :
    StreamProceed s err w (streamRunProceed s w err feedbackSender) := by
  unfold streamRunProceed
  cases w with
  | takion =>
    simp only
    split
    · exact .closing
    · next hstop =>
      split
      · exact .closing
      · next hsuccess => exact .big (Bool.not_eq_true _ ▸ hstop) (not_not.mp hsuccess)
  | bang =>
    simp only
    split
    · exact .disconnect (by decide)
    · split
      · exact .disconnect (by decide)
      · next hfinished => exact .streaminfo (by simpa using hfinished)
  | streaminfo =>
    simp only
    split
    · exact .disconnect (by decide)
    · split
      · exact .disconnect (by decide)
      · next hfinished =>
        split
        · exact .disconnect (by decide)
        · exact .connected (by simpa using hfinished)
  | heartbeat =>
    simp only
    split
    · exact .disconnect (by decide)
    · next htimeout => exact .heartbeat (not_not.mp htimeout)

/-- What the running thread can do, and who stops it. -/
inductive StreamRunMove (s : StreamConnection P S) : StreamLabel → StreamConnection P S → Prop
  | begin {result : BeginResult} : s.run = .begin →
      StreamRunMove s (.begin result) (streamRunBegin s result)
  | pass {w : StreamWait} {feedbackSender : ErrorCode} : s.run = .enter w →
      stateFinishedCondCheck s = true →
      StreamRunMove s (.check feedbackSender) (streamRunProceed s w .success feedbackSender)
  | wait {w : StreamWait} {feedbackSender : ErrorCode} : s.run = .enter w →
      stateFinishedCondCheck s = false →
      StreamRunMove s (.check feedbackSender) (s.setRun (.waiting w))
  | timeout {w : StreamWait} {feedbackSender : ErrorCode} : s.run = .waiting w →
      StreamRunMove s (.wake true feedbackSender) (streamRunProceed s w .timeout feedbackSender)
  | wake {w : StreamWait} {feedbackSender : ErrorCode} : s.run = .waiting w →
      stateFinishedCondCheck s = true →
      StreamRunMove s (.wake false feedbackSender) (streamRunProceed s w .success feedbackSender)
  | spurious {w : StreamWait} {feedbackSender : ErrorCode} : s.run = .waiting w →
      StreamRunMove s (.wake false feedbackSender) s
  | big : s.run = .sendBig → s.takion ≠ .closed →
      StreamRunMove s (.send .success) ((s.send .success).startWait .bang)
  | bigError {err : ErrorCode} : s.run = .sendBig → err ≠ .success →
      StreamRunMove s (.send err) ((s.send err).setRun (.sendDisconnect err))
  | heartbeat {err : ErrorCode} : s.run = .sendHeartbeat → (err = .success → s.takion ≠ .closed) →
      StreamRunMove s (.send err) ((s.send err).setRun (.enter .heartbeat))
  | disconnect {err result result' : ErrorCode} : s.run = .sendDisconnect result →
      (err = .success → s.takion ≠ .closed) →
      StreamRunMove s (.send err) ((s.send err).setRun (.closing result'))
  | relock : s.run = .connected → StreamRunMove s .relock (s.startWait .heartbeat)
  | join {err : ErrorCode} : s.run = .closing err → s.takion = .closed →
      StreamRunMove s .join (s.setRun (.returned err false))
  | fini {err : ErrorCode} {locked : Bool} : s.run = .returned err locked →
      StreamRunMove s .fini (streamConnectionFini s)
  | stop : s.run.locked = false → StreamRunMove s .stop { s with shouldStop := true }

/-- What the Takion thread can do. -/
inductive StreamTakionMove (ec : EcGroup P S) (s : StreamConnection P S) :
    StreamLabel → StreamConnection P S → Prop
  | handshake : s.takion = .handshake →
      StreamTakionMove ec s (.handshake true) { s with sendBuffer := .live, takion := .connectedEvent }
  | handshakeError : s.takion = .handshake →
      StreamTakionMove ec s (.handshake false) { s with takion := .disconnectEvent }
  | connected : s.run.locked = false → s.takion = .connectedEvent →
      StreamTakionMove ec s .event { streamConnectionTakionCb s true with takion := .receive }
  | disconnected : s.run.locked = false → s.takion = .disconnectEvent →
      StreamTakionMove ec s .event { streamConnectionTakionCb s false with takion := .closed }
  | deliver {pb : Option TkprotoTakionMessage} {env : HandlerEnv} : s.run.locked = false →
      s.takion = .receive → StreamTakionMove ec s (.deliver pb env) (takionDataProtobuf ec s pb env)
  | ack : s.takion = .receive → StreamTakionMove ec s .ack (s.emit (.ack s.sendBuffer))
  | av : s.takion = .receive → StreamTakionMove ec s (.av false) s
  | corrupt : s.takion = .receive → StreamTakionMove ec s (.av true) s.push
  | recvError : s.takion = .receive →
      StreamTakionMove ec s .recvError { s with sendBuffer := .finalised, takion := .disconnectEvent }

theorem streamRunSend_move {err : ErrorCode} (hopen : err = .success → s.takion ≠ .closed)
    (hs : streamRunSend s err = some s') : StreamRunMove s (.send err) s' := by
  unfold streamRunSend at hs
  split at hs
  · next hrun =>
    split at hs
    · next hsuccess =>
      cases hs
      subst hsuccess
      exact .big hrun (hopen rfl)
    · next herr =>
      cases hs
      exact .bigError hrun herr
  · next hrun =>
    cases hs
    exact .heartbeat hrun hopen
  · next hrun =>
    cases hs
    exact .disconnect hrun hopen
  · cases hs

theorem streamRunStep_move (hs : streamRunStep s l = some s') : StreamRunMove s l s' := by
  unfold streamRunStep at hs
  split at hs
  · split at hs
    · next hrun =>
      cases hs
      exact .begin hrun
    · cases hs
  · split at hs
    · next hrun =>
      split at hs
      · next hcheck =>
        cases hs
        exact .pass hrun hcheck
      · next hcheck =>
        cases hs
        exact .wait hrun (Bool.not_eq_true _ ▸ hcheck)
    · cases hs
  · next timeout _ =>
    split at hs
    · next hrun =>
      cases timeout with
      | true =>
        cases hs
        exact .timeout hrun
      | false =>
        rw [if_neg (by decide)] at hs
        split at hs
        · next hcheck =>
          cases hs
          exact .wake hrun hcheck
        · cases hs
          exact .spurious hrun
    · cases hs
  · split at hs
    · cases hs
    · next hopen => exact streamRunSend_move (fun herr hclosed => hopen ⟨herr, hclosed⟩) hs
  · split at hs
    · next hrun =>
      cases hs
      exact .relock hrun
    · cases hs
  · split at hs
    · next hrun htakion =>
      cases hs
      exact .join hrun htakion
    · cases hs
  · split at hs
    · next hrun =>
      cases hs
      exact .fini hrun
    · cases hs
  · split at hs
    · cases hs
    · next hfree =>
      cases hs
      exact .stop (Bool.not_eq_true _ ▸ fun hlocked => hfree (.inl hlocked))
  · cases hs

theorem streamTakionStep_move (hs : streamTakionStep ec s l = some s') :
    StreamTakionMove ec s l s' := by
  unfold streamTakionStep at hs
  split at hs
  · next ok =>
    split at hs
    · next htakion =>
      cases ok with
      | true =>
        cases hs
        exact .handshake htakion
      | false =>
        cases hs
        exact .handshakeError htakion
    · cases hs
  · split at hs
    · next hfree htakion =>
      cases hs
      exact .connected hfree htakion
    · next hfree htakion =>
      cases hs
      exact .disconnected hfree htakion
    · cases hs
  · split at hs
    · next hfree htakion =>
      cases hs
      exact .deliver hfree htakion
    · cases hs
  · split at hs
    · next htakion =>
      cases hs
      exact .ack htakion
    · cases hs
  · next corrupt =>
    split at hs
    · next htakion =>
      cases corrupt with
      | true =>
        cases hs
        exact .corrupt htakion
      | false =>
        cases hs
        exact .av htakion
    · cases hs
  · split at hs
    · next htakion =>
      cases hs
      exact .recvError htakion
    · cases hs
  · cases hs

/-- **What a step is.** A failed assertion ends the process. -/
theorem streamStep_cases (hs : streamStep ec s l = some s') :
    (∀ f, s.takion ≠ .fault f) ∧ (StreamRunMove s l s' ∨ StreamTakionMove ec s l s') := by
  unfold streamStep at hs
  split at hs
  · cases hs
  · next hfault =>
    refine ⟨hfault, ?_⟩
    cases hrun : streamRunStep s l with
    | some t =>
      rw [hrun] at hs
      cases hs
      exact .inl (streamRunStep_move hrun)
    | none =>
      rw [hrun] at hs
      exact .inr (streamTakionStep_move hs)

/-- What the Takion thread leaves to the running thread. -/
structure StreamTakionFrame (s s' : StreamConnection P S) : Prop where
  ecdh : s'.ecdh = s.ecdh
  handshakeKey : s'.handshakeKey = s.handshakeKey
  state : s'.state = s.state
  shouldStop : s'.shouldStop = s.shouldStop
  run : s'.run = s.run
  remoteDisconnected : s.remoteDisconnected = true → s'.remoteDisconnected = true

/-- What the running thread leaves to the Takion thread. -/
structure StreamRunFrame (s s' : StreamConnection P S) : Prop where
  ecdh : s'.ecdh = s.ecdh
  handshakeKey : s'.handshakeKey = s.handshakeKey
  sendBuffer : s'.sendBuffer = s.sendBuffer
  remoteDisconnected : s'.remoteDisconnected = s.remoteDisconnected
  takion : s'.takion = s.takion ∨ s.run = .begin ∧ s'.takion = .handshake

theorem StreamProceed.frame {w : StreamWait} {err : ErrorCode} (hp : StreamProceed s err w s') :
    StreamRunFrame s s' := by
  cases hp <;> exact ⟨rfl, rfl, rfl, rfl, .inl rfl⟩

theorem StreamConnection.send_frame (s : StreamConnection P S) (err : ErrorCode) :
    StreamRunFrame s (s.send err) := by
  unfold StreamConnection.send
  split <;> exact ⟨rfl, rfl, rfl, rfl, .inl rfl⟩

theorem gkcryptFree_emit (s : StreamConnection P S) (gkcrypt : Option GKCryptKeys) :
    gkcryptFree s gkcrypt = { s with log := (gkcryptFree s gkcrypt).log } := by
  cases gkcrypt <;> rfl

theorem streamConnectionFini_eq (s : StreamConnection P S) : streamConnectionFini s = { s with
    gkcryptRemote := none
    gkcryptLocal := none
    ecdhSecret := none
    run := .finished
    log := (streamConnectionFini s).log } := by
  unfold streamConnectionFini
  simp only
  rw [gkcryptFree_emit (gkcryptFree s s.gkcryptRemote), gkcryptFree_emit s]
  rfl

theorem streamRunMove_frame (hs : StreamRunMove s l s') : StreamRunFrame s s' := by
  cases hs with
  | @begin result hrun =>
    cases result with
    | receivers => exact ⟨rfl, rfl, rfl, rfl, .inl rfl⟩
    | connect => exact ⟨rfl, rfl, rfl, rfl, .inl rfl⟩
    | congestionControl => exact ⟨rfl, rfl, rfl, rfl, .inr ⟨hrun, rfl⟩⟩
    | success => exact ⟨rfl, rfl, rfl, rfl, .inr ⟨hrun, rfl⟩⟩
  | pass => exact (streamRunProceed_cases _ _ _ _).frame
  | timeout => exact (streamRunProceed_cases _ _ _ _).frame
  | wake => exact (streamRunProceed_cases _ _ _ _).frame
  | big => exact ⟨rfl, rfl, rfl, rfl, .inl rfl⟩
  | @bigError err =>
    have h := send_frame s err
    exact ⟨h.ecdh, h.handshakeKey, h.sendBuffer, h.remoteDisconnected, h.takion⟩
  | @heartbeat err =>
    have h := send_frame s err
    exact ⟨h.ecdh, h.handshakeKey, h.sendBuffer, h.remoteDisconnected, h.takion⟩
  | @disconnect err =>
    have h := send_frame s err
    exact ⟨h.ecdh, h.handshakeKey, h.sendBuffer, h.remoteDisconnected, h.takion⟩
  | fini =>
    rw [streamConnectionFini_eq]
    exact ⟨rfl, rfl, rfl, rfl, .inl rfl⟩
  | _ => exact ⟨rfl, rfl, rfl, rfl, .inl rfl⟩

/-! ## The shape of a reachable state -/

/-- The state variable during a wait. -/
def StreamWait.state : StreamWait → StreamConnectionState
  | .takion => .takionConnect
  | .bang => .expectBang
  | .streaminfo => .expectStreaminfo
  | .heartbeat => .idle

/-- The state variable where the running thread stands. It is not reset on the way out. -/
def StreamRunPc.state : StreamRunPc → Option StreamConnectionState
  | .begin => some .idle
  | .enter w => some w.state
  | .waiting w => some w.state
  | .sendBig => some .expectBang
  | .sendHeartbeat => some .idle
  | .connected => some .idle
  | _ => none

/-- The running thread knows that Takion is connected. -/
def StreamRunPc.afterConnect : StreamRunPc → Bool
  | .enter w => w != .takion
  | .waiting w => w != .takion
  | .sendBig => true
  | .sendHeartbeat => true
  | .sendDisconnect _ => true
  | .connected => true
  | _ => false

/-- The running thread is behind `chiaki_takion_close`, or has never started Takion. -/
def StreamRunPc.detached : StreamRunPc → Bool
  | .begin => true
  | .returned _ _ => true
  | .finished => true
  | _ => false

def StreamTakionPc.buffer (sendBuffer : SendBufferLife) : StreamTakionPc → Prop
  | .none => sendBuffer = .uninit
  | .handshake => sendBuffer = .uninit
  | .connectedEvent => sendBuffer = .live
  | .receive => sendBuffer = .live
  | .disconnectEvent => sendBuffer ≠ .live
  | .closed => sendBuffer ≠ .live
  | .fault _ => sendBuffer = .live

structure StreamShape (s : StreamConnection P S) : Prop where
  state : ∀ state, s.run.state = some state → s.state = state
  detached : s.run.detached = true → s.takion = .none ∨ s.takion = .closed
  begin : s.run = .begin → s.takion = .none
  buffer : s.takion.buffer s.sendBuffer
  /-- Nothing of this can be seen before the Takion thread has called back. -/
  connected : s.stateFinished = true ∨ s.remoteDisconnected = true ∨ s.run.afterConnect = true →
    s.sendBuffer ≠ .uninit

theorem streamShape_init (ecdh : Ecdh P S) (handshakeKey : Bytes) :
    StreamShape (streamConnectionInit ecdh handshakeKey) where
  state := by
    intro state h
    cases h
    rfl
  detached := fun _ => .inl rfl
  begin := fun _ => rfl
  buffer := rfl
  connected := by
    rintro (h | h | h) <;> cases h

/-- The running thread moves to where nothing is known but that Takion is connected. -/
theorem StreamShape.setRun (h : StreamShape s) {pc : StreamRunPc}
    (hstate : ∀ state, pc.state = some state → s.state = state) (hdetached : pc.detached = false)
    (hconnected : pc.afterConnect = true → s.sendBuffer ≠ .uninit) : StreamShape (s.setRun pc) where
  state := hstate
  detached := by
    intro hpc
    exact absurd (hdetached.symm.trans hpc) (by decide)
  begin := by
    rintro (rfl : pc = .begin)
    cases hdetached
  buffer := h.buffer
  connected := by
    rintro (hf | hr | hpc)
    · exact h.connected (.inl hf)
    · exact h.connected (.inr (.inl hr))
    · exact hconnected hpc

theorem StreamShape.setState (h : StreamShape s) {state : StreamConnectionState} {pc : StreamRunPc}
    (hstate : ∀ st, pc.state = some st → state = st) (hdetached : pc.detached = false)
    (hconnected : pc.afterConnect = true → s.sendBuffer ≠ .uninit) :
    StreamShape ((s.setState state).setRun pc) where
  state := hstate
  detached := by
    intro hpc
    exact absurd (hdetached.symm.trans hpc) (by decide)
  begin := by
    rintro (rfl : pc = .begin)
    cases hdetached
  buffer := h.buffer
  connected := by
    rintro (hf | hr | hpc)
    · cases hf
    · exact h.connected (.inr (.inl hr))
    · exact hconnected hpc

theorem StreamShape.emit (h : StreamShape s) (e : StreamEvent) : StreamShape (s.emit e) :=
  ⟨h.state, h.detached, h.begin, h.buffer, h.connected⟩

theorem StreamShape.push (h : StreamShape s) : StreamShape s.push := h.emit _

theorem StreamShape.begin_step (h : StreamShape s) (hrun : s.run = .begin) (result : BeginResult) :
    StreamShape (streamRunBegin s result) := by
  have hbuffer : s.takion.buffer s.sendBuffer := h.buffer
  rw [h.begin hrun] at hbuffer
  cases result with
  | receivers =>
    refine ⟨?_, fun _ => .inl (h.begin hrun), ?_, h.buffer, ?_⟩
    · rintro state ⟨⟩
    · rintro ⟨⟩
    · rintro (hf | hr | hpc)
      · exact h.connected (.inl hf)
      · exact h.connected (.inr (.inl hr))
      · cases hpc
  | connect err =>
    refine ⟨?_, fun _ => .inl (h.begin hrun), ?_, h.buffer, ?_⟩
    · rintro state ⟨⟩
    · rintro ⟨⟩
    · rintro (hf | hr | hpc)
      · cases hf
      · exact h.connected (.inr (.inl hr))
      · cases hpc
  | congestionControl err =>
    refine ⟨?_, ?_, ?_, hbuffer, ?_⟩
    · rintro state ⟨⟩
    · rintro ⟨⟩
    · rintro ⟨⟩
    · rintro (hf | hr | hpc)
      · cases hf
      · exact h.connected (.inr (.inl hr))
      · cases hpc
  | success =>
    refine ⟨?_, ?_, ?_, hbuffer, ?_⟩
    · intro state hstate
      cases hstate
      rfl
    · rintro ⟨⟩
    · rintro ⟨⟩
    · rintro (hf | hr | hpc)
      · cases hf
      · exact h.connected (.inr (.inl hr))
      · cases hpc

/-- Behind a wait. That it has succeeded means that the predicate holds. -/
theorem StreamShape.proceed (h : StreamShape s) {w : StreamWait} {err : ErrorCode}
    (hp : StreamProceed s err w s') (hrun : s.run = .enter w ∨ s.run = .waiting w)
    (herr : err = .success → stateFinishedCondCheck s = true) : StreamShape s' := by
  have hafter : w ≠ .takion → s.sendBuffer ≠ .uninit := by
    intro hw
    refine h.connected (.inr (.inr ?_))
    rcases hrun with hrun | hrun <;> rw [hrun] <;> simpa [StreamRunPc.afterConnect] using hw
  have hstate : s.state = w.state := by
    rcases hrun with hrun | hrun <;> exact h.state _ (by rw [hrun]; rfl)
  cases hp with
  | closing => exact h.setRun (by rintro _ ⟨⟩) rfl (by rintro ⟨⟩)
  | big hstop hsuccess =>
    -- the predicate holds, and not because of a stop
    have hcheck := herr hsuccess
    unfold stateFinishedCondCheck at hcheck
    simp only [Bool.or_eq_true, or_assoc] at hcheck
    have hconnected : s.sendBuffer ≠ .uninit := by
      rcases hcheck with hf | hs | hr
      · exact h.connected (.inl hf)
      · cases hstop.symm.trans hs
      · exact h.connected (.inr (.inl hr))
    exact h.setState (by rintro _ ⟨⟩; rfl) rfl fun _ => hconnected
  | disconnect hw => exact h.setRun (by rintro _ ⟨⟩) rfl fun _ => hafter hw
  | streaminfo =>
    have hwait : StreamShape ((s.setState .expectStreaminfo).setRun (.enter .streaminfo)) :=
      h.setState (by rintro _ ⟨⟩; rfl) rfl fun _ => hafter (by decide)
    exact hwait.emit _
  | connected => exact h.setState (by rintro _ ⟨⟩; rfl) rfl fun _ => hafter (by decide)
  | heartbeat => exact h.setRun (by rintro _ ⟨⟩; exact hstate) rfl fun _ => hafter (by decide)

theorem StreamShape.sent (h : StreamShape s) (err : ErrorCode) : StreamShape (s.send err) := by
  unfold StreamConnection.send
  split
  · exact h.push
  · exact h

/-- The running thread is at its end. -/
theorem StreamShape.detach (h : StreamShape s) {pc : StreamRunPc} (hpc : pc.state = none)
    (hafter : pc.afterConnect = false) (hbegin : pc ≠ .begin)
    (htakion : s.takion = .none ∨ s.takion = .closed) : StreamShape (s.setRun pc) where
  state := by
    intro state hstate
    cases hpc.symm.trans hstate
  detached := fun _ => htakion
  begin := fun hrun => absurd hrun hbegin
  buffer := h.buffer
  connected := by
    rintro (hf | hr | hrun)
    · exact h.connected (.inl hf)
    · exact h.connected (.inr (.inl hr))
    · exact absurd (hafter.symm.trans hrun) (by decide)

theorem StreamShape.runMove (h : StreamShape s) (hs : StreamRunMove s l s') : StreamShape s' := by
  have hconnected : s.run.afterConnect = true → s.sendBuffer ≠ .uninit :=
    fun hrun => h.connected (.inr (.inr hrun))
  cases hs with
  | begin hrun => exact h.begin_step hrun _
  | pass hrun hcheck => exact h.proceed (streamRunProceed_cases _ _ _ _) (.inl hrun) fun _ => hcheck
  | wait hrun _ =>
    refine h.setRun ?_ rfl fun hafter => hconnected (by rw [hrun]; exact hafter)
    rintro state ⟨⟩
    exact h.state _ (by rw [hrun]; rfl)
  | timeout hrun => exact h.proceed (streamRunProceed_cases _ _ _ _) (.inr hrun) (by rintro ⟨⟩)
  | wake hrun hcheck => exact h.proceed (streamRunProceed_cases _ _ _ _) (.inr hrun) fun _ => hcheck
  | spurious => exact h
  | big hrun =>
    rw [hrun] at hconnected
    refine ((h.sent _).emit _).setRun ?_ rfl fun _ => hconnected rfl
    rintro _ ⟨⟩
    exact (send_state s _).trans (h.state _ (by rw [hrun]; rfl))
  | @bigError err hrun =>
    rw [hrun, ← send_sendBuffer s err] at hconnected
    exact (h.sent _).setRun (by rintro _ ⟨⟩) rfl fun _ => hconnected rfl
  | @heartbeat err hrun =>
    rw [hrun, ← send_sendBuffer s err] at hconnected
    refine (h.sent _).setRun ?_ rfl fun _ => hconnected rfl
    rintro _ ⟨⟩
    exact (send_state s _).trans (h.state _ (by rw [hrun]; rfl))
  | disconnect => exact (h.sent _).setRun (by rintro _ ⟨⟩) rfl (by rintro ⟨⟩)
  | relock hrun =>
    refine (h.emit _).setRun ?_ rfl fun _ => hconnected (by rw [hrun]; rfl)
    rintro state ⟨⟩
    exact h.state .idle (by rw [hrun]; rfl)
  | join _ hclosed => exact h.detach rfl rfl (by rintro ⟨⟩) (.inr hclosed)
  | fini hrun =>
    have htakion := h.detached (by rw [hrun]; rfl)
    rw [streamConnectionFini_eq]
    refine ⟨by rintro state ⟨⟩, fun _ => htakion, by rintro ⟨⟩, h.buffer, ?_⟩
    rintro (hf | hr | hafter)
    · exact h.connected (.inl hf)
    · exact h.connected (.inr (.inl hr))
    · cases hafter
  | stop => exact ⟨h.state, h.detached, h.begin, h.buffer, h.connected⟩

/-- A thread of Takion is there, so the running thread is in between. -/
theorem StreamShape.attached (h : StreamShape s) (hnone : s.takion ≠ .none)
    (hclosed : s.takion ≠ .closed) : s.run.detached = false := by
  cases hrun : s.run.detached with
  | false => rfl
  | true =>
    rcases h.detached hrun with hn | hc
    · exact absurd hn hnone
    · exact absurd hc hclosed

/-- A handler runs in the loop, where the send buffer is live. -/
theorem StreamShape.handler (h : StreamShape s) (htakion : s.takion = .receive)
    (hf : HandlerFrame s s') : StreamShape s' := by
  have hlive : s.sendBuffer = .live := by
    have hbuffer := h.buffer
    rw [htakion] at hbuffer
    exact hbuffer
  have hattached := h.attached (by rw [htakion]; decide) (by rw [htakion]; decide)
  refine ⟨?_, ?_, ?_, ?_, ?_⟩
  · intro state hstate
    rw [hf.state]
    exact h.state state (hf.run ▸ hstate)
  · intro hdetached
    rw [hf.run, hattached] at hdetached
    cases hdetached
  · intro hbegin
    rw [hf.run] at hbegin
    rw [hbegin] at hattached
    cases hattached
  · rw [hf.sendBuffer, hlive]
    rcases hf.takion with hsame | hfault
    · rw [hsame, htakion]
      rfl
    · rw [hfault]
      rfl
  · intro _
    rw [hf.sendBuffer, hlive]
    decide

/-- The Takion thread moves on. -/
theorem StreamShape.setTakion (h : StreamShape s) {pc : StreamTakionPc} {sendBuffer : SendBufferLife}
    (hattached : s.run.detached = false) (hbuffer : pc.buffer sendBuffer)
    (hinit : s.sendBuffer ≠ .uninit → sendBuffer ≠ .uninit) :
    StreamShape { s with takion := pc, sendBuffer := sendBuffer } where
  state := h.state
  detached := by
    intro hdetached
    cases hattached.symm.trans hdetached
  begin := by
    intro hbegin
    have hrun : s.run = .begin := hbegin
    rw [hrun] at hattached
    cases hattached
  buffer := hbuffer
  connected := fun hc => hinit (h.connected hc)

/-- What the callback for the connected and the disconnect event writes. -/
theorem streamConnectionTakionCb_eq (s : StreamConnection P S) (connected : Bool) :
    streamConnectionTakionCb s connected = { s with
      stateFinished := if s.state = .takionConnect then connected else s.stateFinished
      stateFailed := if s.state = .takionConnect then !connected else s.stateFailed
      log := if connected then s.log else .takionDisconnect :: s.log } := by
  unfold streamConnectionTakionCb
  by_cases hstate : s.state = .takionConnect
  · cases connected <;> simp [hstate, emit]
  · cases connected <;> simp [hstate, emit]

theorem streamTakionMove_frame (hs : StreamTakionMove ec s l s') : StreamTakionFrame s s' := by
  cases hs with
  | connected =>
    rw [streamConnectionTakionCb_eq]
    exact ⟨rfl, rfl, rfl, rfl, rfl, id⟩
  | disconnected =>
    rw [streamConnectionTakionCb_eq]
    exact ⟨rfl, rfl, rfl, rfl, rfl, id⟩
  | @deliver pb env =>
    have h := @takionDataProtobuf_frame P S ec s pb env
    exact ⟨h.ecdh, h.handshakeKey, h.state, h.shouldStop, h.run, h.remoteDisconnected⟩
  | _ => exact ⟨rfl, rfl, rfl, rfl, rfl, id⟩

theorem StreamShape.takionCb (h : StreamShape s) {connected : Bool} {pc : StreamTakionPc}
    (hattached : s.run.detached = false) (hbuffer : pc.buffer s.sendBuffer)
    (hinit : connected = true → s.sendBuffer ≠ .uninit) :
    StreamShape { streamConnectionTakionCb s connected with takion := pc } := by
  have hshape : StreamShape { s with takion := pc } := h.setTakion hattached hbuffer id
  rw [streamConnectionTakionCb_eq]
  refine ⟨hshape.state, hshape.detached, hshape.begin, hshape.buffer, ?_⟩
  rintro (hf | hr | hafter)
  · simp only at hf
    split at hf
    · exact hinit hf
    · exact h.connected (.inl hf)
  · exact h.connected (.inr (.inl hr))
  · exact h.connected (.inr (.inr hafter))

theorem StreamShape.takionMove (h : StreamShape s) (hs : StreamTakionMove ec s l s') :
    StreamShape s' := by
  have hbuffer := h.buffer
  have hattached : s.takion ≠ .none → s.takion ≠ .closed → s.run.detached = false := h.attached
  cases hs with
  | handshake htakion =>
    rw [htakion] at hattached
    exact h.setTakion (hattached (by decide) (by decide)) rfl fun _ => by decide
  | handshakeError htakion =>
    rw [htakion] at hattached hbuffer
    refine h.setTakion (hattached (by decide) (by decide)) ?_ id
    rw [show s.sendBuffer = .uninit from hbuffer]
    rintro ⟨⟩
  | connected _ htakion =>
    rw [htakion] at hattached hbuffer
    refine h.takionCb (hattached (by decide) (by decide)) hbuffer fun _ => ?_
    rw [show s.sendBuffer = .live from hbuffer]
    decide
  | disconnected _ htakion =>
    rw [htakion] at hattached hbuffer
    exact h.takionCb (hattached (by decide) (by decide)) hbuffer (by rintro ⟨⟩)
  | @deliver pb env _ htakion =>
    exact (h.emit _).handler htakion (takionDataProtobuf_frame s pb env)
  | ack => exact h.emit _
  | av => exact h
  | corrupt => exact h.push
  | recvError htakion =>
    rw [htakion] at hattached
    exact h.setTakion (hattached (by decide) (by decide)) (by rintro ⟨⟩) fun _ => by decide

theorem streamShape_invariant (ec : EcGroup P S) : (streamLts ec).Invariant StreamShape where
  init := by
    rintro s ⟨ecdh, handshakeKey, rfl⟩
    exact streamShape_init ecdh handshakeKey
  step := by
    intro s l s' h hs
    rcases (streamStep_cases hs).2 with hrun | htakion
    · exact h.runMove hrun
    · exact h.takionMove htakion

/-! ## The history -/

/-- What a step may note. -/
def StreamNote (s : StreamConnection P S) (l : StreamLabel) : StreamEvent → Prop
  | .waitStart _ => ∀ pb env, l ≠ .deliver pb env
  | .stateFailed => ∃ pb env, l = .deliver pb env
  | .takionDisconnect => l = .event
  | .handled state pb env => state = s.state ∧ l = .deliver pb env
  | .gkcryptNew _ => ∃ pb env, l = .deliver pb env
  | .gkcryptFree _ => l = .fini ∨ ∃ pb env, l = .deliver pb env
  | .push life => life = s.sendBuffer ∧ (l = .send .success ∨ s.takion = .receive)
  | .ack life => life = s.sendBuffer ∧ s.takion = .receive

def StreamNotes (s : StreamConnection P S) (l : StreamLabel) (s' : StreamConnection P S) : Prop :=
  ∃ new, s'.log = new ++ s.log ∧ ∀ e ∈ new, StreamNote s l e

theorem StreamNotes.same (h : s'.log = s.log) : StreamNotes s l s' := ⟨[], h, by simp⟩

theorem StreamNotes.cons {e : StreamEvent} (h : s'.log = e :: s.log) (he : StreamNote s l e) :
    StreamNotes s l s' := ⟨[e], h, by simpa using he⟩

theorem gkcryptFree_log (s : StreamConnection P S) (gkcrypt : Option GKCryptKeys) :
    (gkcryptFree s gkcrypt).log
      = (gkcrypt.toList.map fun k => .gkcryptFree k.index) ++ s.log := by
  cases gkcrypt <;> rfl

theorem streamConnectionFini_log (s : StreamConnection P S) :
    (streamConnectionFini s).log = (s.gkcryptLocal.toList.map fun k => .gkcryptFree k.index)
      ++ ((s.gkcryptRemote.toList.map fun k => .gkcryptFree k.index) ++ s.log) := by
  unfold streamConnectionFini
  simp only
  show (gkcryptFree _ _).log = _
  rw [gkcryptFree_log, gkcryptFree_log, gkcryptFree_emit s]

theorem StreamConnection.send_log (s : StreamConnection P S) (err : ErrorCode) :
    (s.send err).log = if err = .success then .push s.sendBuffer :: s.log else s.log := by
  unfold StreamConnection.send
  split <;> rfl

theorem StreamNotes.proceed {w : StreamWait} {err : ErrorCode} (hp : StreamProceed s err w s')
    (hl : ∀ pb env, l ≠ .deliver pb env) : StreamNotes s l s' := by
  cases hp with
  | streaminfo => exact .cons rfl hl
  | _ => exact .same rfl

theorem StreamNotes.send (err : ErrorCode) : StreamNotes s (.send err) (s.send err) := by
  rw [StreamNotes, send_log]
  split
  · next hsuccess =>
    rw [hsuccess]
    exact ⟨[_], rfl, by simp [StreamNote]⟩
  · exact ⟨[], rfl, by simp⟩

theorem streamRunMove_notes (hs : StreamRunMove s l s') : StreamNotes s l s' := by
  cases hs with
  | @begin result =>
    cases result with
    | success => exact .cons rfl fun pb env => by rintro ⟨⟩
    | _ => exact .same rfl
  | pass => exact .proceed (streamRunProceed_cases _ _ _ _) fun pb env => by rintro ⟨⟩
  | timeout => exact .proceed (streamRunProceed_cases _ _ _ _) fun pb env => by rintro ⟨⟩
  | wake => exact .proceed (streamRunProceed_cases _ _ _ _) fun pb env => by rintro ⟨⟩
  | big =>
    obtain ⟨new, hnew, hall⟩ := @StreamNotes.send P S s .success
    refine ⟨.waitStart .bang :: new, congrArg _ hnew, ?_⟩
    rintro e (_ | ⟨_, he⟩)
    · rintro pb env ⟨⟩
    · exact hall e he
  | bigError => exact .send _
  | heartbeat => exact .send _
  | disconnect => exact .send _
  | relock => exact .cons rfl fun pb env => by rintro ⟨⟩
  | fini =>
    refine ⟨_, (streamConnectionFini_log s).trans (List.append_assoc _ _ _).symm, ?_⟩
    intro e he
    rcases List.mem_append.mp he with he | he <;>
      · obtain ⟨k, -, rfl⟩ := List.mem_map.mp he
        exact .inl rfl
  | _ => exact .same rfl

theorem streamTakionMove_notes (hs : StreamTakionMove ec s l s') : StreamNotes s l s' := by
  cases hs with
  | connected =>
    rw [streamConnectionTakionCb_eq]
    exact .same rfl
  | disconnected =>
    rw [streamConnectionTakionCb_eq]
    exact .cons rfl rfl
  | @deliver pb env _ htakion =>
    obtain ⟨new, hnew, hall⟩ := takionDataProtobuf_log ec s pb env
    refine ⟨new ++ [.handled s.state pb env], by rw [hnew, List.append_assoc]; rfl, ?_⟩
    intro e he
    rcases List.mem_append.mp he with he | he
    · have hof := hall e he
      cases e with
      | stateFailed => exact ⟨pb, env, rfl⟩
      | gkcryptNew => exact ⟨pb, env, rfl⟩
      | gkcryptFree => exact .inr ⟨pb, env, rfl⟩
      | push => exact ⟨hof, .inr htakion⟩
      | _ => cases hof
    · rw [List.mem_singleton.mp he]
      exact ⟨rfl, rfl⟩
  | ack htakion => exact .cons rfl ⟨rfl, htakion⟩
  | corrupt htakion => exact .cons rfl ⟨rfl, .inr htakion⟩
  | _ => exact .same rfl

/-- **What a step adds to the history.** -/
theorem streamStep_notes (hs : streamStep ec s l = some s') : StreamNotes s l s' := by
  rcases (streamStep_cases hs).2 with hrun | htakion
  · exact streamRunMove_notes hrun
  · exact streamTakionMove_notes htakion

theorem StreamEvent.ofHandler.not_handled {sendBuffer : SendBufferLife} {e : StreamEvent}
    (he : e.ofHandler sendBuffer) (state : StreamConnectionState) (pb : Option TkprotoTakionMessage)
    (env : HandlerEnv) : e ≠ .handled state pb env := by
  rintro rfl
  cases he

/-- Only a delivery is noted as a message. -/
theorem StreamNote.not_handled {e : StreamEvent} (hl : ∀ pb env, l ≠ .deliver pb env)
    (he : StreamNote s l e) (state : StreamConnectionState) (pb : Option TkprotoTakionMessage)
    (env : HandlerEnv) : e ≠ .handled state pb env := by
  rintro rfl
  exact hl pb env he.2

/-! ### A session

The key of the console is the generator of the curve.
-/

/-- The x coordinate of the generator of secp256k1. -/
def generatorX : Bytes :=
  [0x79, 0xbe, 0x66, 0x7e, 0xf9, 0xdc, 0xbb, 0xac, 0x55, 0xa0, 0x62, 0x95, 0xce, 0x87, 0x0b, 0x07,
   0x02, 0x9b, 0xfc, 0xdb, 0x2d, 0xce, 0x28, 0xd9, 0x59, 0xf2, 0x81, 0x5b, 0x16, 0xf8, 0x17, 0x98]

def generatorY : Bytes :=
  [0x48, 0x3a, 0xda, 0x77, 0x26, 0xa3, 0xc4, 0x65, 0x5d, 0xa4, 0xfb, 0xfc, 0x0e, 0x11, 0x08, 0xa8,
   0xfd, 0x17, 0xb4, 0x48, 0xa6, 0x85, 0x54, 0x19, 0x9c, 0x47, 0xd0, 0x8f, 0xfb, 0x10, 0xd4, 0xb8]

def generatorKey : Bytes := 0x04 :: generatorX ++ generatorY

/-- The curve, for the private key 1 and the generator, which is its public key. -/
def generatorGroup : EcGroup Unit Unit where
  oct2point := fun buf => if buf = generatorKey then some () else none
  point2oct := fun _ => generatorKey
  computeKey := fun _ _ => some generatorX

/-- A BANG message that is all right, with some signature. -/
def generatorBang (sig : Bytes) : Option TkprotoTakionMessage :=
  some ⟨.bang, some ⟨true, true, [generatorKey], [sig]⟩, [], none⟩

def fineEnv : HandlerEnv := ⟨true, true, true, true, true, true⟩

/-- A valid STREAMINFO message. -/
def zeroStreaminfo : Option TkprotoTakionMessage :=
  some ⟨.streaminfo, none, [], some [List.replicate audioHeaderSize 0]⟩

/-- Takion is connected, and the running thread has sent its first message and waits for BANG. -/
def runToBang : List StreamLabel :=
  [.begin .success, .check .success, .handshake true, .event, .wake false .success, .send .success,
    .check .success]

/-- From there to the heartbeat loop. -/
def runToHeartbeat : List StreamLabel :=
  runToBang ++ [.deliver (generatorBang [1]) fineEnv, .wake false .success, .check .success,
    .deliver zeroStreaminfo fineEnv, .wake false .success, .relock, .check .success]

def zeroSession : StreamConnection Unit Unit := streamConnectionInit ⟨(), ()⟩ (List.replicate 16 0)

theorem zeroSession_init : (streamLts generatorGroup).Reachable zeroSession := .init ⟨_, _, rfl⟩

end Chiaki
