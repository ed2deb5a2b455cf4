import Chiaki.Properties.StreamConnection.Step

/-!
# Failures and the waiting thread

`state_finished_cond_check` does not look at `state_failed`, which nobody reads, and the disconnect event
sets a flag only while the state is `STATE_TAKION_CONNECT`, and not one that the predicate looks at. So
a failure does not wake the running thread up unless the predicate holds for another reason
(`failureSeen_step_iff`). In the heartbeat loop, heartbeats are sent for ever on a closed socket
(`deadConnection_of_disconnect`, `deadConnection_forever`).
-/

namespace Chiaki

open Infra StreamConnection

variable {P S : Type} {ec : EcGroup P S} {s s' : StreamConnection P S} {l : StreamLabel}
variable {pb : Option TkprotoTakionMessage} {env : HandlerEnv} {log new : List StreamEvent}

/-! ## The property -/

/-- Since the last wait started, `state_failed` was set or the disconnect event was delivered. -/
def failedSinceWait : List StreamEvent → Bool
  | [] => false
  | .waitStart _ :: _ => false
  | .stateFailed :: _ => true
  | .takionDisconnect :: _ => true
  | _ :: older => failedSinceWait older

/-- The running thread waits. The heartbeats are sent between two waits of one loop. -/
def StreamRunPc.inWait : StreamRunPc → Bool
  | .enter _ => true
  | .waiting _ => true
  | .sendHeartbeat => true
  | _ => false

/-- A failure that the predicate does not see. -/
def FailureUnseen (s : StreamConnection P S) : Prop :=
  failedSinceWait s.log = true ∧ stateFinishedCondCheck s = false

/-- A failure during a wait makes its predicate true. -/
def FailureSeen (s : StreamConnection P S) : Prop :=
  s.run.inWait = true → failedSinceWait s.log = true → stateFinishedCondCheck s = true

instance (s : StreamConnection P S) : Decidable (FailureSeen s) :=
  inferInstanceAs (Decidable (_ → _ → _))

/-- The message sends its handler to the label `error`, and there is no success that comes before. -/
def messageFails (ec : EcGroup P S) (s : StreamConnection P S) (pb : Option TkprotoTakionMessage)
    (env : HandlerEnv) : Bool :=
  match s.state with
  | .expectBang =>
    match checkBang pb with
    | .refused => true
    | .accepted pubKey sig => s.ecdhSecret.isNone && !(env.malloc &&
        (ecdhDeriveSecret ec s.ecdh env.pointNew pubKey s.handshakeKey sig).isOk &&
        env.gkcryptLocal && env.gkcryptRemote)
    | _ => false
  | .expectStreaminfo =>
    match pb with
    | none => false
    | some msg =>
      match env.resolutions, pbDecodeBuf audioHeaderSize (msg.streamInfoPayload.getD []) with
      | true, some audioHeader => msg.type = .streaminfo && msg.streamInfoPayload.isSome &&
          audioHeader.length ≠ audioHeaderSize
      | _, _ => false
  | _ => false

/-- A failure comes when the predicate holds for another reason, and goes on to hold. -/
def wakesUp (ec : EcGroup P S) (s : StreamConnection P S) : StreamLabel → Bool
  | .event => !s.run.inWait || s.takion ≠ .disconnectEvent ||
      ((s.stateFinished && s.state ≠ .takionConnect) || s.shouldStop || s.remoteDisconnected)
  | .deliver pb env => !s.run.inWait || stateFinishedCondCheck s || !messageFails ec s pb env
  | _ => true

theorem failureSeen_iff : FailureSeen s ↔ (s.run.inWait = true → ¬ FailureUnseen s) := by
  simp [FailureSeen, FailureUnseen]

/-! ## Handlers -/

theorem failureUnseen_fail (hcond : stateFinishedCondCheck s = false) : FailureUnseen s.fail :=
  ⟨rfl, hcond⟩

theorem not_failureUnseen (hlog : failedSinceWait s.log = false) : ¬ FailureUnseen s := by
  rintro ⟨hfailed, -⟩
  cases hlog.symm.trans hfailed

theorem not_failureUnseen_finish : ¬ FailureUnseen { s with stateFinished := true } := by
  rintro ⟨-, hcond⟩
  cases hcond

theorem takionDataHandleDisconnect_unseen (hlog : failedSinceWait s.log = false)
    (msg : TkprotoTakionMessage) : ¬ FailureUnseen (takionDataHandleDisconnect s msg) := by
  unfold takionDataHandleDisconnect
  split
  · exact not_failureUnseen hlog
  · exact not_failureUnseen hlog

theorem takionDataIdle_unseen (hlog : failedSinceWait s.log = false)
    (pb : Option TkprotoTakionMessage) : ¬ FailureUnseen (takionDataIdle s pb) := by
  unfold takionDataIdle
  split
  · exact not_failureUnseen hlog
  · split
    · exact takionDataHandleDisconnect_unseen hlog _
    · exact not_failureUnseen hlog

theorem takionDataExpectStreaminfo_unseen (hcond : stateFinishedCondCheck s = false)
    (hlog : failedSinceWait s.log = false) (hstate : s.state = .expectStreaminfo) :
    FailureUnseen (takionDataExpectStreaminfo s pb env) ↔ messageFails ec s pb env = true := by
  unfold takionDataExpectStreaminfo messageFails
  rw [hstate]
  cases pb with
  | none => exact iff_of_false (not_failureUnseen hlog) (by simp)
  | some msg =>
    cases hres : env.resolutions with
    | false =>
      simp only
      exact iff_of_false (not_failureUnseen hlog) (by simp)
    | true =>
      cases hdecode : pbDecodeBuf audioHeaderSize (msg.streamInfoPayload.getD []) with
      | none =>
        simp only [hdecode]
        exact iff_of_false (not_failureUnseen hlog) (by simp)
      | some audioHeader =>
        simp only [hdecode]
        by_cases hother : msg.type ≠ .streaminfo ∨ msg.streamInfoPayload.isNone = true
        · rw [if_pos hother]
          refine iff_of_false ?_ ?_
          · split
            · exact takionDataHandleDisconnect_unseen hlog msg
            · exact not_failureUnseen hlog
          · rcases hother with htype | hnone
            · simp [htype]
            · simp [Option.isNone_iff_eq_none.mp hnone]
        · rw [if_neg hother]
          simp only [not_or, not_not, Bool.not_eq_true, Option.isNone_eq_false_iff] at hother
          by_cases hsize : audioHeader.length = audioHeaderSize
          · simp only [hsize, ne_eq, not_true_eq_false, if_false]
            exact iff_of_false not_failureUnseen_finish (by simp)
          · simp only [hsize, ne_eq, not_false_eq_true, if_true]
            exact iff_of_true (failureUnseen_fail hcond) (by simp [hother.1, hother.2])

theorem takionDataExpectBang_unseen (hcond : stateFinishedCondCheck s = false)
    (hlog : failedSinceWait s.log = false) (hstate : s.state = .expectBang) :
    FailureUnseen (takionDataExpectBang ec s pb env) ↔ messageFails ec s pb env = true := by
  unfold takionDataExpectBang messageFails
  rw [hstate]
  simp only
  cases hcheck : checkBang pb with
  | undecodable => exact iff_of_false (not_failureUnseen hlog) (by simp)
  | unexpected msg =>
    refine iff_of_false ?_ (by simp)
    simp only
    split
    · exact takionDataHandleDisconnect_unseen hlog msg
    · exact not_failureUnseen hlog
  | refused => exact iff_of_true (failureUnseen_fail hcond) rfl
  | accepted pubKey sig =>
    simp only [takionDataAcceptBang]
    cases hsecret : s.ecdhSecret with
    | some secret =>
      simp only [Option.isSome_some, if_true, Option.isNone_some, Bool.false_and]
      exact iff_of_false (not_failureUnseen hlog) (by simp)
    | none =>
      simp only [Option.isSome_none, Bool.false_eq_true, if_false, Option.isNone_none, Bool.true_and]
      cases hmalloc : env.malloc with
      | false => exact iff_of_true (failureUnseen_fail hcond) rfl
      | true =>
        cases hderive : ecdhDeriveSecret ec s.ecdh env.pointNew pubKey s.handshakeKey sig with
        | error err => exact iff_of_true (failureUnseen_fail hcond) rfl
        | ok secret =>
          unfold streamConnectionInitCrypt
          cases hlocal : env.gkcryptLocal with
          | false => exact iff_of_true (failureUnseen_fail hcond) rfl
          | true =>
            cases hremote : env.gkcryptRemote with
            | false => exact iff_of_true (failureUnseen_fail hcond) rfl
            | true =>
              -- the success comes first, so the predicate holds if the message cannot be sent
              refine iff_of_false ?_ (by simp [Except.isOk, Except.toBool])
              cases hsent : env.sent with
              | true =>
                rintro ⟨-, hseen⟩
                cases hseen
              | false =>
                rintro ⟨-, hseen⟩
                cases hseen

/-! ## Steps -/

/-- What a message leaves behind, if the predicate did not hold before. -/
theorem takionDataProtobuf_unseen (hcond : stateFinishedCondCheck s = false)
    (hlog : failedSinceWait s.log = false) :
    FailureUnseen (takionDataProtobuf ec s pb env) ↔ messageFails ec s pb env = true := by
  by_cases hbang : s.state = .expectBang
  · rw [takionDataProtobuf_expectBang pb env hbang]
    exact takionDataExpectBang_unseen (s := s.emit (.handled .expectBang pb env)) hcond hlog hbang
  · by_cases hstreaminfo : s.state = .expectStreaminfo
    · rw [takionDataProtobuf_expectStreaminfo pb env hstreaminfo]
      exact takionDataExpectStreaminfo_unseen (s := s.emit (.handled .expectStreaminfo pb env))
        hcond hlog hstreaminfo
    · have hidle : takionDataProtobuf ec s pb env = takionDataIdle (s.emit (.handled s.state pb env)) pb := by
        unfold takionDataProtobuf
        simp only
        split
        · next h => exact absurd h hbang
        · next h => exact absurd h hstreaminfo
        · rfl
      rw [hidle]
      refine iff_of_false (takionDataIdle_unseen (s := s.emit (.handled s.state pb env)) hlog pb) ?_
      unfold messageFails
      split
      · next h => exact absurd h hbang
      · next h => exact absurd h hstreaminfo
      · simp

/-- No message makes the predicate false. -/
theorem HandlerFrame.cond (h : HandlerFrame s s') (hcond : stateFinishedCondCheck s = true) :
    stateFinishedCondCheck s' = true := by
  unfold stateFinishedCondCheck at hcond ⊢
  simp only [Bool.or_eq_true] at hcond ⊢
  rcases hcond with (hfinished | hstop) | hremote
  · exact .inl (.inl (h.stateFinished hfinished))
  · exact .inl (.inr (h.shouldStop.trans hstop))
  · exact .inr (h.remoteDisconnected hremote)

theorem failureSeen_of_start (w : StreamWait) (hlog : s.log = .waitStart w :: log) : FailureSeen s := by
  intro _ hfailed
  rw [hlog] at hfailed
  cases hfailed

theorem failureSeen_of_not_inWait (hrun : s.run.inWait = false) : FailureSeen s := by
  intro hwait
  cases hrun.symm.trans hwait

/-- Where the wait ends, or goes on. -/
theorem FailureSeen.proceed (h : FailureSeen s) {w : StreamWait} {err : ErrorCode}
    (hp : StreamProceed s err w s') (hrun : s.run.inWait = true) : FailureSeen s' := by
  cases hp with
  | streaminfo => exact failureSeen_of_start .streaminfo rfl
  | heartbeat => exact fun _ => h hrun
  | _ => exact failureSeen_of_not_inWait rfl

theorem failedSinceWait_send (s : StreamConnection P S) (err : ErrorCode) :
    failedSinceWait (s.send err).log = failedSinceWait s.log := by
  rw [send_log]
  split <;> rfl

theorem stateFinishedCondCheck_send (s : StreamConnection P S) (err : ErrorCode) :
    stateFinishedCondCheck (s.send err) = stateFinishedCondCheck s := by
  unfold StreamConnection.send
  split <;> rfl

/-- The running thread does not miss a failure by itself. -/
theorem FailureSeen.runMove (h : FailureSeen s) (hs : StreamRunMove s l s') : FailureSeen s' := by
  cases hs with
  | @begin result =>
    cases result with
    | success => exact failureSeen_of_start .takion rfl
    | _ => exact failureSeen_of_not_inWait rfl
  | pass hrun => exact h.proceed (streamRunProceed_cases _ _ _ _) (by rw [hrun]; rfl)
  | timeout hrun => exact h.proceed (streamRunProceed_cases _ _ _ _) (by rw [hrun]; rfl)
  | wake hrun => exact h.proceed (streamRunProceed_cases _ _ _ _) (by rw [hrun]; rfl)
  | wait hrun => exact fun _ => h (by rw [hrun]; rfl)
  | spurious => exact h
  | big => exact failureSeen_of_start .bang rfl
  | relock => exact failureSeen_of_start .heartbeat rfl
  | @heartbeat err hrun =>
    intro _ hfailed
    have hseen := h (by rw [hrun]; rfl) ((failedSinceWait_send s err).symm.trans hfailed)
    exact (stateFinishedCondCheck_send s err).trans hseen
  | stop =>
    intro _ _
    simp [stateFinishedCondCheck]
  | _ => exact failureSeen_of_not_inWait rfl

/-- **A step of the Takion thread leaves a failure unseen exactly if nothing else wakes the thread up.** -/
theorem FailureSeen.takionMove_iff (h : FailureSeen s) (hs : StreamTakionMove ec s l s') :
    FailureSeen s' ↔ wakesUp ec s l = true := by
  cases hs with
  | handshake => exact iff_of_true h rfl
  | handshakeError => exact iff_of_true h rfl
  | connected _ htakion =>
    refine iff_of_true ?_ (by simp [wakesUp, htakion])
    rw [streamConnectionTakionCb_eq]
    intro hwait hfailed
    have hseen := h hwait hfailed
    unfold stateFinishedCondCheck at hseen ⊢
    simp only [Bool.or_eq_true] at hseen ⊢
    refine hseen.imp (fun hcond => hcond.imp (fun hfinished => ?_) id) id
    split
    · rfl
    · exact hfinished
  | disconnected _ htakion =>
    rw [streamConnectionTakionCb_eq]
    unfold FailureSeen wakesUp stateFinishedCondCheck
    cases s.run.inWait with
    | false => simp
    | true =>
      by_cases hstate : s.state = .takionConnect
      · simp [htakion, hstate, failedSinceWait]
      · simp [htakion, hstate, failedSinceWait]
  | @deliver pb env =>
    have hframe := @takionDataProtobuf_frame P S ec s pb env
    unfold wakesUp
    cases hwait : s.run.inWait with
    | false =>
      refine iff_of_true (failureSeen_of_not_inWait ?_) rfl
      rw [hframe.run]
      exact hwait
    | true =>
      cases hcond : stateFinishedCondCheck s with
      | true => exact iff_of_true (fun _ _ => hframe.cond hcond) rfl
      | false =>
        have hlog : failedSinceWait s.log = false := by
          by_contra hfailed
          cases hcond.symm.trans (h hwait (Bool.not_eq_false _ ▸ hfailed))
        have hwait' : (takionDataProtobuf ec s pb env).run.inWait = true := by
          rw [hframe.run]
          exact hwait
        rw [failureSeen_iff, takionDataProtobuf_unseen hcond hlog, hwait']
        simp
  | ack => exact iff_of_true h rfl
  | av => exact iff_of_true h rfl
  | corrupt => exact iff_of_true h rfl
  | recvError => exact iff_of_true h rfl

theorem failureSeen_step_iff (h : FailureSeen s) (hs : streamStep ec s l = some s') :
    FailureSeen s' ↔ wakesUp ec s l = true := by
  rcases (streamStep_cases hs).2 with hrun | htakion
  · refine iff_of_true (h.runMove hrun) ?_
    cases hrun <;> rfl
  · exact h.takionMove_iff htakion

/-- **To be woken up ends the wait exactly if the predicate holds.** Otherwise only time does. -/
theorem streamStep_wake_iff {w : StreamWait} {feedbackSender : ErrorCode} (hrun : s.run = .waiting w)
    (hs : streamStep ec s (.wake false feedbackSender) = some s') :
    s'.run = .waiting w ↔ stateFinishedCondCheck s = false := by
  have hproceed : ∀ {t}, StreamProceed s .success w t → t.run ≠ .waiting w := by
    intro t hp
    cases hp <;> rintro ⟨⟩
  have hstep : streamRunStep s (.wake false feedbackSender) = some (if stateFinishedCondCheck s then
      streamRunProceed s w .success feedbackSender else s) := by
    unfold streamRunStep
    simp only [hrun, Bool.false_eq_true, if_false]
    split <;> rfl
  unfold streamStep at hs
  split at hs
  · cases hs
  · rw [hstep] at hs
    cases hs
    cases stateFinishedCondCheck s with
    | true => simpa using hproceed (streamRunProceed_cases s w .success feedbackSender)
    | false => simpa using hrun

/-! ## Runs -/

/--
**Failures wake the waiting thread up** in any run in which each failure during a wait comes when the
predicate holds for another reason: the thread is to stop, the console has disconnected, or what it waits
for has come. A step leaves a failure unseen exactly if this is not so. A wait that is woken up ends
exactly if the predicate holds.
-/
theorem failureSeen_of_wakesUp (ec : EcGroup P S) :
    (∀ s l s', (streamLts ec).Reachable s → FailureSeen s → streamStep ec s l = some s' →
      (FailureSeen s' ↔ wakesUp ec s l = true)) ∧
    (∀ s, ((streamLts ec).restrict fun s l => wakesUp ec s l = true).Reachable s → FailureSeen s) ∧
    ∀ s w feedbackSender s', s.run = .waiting w →
      streamStep ec s (.wake false feedbackSender) = some s' →
      (s'.run = .waiting w ↔ stateFinishedCondCheck s = false) := by
  refine ⟨?_, ?_, ?_⟩
  · intro s l s' _ h hs
    exact failureSeen_step_iff h hs
  · intro s hr
    induction hr with
    | init hi =>
      obtain ⟨ecdh, handshakeKey, rfl⟩ := hi
      exact failureSeen_of_not_inWait rfl
    | step _ hs ih => exact (failureSeen_step_iff ih hs.2).mpr hs.1
  · intro s w feedbackSender s' hrun hs
    exact streamStep_wake_iff hrun hs

/-! ### A dead connection -/

/-- The socket is closed, and the predicate of the heartbeat loop does not hold. -/
structure DeadConnection (s : StreamConnection P S) : Prop where
  takion : s.takion = .closed
  cond : stateFinishedCondCheck s = false
  run : s.run = .enter .heartbeat ∨ s.run = .waiting .heartbeat ∨ s.run = .sendHeartbeat

/-- The disconnect event does not end the loop. -/
theorem deadConnection_of_disconnect (hshape : StreamShape s) (hrun : s.run = .waiting .heartbeat)
    (htakion : s.takion = .disconnectEvent) (hcond : stateFinishedCondCheck s = false)
    (hs : streamStep ec s .event = some s') : DeadConnection s' := by
  have hstate : s.state = .idle := hshape.state _ (by rw [hrun]; rfl)
  rcases (streamStep_cases hs).2 with hmove | hmove
  · cases hmove
  · cases hmove with
    | connected _ hother => cases htakion.symm.trans hother
    | disconnected =>
      rw [streamConnectionTakionCb_eq]
      refine ⟨rfl, ?_, .inr (.inl hrun)⟩
      unfold stateFinishedCondCheck at hcond ⊢
      simpa [hstate] using hcond

theorem DeadConnection.step (h : DeadConnection s) (hl : l ≠ .stop)
    (hs : streamStep ec s l = some s') : DeadConnection s' := by
  have hloop : ∀ {pc : StreamRunPc}, s.run = pc →
      pc = .enter .heartbeat ∨ pc = .waiting .heartbeat ∨ pc = .sendHeartbeat := by
    rintro pc rfl
    exact h.run
  rcases (streamStep_cases hs).2 with hrun | htakion
  · cases hrun with
    | pass _ hcheck => cases h.cond.symm.trans hcheck
    | wake _ hcheck => cases h.cond.symm.trans hcheck
    | stop => exact absurd rfl hl
    | spurious => exact h
    | wait hrun =>
      rcases hloop hrun with hw | hw | hw <;> cases hw
      exact ⟨h.takion, h.cond, .inr (.inl rfl)⟩
    | timeout hrun =>
      rcases hloop hrun with hw | hw | hw <;> cases hw
      -- one more heartbeat
      exact ⟨h.takion, h.cond, .inr (.inr rfl)⟩
    | @heartbeat err =>
      have hcond := (stateFinishedCondCheck_send s err).trans h.cond
      have htakion : (s.send err).takion = s.takion := by
        unfold StreamConnection.send
        split <;> rfl
      exact ⟨htakion.trans h.takion, hcond, .inl rfl⟩
    | begin hrun => rcases hloop hrun with hw | hw | hw <;> cases hw
    | big hrun => rcases hloop hrun with hw | hw | hw <;> cases hw
    | bigError hrun => rcases hloop hrun with hw | hw | hw <;> cases hw
    | disconnect hrun => rcases hloop hrun with hw | hw | hw <;> cases hw
    | relock hrun => rcases hloop hrun with hw | hw | hw <;> cases hw
    | join hrun => rcases hloop hrun with hw | hw | hw <;> cases hw
    | fini hrun => rcases hloop hrun with hw | hw | hw <;> cases hw
  · cases htakion with
    | handshake htakion => cases h.takion.symm.trans htakion
    | handshakeError htakion => cases h.takion.symm.trans htakion
    | connected _ htakion => cases h.takion.symm.trans htakion
    | disconnected _ htakion => cases h.takion.symm.trans htakion
    | deliver _ htakion => cases h.takion.symm.trans htakion
    | ack htakion => cases h.takion.symm.trans htakion
    | av htakion => cases h.takion.symm.trans htakion
    | corrupt htakion => cases h.takion.symm.trans htakion
    | recvError htakion => cases h.takion.symm.trans htakion

/-- **Nothing but a stop ends the heartbeat loop of a dead connection.** -/
theorem deadConnection_forever {ls : List StreamLabel} (h : DeadConnection s) (hstop : .stop ∉ ls)
    (hrun : Lts.runFun (streamStep ec) s ls = some s') : DeadConnection s' := by
  induction ls generalizing s with
  | nil =>
    cases hrun
    exact h
  | cons l ls ih =>
    obtain ⟨t, hst, hrest⟩ := Option.bind_eq_some_iff.mp hrun
    simp only [List.mem_cons, not_or] at hstop
    exact ih (h.step (Ne.symm hstop.1) hst) hstop.2 hrest

/-! ### A session that is stopped, and three that fail -/

def stoppedInTime : List StreamLabel := runToHeartbeat ++ [.stop, .recvError, .event]

theorem stoppedInTime_run :
    (Lts.runFun (Lts.guarded (streamStep generatorGroup) fun s l => wakesUp generatorGroup s l = true)
        zeroSession stoppedInTime).map (fun s => (s.run, failedSinceWait s.log))
      = some (.waiting .heartbeat, true) := by
  decide +kernel

theorem failureSeen_of_wakesUp_stopped : ∃ s : StreamConnection Unit Unit,
    s.run = .waiting .heartbeat ∧ failedSinceWait s.log = true ∧ FailureSeen s := by
  obtain ⟨s, hrun, hobs⟩ := Option.map_eq_some_iff.mp stoppedInTime_run
  simp only [Prod.mk.injEq] at hobs
  refine ⟨s, hobs.1, hobs.2, (failureSeen_of_wakesUp generatorGroup).2.1 s ?_⟩
  exact Lts.Reachable.runGuarded (.init ⟨_, _, rfl⟩) hrun

/-- A BANG message that refuses the version. -/
def refusedBang : Option TkprotoTakionMessage :=
  some ⟨.bang, some ⟨false, true, [generatorKey], [[1]]⟩, [], none⟩

/-- The socket fails in the heartbeat loop, the console refuses the client, or the handshake fails. -/
def failingRuns : List (List StreamLabel) :=
  [runToHeartbeat ++ [.recvError, .event], runToBang ++ [.deliver refusedBang fineEnv],
    [.begin .success, .check .success, .handshake false, .event]]

theorem failingRuns_run :
    (failingRuns.map fun ls => (Lts.runFun (streamStep generatorGroup) zeroSession ls).map
        fun s => (s.run, s.takion, stateFinishedCondCheck s, decide (FailureSeen s)))
      = [some (.waiting .heartbeat, .closed, false, false),
        some (.waiting .bang, .receive, false, false),
        some (.waiting .takion, .closed, false, false)] := by
  decide +kernel

/-- A run that ends in a wait with a failure unseen. -/
theorem exists_not_failureSeen {ls : List StreamLabel} {w : StreamWait} {pc : StreamTakionPc} {b : Bool}
    (hls : (Lts.runFun (streamStep generatorGroup) zeroSession ls).map
      (fun s => (s.run, s.takion, stateFinishedCondCheck s, decide (FailureSeen s)))
        = some (.waiting w, pc, b, false)) :
    ∃ s : StreamConnection Unit Unit, (streamLts generatorGroup).Reachable s ∧
      s.run = .waiting w ∧ ¬ FailureSeen s := by
  obtain ⟨s, hrun, hobs⟩ := Option.map_eq_some_iff.mp hls
  simp only [Prod.mk.injEq, decide_eq_false_iff_not] at hobs
  exact ⟨s, Lts.Reachable.runFun zeroSession_init hrun, hobs.1, hobs.2.2.2⟩

theorem not_failureSeen :
    (∃ s : StreamConnection Unit Unit, (streamLts generatorGroup).Reachable s ∧
      s.run = .waiting .heartbeat ∧ ¬ FailureSeen s) ∧
    (∃ s : StreamConnection Unit Unit, (streamLts generatorGroup).Reachable s ∧
      s.run = .waiting .bang ∧ ¬ FailureSeen s) ∧
    ∃ s : StreamConnection Unit Unit, (streamLts generatorGroup).Reachable s ∧
      s.run = .waiting .takion ∧ ¬ FailureSeen s := by
  have hruns := failingRuns_run
  simp only [failingRuns, List.map_cons, List.map_nil, List.cons.injEq, and_true] at hruns
  obtain ⟨hheartbeat, hbang, htakion⟩ := hruns
  exact ⟨exists_not_failureSeen hheartbeat, exists_not_failureSeen hbang, exists_not_failureSeen htakion⟩

end Chiaki
