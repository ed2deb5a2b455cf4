import Chiaki.Properties.StreamConnection.Step

/-!
# The life of the send buffer

The Takion thread initialises the send buffer behind the handshake, and finalises it after a receive
error, before it calls back and closes the socket. Nobody uses the buffer before it is initialised, and
the Takion thread does not use it afterwards. But the running thread does not learn of the receive error
in time: what it sends between the error and the closing of the socket is pushed onto the finalised
buffer, and only that (`sendBufferSafe_step_iff`, `sendBufferSafe_of_quiet`).
-/

namespace Chiaki

open Infra StreamConnection

variable {P S : Type} {ec : EcGroup P S} {s s' : StreamConnection P S} {l : StreamLabel}

/-- Every push and every acknowledgement found a send buffer that is alive. -/
def SendBufferSafe (s : StreamConnection P S) : Prop :=
  ∀ life, .push life ∈ s.log ∨ .ack life ∈ s.log → life = .live

/-- No message of the running thread gets through between a receive error and the closing of the
socket. -/
def sendsQuiet (s : StreamConnection P S) (l : StreamLabel) : Bool :=
  match l, s.takion with
  | .send .success, .disconnectEvent => false
  | _, _ => true

/-- The running thread has sent its last message. -/
def StreamRunPc.silent : StreamRunPc → Bool
  | .closing _ => true
  | .returned _ _ => true
  | .finished => true
  | _ => false

/-- There is no receive error before the running thread has sent its last message. -/
def recvErrorLate (s : StreamConnection P S) : StreamLabel → Bool
  | .recvError => s.run.silent
  | _ => true

/-! ## One step -/

/-- A message of the running thread that gets through. -/
theorem streamStep_send (hs : streamStep ec s (.send .success) = some s') :
    s.run.afterConnect = true ∧ s.takion ≠ .closed ∧ (∀ f, s.takion ≠ .fault f) ∧
      .push s.sendBuffer ∈ s'.log := by
  have hpush : .push s.sendBuffer ∈ (s.send .success).log := by
    rw [send_log, if_pos rfl]
    exact List.mem_cons_self
  obtain ⟨hfault, hrun | htakion⟩ := streamStep_cases hs
  · cases hrun with
    | big hrun hopen => exact ⟨by rw [hrun]; rfl, hopen, hfault, List.mem_cons_of_mem _ hpush⟩
    | bigError _ herr => exact absurd rfl herr
    | heartbeat hrun hopen => exact ⟨by rw [hrun]; rfl, hopen rfl, hfault, hpush⟩
    | disconnect hrun hopen => exact ⟨by rw [hrun]; rfl, hopen rfl, hfault, hpush⟩
  · cases htakion

/-- The running thread sends while the Takion thread is in its loop, or is about to leave it. -/
theorem StreamShape.send_buffer (h : StreamShape s) (hs : streamStep ec s (.send .success) = some s') :
    (s.sendBuffer = .live ∧ s.takion ≠ .disconnectEvent) ∨
      (s.sendBuffer = .finalised ∧ s.takion = .disconnectEvent) := by
  obtain ⟨hafter, hopen, hfault, -⟩ := streamStep_send hs
  have hinit := h.connected (.inr (.inr hafter))
  have hbuffer := h.buffer
  cases htakion : s.takion with
  | none =>
    rw [htakion] at hbuffer
    exact absurd hbuffer hinit
  | handshake =>
    rw [htakion] at hbuffer
    exact absurd hbuffer hinit
  | connectedEvent =>
    rw [htakion] at hbuffer
    exact .inl ⟨hbuffer, by decide⟩
  | receive =>
    rw [htakion] at hbuffer
    exact .inl ⟨hbuffer, by decide⟩
  | disconnectEvent =>
    rw [htakion] at hbuffer
    right
    refine ⟨?_, rfl⟩
    cases hlife : s.sendBuffer with
    | uninit => exact absurd hlife hinit
    | live => exact absurd hlife hbuffer
    | finalised => rfl
  | closed => exact absurd htakion hopen
  | fault f => exact absurd htakion (hfault f)

theorem StreamShape.live_of_receive (h : StreamShape s) (htakion : s.takion = .receive) :
    s.sendBuffer = .live := by
  have hbuffer := h.buffer
  rw [htakion] at hbuffer
  exact hbuffer

/-- **A step uses a dead buffer exactly if the running thread sends at the wrong moment.** -/
theorem sendBufferSafe_step_iff (h : StreamShape s) (hsafe : SendBufferSafe s)
    (hs : streamStep ec s l = some s') : SendBufferSafe s' ↔ sendsQuiet s l = true := by
  obtain ⟨new, hnew, hnotes⟩ := streamStep_notes hs
  constructor
  · intro hsafe'
    unfold sendsQuiet
    split
    · next htakion =>
      -- the push of this very message
      have hlive := hsafe' _ (.inl (streamStep_send hs).2.2.2)
      rcases h.send_buffer hs with ⟨-, hne⟩ | ⟨hdead, -⟩
      · exact absurd htakion hne
      · cases hlive.symm.trans hdead
    · rfl
  · intro hquiet life hmem
    rw [hnew] at hmem
    have hcases : ((.push life ∈ new ∨ .ack life ∈ new) ∨ (.push life ∈ s.log ∨ .ack life ∈ s.log)) := by
      simpa [List.mem_append, or_or_or_comm] using hmem
    rcases hcases with (hpush | hack) | hold
    · obtain ⟨rfl, rfl | htakion⟩ := hnotes _ hpush
      · rcases h.send_buffer hs with ⟨hlive, -⟩ | ⟨-, htakion⟩
        · exact hlive
        · simp [sendsQuiet, htakion] at hquiet
      · exact h.live_of_receive htakion
    · obtain ⟨rfl, htakion⟩ := hnotes _ hack
      exact h.live_of_receive htakion
    · exact hsafe life hold

/-! ## Runs -/

theorem sendBufferSafe_invariant (ec : EcGroup P S) :
    ((streamLts ec).restrict fun s l => sendsQuiet s l = true).Invariant
      fun s => StreamShape s ∧ SendBufferSafe s := by
  refine (streamShape_invariant ec).restrict.and_of ?_ ?_
  · rintro s ⟨ecdh, handshakeKey, rfl⟩ life (hmem | hmem) <;> cases hmem
  · intro s l s' hshape hsafe hs
    exact (sendBufferSafe_step_iff hshape hsafe hs.2).mpr hs.1

/-- In every run, the buffer has been initialised, and the acknowledgements find it alive. -/
structure SendBufferInitialised (s : StreamConnection P S) : Prop where
  push : ∀ life, .push life ∈ s.log → life ≠ .uninit
  ack : ∀ life, .ack life ∈ s.log → life = .live

theorem sendBufferInitialised_step (h : StreamShape s) (hinit : SendBufferInitialised s)
    (hs : streamStep ec s l = some s') : SendBufferInitialised s' := by
  obtain ⟨new, hnew, hnotes⟩ := streamStep_notes hs
  constructor
  · intro life hmem
    rw [hnew] at hmem
    rcases List.mem_append.mp hmem with hmem | hold
    · obtain ⟨rfl, rfl | htakion⟩ := hnotes _ hmem
      · rcases h.send_buffer hs with ⟨hlife, -⟩ | ⟨hlife, -⟩ <;> rw [hlife] <;> decide
      · rw [h.live_of_receive htakion]
        decide
    · exact hinit.push life hold
  · intro life hmem
    rw [hnew] at hmem
    rcases List.mem_append.mp hmem with hmem | hold
    · obtain ⟨rfl, htakion⟩ := hnotes _ hmem
      exact h.live_of_receive htakion
    · exact hinit.ack life hold

theorem sendBufferInitialised_invariant (ec : EcGroup P S) :
    (streamLts ec).Invariant fun s => StreamShape s ∧ SendBufferInitialised s := by
  refine (streamShape_invariant ec).and_of ?_ ?_
  · rintro s ⟨ecdh, handshakeKey, rfl⟩
    constructor <;> rintro life ⟨⟩
  · intro s l s' hshape hinit hs
    exact sendBufferInitialised_step hshape hinit hs

/-! ### Without an early receive error -/

theorem StreamRunPc.not_silent {pc : StreamRunPc} (h : pc.afterConnect = true) : pc.silent = false := by
  cases pc <;> first | rfl | cases h

theorem streamStep_silent (hs : streamStep ec s l = some s') (hsilent : s.run.silent = true) :
    s'.run.silent = true := by
  rcases (streamStep_cases hs).2 with hrun | htakion
  · cases hrun with
    | spurious => exact hsilent
    | stop => exact hsilent
    | join => rfl
    | fini => rfl
    | disconnect => rfl
    | begin hrun => rw [hrun] at hsilent; cases hsilent
    | pass hrun => rw [hrun] at hsilent; cases hsilent
    | wait hrun => rw [hrun] at hsilent; cases hsilent
    | timeout hrun => rw [hrun] at hsilent; cases hsilent
    | wake hrun => rw [hrun] at hsilent; cases hsilent
    | big hrun => rw [hrun] at hsilent; cases hsilent
    | bigError hrun => rw [hrun] at hsilent; cases hsilent
    | heartbeat hrun => rw [hrun] at hsilent; cases hsilent
    | relock hrun => rw [hrun] at hsilent; cases hsilent
  · rw [(streamTakionMove_frame htakion).run]
    exact hsilent

/-- As long as the running thread has something to send, there was no receive error. -/
def FinalisedLate (s : StreamConnection P S) : Prop :=
  s.sendBuffer = .finalised → s.run.silent = true

theorem finalisedLate_step (hlate : FinalisedLate s) (hG : recvErrorLate s l = true)
    (hs : streamStep ec s l = some s') : FinalisedLate s' := by
  intro hfinal
  by_cases hold : s.sendBuffer = .finalised
  · exact streamStep_silent hs (hlate hold)
  · rcases (streamStep_cases hs).2 with hrun | htakion
    · rw [(streamRunMove_frame hrun).sendBuffer] at hfinal
      exact absurd hfinal hold
    · cases htakion with
      | recvError => exact hG
      | handshake => cases hfinal
      | handshakeError => exact absurd hfinal hold
      | connected => rw [streamConnectionTakionCb_eq] at hfinal; exact absurd hfinal hold
      | disconnected => rw [streamConnectionTakionCb_eq] at hfinal; exact absurd hfinal hold
      | deliver =>
        rw [(takionDataProtobuf_frame s _ _).sendBuffer] at hfinal
        exact absurd hfinal hold
      | ack => exact absurd hfinal hold
      | av => exact absurd hfinal hold
      | corrupt => exact absurd hfinal hold

/-- A late receive error cannot come between a message and its push. -/
theorem FinalisedLate.quiet (hlate : FinalisedLate s) (h : StreamShape s)
    (hs : streamStep ec s l = some s') : sendsQuiet s l = true := by
  unfold sendsQuiet
  split
  · next htakion =>
    obtain ⟨hafter, -⟩ := streamStep_send hs
    rcases h.send_buffer hs with ⟨-, hne⟩ | ⟨hdead, -⟩
    · exact absurd htakion hne
    · cases (StreamRunPc.not_silent hafter).symm.trans (hlate hdead)
  · rfl

theorem sendBufferSafe_late_invariant (ec : EcGroup P S) :
    ((streamLts ec).restrict fun s l => recvErrorLate s l = true).Invariant
      fun s => StreamShape s ∧ (FinalisedLate s ∧ SendBufferSafe s) := by
  refine (streamShape_invariant ec).restrict.and_of ?_ ?_
  · rintro s ⟨ecdh, handshakeKey, rfl⟩
    refine ⟨by rintro ⟨⟩, ?_⟩
    rintro life (hmem | hmem) <;> cases hmem
  · rintro s l s' hshape ⟨hlate, hsafe⟩ ⟨hG, hs⟩
    exact ⟨finalisedLate_step hlate hG hs,
      (sendBufferSafe_step_iff hshape hsafe hs).mpr (hlate.quiet hshape hs)⟩

/-- What was pushed, newest first. -/
def pushes (s : StreamConnection P S) : List SendBufferLife :=
  s.log.filterMap fun
    | .push life => some life
    | _ => none

/-- A session with a heartbeat that is stopped. The receive error is the cancelled `select`. -/
def stoppedRun : List StreamLabel :=
  runToHeartbeat ++ [.wake true .success, .send .success, .check .success, .stop, .wake false .success,
    .send .success, .recvError, .event, .join, .fini]

theorem stoppedRun_run :
    (Lts.runFun (Lts.guarded (streamStep generatorGroup) fun s l => recvErrorLate s l = true)
        zeroSession stoppedRun).map (fun s => (s.run, pushes s))
      = some (.finished, [.live, .live, .live, .live, .live]) := by
  decide +kernel

/-- The socket fails while the running thread sends a heartbeat. -/
def brokenRun : List StreamLabel :=
  runToHeartbeat ++ [.wake true .success, .recvError, .send .success]

theorem brokenRun_run :
    (Lts.runFun (streamStep generatorGroup) zeroSession brokenRun).map
        (fun s => (s.takion, pushes s))
      = some (.disconnectEvent, [.finalised, .live, .live, .live]) := by
  decide +kernel

end Chiaki
