import Chiaki.Properties.StreamConnection.Step

/-!
# STREAMINFO and the state variable

A message goes to the handler of the state variable, and only the running thread moves that on from BANG
to STREAMINFO, when it has woken up. A STREAMINFO message that comes behind an accepted BANG is handled
as such exactly if the running thread has started to wait for it (`streaminfoKept_step_iff`); one that
comes earlier goes to the handler of BANG, which ignores it, and it has been acknowledged
(`not_streaminfoKept`).
-/

namespace Chiaki

open Infra StreamConnection

variable {P S : Type} {ec : EcGroup P S} {s s' : StreamConnection P S} {l : StreamLabel}
variable {pb : Option TkprotoTakionMessage} {env : HandlerEnv} {log new : List StreamEvent}

/-! ## The property -/

/-- The message is a STREAMINFO that the handler for it accepts. -/
def streaminfoValid (pb : Option TkprotoTakionMessage) (env : HandlerEnv) : Bool :=
  match pb with
  | none => false
  | some msg =>
    match env.resolutions, pbDecodeBuf audioHeaderSize (msg.streamInfoPayload.getD []) with
    | true, some audioHeader => msg.type = .streaminfo && msg.streamInfoPayload.isSome &&
        audioHeader.length = audioHeaderSize
    | _, _ => false

/-- A BANG was accepted: the second GKCrypt was installed. -/
def bangAccepted (log : List StreamEvent) : Bool :=
  log.any fun
    | .gkcryptNew index => index == 3
    | _ => false

/-- A valid STREAMINFO has met its handler. -/
def streaminfoHandled (log : List StreamEvent) : Bool :=
  log.any fun
    | .handled .expectStreaminfo pb env => streaminfoValid pb env
    | _ => false

/-- The running thread has started to wait for STREAMINFO. -/
def streaminfoAwaited (log : List StreamEvent) : Bool :=
  log.any fun
    | .waitStart .streaminfo => true
    | _ => false

/-- No STREAMINFO is lost: until one has met its handler, each valid one that comes after an accepted
BANG does. -/
def StreaminfoKept : List StreamEvent → Prop
  | [] => True
  | .handled state pb env :: older =>
    (bangAccepted older = true → streaminfoValid pb env = true → streaminfoHandled older = false →
      state = .expectStreaminfo) ∧ StreaminfoKept older
  | _ :: older => StreaminfoKept older

instance decidableStreaminfoKept : (log : List StreamEvent) → Decidable (StreaminfoKept log)
  | [] => .isTrue trivial
  | .handled _ _ _ :: older =>
    have := decidableStreaminfoKept older
    inferInstanceAs (Decidable ((_ → _ → _ → _) ∧ StreaminfoKept older))
  | .waitStart _ :: older => decidableStreaminfoKept older
  | .stateFailed :: older => decidableStreaminfoKept older
  | .takionDisconnect :: older => decidableStreaminfoKept older
  | .gkcryptNew _ :: older => decidableStreaminfoKept older
  | .gkcryptFree _ :: older => decidableStreaminfoKept older
  | .push _ :: older => decidableStreaminfoKept older
  | .ack _ :: older => decidableStreaminfoKept older

/-- The running thread waits for STREAMINFO when the message comes. -/
def streaminfoOnTime (s : StreamConnection P S) : StreamLabel → Bool
  | .deliver pb env => !bangAccepted s.log || !streaminfoValid pb env || streaminfoHandled s.log ||
      streaminfoAwaited s.log
  | _ => true

/-! ## The history -/

theorem streaminfoHandled_append : streaminfoHandled (new ++ log)
    = (streaminfoHandled new || streaminfoHandled log) := List.any_append

theorem streaminfoAwaited_append : streaminfoAwaited (new ++ log)
    = (streaminfoAwaited new || streaminfoAwaited log) := List.any_append

/-- What is no message makes no difference. -/
theorem streaminfoKept_append (hnew : ∀ e ∈ new, ∀ state pb env, e ≠ .handled state pb env) :
    StreaminfoKept (new ++ log) ↔ StreaminfoKept log := by
  induction new with
  | nil => rfl
  | cons e new ih =>
    have ih := ih fun e he => hnew e (List.mem_cons_of_mem _ he)
    cases e with
    | handled state pb env => exact absurd rfl (hnew _ List.mem_cons_self state pb env)
    | _ => exact ih

/-! ## The invariant -/

/-- The running thread has got as far as to wait for STREAMINFO. -/
def StreamRunPc.afterBang : StreamRunPc → Bool
  | .begin => false
  | .enter w => w = .streaminfo || w = .heartbeat
  | .waiting w => w = .streaminfo || w = .heartbeat
  | .sendBig => false
  | _ => true

structure StreaminfoInvariant (s : StreamConnection P S) : Prop where
  afterBang : streaminfoAwaited s.log = true → s.run.afterBang = true
  awaited : s.state = .expectStreaminfo → streaminfoAwaited s.log = true
  /-- The running thread moves on from there with a STREAMINFO only. -/
  state : streaminfoAwaited s.log = true → s.state = .expectStreaminfo ∨ streaminfoHandled s.log = true
  finished : s.state = .expectStreaminfo → s.stateFinished = true → streaminfoHandled s.log = true

/-- Until a STREAMINFO is handled, that the running thread waits for it can be told from the state
variable. -/
theorem StreaminfoInvariant.state_iff (h : StreaminfoInvariant s)
    (hhandled : streaminfoHandled s.log = false) :
    s.state = .expectStreaminfo ↔ streaminfoAwaited s.log = true := by
  constructor
  · exact h.awaited
  · intro hawaited
    rcases h.state hawaited with hstate | hold
    · exact hstate
    · cases hhandled.symm.trans hold

theorem streaminfoInvariant_init (ecdh : Ecdh P S) (handshakeKey : Bytes) :
    StreaminfoInvariant (streamConnectionInit ecdh handshakeKey) := by
  constructor <;> rintro ⟨⟩

/-- Neither the state variable changes nor does a wait start. -/
theorem StreaminfoInvariant.frame (h : StreaminfoInvariant s) (new : List StreamEvent)
    (hstate : s'.state = s.state)
    (hrun : s.run.afterBang = true → s'.run.afterBang = true) (hlog : s'.log = new ++ s.log)
    (hw : ∀ e ∈ new, e ≠ .waitStart .streaminfo)
    (hfinished : s.state = .expectStreaminfo → s'.stateFinished = true →
      s.stateFinished = true ∨ streaminfoHandled new = true) : StreaminfoInvariant s' := by
  have hawaited : streaminfoAwaited s'.log = streaminfoAwaited s.log := by
    rw [hlog, streaminfoAwaited_append]
    have hnone : streaminfoAwaited new = false := by
      refine List.any_eq_false.mpr fun e he => ?_
      cases e with
      | waitStart w =>
        cases w with
        | streaminfo => exact absurd rfl (hw _ he)
        | _ => simp
      | _ => simp
    rw [hnone, Bool.false_or]
  have hhandled : streaminfoHandled s.log = true → streaminfoHandled s'.log = true := by
    intro hold
    rw [hlog, streaminfoHandled_append, hold, Bool.or_true]
  refine ⟨?_, ?_, ?_, ?_⟩
  · rw [hawaited]
    exact hrun ∘ h.afterBang
  · rw [hawaited, hstate]
    exact h.awaited
  · rw [hawaited, hstate]
    exact fun ha => (h.state ha).imp id hhandled
  · rw [hstate]
    intro hst hfin
    rcases hfinished hst hfin with hfin | hnew
    · exact hhandled (h.finished hst hfin)
    · rw [hlog, streaminfoHandled_append, hnew, Bool.true_or]

/-- Nothing but the place of the running thread changes. -/
theorem StreaminfoInvariant.setRun (h : StreaminfoInvariant s) {pc : StreamRunPc}
    (hpc : s.run.afterBang = true → pc.afterBang = true) : StreaminfoInvariant (s.setRun pc) :=
  h.frame [] rfl hpc rfl (by simp) fun _ => .inl

/-- Before the wait for STREAMINFO, the state variable is something else. -/
theorem StreaminfoInvariant.setState (h : StreaminfoInvariant s) {state : StreamConnectionState}
    {pc : StreamRunPc} (hrun : s.run.afterBang = false) (hstate : state ≠ .expectStreaminfo) :
    StreaminfoInvariant ((s.setState state).setRun pc) := by
  have hnot : streaminfoAwaited s.log ≠ true := by
    intro hawaited
    cases hrun.symm.trans (h.afterBang hawaited)
  exact ⟨fun ha => absurd ha hnot, fun hs => absurd hs hstate, fun ha => absurd ha hnot,
    fun hs => absurd hs hstate⟩

theorem StreaminfoInvariant.emit (h : StreaminfoInvariant s) {e : StreamEvent}
    (hw : e ≠ .waitStart .streaminfo) : StreaminfoInvariant (s.emit e) :=
  h.frame [e] rfl id rfl (by simpa using hw) fun _ => .inl

theorem StreaminfoInvariant.send (h : StreaminfoInvariant s) (err : ErrorCode) :
    StreaminfoInvariant (s.send err) := by
  unfold StreamConnection.send
  split
  · exact h.emit (by rintro ⟨⟩)
  · exact h

theorem StreaminfoInvariant.proceed (h : StreaminfoInvariant s) (hshape : StreamShape s)
    {w : StreamWait} {err : ErrorCode} (hp : StreamProceed s err w s')
    (hrun : s.run = .enter w ∨ s.run = .waiting w) : StreaminfoInvariant s' := by
  have hstate : s.state = w.state := by
    rcases hrun with hrun | hrun <;> exact hshape.state _ (by rw [hrun]; rfl)
  have hafter : s.run.afterBang = (w = .streaminfo || w = .heartbeat) := by
    rcases hrun with hrun | hrun <;> rw [hrun] <;> rfl
  cases hp with
  | closing => exact h.setRun fun _ => rfl
  | big => exact h.setState hafter (by decide)
  | disconnect => exact h.setRun fun _ => rfl
  | streaminfo =>
    -- the wait for STREAMINFO starts
    refine ⟨fun _ => rfl, fun _ => rfl, fun _ => .inl rfl, ?_⟩
    rintro - ⟨⟩
  | connected hfinished =>
    -- a STREAMINFO has come
    have hhandled := h.finished hstate hfinished
    refine ⟨fun _ => rfl, ?_, fun _ => .inr hhandled, ?_⟩
    · rintro ⟨⟩
    · rintro ⟨⟩
  | heartbeat => exact h.setRun fun _ => rfl

theorem StreaminfoInvariant.runMove (h : StreaminfoInvariant s) (hshape : StreamShape s)
    (hs : StreamRunMove s l s') : StreaminfoInvariant s' := by
  cases hs with
  | @begin result hrun =>
    have hafter : s.run.afterBang = false := by rw [hrun]; rfl
    cases result with
    | receivers => exact h.setRun fun _ => rfl
    | connect => exact h.setState hafter (by decide)
    | congestionControl err =>
      have hclosing : StreaminfoInvariant ((s.setState .takionConnect).setRun (.closing err)) :=
        h.setState hafter (by decide)
      exact ⟨hclosing.afterBang, hclosing.awaited, hclosing.state, hclosing.finished⟩
    | success =>
      have hwait : StreaminfoInvariant (((s.setState .takionConnect).setRun (.enter .takion)).emit
          (.waitStart .takion)) :=
        StreaminfoInvariant.emit (h.setState hafter (by decide)) (by rintro ⟨⟩)
      exact ⟨hwait.afterBang, hwait.awaited, hwait.state, hwait.finished⟩
  | pass hrun => exact h.proceed hshape (streamRunProceed_cases _ _ _ _) (.inl hrun)
  | wait hrun => exact h.setRun (by rw [hrun]; exact id)
  | timeout hrun => exact h.proceed hshape (streamRunProceed_cases _ _ _ _) (.inr hrun)
  | wake hrun => exact h.proceed hshape (streamRunProceed_cases _ _ _ _) (.inr hrun)
  | spurious => exact h
  | big hrun =>
    refine StreaminfoInvariant.setRun ((h.send _).emit (by rintro ⟨⟩)) ?_
    show s.run.afterBang = true → _
    rw [hrun]
    rintro ⟨⟩
  | bigError => exact (h.send _).setRun fun _ => rfl
  | heartbeat => exact (h.send _).setRun fun _ => rfl
  | disconnect => exact (h.send _).setRun fun _ => rfl
  | relock => exact StreaminfoInvariant.setRun (h.emit (by rintro ⟨⟩)) fun _ => rfl
  | join => exact h.setRun fun _ => rfl
  | fini =>
    rw [streamConnectionFini_eq, streamConnectionFini_log, ← List.append_assoc]
    refine h.frame _ rfl (fun _ => rfl) rfl ?_ fun _ => .inl
    intro e he
    rcases List.mem_append.mp he with he | he <;>
      · obtain ⟨k, -, rfl⟩ := List.mem_map.mp he
        rintro ⟨⟩
  | stop => exact ⟨h.afterBang, h.awaited, h.state, h.finished⟩

/-- The handler of STREAMINFO finishes the wait for a valid message only. -/
theorem takionDataExpectStreaminfo_finished (hunfinished : s.stateFinished = false)
    (hfinished : (takionDataExpectStreaminfo s pb env).stateFinished = true) :
    streaminfoValid pb env = true := by
  unfold takionDataExpectStreaminfo at hfinished
  split at hfinished
  · cases hunfinished.symm.trans hfinished
  · next msg =>
    split at hfinished
    · next audioHeader hres hdecode =>
      unfold streaminfoValid
      simp only [hres, hdecode]
      split at hfinished
      · split at hfinished
        · unfold takionDataHandleDisconnect at hfinished
          split at hfinished <;> cases hunfinished.symm.trans hfinished
        · cases hunfinished.symm.trans hfinished
      · next htype =>
        split at hfinished
        · cases hunfinished.symm.trans hfinished
        · next hsize =>
          simp only [not_or, not_not, Bool.not_eq_true, Option.isNone_eq_false_iff] at htype hsize
          simp [htype.1, htype.2, hsize]
    · cases hunfinished.symm.trans hfinished

theorem StreaminfoInvariant.takionMove (h : StreaminfoInvariant s) (hs : StreamTakionMove ec s l s') :
    StreaminfoInvariant s' := by
  cases hs with
  | connected =>
    rw [streamConnectionTakionCb_eq]
    refine h.frame [] rfl id rfl (by simp) fun hstate hfinished => .inl ?_
    simpa [hstate] using hfinished
  | disconnected =>
    rw [streamConnectionTakionCb_eq]
    refine h.frame [.takionDisconnect] rfl id rfl (by simp) fun hstate hfinished => .inl ?_
    simpa [hstate] using hfinished
  | @deliver pb env =>
    have hframe := @takionDataProtobuf_frame P S ec s pb env
    obtain ⟨new, hlog, hof⟩ := takionDataProtobuf_log ec s pb env
    have hlog : (takionDataProtobuf ec s pb env).log = (new ++ [.handled s.state pb env]) ++ s.log := by
      rw [hlog, List.append_assoc]
      rfl
    refine h.frame _ hframe.state (by rw [hframe.run]; exact id) hlog ?_ ?_
    · intro e he
      rcases List.mem_append.mp he with he | he
      · rintro rfl
        cases hof _ he
      · rw [List.mem_singleton.mp he]
        rintro ⟨⟩
    · intro hstate hfinished
      by_cases hold : s.stateFinished = true
      · exact .inl hold
      · -- it is this message that finishes the wait
        right
        have hvalid : streaminfoValid pb env = true := by
          rw [takionDataProtobuf_expectStreaminfo pb env hstate] at hfinished
          exact takionDataExpectStreaminfo_finished (Bool.not_eq_true _ ▸ hold) hfinished
        rw [streaminfoHandled_append, hstate]
        simp [streaminfoHandled, hvalid]
  | ack => exact h.emit (by rintro ⟨⟩)
  | corrupt => exact h.emit (by rintro ⟨⟩)
  | _ => exact ⟨h.afterBang, h.awaited, h.state, h.finished⟩

theorem streaminfoInvariant_invariant (ec : EcGroup P S) :
    (streamLts ec).Invariant fun s => StreamShape s ∧ StreaminfoInvariant s := by
  refine (streamShape_invariant ec).and_of ?_ ?_
  · rintro s ⟨ecdh, handshakeKey, rfl⟩
    exact streaminfoInvariant_init ecdh handshakeKey
  · intro s l s' hshape h hs
    rcases (streamStep_cases hs).2 with hrun | htakion
    · exact h.runMove hshape hrun
    · exact h.takionMove htakion

/-! ## Messages -/

/-- **A step loses a STREAMINFO exactly if the running thread does not wait for it yet.** -/
theorem streaminfoKept_step_iff (h : StreaminfoInvariant s) (hkept : StreaminfoKept s.log)
    (hs : streamStep ec s l = some s') : StreaminfoKept s'.log ↔ streaminfoOnTime s l = true := by
  by_cases hl : ∃ pb env, l = .deliver pb env
  · obtain ⟨pb, env, rfl⟩ := hl
    rcases (streamStep_cases hs).2 with hrun | htakion
    · cases hrun
    · cases htakion with
      | deliver =>
        obtain ⟨new, hlog, hof⟩ := takionDataProtobuf_log ec s pb env
        rw [hlog, streaminfoKept_append fun e he => (hof e he).not_handled]
        show (_ → _ → _ → _) ∧ StreaminfoKept s.log ↔ _
        rw [and_iff_left hkept]
        simp only [streaminfoOnTime, Bool.or_eq_true, Bool.not_eq_true']
        constructor
        · intro hmsg
          by_cases hold : streaminfoHandled s.log = false
          · by_cases hnew : bangAccepted s.log = true ∧ streaminfoValid pb env = true
            · exact .inr (h.awaited (hmsg hnew.1 hnew.2 hold))
            · simp only [not_and_or, Bool.not_eq_true] at hnew
              exact .inl (.inl hnew)
          · exact .inl (.inr (Bool.not_eq_false _ ▸ hold))
        · rintro htime hbang hvalid hold
          rcases htime with ((hno | hno) | hno) | hawaited
          · cases hbang.symm.trans hno
          · cases hvalid.symm.trans hno
          · cases hold.symm.trans hno
          · exact (h.state_iff hold).mpr hawaited
  · have hl : ∀ pb env, l ≠ .deliver pb env := fun pb env he => hl ⟨pb, env, he⟩
    obtain ⟨new, hlog, hnotes⟩ := streamStep_notes hs
    rw [hlog, streaminfoKept_append fun e he => (hnotes e he).not_handled hl]
    have htime : streaminfoOnTime s l = true := by
      unfold streaminfoOnTime
      split
      · exact absurd rfl (hl _ _)
      · rfl
    exact iff_of_true hkept htime

/--
**STREAMINFO is not lost** in any run in which the running thread has started to wait for it when the
first valid one comes behind an accepted BANG. A step loses one exactly if this is not so.
-/
theorem streaminfoKept_of_onTime (ec : EcGroup P S) :
    (∀ s l s', (streamLts ec).Reachable s → StreaminfoKept s.log → streamStep ec s l = some s' →
      (StreaminfoKept s'.log ↔ streaminfoOnTime s l = true)) ∧
    ∀ s, ((streamLts ec).restrict fun s l => streaminfoOnTime s l = true).Reachable s →
      StreaminfoKept s.log := by
  have hinv := streaminfoInvariant_invariant ec
  constructor
  · intro s l s' hr hkept hs
    exact streaminfoKept_step_iff (hinv.reachable hr).2 hkept hs
  · intro s hr
    refine ((hinv.restrict.and_of (I := fun s => StreaminfoKept s.log) ?_ ?_).reachable hr).2
    · rintro s ⟨ecdh, handshakeKey, rfl⟩
      trivial
    · rintro s l s' ⟨-, h⟩ hkept ⟨htime, hs⟩
      exact (streaminfoKept_step_iff h hkept hs).mpr htime

/-! ### A session, and one whose STREAMINFO comes too soon -/

/-- Which messages met which handler, newest first: whether they are a STREAMINFO. -/
def handledMessages (s : StreamConnection P S) : List (StreamConnectionState × Bool) :=
  s.log.filterMap fun
    | .handled state pb env => some (state, streaminfoValid pb env)
    | _ => none

theorem runToHeartbeat_onTime :
    (Lts.runFun (Lts.guarded (streamStep generatorGroup) fun s l => streaminfoOnTime s l = true)
        zeroSession runToHeartbeat).map (fun s => (s.run, handledMessages s))
      = some (.waiting .heartbeat, [(.expectStreaminfo, true), (.expectBang, false)]) := by
  decide +kernel

theorem streaminfoKept_of_onTime_heartbeat : ∃ s : StreamConnection Unit Unit,
    s.run = .waiting .heartbeat ∧ (handledMessages s).length = 2 ∧ StreaminfoKept s.log := by
  obtain ⟨s, hrun, hobs⟩ := Option.map_eq_some_iff.mp runToHeartbeat_onTime
  simp only [Prod.mk.injEq] at hobs
  refine ⟨s, hobs.1, by rw [hobs.2]; rfl, (streaminfoKept_of_onTime generatorGroup).2 s ?_⟩
  exact Lts.Reachable.runGuarded (.init ⟨_, _, rfl⟩) hrun

/-- BANG and STREAMINFO come together. The running thread starts to wait behind them, in vain. -/
def togetherRun : List StreamLabel :=
  runToBang ++ [.deliver (generatorBang [1]) fineEnv, .deliver zeroStreaminfo fineEnv,
    .wake false .success, .check .success, .wake true .success]

theorem togetherRun_run :
    (Lts.runFun (streamStep generatorGroup) zeroSession togetherRun).map
        (fun s => (s.run, handledMessages s, decide (StreaminfoKept s.log)))
      = some (.sendDisconnect .unknown, [(.expectBang, true), (.expectBang, false)], false) := by
  decide +kernel

theorem not_streaminfoKept : ∃ s : StreamConnection Unit Unit,
    (streamLts generatorGroup).Reachable s ∧ s.run = .sendDisconnect .unknown ∧
      handledMessages s = [(.expectBang, true), (.expectBang, false)] ∧ ¬ StreaminfoKept s.log := by
  obtain ⟨s, hrun, hobs⟩ := Option.map_eq_some_iff.mp togetherRun_run
  simp only [Prod.mk.injEq, decide_eq_false_iff_not] at hobs
  exact ⟨s, Lts.Reachable.runFun zeroSession_init hrun, hobs⟩

end Chiaki
