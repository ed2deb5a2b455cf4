import Chiaki.Properties.Session.Request
import Chiaki.Properties.Session.Release
import Chiaki.Session.Quit

/-!
# The quit event

The quit event is the last one, ctrl and ecdh are ended if they were started, and the reason says why, as long
as the session does not give up where nothing has written a reason (`sessionQuit_right`).

There are such places: behind `chiaki_ctrl_start`, behind Senkusha and the key generation, and where ctrl says
nothing in time while the reason is that of an address tried before (`not_sessionQuit_right`).
-/

namespace Chiaki

open Infra

variable {n : Nat} {rpcrypt : RPCrypt} {info : SessionConnectInfo}

/-! ## The parts of `session_thread_func` -/

inductive SessionPhase
  | start
  | request
  | delay
  | ctrl
  | stream
  | quitCtrl
  | join
  | quit
  | fault
  deriving DecidableEq

def SessionPc.phase : SessionPc → SessionPhase
  | .init => .start
  | .request | .requestUnlocked => .request
  | .wait .delay | .asleep .delay | .woken .delay _ | .ctrlStart => .delay
  | .wait _ | .asleep _ | .woken _ _ | .setLoginPin | .lockNotif | .senkusha => .ctrl
  | .streaming => .stream
  | .quitCtrl => .quitCtrl
  | .join => .join
  | .quit => .quit
  | .fault _ => .fault

section Base

variable {s s' : Session n} {l : SessionLabel n}

/-- No session id and no PIN request, but also no failure, when the time is over. -/
def Session.ctrlLate (s : Session n) : Bool :=
  decide (s.thread = .woken .ctrlStart true ∨ s.thread = .woken .sessionId true) && !s.shouldStop
    && !s.ctrl.session.ctrlFailed && !s.ctrl.session.ctrlLoginPinRequested && !s.ctrl.session.ctrlSessionIdReceived

/-- The steps in which the session thread goes to another part by itself. -/
def SessionLabel.leaves : SessionLabel n → Bool
  | .lock | .stopCtrl | .join => true
  | _ => false

/-- The session thread looks at what it has waited for. -/
def SessionLabel.looks : SessionLabel n → Bool
  | .check | .relock => true
  | _ => false

/-- A step stays in its part. -/
structure SessionStays (s : Session n) (l : SessionLabel n) (s' : Session n) : Prop where
  label : l.leaves = false
  looks : l.looks = true → s'.thread ≠ .quitCtrl
  phase : s'.thread.phase = s.thread.phase
  started : s'.ctrlStarted = s.ctrlStarted
  exited : s.ctrl.thread = .exited → s'.ctrl.thread = .exited
  asks : sessionAsksForPin s s' l = true → s.thread.phase = .ctrl

/-- The parts, in a step whose outcome is not given. -/
inductive SessionPhaseMove (s : Session n) : SessionLabel n → Session n → Prop
  | locks (hpc : s.thread = .init) :
    SessionPhaseMove s .lock { s with thread := if s.shouldStop then .quit else .request }
  | stops (hpc : s.thread = .quitCtrl) :
    SessionPhaseMove s .stopCtrl { s with ctrl := ctrlStop s.ctrl, thread := .join }
  | joins (hpc : s.thread = .join) (hctrl : s.ctrl.thread = .exited) :
    SessionPhaseMove s .join { s with thread := .quit }
  | givesUp {l : SessionLabel n} (hlooks : l.looks = true) (hphase : s.thread.phase = .ctrl)
      (hcause : s.shouldStop = true ∨ s.ctrl.session.ctrlFailed = true ∨ l = .relock ∧ s.ctrlLate = true) :
    SessionPhaseMove s l { s with thread := .quitCtrl }
  | asserts {l : SessionLabel n} (hlooks : l.looks = true) (hphase : s.thread.phase = .ctrl) :
    SessionPhaseMove s l { s with thread := .fault .assertion }
  | stays {l : SessionLabel n} {s' : Session n} (h : SessionStays s l s') : SessionPhaseMove s l s'

theorem Session.condSignal_phase (s : Session n) : s.condSignal.thread.phase = s.thread.phase := by
  obtain ⟨pc, hs', rfl | ⟨w, hpc, rfl⟩⟩ := s.condSignal_eq
  · rw [hs']
  · rw [hs', hpc]
    cases w <;> rfl

theorem Session.condSignal_ctrlStarted (s : Session n) : s.condSignal.ctrlStarted = s.ctrlStarted := by
  unfold condSignal
  split <;> rfl

theorem SessionPc.phase_of_waitsFor {pc : SessionPc} {w : SessionWait} (h : pc.waitsFor = some w) :
    pc.phase = if w = .delay then .delay else .ctrl := by
  cases pc <;> cases h <;> cases w <;> rfl

/-- Only `thread` changes, and the part does not. -/
theorem SessionStays.of_thread {pc : SessionPc} (hl : l.leaves = false) (hlooks : l.looks = true → pc ≠ .quitCtrl)
    (hphase : pc.phase = s.thread.phase) : SessionStays s l { s with thread := pc } where
  label := hl
  looks := hlooks
  phase := hphase
  started := rfl
  exited := fun h => h
  asks := fun h => by cases l <;> simp [sessionAsksForPin] at h

/-- A step of another thread, or one in which nothing is looked at. -/
theorem SessionStays.of_blind (hl : l.leaves = false) (hlooks : l.looks = false)
    (hphase : s'.thread.phase = s.thread.phase) (hstarted : s'.ctrlStarted = s.ctrlStarted)
    (hexited : s.ctrl.thread = .exited → s'.ctrl.thread = .exited) : SessionStays s l s' where
  label := hl
  looks := fun h => absurd (hlooks.symm.trans h) Bool.false_ne_true
  phase := hphase
  started := hstarted
  exited := hexited
  asks := fun h => by
    cases l with
    | check | relock => cases hlooks
    | _ => cases h

/-- The wait is over. With a time limit the predicate may be false. -/
theorem sessionProceed_phaseMove {w : SessionWait} (hpc : s.thread.waitsFor = some w) (hl : l.looks = true)
    (hcause : sessionCheckStatePred s w = true ∨ l = .relock ∧ s.thread = .woken w true) :
    SessionPhaseMove s l (sessionProceed s w) := by
  have hleaves : l.leaves = false := by
    cases l with
    | check | relock => rfl
    | _ => cases hl
  have hphase := SessionPc.phase_of_waitsFor hpc
  have hstays : ∀ pc, pc ≠ .quitCtrl → pc.phase = s.thread.phase → SessionPhaseMove s l { s with thread := pc } :=
    fun pc hne h => .stays (.of_thread hleaves (fun _ => hne) h)
  have hloop : w = .ctrlStart ∨ w = .sessionId → s.shouldStop = false → SessionPhaseMove s l (sessionPinLoop s) := by
    intro hw hstop
    have hphase' : s.thread.phase = .ctrl := by
      rw [hphase]
      rcases hw with rfl | rfl <;> rfl
    unfold sessionPinLoop
    split
    · exact .stays ⟨hleaves, fun _ => SessionPc.noConfusion, hphase'.symm, rfl, fun h => h, fun _ => hphase'⟩
    · next hpin =>
      split
      · exact hstays .senkusha SessionPc.noConfusion hphase'.symm
      · next hid =>
        refine .givesUp hl hphase' (Or.inr ?_)
        by_cases hfailed : s.ctrl.session.ctrlFailed = true
        · exact Or.inl hfailed
        · rcases hcause with hpred | ⟨rfl, hwoken⟩
          · rcases hw with rfl | rfl <;> simp [sessionCheckStatePred, hstop, hfailed, hpin, hid] at hpred
          · refine Or.inr ⟨rfl, ?_⟩
            rcases hw with rfl | rfl <;> simp [Session.ctrlLate, hwoken, hstop, hfailed, hpin, hid]
  unfold sessionProceed
  cases w with
  | delay => exact hstays .ctrlStart SessionPc.noConfusion hphase.symm
  | ctrlStart =>
    simp only
    split
    · next h => exact .givesUp hl hphase (or_assoc.mp (Or.inl (Bool.or_eq_true _ _ ▸ h)))
    · next h =>
      rw [Bool.or_eq_true, not_or, Bool.not_eq_true] at h
      exact hloop (Or.inl rfl) h.1
  | pin =>
    simp only
    split
    · next h => exact .givesUp hl hphase (or_assoc.mp (Or.inl (Bool.or_eq_true _ _ ▸ h)))
    · split
      · exact hstays .setLoginPin SessionPc.noConfusion hphase.symm
      · exact .asserts hl hphase
  | sessionId =>
    simp only
    split
    · next h => exact .givesUp hl hphase (Or.inl h)
    · next h => exact hloop (Or.inr rfl) (Bool.not_eq_true _ ▸ h)

theorem sessionThreadStep_phaseMove (hl : l.hasOutcome = false) (hs : sessionThreadStep s l = some s') :
    SessionPhaseMove s l s' := by
  have hstays : ∀ {l : SessionLabel n} {pc pc' : SessionPc}, s.thread = pc → l.leaves = false → l.looks = false →
      pc'.phase = pc.phase → SessionPhaseMove s l { s with thread := pc' } := fun hpc hleaves hlooks hphase =>
    .stays (.of_blind hleaves hlooks (hphase.trans (by rw [hpc])) rfl fun h => h)
  have hforwarded : ∀ {l : SessionLabel n} {pc : SessionPc} {ctrl : Ctrl n}, s.thread = pc → l.leaves = false →
      l.looks = false → pc.phase = .ctrl → ctrl.thread = s.ctrl.thread →
      SessionPhaseMove s l (sessionForwarded s ctrl) := fun hpc hleaves hlooks hphase hctrl =>
    .stays (.of_blind hleaves hlooks ((by rw [hpc]; exact hphase.symm)) rfl fun h => hctrl.trans h)
  cases l with
  | lock =>
    simp only [sessionThreadStep] at hs
    split at hs
    · next hpc =>
      cases hs
      exact .locks hpc
    · cases hs
  | requestUnlock | requestLock | wake =>
    simp only [sessionThreadStep] at hs
    split at hs
    · next hpc =>
      cases hs
      refine hstays hpc rfl rfl ?_
      first | rfl | (next w => cases w <;> rfl)
    · cases hs
  | check =>
    simp only [sessionThreadStep] at hs
    split at hs
    · next w hpc =>
      have hfrom : s.thread.waitsFor = some w := by rw [hpc]; rfl
      cases hs
      split
      · next hpred => exact sessionProceed_phaseMove hfrom rfl (Or.inl hpred)
      · refine .stays (.of_thread rfl (fun _ => SessionPc.noConfusion) ?_)
        rw [SessionPc.phase_of_waitsFor hfrom, SessionPc.phase_of_waitsFor (w := w) rfl]
    · cases hs
  | timeout =>
    simp only [sessionThreadStep] at hs
    split at hs
    · cases hs
    · next w _ hpc =>
      cases hs
      refine hstays hpc rfl rfl ?_
      rw [SessionPc.phase_of_waitsFor (w := w) rfl, SessionPc.phase_of_waitsFor (w := w) rfl]
    · cases hs
  | relock =>
    simp only [sessionThreadStep] at hs
    split at hs
    · next w timedOut hpc =>
      have hfrom : s.thread.waitsFor = some w := by rw [hpc]; rfl
      cases hs
      split
      · next htime =>
        rw [htime] at hpc
        exact sessionProceed_phaseMove hfrom rfl (Or.inr ⟨rfl, hpc⟩)
      · refine .stays (.of_thread rfl (fun _ => SessionPc.noConfusion) ?_)
        rw [SessionPc.phase_of_waitsFor hfrom, SessionPc.phase_of_waitsFor (w := w) rfl]
    · cases hs
  | copyPin mem =>
    simp only [sessionThreadStep] at hs
    split at hs
    · next hpc =>
      cases hs
      cases mem with
      | true => exact hstays hpc rfl rfl rfl
      | false => exact hforwarded hpc rfl rfl rfl rfl
    · cases hs
  | forward =>
    simp only [sessionThreadStep] at hs
    split at hs
    · next hpc =>
      split at hs
      · cases hs
        exact hforwarded hpc rfl rfl rfl rfl
      · cases hs
    · cases hs
  | stopCtrl =>
    simp only [sessionThreadStep] at hs
    split at hs
    · next hpc =>
      split at hs
      · cases hs
        exact .stops hpc
      · cases hs
    · cases hs
  | join =>
    simp only [sessionThreadStep] at hs
    split at hs
    · next hpc hctrl =>
      split at hs
      · cases hs
        exact .joins hpc hctrl
      · cases hs
    · cases hs
  | requested | startCtrl | senkusha | streamed => cases hl
  | ctrl | ctrlLockState | ctrlUseState | ctrlSignal | stop | setLoginPin | signal => cases hs

theorem sessionCtrlStep_phaseMove (hs : sessionCtrlStep rpcrypt s l = some s') : SessionPhaseMove s l s' := by
  have hctrl : ∀ {cl : CtrlLabel n} {c : Ctrl n}, ctrlStep rpcrypt s.ctrl cl = some c →
      s.ctrl.thread = .exited → c.thread = .exited := fun hstep hexited =>
    (ctrlStep_idle hstep (Or.inr hexited)).1.trans hexited
  unfold sessionCtrlStep at hs
  split at hs
  · split at hs
    · obtain ⟨c, hstep, rfl⟩ := Option.map_eq_some_iff.mp hs
      exact .stays (.of_blind rfl rfl rfl rfl (hctrl hstep))
    · cases hs
  · split at hs
    · cases hs
      exact .stays (.of_blind rfl rfl rfl rfl fun h => h)
    · cases hs
  · split at hs
    · split at hs
      · cases hs
      · obtain ⟨c, hstep, rfl⟩ := Option.map_eq_some_iff.mp hs
        exact .stays (.of_blind rfl rfl rfl rfl (hctrl hstep))
    · cases hs
  · split at hs
    · cases hs
      exact .stays (.of_blind rfl rfl s.condSignal_phase s.condSignal_ctrlStarted fun h => by
        rw [← h, s.condSignal_ctrl])
    · cases hs
  · cases hs

theorem sessionUserStep_phaseMove (hs : sessionUserStep s l = some s') : SessionPhaseMove s l s' := by
  have hsignal : s.ctrl.thread = .exited → s.condSignal.ctrl.thread = .exited := fun h => by
    rw [← h, s.condSignal_ctrl]
  unfold sessionUserStep at hs
  split at hs
  · split at hs
    · cases hs
    · cases hs
      exact .stays (.of_blind rfl rfl s.condSignal_phase s.condSignal_ctrlStarted hsignal)
  · split at hs
    · cases hs
    · cases hs
      exact .stays (.of_blind rfl rfl rfl rfl fun h => h)
  · split at hs
    · cases hs
    · cases hs
      exact .stays (.of_blind rfl rfl s.condSignal_phase s.condSignal_ctrlStarted hsignal)
  · cases hs

/-- **Where the session thread goes** in a step whose outcome is not given. -/
theorem sessionStep_phaseMove (hl : l.hasOutcome = false) (hs : sessionStep rpcrypt s l = some s') :
    SessionPhaseMove s l s' := by
  unfold sessionStep at hs
  cases l with
  | ctrl | ctrlLockState | ctrlUseState | ctrlSignal => exact sessionCtrlStep_phaseMove hs
  | stop | setLoginPin | signal => exact sessionUserStep_phaseMove hs
  | _ => exact sessionThreadStep_phaseMove hl hs

/-! ## The quit reason -/

/-- It says why the session has ended, apart from the session request. -/
def QuitReason.settled (reason : QuitReason) : Bool := decide (reason ≠ .none) && !reason.isSessionRequest

theorem ctrlStep_failed_of_untaken {c c' : Ctrl n} {cl : CtrlLabel n} (hs : ctrlStep rpcrypt c cl = some c')
    (htakes : ctrlTakesState rpcrypt c cl = false) : c'.session.ctrlFailed = c.session.ctrlFailed := by
  cases ctrlStep_exit hs with
  | failed _ _ h => rw [htakes] at h; cases h
  | silent h | stopped h | goesOn h => exact h

/-- `ctrl_failed` writes a reason. -/
theorem ctrlStep_failed_reason {c c' : Ctrl n} {cl : CtrlLabel n} (hs : ctrlStep rpcrypt c cl = some c')
    (huses : cl.usesState = true) :
    c'.session.ctrlFailed = c.session.ctrlFailed ∨
      ∃ reason, ctrlLabelQuitReason cl = some reason ∧ reason.settled = true := by
  cases cl with
  | connectFailed | overflow => exact Or.inr ⟨_, rfl, rfl⟩
  | recv r =>
    cases r with
    | error => exact Or.inr ⟨_, rfl, rfl⟩
    | data | closed => cases huses
  | round =>
    cases ctrlStep_move hs with
    | round => exact Or.inl (ctrlRound_session rpcrypt c).ctrlFailed
  | _ => cases huses

theorem sessionStep_ctrlFailed (hshape : SessionShape s) (hs : sessionStep rpcrypt s l = some s') :
    s'.ctrl.session.ctrlFailed = s.ctrl.session.ctrlFailed ∨
      s.ctrlFree = false ∧ ∀ reason, (sessionStepQuitReason s s' l reason).settled = true := by
  cases sessionStep_move hs with
  | goto | park | startCtrl | copyPin | dropPin | forward | stopCtrl | ctrlLockState | setLoginPin => exact Or.inl rfl
  | proceed => exact Or.inl (sessionProceed_ctrlEnd s _).ctrlFailed
  | ctrl _ htakes hstep => exact Or.inl (ctrlStep_failed_of_untaken hstep htakes)
  | @ctrlUseState cl _ hwaits _ hstep =>
    rcases ctrlStep_failed_reason hstep (hshape.waits cl hwaits) with hsame | ⟨reason, hreason, hsettled⟩
    · exact Or.inl hsame
    · refine Or.inr ⟨by rw [Session.ctrlFree, hwaits], fun old => ?_⟩
      simp only [sessionStepQuitReason, hwaits, hreason, Option.getD_some]
      exact hsettled
  | ctrlSignal | stop | signal => exact Or.inl (congrArg (·.session.ctrlFailed) s.condSignal_ctrl)

/-- A step that stays writes nothing but what ctrl has to say. -/
theorem SessionStays.quitReason (h : SessionStays s l s') (reason : QuitReason) :
    sessionStepQuitReason s s' l reason = reason ∨ (sessionStepQuitReason s s' l reason).settled = true := by
  have hlooks : ∀ t : QuitReason, l.looks = true → (if s'.thread = .quitCtrl then t else reason) = reason :=
    fun t hl => if_neg (h.looks hl)
  cases l with
  | lock => cases h.label
  | check | relock => exact Or.inl (hlooks _ rfl)
  | ctrlUseState =>
    simp only [sessionStepQuitReason]
    split
    · next cl _ =>
      unfold ctrlLabelQuitReason
      split
      · exact Or.inr rfl
      · exact Or.inr rfl
      · exact Or.inr rfl
      · exact Or.inl rfl
    · exact Or.inl rfl
  | _ => exact Or.inl rfl

end Base

/-! ## What the session thread has done -/

/-- From `chiaki_ctrl_start` to `chiaki_ctrl_join`. -/
def SessionPhase.ctrlRuns : SessionPhase → Bool
  | .ctrl | .stream | .quitCtrl | .join => true
  | _ => false

def SessionPhase.ctrlStopped (started : Bool) : SessionPhase → Bool
  | .join | .quit => started
  | _ => false

def SessionPhase.ctrlJoined (started : Bool) : SessionPhase → Bool
  | .quit => started
  | _ => false

def SessionPhase.ecdhLive : SessionPhase → Bool
  | .stream => true
  | _ => false

def SessionAction.isQuit : SessionAction → Bool
  | .event (.quit _) _ => true
  | _ => false

/-- What the log says before the quit event. -/
structure SessionLogged (ctrlStarted : Bool) (phase : SessionPhase) (log : List SessionAction) : Prop where
  noQuit : ∀ a ∈ log, a.isQuit = false
  started : log.count .ctrlStarted = ctrlStarted.toNat
  stopped : log.count .ctrlStopped = (phase.ctrlStopped ctrlStarted).toNat
  joined : log.count .ctrlJoined = (phase.ctrlJoined ctrlStarted).toNat
  ecdh : log.count .ecdhInit = log.count .ecdhFini + phase.ecdhLive.toNat

theorem SessionLogged.snoc {started started' : Bool} {phase phase' : SessionPhase} {log : List SessionAction}
    {a : SessionAction} (h : SessionLogged started phase log) (hquit : a.isQuit = false)
    (hstarted : started.toNat + [a].count .ctrlStarted = started'.toNat)
    (hstopped : (phase.ctrlStopped started).toNat + [a].count .ctrlStopped = (phase'.ctrlStopped started').toNat)
    (hjoined : (phase.ctrlJoined started).toNat + [a].count .ctrlJoined = (phase'.ctrlJoined started').toNat)
    (hecdh : phase.ecdhLive.toNat + [a].count .ecdhInit = [a].count .ecdhFini + phase'.ecdhLive.toNat) :
    SessionLogged started' phase' (log ++ [a]) where
  noQuit := List.forall_mem_append.mpr ⟨h.noQuit, List.forall_mem_singleton.mpr hquit⟩
  started := by rw [List.count_append, h.started, hstarted]
  stopped := by rw [List.count_append, h.stopped, hstopped]
  joined := by rw [List.count_append, h.joined, hjoined]
  ecdh := by
    rw [List.count_append, List.count_append, h.ecdh]
    omega

/-- Nothing is logged on the way to another part. -/
theorem SessionLogged.moves {started : Bool} {phase phase' : SessionPhase} {log : List SessionAction}
    (h : SessionLogged started phase log) (hstopped : phase'.ctrlStopped started = phase.ctrlStopped started)
    (hjoined : phase'.ctrlJoined started = phase.ctrlJoined started) (hecdh : phase'.ecdhLive = phase.ecdhLive) :
    SessionLogged started phase' log where
  noQuit := h.noQuit
  started := h.started
  stopped := by rw [h.stopped, hstopped]
  joined := by rw [h.joined, hjoined]
  ecdh := by rw [h.ecdh, hecdh]

/-- What the quit event says, and what has happened before it. -/
structure SessionQuits (requestFailed : Bool) (log : List SessionAction) (reason : QuitReason) : Prop where
  noQuit : ∀ a ∈ log, a.isQuit = false
  stopped : log.count .ctrlStopped = log.count .ctrlStarted
  joined : log.count .ctrlJoined = log.count .ctrlStarted
  ecdh : log.count .ecdhFini = log.count .ecdhInit
  notNone : reason ≠ .none
  sessionRequest : reason.isSessionRequest = true → requestFailed = true

/-- The thread has sent exactly one quit event when it has returned, as the last one and without the mutex. -/
def SessionQuitRight (s : SessionQuit n) : Prop :=
  if s.returned then
    ∃ log reason, s.log = log ++ [.event (.quit reason) false] ∧ SessionQuits s.requestFailed log reason
  else ∀ a ∈ s.log, a.isQuit = false

/-! ## The invariant -/

/-- When ctrl runs, and when it has failed. -/
structure SessionCtrlRuns (s : Session n) : Prop where
  shape : SessionShape s
  started : s.thread.phase.ctrlRuns = true → s.ctrlStarted = true
  exited : s.thread.phase = .quit → s.ctrlStarted = true → s.ctrl.thread = .exited
  notFailed : s.ctrlStarted = false → s.ctrl.session.ctrlFailed = false

/-- What the reason is at the end, and when ctrl has failed. -/
structure SessionReasoned (s : Session n) (reason : QuitReason) (requestFailed : Bool) : Prop where
  failed : s.ctrl.session.ctrlFailed = true → reason.settled = true
  ended : s.thread.phase = .quitCtrl ∨ s.thread.phase = .join → reason.settled = true
  quit : s.thread.phase = .quit → reason.settled = true ∨ requestFailed = true ∧ reason ≠ .none

structure SessionQuitInvariant (s : SessionQuit n) : Prop where
  runs : SessionCtrlRuns s.session
  reasoned : SessionReasoned s.session s.quitReason s.requestFailed
  logged : s.returned = false → SessionLogged s.session.ctrlStarted s.session.thread.phase s.log
  returned : s.returned = true → s.session.thread.phase = .quit ∧
    ∃ log reason, s.log = log ++ [.event (.quit reason) false] ∧ SessionQuits s.requestFailed log reason

theorem SessionReasoned.of_settled {s : Session n} {reason : QuitReason} {requestFailed : Bool}
    (h : reason.settled = true) : SessionReasoned s reason requestFailed :=
  ⟨fun _ => h, fun _ => h, fun _ => Or.inl h⟩

/-- The part and `ctrl_failed` are what it depends on. -/
theorem SessionReasoned.congr {s s' : Session n} {reason : QuitReason} {requestFailed : Bool}
    (h : SessionReasoned s reason requestFailed) (hphase : s'.thread.phase = s.thread.phase)
    (hfailed : s'.ctrl.session.ctrlFailed = s.ctrl.session.ctrlFailed) :
    SessionReasoned s' reason requestFailed where
  failed := fun hf => h.failed (hfailed ▸ hf)
  ended := fun he => h.ended (hphase ▸ he)
  quit := fun hq => h.quit (hphase ▸ hq)

/-- Ctrl has not been started before its part of the thread. -/
theorem SessionCtrlRuns.early {s : Session n} (h : SessionCtrlRuns s) (he : s.thread.early = true) :
    s.ctrlStarted = false ∧ s.ctrl.session.ctrlFailed = false :=
  ⟨h.shape.early he, h.notFailed (h.shape.early he)⟩

theorem SessionCtrlRuns.of_notStarted {s : Session n} (hshape : SessionShape s) (hstarted : s.ctrlStarted = false)
    (hfailed : s.ctrl.session.ctrlFailed = false) (hphase : s.thread.phase.ctrlRuns = false) : SessionCtrlRuns s where
  shape := hshape
  started := fun h => absurd (hphase.symm.trans h) Bool.false_ne_true
  exited := fun _ h => absurd (hstarted.symm.trans h) Bool.false_ne_true
  notFailed := fun _ => hfailed

theorem SessionCtrlRuns.of_started {s : Session n} (hshape : SessionShape s) (hstarted : s.ctrlStarted = true)
    (hexited : s.thread.phase = .quit → s.ctrl.thread = .exited) : SessionCtrlRuns s where
  shape := hshape
  started := fun _ => hstarted
  exited := fun h _ => hexited h
  notFailed := fun h => absurd (hstarted.symm.trans h) Bool.noConfusion

theorem sessionQuitInvariant_init {session : Session n} {hostname : CString} (h : SessionInitial session) :
    SessionQuitInvariant (sessionQuitInit info session hostname) := by
  have hshape := sessionShape_init h
  obtain ⟨_, _, _, _, rfl⟩ := h
  exact ⟨.of_notStarted hshape rfl rfl rfl, ⟨nofun, nofun, nofun⟩, fun _ => ⟨nofun, rfl, rfl, rfl, rfl⟩, nofun⟩

/-! ### Steps whose outcome is not given -/

section Other

variable {s s' : Session n} {l : SessionLabel n} {reason : QuitReason} {requestFailed : Bool}

theorem SessionCtrlRuns.other (h : SessionCtrlRuns s) (hl : l.hasOutcome = false)
    (hs : sessionStep rpcrypt s l = some s') : SessionCtrlRuns s' := by
  have hshape := sessionShape_step h.shape hs
  have hfailed := sessionStep_ctrlFailed h.shape hs
  cases sessionStep_phaseMove hl hs with
  | locks hpc =>
    obtain ⟨hstarted, hnot⟩ := h.early (by rw [hpc]; rfl)
    refine .of_notStarted hshape hstarted hnot ?_
    split <;> rfl
  | stops hpc => exact .of_started hshape (h.started (by rw [hpc]; rfl)) nofun
  | joins hpc hctrl => exact .of_started hshape (h.started (by rw [hpc]; rfl)) fun _ => hctrl
  | givesUp _ hphase | asserts _ hphase => exact .of_started hshape (h.started (by rw [hphase]; rfl)) nofun
  | stays hstays =>
    refine ⟨hshape, fun hr => ?_, fun hq hstarted => ?_, fun hnot => ?_⟩
    · rw [hstays.started]
      exact h.started (hstays.phase ▸ hr)
    · exact hstays.exited (h.exited (hstays.phase ▸ hq) (hstays.started ▸ hstarted))
    · rw [hstays.started] at hnot
      rcases hfailed with hsame | ⟨hfree, -⟩
      · rw [hsame]
        exact h.notFailed hnot
      · rw [(h.shape.notStarted hnot).2] at hfree
        cases hfree

/-- The session does not run out of time with the reason of a session request. -/
theorem SessionReasoned.other (hruns : SessionCtrlRuns s) (h : SessionReasoned s reason requestFailed)
    (hl : l.hasOutcome = false) (hs : sessionStep rpcrypt s l = some s')
    (hlate : l = .relock → s.ctrlLate = true → reason.isSessionRequest = false) :
    SessionReasoned s' (sessionStepQuitReason s s' l reason) requestFailed := by
  have hfailed := sessionStep_ctrlFailed hruns.shape hs
  cases sessionStep_phaseMove hl hs with
  | locks hpc =>
    cases hstop : s.shouldStop with
    | true => exact .of_settled rfl
    | false => exact ⟨fun hf => h.failed hf, nofun, nofun⟩
  | stops hpc => exact ⟨h.failed, fun _ => h.ended (Or.inl (by rw [hpc]; rfl)), nofun⟩
  | joins hpc => exact .of_settled (h.ended (Or.inr (by rw [hpc]; rfl)))
  | givesUp hlooks _ hcause =>
    have hreason : (if s.shouldStop then QuitReason.stopped else if reason = .none then .ctrlUnknown else reason).settled
        = true := by
      split
      · rfl
      · next hstop =>
        split
        · rfl
        · next hnone =>
          rcases hcause with hcause | hcause | ⟨hrelock, hcause⟩
          · exact absurd hcause hstop
          · exact h.failed hcause
          · simp [QuitReason.settled, hnone, hlate hrelock hcause]
    refine .of_settled ?_
    cases l with
    | check | relock => exact hreason
    | _ => cases hlooks
  | asserts hlooks =>
    refine ⟨fun hf => ?_, nofun, nofun⟩
    cases l with
    | check | relock => exact h.failed hf
    | _ => cases hlooks
  | stays hstays =>
    rcases hstays.quitReason reason with hsame | hsettled
    · rcases hfailed with hfailed | ⟨-, hsettled⟩
      · rw [hsame]
        exact h.congr hstays.phase hfailed
      · exact .of_settled (hsettled reason)
    · exact .of_settled hsettled

/-- Without `chiaki_ctrl_stop` and `chiaki_ctrl_join` only PIN requests are sent. -/
theorem sessionStepActions_pins {pinIncorrect : Bool} (hl : l.leaves = false) :
    sessionStepActions s s' pinIncorrect l =
      if sessionAsksForPin s s' l then [.event (.loginPinRequest pinIncorrect) true] else [] := by
  cases l with
  | lock | stopCtrl | join => cases hl
  | _ => rfl

theorem SessionLogged.pins {started : Bool} {phase phase' : SessionPhase} {log : List SessionAction}
    {pinIncorrect : Bool} (h : SessionLogged started phase log) (hl : l.leaves = false)
    (hstopped : phase'.ctrlStopped started = phase.ctrlStopped started)
    (hjoined : phase'.ctrlJoined started = phase.ctrlJoined started) (hecdh : phase'.ecdhLive = phase.ecdhLive) :
    SessionLogged started phase' (log ++ sessionStepActions s s' pinIncorrect l) := by
  rw [sessionStepActions_pins hl]
  have hmoved := h.moves hstopped hjoined hecdh
  split
  · exact hmoved.snoc rfl rfl rfl rfl (Nat.add_comm _ _)
  · rw [List.append_nil]
    exact hmoved

theorem SessionLogged.other {log : List SessionAction} {pinIncorrect : Bool} (hruns : SessionCtrlRuns s)
    (h : SessionLogged s.ctrlStarted s.thread.phase log) (hl : l.hasOutcome = false)
    (hs : sessionStep rpcrypt s l = some s') :
    SessionLogged s'.ctrlStarted s'.thread.phase (log ++ sessionStepActions s s' pinIncorrect l) := by
  have hleaves : l.looks = true → l.leaves = false := fun hlooks => by
    cases l with
    | check | relock => rfl
    | _ => cases hlooks
  cases sessionStep_phaseMove hl hs with
  | locks hpc =>
    rw [hpc, (hruns.early (by rw [hpc]; rfl)).1] at h
    rw [(hruns.early (by rw [hpc]; rfl)).1]
    refine (List.append_nil log).symm ▸ ?_
    split <;> exact h.moves rfl rfl rfl
  | stops hpc =>
    rw [hpc, hruns.started (by rw [hpc]; rfl)] at h
    rw [hruns.started (by rw [hpc]; rfl)]
    exact h.snoc rfl rfl rfl rfl rfl
  | joins hpc =>
    rw [hpc, hruns.started (by rw [hpc]; rfl)] at h
    rw [hruns.started (by rw [hpc]; rfl)]
    exact h.snoc rfl rfl rfl rfl rfl
  | givesUp hlooks hphase | asserts hlooks hphase =>
    rw [hphase] at h
    exact h.pins (hleaves hlooks) rfl rfl rfl
  | stays hstays =>
    rw [hstays.started, hstays.phase]
    exact h.pins hstays.label rfl rfl rfl

/-- Nothing is sent or ended any more. -/
theorem sessionStepActions_quit {pinIncorrect : Bool} (hphase : s.thread.phase = .quit) (hl : l.hasOutcome = false)
    (hs : sessionStep rpcrypt s l = some s') :
    s'.thread.phase = .quit ∧ sessionStepActions s s' pinIncorrect l = [] := by
  cases sessionStep_phaseMove hl hs with
  | locks hpc | stops hpc | joins hpc =>
    rw [hpc] at hphase
    cases hphase
  | givesUp _ hctrl | asserts _ hctrl =>
    rw [hctrl] at hphase
    cases hphase
  | stays hstays =>
    refine ⟨hstays.phase.trans hphase, ?_⟩
    rw [sessionStepActions_pins hstays.label, if_neg fun hasks => ?_]
    have hctrl := hstays.asks hasks
    rw [hphase] at hctrl
    cases hctrl

end Other

/-! ### The steps -/

variable {s t : SessionQuit n}

theorem SessionQuitInvariant.other {l : SessionLabel n} (h : SessionQuitInvariant s)
    (hs : sessionQuitOther rpcrypt s l = some t)
    (hlate : l = .relock → s.session.ctrlLate = true → s.quitReason.isSessionRequest = false) :
    SessionQuitInvariant t := by
  unfold sessionQuitOther at hs
  split at hs
  · cases hs
  · next hl =>
    rw [Bool.or_eq_true, not_or, Bool.not_eq_true] at hl
    obtain ⟨session, hstep, rfl⟩ := Option.map_eq_some_iff.mp hs
    refine ⟨h.runs.other hl.1 hstep, h.reasoned.other h.runs hl.1 hstep hlate,
      fun hr => (h.logged hr).other h.runs hl.1 hstep, fun hr => ?_⟩
    obtain ⟨hphase, log, reason, hlog, hquits⟩ := h.returned hr
    obtain ⟨hphase', hactions⟩ := sessionStepActions_quit hphase hl.1 hstep
    refine ⟨hphase', log, reason, ?_, hquits⟩
    exact (congrArg (s.log ++ ·) hactions).trans ((List.append_nil s.log).trans hlog)

theorem SessionQuitInvariant.not_returned (h : SessionQuitInvariant s) (hphase : s.session.thread.phase ≠ .quit) :
    s.returned = false :=
  Bool.not_eq_true _ ▸ fun hr => hphase (h.returned hr).1

theorem SessionQuitInvariant.running {pc : SessionPc} {started : Bool} (h : SessionQuitInvariant s)
    (hpc : s.session.thread = pc) (hstarted : s.session.ctrlStarted = started) (hphase : pc.phase ≠ .quit) :
    s.returned = false ∧ SessionLogged started pc.phase s.log := by
  subst hpc hstarted
  exact ⟨h.not_returned hphase, h.logged (h.not_returned hphase)⟩

/-- A step in which the thread does not return. -/
theorem SessionQuitInvariant.of_running (hruns : SessionCtrlRuns t.session)
    (hreasoned : SessionReasoned t.session t.quitReason t.requestFailed) (hr : t.returned = false)
    (hlogged : SessionLogged t.session.ctrlStarted t.session.thread.phase t.log) : SessionQuitInvariant t :=
  ⟨hruns, hreasoned, fun _ => hlogged, fun h => absurd (hr.symm.trans h) Bool.false_ne_true⟩

/-- Before ctrl is started the thread goes to another place. -/
theorem SessionCtrlRuns.moves {s : Session n} (h : SessionCtrlRuns s) (hearly : s.thread.early = true) {pc : SessionPc}
    (hruns : pc.phase.ctrlRuns = false) : SessionCtrlRuns { s with thread := pc } := by
  obtain ⟨hstarted, hfailed⟩ := h.early hearly
  refine .of_notStarted ⟨fun _ => hstarted, h.shape.notStarted, fun hstop => ?_, h.shape.waits⟩ hstarted hfailed hruns
  rcases h.shape.shouldStop hstop with hpc | hpc <;> rw [hpc] at hearly <;> cases hearly

theorem SessionQuitInvariant.requested {result : SessionRequestResult} {targetOut : Option Target}
    (h : SessionQuitInvariant s) (hpc : s.session.thread = .request) (hends : SessionRequestEnds targetOut result)
    (hout : s.requests < 2 ↔ targetOut.isSome = true) (hs : sessionRequested rpcrypt s result = some t) :
    SessionQuitInvariant t := by
  have hearly : s.session.thread.early = true := by rw [hpc]; rfl
  obtain ⟨hstarted, hfailed⟩ := h.runs.early hearly
  obtain ⟨hr, hlogged⟩ := h.running hpc hstarted SessionPhase.noConfusion
  obtain ⟨request, target, err⟩ := result
  unfold sessionRequested at hs
  simp only at hs
  split at hs
  · cases hs
    refine .of_running h.runs ⟨fun hf => ?_, fun he => ?_, fun hq => ?_⟩ hr ?_
    · exact absurd (hfailed.symm.trans hf) Bool.false_ne_true
    · rw [hpc] at he
      rcases he with he | he <;> cases he
    · rw [hpc] at hq
      cases hq
    · rw [hpc, hstarted]
      exact hlogged
  · next hagain =>
    obtain ⟨session, hstep, rfl⟩ := Option.map_eq_some_iff.mp hs
    simp only [sessionStep, sessionThreadStep, hpc, Option.some.injEq] at hstep
    subst hstep
    refine .of_running (h.runs.moves hearly ?_) ⟨fun hf => ?_, fun he => ?_, fun hq => ?_⟩ hr ?_
    · split <;> rfl
    · exact absurd (hfailed.symm.trans hf) Bool.false_ne_true
    · simp only at he
      split at he <;> rcases he with he | he <;> cases he
    · -- the thread ends here, so the request has failed for good
      cases hends with
      | success => cases hq
      | failed _ _ _ hreason =>
        refine Or.inr ⟨?_, hreason⟩
        by_cases herr : err = .success
        · rw [herr] at hq
          cases hq
        · exact decide_eq_true herr
      | again _ target hsome hknown => exact absurd ⟨hout.mpr hsome, rfl, hknown⟩ hagain
    · simp only [hstarted]
      split <;> exact hlogged.moves rfl rfl rfl

theorem SessionQuitInvariant.request {env : SessionRequestEnv} (h : SessionQuitInvariant s)
    (hs : sessionQuitRequest rpcrypt info s env = some t) : SessionQuitInvariant t := by
  unfold sessionQuitRequest at hs
  split at hs
  · next hpc =>
    have hearly : s.session.thread.early = true := by rw [hpc]; rfl
    split at hs
    · cases hs
      obtain ⟨hr, hlogged⟩ := h.running hpc (h.runs.early hearly).1 SessionPhase.noConfusion
      refine .of_running (h.runs.moves hearly rfl) ⟨h.reasoned.failed, nofun, nofun⟩ hr ?_
      simp only [(h.runs.early hearly).1]
      exact hlogged.moves rfl rfl rfl
    · cases hs
    · next result hresult =>
      refine h.requested hpc (sessionThreadRequestSession_ends hresult) ?_ hs
      split <;> simp [*]
  · cases hs

theorem SessionQuitInvariant.startCtrl (h : SessionQuitInvariant s)
    (hs : sessionQuitStartCtrl rpcrypt s .success = some t) : SessionQuitInvariant t := by
  obtain ⟨session, hstep, rfl⟩ := Option.map_eq_some_iff.mp hs
  have hshape := sessionShape_step h.runs.shape hstep
  simp only [sessionStep, sessionThreadStep] at hstep
  split at hstep
  · next hpc =>
    obtain ⟨hr, hlogged⟩ := h.running hpc (h.runs.early (by rw [hpc]; rfl)).1 SessionPhase.noConfusion
    cases hstep
    exact .of_running (.of_started hshape rfl nofun) ⟨h.reasoned.failed, nofun, nofun⟩ hr
      (hlogged.snoc rfl rfl rfl rfl rfl)
  · cases hstep

theorem SessionQuitInvariant.senkusha {init run random ecdh : ErrorCode} (h : SessionQuitInvariant s)
    (hs : sessionQuitSenkusha rpcrypt s init run random ecdh = some t)
    (hready : keysReady init run random ecdh = false → s.quitReason.settled = true) : SessionQuitInvariant t := by
  obtain ⟨session, hstep, rfl⟩ := Option.map_eq_some_iff.mp hs
  have hshape := sessionShape_step h.runs.shape hstep
  simp only [sessionStep, sessionThreadStep] at hstep
  split at hstep
  · next hpc =>
    have hstarted : s.session.ctrlStarted = true := h.runs.started (by rw [hpc]; rfl)
    obtain ⟨hr, hlogged⟩ := h.running hpc hstarted SessionPhase.noConfusion
    cases hstep
    cases hkeys : keysReady init run random ecdh with
    | true =>
      rw [hkeys] at hshape
      refine .of_running (.of_started hshape hstarted nofun) ⟨h.reasoned.failed, nofun, nofun⟩ hr ?_
      simp only [hstarted]
      exact hlogged.snoc rfl rfl rfl rfl rfl
    | false =>
      rw [hkeys] at hshape
      refine .of_running (.of_started hshape hstarted nofun) (.of_settled (hready hkeys)) hr ?_
      simp only [hstarted]
      exact hlogged.moves rfl rfl rfl
  · cases hstep

theorem SessionQuitInvariant.streamed {err : ErrorCode} (h : SessionQuitInvariant s)
    (hs : sessionQuitStreamed rpcrypt s err = some t) : SessionQuitInvariant t := by
  obtain ⟨session, hstep, rfl⟩ := Option.map_eq_some_iff.mp hs
  have hshape := sessionShape_step h.runs.shape hstep
  simp only [sessionStep, sessionThreadStep] at hstep
  split at hstep
  · next hpc =>
    have hstarted : s.session.ctrlStarted = true := h.runs.started (by rw [hpc]; rfl)
    obtain ⟨hr, hlogged⟩ := h.running hpc hstarted SessionPhase.noConfusion
    cases hstep
    have hsettled : (streamedQuitReason err).settled = true := by
      unfold streamedQuitReason
      split_ifs <;> rfl
    refine .of_running (.of_started hshape hstarted nofun) (.of_settled hsettled) hr ?_
    simp only [hstarted]
    exact hlogged.snoc rfl rfl rfl rfl rfl
  · cases hstep

theorem SessionQuitInvariant.ctrlConnect {refused : Bool} (h : SessionQuitInvariant s)
    (hs : sessionQuitCtrlConnect s refused = some t) : SessionQuitInvariant t := by
  unfold sessionQuitCtrlConnect at hs
  split at hs
  · next hctrl _ _ =>
    have hstarted : s.session.ctrlStarted = true := by
      by_contra hnot
      have hinit := (h.runs.shape.notStarted (Bool.not_eq_true _ ▸ hnot)).1
      rw [hctrl] at hinit
      cases hinit
    have hphase : s.session.thread.phase ≠ .quit := fun hq => by
      have hexited := h.runs.exited hq hstarted
      rw [hctrl] at hexited
      cases hexited
    have hr := h.not_returned hphase
    have hsettled : (if refused then QuitReason.ctrlConnectionRefused else .ctrlUnknown).settled = true := by
      cases refused <;> rfl
    cases hs
    generalize hfailed : ({ s.session with ctrl := _ } : Session n) = failed
    have hshape : SessionShape failed := by
      subst hfailed
      exact ⟨h.runs.shape.early, h.runs.shape.notStarted, h.runs.shape.shouldStop, h.runs.shape.waits⟩
    have hphase' : failed.condSignal.thread.phase = s.session.thread.phase := by
      rw [failed.condSignal_phase, ← hfailed]
    have hstarted' : failed.condSignal.ctrlStarted = s.session.ctrlStarted := by
      rw [failed.condSignal_ctrlStarted, ← hfailed]
    refine .of_running (.of_started hshape.condSignal (hstarted'.trans hstarted) fun hq => ?_)
      (.of_settled hsettled) hr ?_
    · exact absurd (hphase'.symm.trans hq) hphase
    · simp only [hphase', hstarted']
      exact h.logged hr
  · cases hs

/-- Nobody else sends an event after the quit event. -/
theorem SessionQuitInvariant.event (h : SessionQuitInvariant s) (hothers : sessionOthersSend s.session = true)
    {locked : Bool} : SessionQuitInvariant { s with log := s.log ++ [.event .other locked] } := by
  have hphase : s.session.thread.phase ≠ .quit := fun hq => by
    have hstreaming : s.session.thread ≠ .streaming := fun hpc => by
      rw [hpc] at hq
      cases hq
    cases hstarted : s.session.ctrlStarted with
    | true => simp [sessionOthersSend, h.runs.exited hq hstarted, hstreaming] at hothers
    | false => simp [sessionOthersSend, (h.runs.shape.notStarted hstarted).1, hstreaming] at hothers
  have hr := h.not_returned hphase
  exact .of_running h.runs h.reasoned hr ((h.logged hr).snoc rfl rfl rfl rfl (Nat.add_comm _ _))

theorem SessionQuitInvariant.quit (h : SessionQuitInvariant s) (hs : sessionQuitEvent s = some t) :
    SessionQuitInvariant t := by
  unfold sessionQuitEvent at hs
  split at hs
  · next hpc hr =>
    have hphase : s.session.thread.phase = .quit := by rw [hpc]; rfl
    have hlogged := h.logged hr
    rw [hphase] at hlogged
    have hreason := h.reasoned.quit hphase
    cases hs
    refine ⟨h.runs, h.reasoned, nofun, fun _ => ⟨hphase, s.log, s.quitReason, by rw [hpc]; rfl, ?_⟩⟩
    refine
      { noQuit := hlogged.noQuit
        stopped := hlogged.stopped.trans hlogged.started.symm
        joined := hlogged.joined.trans hlogged.started.symm
        ecdh := hlogged.ecdh.symm
        notNone := ?_
        sessionRequest := fun hrequest => ?_ }
    · rcases hreason with hsettled | ⟨-, hnot⟩
      · exact of_decide_eq_true (Bool.and_elim_left hsettled)
      · exact hnot
    · rcases hreason with hsettled | ⟨hfailed, -⟩
      · rw [QuitReason.settled, hrequest, Bool.not_true, Bool.and_false] at hsettled
        cases hsettled
      · exact hfailed
  · cases hs

/-! ## The theorem -/

/-- Wherever the session gives up, something has written a reason. -/
def sessionQuitGood (s : SessionQuit n) : SessionQuitLabel n → Bool
  | .startCtrl err => decide (err = .success)
  | .senkusha init run random ecdh => keysReady init run random ecdh || s.quitReason.settled
  | .step .relock => !s.session.ctrlLate || !s.quitReason.isSessionRequest
  | _ => true

theorem sessionQuitInvariant_invariant :
    ((sessionQuitLts rpcrypt info n).restrict fun s l => sessionQuitGood s l = true).Invariant
      SessionQuitInvariant where
  init := by
    rintro _ ⟨session, hostname, hinit, rfl⟩
    exact sessionQuitInvariant_init hinit
  step := by
    rintro s l t h ⟨hgood, hs⟩
    cases l with
    | step l =>
      refine h.other hs ?_
      rintro rfl hlate
      simpa [sessionQuitGood, hlate] using hgood
    | request env => exact h.request hs
    | startCtrl err =>
      obtain rfl := of_decide_eq_true hgood
      exact h.startCtrl hs
    | senkusha => exact h.senkusha hs fun hkeys => by simpa [sessionQuitGood, hkeys] using hgood
    | streamed => exact h.streamed hs
    | ctrlConnect => exact h.ctrlConnect hs
    | event =>
      simp only [sessionQuitLts, Lts.ofFun, sessionQuitStep] at hs
      split at hs
      · next hothers =>
        cases hs
        exact h.event hothers
      · cases hs
    | quit => exact h.quit hs

/-- **The quit event.** -/
theorem sessionQuit_right (rpcrypt : RPCrypt) (info : SessionConnectInfo) {s : SessionQuit n}
    (hr : ((sessionQuitLts rpcrypt info n).restrict fun s l => sessionQuitGood s l = true).Reachable s) :
    SessionQuitRight s := by
  have h := sessionQuitInvariant_invariant.reachable hr
  unfold SessionQuitRight
  split
  · next hreturned => exact (h.returned hreturned).2
  · next hrunning => exact (h.logged (Bool.not_eq_true _ ▸ hrunning)).noQuit

/-! ### Runs -/

def exampleSessionInfo : SessionConnectInfo := ⟨true, List.replicate 16 0x31, rfl⟩

def exampleAddress (connect : ErrorCode) : SessionAddress := ⟨true, .inet, none, true, connect⟩

/-- The console answers with a nonce of zeros. -/
def exampleRequestEnv (addresses : List SessionAddress) : SessionRequestEnv where
  addresses := addresses
  sent := 200
  rounds :=
    [⟨.success, .received (ascii "HTTP/1.1 200 OK\r\nRP-Nonce: AAAAAAAAAAAAAAAAAAAAAA==\r\n\r\n") (by decide)⟩]
  mallocHeader := fun _ => true
  charSigned := true
  stack := fun size => List.replicate size 0xff
  length_stack := fun _ => List.length_replicate

def exampleSessionQuit : SessionQuit 0 :=
  sessionQuitInit exampleSessionInfo exampleSession ⟨ascii "console", by decide⟩

/-- The request is answered at the last of the addresses. -/
def sessionToCtrlStart (connects : List ErrorCode) : List (SessionQuitLabel 0) :=
  [.step .lock, .request (exampleRequestEnv (connects.map exampleAddress)), .step .check, .step .timeout, .step .relock]

/-- The ctrl thread is stopped while it waits, and joined. -/
def ctrlStopped : List (SessionQuitLabel 0) :=
  [.step (.ctrl .round), .step .stopCtrl, .step (.ctrl (.select .canceled)), .step (.ctrl .lock),
    .step (.ctrl .canceled), .step .join, .quit]

/-- An address refuses, another one answers, and ctrl cannot connect. -/
def ctrlRefused : List (SessionQuitLabel 0) := sessionToCtrlStart [.connectionRefused, .success] ++
  [.startCtrl .success, .step .check, .step (.ctrl .start), .ctrlConnect true, .step .relock, .step .check,
    .step (.ctrlLockState .connectFailed), .step .ctrlUseState, .step .ctrlSignal, .step .stopCtrl, .step .join, .quit]

def ctrlNotStarted : List (SessionQuitLabel 0) := sessionToCtrlStart [.success] ++ [.startCtrl .unknown, .quit]

/-- `chiaki_ecdh_init` fails. -/
def keysNotReady : List (SessionQuitLabel 0) := sessionToCtrlStart [.success] ++
  [.startCtrl .success, .step .check, .step (.ctrl .start),
    .step (.ctrl (.connected 3 1 (be32 3 ++ be16 0x33 ++ [0, 0] ++ [0, 0x41, 0x42]))), .step (.ctrlLockState .round),
    .step .ctrlUseState, .step .ctrlSignal, .step .relock, .step .check,
    .senkusha .success .success .success .unknown] ++ ctrlStopped

/-- An address refuses, another one answers, and ctrl says nothing. -/
def ctrlSilent : List (SessionQuitLabel 0) := sessionToCtrlStart [.connectionRefused, .success] ++
  [.startCtrl .success, .step .check, .step (.ctrl .start), .step (.ctrl (.connected 3 1 [])), .step .timeout,
    .step .relock] ++ ctrlStopped

theorem ctrlRefused_run :
    (Lts.runFun (Lts.guarded (sessionQuitStep plainRPCrypt exampleSessionInfo) fun s l => sessionQuitGood s l = true)
        exampleSessionQuit ctrlRefused).map (fun s => (s.returned, s.log))
      = some (true, [.ctrlStarted, .ctrlStopped, .ctrlJoined, .event (.quit .ctrlConnectFailed) false]) := by
  decide +kernel

theorem sessionQuit_right_ctrlRefused : ∃ s : SessionQuit 0, s.returned = true ∧
    s.log = [.ctrlStarted, .ctrlStopped, .ctrlJoined, .event (.quit .ctrlConnectFailed) false] ∧
    SessionQuitRight s := by
  obtain ⟨s, hrun, hobs⟩ := Option.map_eq_some_iff.mp ctrlRefused_run
  obtain ⟨hreturned, hlog⟩ := Prod.mk.inj hobs
  refine ⟨s, hreturned, hlog, sessionQuit_right plainRPCrypt exampleSessionInfo ?_⟩
  exact Lts.Reachable.runGuarded (.init ⟨_, _, ⟨_, _, _, _, rfl⟩, rfl⟩) hrun

/-- A run that ends with a reason although the session request has not failed. -/
def QuitsWith (labels : List (SessionQuitLabel 0)) (reason : QuitReason) : Prop :=
  ∃ s, Lts.runFun (sessionQuitStep plainRPCrypt exampleSessionInfo) exampleSessionQuit labels = some s ∧
    (sessionQuitLts plainRPCrypt exampleSessionInfo 0).Reachable s ∧ s.requestFailed = false ∧
    s.log.getLast? = some (.event (.quit reason) false) ∧ ¬ SessionQuitRight s

theorem QuitsWith.of_run {labels : List (SessionQuitLabel 0)} {reason : QuitReason} (hreason : reason.settled = false)
    (hrun : (Lts.runFun (sessionQuitStep plainRPCrypt exampleSessionInfo) exampleSessionQuit labels).map
        (fun s => (s.returned, s.requestFailed, s.log.getLast?))
      = some (true, false, some (.event (.quit reason) false))) : QuitsWith labels reason := by
  obtain ⟨s, hrun, hobs⟩ := Option.map_eq_some_iff.mp hrun
  simp only [Prod.mk.injEq] at hobs
  obtain ⟨hreturned, hrequest, hlast⟩ := hobs
  have hinit : (sessionQuitLts plainRPCrypt exampleSessionInfo 0).Reachable exampleSessionQuit :=
    .init ⟨_, _, ⟨_, _, _, _, rfl⟩, rfl⟩
  refine ⟨s, hrun, hinit.runFun hrun, hrequest, hlast, fun hright => ?_⟩
  rw [SessionQuitRight, if_pos hreturned] at hright
  obtain ⟨log, reason', hlog, hquits⟩ := hright
  rw [hlog, List.getLast?_concat] at hlast
  cases hlast
  have hsettled : reason.settled = true := by
    rw [QuitReason.settled, decide_eq_true hquits.notNone, Bool.true_and, Bool.not_eq_true']
    refine Bool.not_eq_true _ ▸ fun h => ?_
    rw [hquits.sessionRequest h] at hrequest
    cases hrequest
  rw [hreason] at hsettled
  cases hsettled

theorem ctrlNotStarted_quits : QuitsWith ctrlNotStarted .none := .of_run rfl (by decide +kernel)

theorem keysNotReady_quits : QuitsWith keysNotReady .none := .of_run rfl (by decide +kernel)

theorem ctrlSilent_quits : QuitsWith ctrlSilent .sessionRequestConnectionRefused := .of_run rfl (by decide +kernel)

/-- **Nothing writes a reason** when ctrl cannot be started and when the keys cannot be made; and when ctrl says
nothing, the reason may be that of an address tried before. -/
theorem not_sessionQuit_right : QuitsWith ctrlNotStarted .none ∧ QuitsWith keysNotReady .none ∧
    QuitsWith ctrlSilent .sessionRequestConnectionRefused :=
  ⟨ctrlNotStarted_quits, keysNotReady_quits, ctrlSilent_quits⟩

end Chiaki
