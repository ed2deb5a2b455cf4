import Chiaki.Properties.Ctrl.Message
import Chiaki.Session

/-!
# Steps of the session

Only a step of the ctrl thread that takes `state_mutex` writes the session (`ctrlStep_session`). All
other steps are summed up by `SessionMove`.
-/

namespace Chiaki

open Infra

variable {n : Nat} {rpcrypt : RPCrypt}

/-! ## What the ctrl thread writes -/

section Ctrl

variable {s s' : Ctrl n}

/-- Neither the handlers nor what is sent makes ctrl fail, and who does not take `state_mutex` writes
nothing at all. -/
structure CtrlSessionKept (takes : Bool) (s s' : Ctrl n) : Prop where
  ctrlFailed : s'.session.ctrlFailed = s.session.ctrlFailed
  session : takes = false → s'.session = s.session

theorem CtrlSessionKept.of_eq {takes : Bool} (h : s'.session = s.session) :
    CtrlSessionKept takes s s' :=
  ⟨by rw [h], fun _ => h⟩

theorem CtrlSessionKept.of_same {takes takes' : Bool} {s0 : Ctrl n} (h : CtrlSessionKept takes s0 s')
    (h0 : s0.session = s.session) (ht : takes' = takes) : CtrlSessionKept takes' s s' :=
  ⟨h.ctrlFailed.trans (congrArg CtrlSession.ctrlFailed h0), fun h' => (h.session (ht ▸ h')).trans h0⟩

theorem ctrlHandlerTakesState_congr {s0 : Ctrl n} (h : s0.session = s.session)
    (hpin : s0.loginPinRequested = s.loginPinRequested) (msgType : Nat) (payload : Bytes) :
    ctrlHandlerTakesState s0 msgType payload = ctrlHandlerTakesState s msgType payload := by
  unfold ctrlHandlerTakesState
  rw [h, hpin]

@[simp]
theorem ctrlMessageSend_session (s : Ctrl n) (type : Nat) (payload : Bytes) :
    (ctrlMessageSend rpcrypt s type payload).session = s.session := by
  unfold ctrlMessageSend
  split
  · rfl
  · split <;> rfl

@[simp]
theorem ctrlEnableOptionalFeatures_session (s : Ctrl n) :
    (ctrlEnableOptionalFeatures rpcrypt s).session = s.session := by
  unfold ctrlEnableOptionalFeatures
  simp only
  split
  · split <;> simp
  · split <;> simp

theorem ctrlMessageReceivedSessionId_session {payload : Bytes}
    (h : ctrlMessageReceivedSessionId s payload = .ok s') :
    CtrlSessionKept (!s.session.ctrlSessionIdReceived && decide (2 ≤ payload.length)
      && decide ((payload.drop 1).length < sessionIdSizeMax - 1)
      && (payload.drop 1).all isSessionIdChar) s s' := by
  unfold ctrlMessageReceivedSessionId at h
  split at h
  · cases h
    exact .of_eq rfl
  · next hnew =>
    split at h
    · split at h <;> cases h
      exact .of_eq rfl
    · next hlong =>
      simp only at h
      split at h
      · cases h
        exact .of_eq rfl
      · next hshort =>
        split at h
        · cases h
          exact .of_eq rfl
        · next hchars =>
          cases h
          refine ⟨rfl, fun htakes => ?_⟩
          rw [Bool.not_eq_true] at hnew
          rw [Bool.not_eq_true, Bool.not_eq_false'] at hchars
          rw [hchars, decide_eq_true (Nat.not_lt.mp hlong), decide_eq_true (Nat.not_le.mp hshort),
            hnew] at htakes
          cases htakes

theorem ctrlMessageReceivedLogin_session (s : Ctrl n) (payload : Bytes) :
    CtrlSessionKept (decide (payload.head? = some 1) && s.loginPinRequested) s
      (ctrlMessageReceivedLogin s payload) := by
  unfold ctrlMessageReceivedLogin
  split
  · exact .of_eq rfl
  · next state rest =>
    split
    · exact .of_eq rfl
    · split
      · next hincorrect =>
        refine ⟨rfl, fun htakes => ?_⟩
        rw [hincorrect.1, hincorrect.2] at htakes
        simp at htakes
      · exact .of_eq rfl

theorem ctrlMessageText_session {payload : Bytes} {textSize off : Nat} {text : Option Bytes}
    (h : ctrlMessageText s payload textSize off = .ok (s', text)) : s'.session = s.session := by
  unfold ctrlMessageText at h
  split at h
  · cases h
  · simp only at h
    split at h <;> cases h
    rfl

theorem ctrlMessageHandle_session {msgType : Nat} {payload : Bytes}
    (h : ctrlMessageHandle rpcrypt s msgType payload = .ok s') :
    CtrlSessionKept (ctrlHandlerTakesState s msgType payload) s s' := by
  unfold ctrlMessageHandle at h
  unfold ctrlHandlerTakesState
  cases htype : CtrlMessageType.ofNat? msgType with
  | none =>
    rw [htype] at h
    cases h
    exact .of_eq rfl
  | some type =>
    rw [htype] at h
    cases type with
    | sessionId =>
      obtain ⟨s1, hid, h⟩ := bind_eq_ok_iff.mp h
      cases h
      have hkept := ctrlMessageReceivedSessionId_session hid
      have hsame := @ctrlEnableOptionalFeatures_session n rpcrypt s1
      exact ⟨(congrArg CtrlSession.ctrlFailed hsame).trans hkept.ctrlFailed,
        fun htakes => hsame.trans (hkept.session htakes)⟩
    | heartbeatReq =>
      cases h
      exact .of_eq (ctrlMessageSend_session _ _ _)
    | loginPinReq =>
      cases h
      exact ⟨rfl, fun htakes => by cases htakes⟩
    | login =>
      cases h
      exact ctrlMessageReceivedLogin_session s payload
    | keyboardOpen =>
      obtain ⟨⟨s1, text⟩, htext, h⟩ := bind_eq_ok_iff.mp h
      have hsame := ctrlMessageText_session htext
      cases h
      exact .of_eq hsame
    | keyboardTextChangeRes =>
      obtain ⟨⟨s1, text⟩, htext, h⟩ := bind_eq_ok_iff.mp h
      have hsame := ctrlMessageText_session htext
      cases h
      exact .of_eq hsame
    | keyboardCloseRemote =>
      cases h
      exact .of_eq rfl

theorem ctrlMessageReceived_session {msgType payloadSize : Nat}
    (h : ctrlMessageReceived rpcrypt s msgType payloadSize = .ok s') :
    CtrlSessionKept (ctrlMessageTakesState rpcrypt s msgType payloadSize) s s' := by
  unfold ctrlMessageReceived at h
  unfold ctrlMessageTakesState
  split at h
  · next hzero =>
    rw [if_pos hzero]
    exact ctrlMessageHandle_session h
  · next hsome =>
    rw [if_neg hsome]
    split at h
    · cases h
    · next hfits =>
      rw [if_neg hfits]
      cases hplain : rpcrypt.decrypt s.cryptCounterRemote (slice s.recvBuf.toList 8 payloadSize) with
      | error =>
        simp only [hplain] at h
        cases h
        exact .of_eq rfl
      | ok plain =>
        simp only [hplain] at h
        refine (ctrlMessageHandle_session h).of_same ?_ ?_
        · rfl
        · exact ctrlHandlerTakesState_congr (by rfl) (by rfl) _ _

theorem ctrlMessageTakesState_congr {s0 : Ctrl n} (h : s0.session = s.session)
    (hpin : s0.loginPinRequested = s.loginPinRequested)
    (hcounter : s0.cryptCounterRemote = s.cryptCounterRemote) (hbuf : s0.recvBuf = s.recvBuf)
    (msgType payloadSize : Nat) :
    ctrlMessageTakesState rpcrypt s0 msgType payloadSize
      = ctrlMessageTakesState rpcrypt s msgType payloadSize := by
  unfold ctrlMessageTakesState
  simp only [hcounter, hbuf, ctrlHandlerTakesState_congr h hpin]

theorem ctrlRound_session (rpcrypt : RPCrypt) (s : Ctrl n) :
    CtrlSessionKept (ctrlRoundTakesState rpcrypt s) s (ctrlRound rpcrypt s) := by
  unfold ctrlRound ctrlRoundTakesState
  simp only
  split
  · exact .of_eq rfl
  · next hheader =>
    split
    · split <;> exact .of_eq rfl
    · next hwhole =>
      rw [decide_eq_true (Nat.not_lt.mp hheader), decide_eq_true (Nat.not_lt.mp hwhole), Bool.true_and,
        Bool.true_and]
      split
      · exact .of_eq rfl
      · next s1 hmsg =>
        have hkept : CtrlSessionKept (ctrlMessageTakesState rpcrypt s (u16At s.recvBuf.toList 4)
            (u32At s.recvBuf.toList 0)) s s1 := by
          refine (ctrlMessageReceived_session hmsg).of_same ?_ ?_
          · rfl
          · exact ctrlMessageTakesState_congr (by rfl) (by rfl) (by rfl) (by rfl) _ _
        have hafter : ∀ size buf pc, CtrlSessionKept _ s
            { s1 with recvBufSize := size, recvBuf := buf, thread := pc } :=
          fun _ _ _ => ⟨hkept.ctrlFailed, hkept.session⟩
        split
        · exact hafter _ _ _
        · split
          · exact hafter _ _ _
          · exact hafter _ _ _

/-- **A step that does not take `state_mutex` does not write the session.** -/
theorem ctrlStep_session {l : CtrlLabel n} (hs : ctrlStep rpcrypt s l = some s')
    (hl : ctrlTakesState rpcrypt s l = false) : s'.session = s.session := by
  cases ctrlStep_move hs with
  | start | reset | select | post | signal | setLoginPin | stop => rfl
  | connected =>
    unfold ctrlConnected
    rfl
  | connectFailed | overflow => cases hl
  | round => exact (ctrlRound_session rpcrypt s).session hl
  | @lock err => cases err <;> rfl
  | canceled =>
    unfold ctrlCanceled
    split
    · exact ctrlMessageSend_session _ _ _
    · split
      · exact ctrlMessageSend_session _ _ _
      · split
        · rfl
        · split <;> rfl
  | @recv r _ _ hrecv =>
    cases r with
    | data chunk =>
      simp only [ctrlRecv] at hrecv
      split at hrecv
      · cases hrecv
        rfl
      · cases hrecv
    | closed =>
      cases hrecv
      rfl
    | error => cases hl

/-- The thread ends here without a word: the select has failed, or the console has closed the
connection. -/
def silentExit (s : Ctrl n) : CtrlLabel n → Bool
  | .lock => decide (s.thread = .selected .unknown)
  | .recv .closed => true
  | _ => false

/-- The steps in which the ctrl thread may take `state_mutex`. -/
def CtrlLabel.usesState : CtrlLabel n → Bool
  | .connectFailed | .overflow | .recv .error | .round => true
  | _ => false

theorem ctrlTakesState_usesState {l : CtrlLabel n} (h : ctrlTakesState rpcrypt s l = true) :
    l.usesState = true := by
  unfold ctrlTakesState at h
  split at h
  · rfl
  · rfl
  · rfl
  · rfl
  · cases h

/-- Only `chiaki_ctrl_stop` asks the thread to stop. -/
theorem ctrlStep_shouldStop {l : CtrlLabel n} (hs : ctrlStep rpcrypt s l = some s') (hl : l ≠ .stop) :
    s'.shouldStop = s.shouldStop := by
  cases ctrlStep_move hs with
  | start | select | reset | post | signal | setLoginPin | connectFailed | overflow => rfl
  | connected =>
    unfold ctrlConnected
    rfl
  | stop => exact absurd rfl hl
  | round =>
    rcases ctrlRound_move rpcrypt s with ⟨hs', -⟩ | ⟨hs', -, -⟩ | ⟨hd, -, -⟩ | ⟨hd, -, -, -, -⟩
    · rw [hs']
    · rw [hs']
    · exact congrArg CtrlNotif.shouldStop hd.notif
    · exact congrArg CtrlNotif.shouldStop hd.notif
  | @lock err => cases err <;> rfl
  | canceled =>
    have hsend := fun type payload => congrArg CtrlNotif.shouldStop (ctrlMessageSend_handled s type payload :
      CtrlHandled 0 s (ctrlMessageSend rpcrypt s type payload)).notif
    unfold ctrlCanceled
    split
    · exact hsend _ _
    · split
      · exact hsend _ _
      · split
        · rfl
        · split <;> rfl
  | @recv r _ _ hrecv =>
    cases r with
    | data chunk =>
      simp only [ctrlRecv] at hrecv
      split at hrecv
      · cases hrecv
        rfl
      · cases hrecv
    | closed | error =>
      cases hrecv
      rfl

/-- How the ctrl thread ends, and how ctrl fails. -/
inductive CtrlExit (rpcrypt : RPCrypt) (s : Ctrl n) (l : CtrlLabel n) (s' : Ctrl n) : Prop
  | failed (ctrlFailed : s'.session.ctrlFailed = true) (thread : s'.thread = .exited)
      (takes : ctrlTakesState rpcrypt s l = true)
  | silent (ctrlFailed : s'.session.ctrlFailed = s.session.ctrlFailed) (thread : s'.thread = .exited)
      (running : s.thread ≠ .exited) (silent : silentExit s l = true)
  | stopped (ctrlFailed : s'.session.ctrlFailed = s.session.ctrlFailed)
      (thread : s'.thread = .exited) (shouldStop : s.shouldStop = true) (loud : silentExit s l = false)
  | goesOn (ctrlFailed : s'.session.ctrlFailed = s.session.ctrlFailed)
      (thread : s'.thread = .exited ↔ s.thread = .exited) (loud : silentExit s l = false)

theorem ctrlStep_exit {l : CtrlLabel n} (hs : ctrlStep rpcrypt s l = some s') :
    CtrlExit rpcrypt s l s' := by
  -- the thread is not at its end before and after
  have hgoes : ∀ {t : Ctrl n}, t.session.ctrlFailed = s.session.ctrlFailed → s.thread ≠ .exited →
      t.thread ≠ .exited → silentExit s l = false → CtrlExit rpcrypt s l t :=
    fun hfailed hpc hpc' hloud =>
      .goesOn hfailed ⟨fun h => absurd h hpc', fun h => absurd h hpc⟩ hloud
  cases ctrlStep_move hs with
  | start hpc | reset hpc | select hpc =>
    exact hgoes rfl (by rw [hpc]; exact CtrlPc.noConfusion) CtrlPc.noConfusion rfl
  | connected hpc =>
    unfold ctrlConnected
    exact hgoes rfl (by rw [hpc]; exact CtrlPc.noConfusion) CtrlPc.noConfusion rfl
  | post | signal | setLoginPin | stop => exact .goesOn rfl Iff.rfl rfl
  | connectFailed | overflow => exact .failed rfl rfl rfl
  | round hpc =>
    refine hgoes (ctrlRound_session rpcrypt s).ctrlFailed (by rw [hpc]; exact CtrlPc.noConfusion) ?_ rfl
    rcases ctrlRound_move rpcrypt s with ⟨hs', -⟩ | ⟨hs', -, -⟩ | ⟨-, f, hthread⟩ | ⟨-, hthread, -, -, -⟩
    · rw [hs']
      exact CtrlPc.noConfusion
    · rw [hs']
      exact CtrlPc.noConfusion
    · rw [hthread]
      exact CtrlPc.noConfusion
    · rw [hthread, hpc]
      exact CtrlPc.noConfusion
  | @lock err hpc =>
    have hpc' : s.thread ≠ .exited := by rw [hpc]; exact CtrlPc.noConfusion
    cases err with
    | canceled | success => exact hgoes rfl hpc' CtrlPc.noConfusion (by simp [silentExit, hpc])
    | unknown => exact .silent rfl rfl hpc' (by simp [silentExit, hpc])
  | canceled hpc =>
    have hpc' : s.thread ≠ .exited := by rw [hpc]; exact CtrlPc.noConfusion
    have hsend := fun type payload =>
      congrArg CtrlSession.ctrlFailed (@ctrlMessageSend_session n rpcrypt s type payload)
    unfold ctrlCanceled
    split
    · exact hgoes (hsend _ _) hpc' CtrlPc.noConfusion rfl
    · split
      · exact hgoes (hsend _ _) hpc' CtrlPc.noConfusion rfl
      · split
        · next hstop => exact .stopped rfl rfl hstop rfl
        · split
          · exact hgoes rfl hpc' CtrlPc.noConfusion rfl
          · exact hgoes rfl hpc' CtrlPc.noConfusion rfl
  | @recv r _ hpc hrecv =>
    have hpc' : s.thread ≠ .exited := by rw [hpc]; exact CtrlPc.noConfusion
    cases r with
    | data chunk =>
      simp only [ctrlRecv] at hrecv
      split at hrecv
      · cases hrecv
        exact hgoes rfl hpc' CtrlPc.noConfusion rfl
      · cases hrecv
    | closed =>
      cases hrecv
      exact .silent rfl rfl hpc' rfl
    | error =>
      cases hrecv
      exact .failed rfl rfl rfl

/-- Nothing happens in a thread that has not started, or has ended. -/
theorem ctrlStep_idle {l : CtrlLabel n} (hs : ctrlStep rpcrypt s l = some s')
    (hpc : s.thread = .init ∧ l ≠ .start ∨ s.thread = .exited) :
    s'.thread = s.thread ∧ ctrlTakesState rpcrypt s l = false := by
  cases ctrlStep_move hs with
  | start h =>
    rcases hpc with hpc | hpc
    · exact absurd rfl hpc.2
    · rw [hpc] at h
      cases h
  | post | signal | setLoginPin | stop => exact ⟨rfl, rfl⟩
  | connected h | connectFailed h | round h | overflow h | select h | lock h | canceled h | reset h
  | recv h => rcases hpc with hpc | hpc <;> rw [h] at hpc <;> first | cases hpc.1 | cases hpc

end Ctrl

/-! ## Moves -/

variable {s s' : Session n} {l : SessionLabel n}

/-- What the session thread waits for. -/
def SessionPc.waitsFor : SessionPc → Option SessionWait
  | .wait w | .asleep w | .woken w _ => some w
  | _ => none

/-- Before `chiaki_ctrl_start`. -/
def SessionPc.early : SessionPc → Bool
  | .init | .request | .requestUnlocked | .ctrlStart => true
  | .wait .delay | .asleep .delay | .woken .delay _ => true
  | _ => false

/-- In `chiaki_ctrl_set_login_pin`. -/
def SessionPc.forwards : SessionPc → Bool
  | .setLoginPin | .lockNotif => true
  | _ => false

/-- What a step is, and from where. -/
inductive SessionMove (rpcrypt : RPCrypt) (s : Session n) : SessionLabel n → Session n → Prop
  | goto {l : SessionLabel n} {pc : SessionPc} (from_waitsFor : s.thread.waitsFor = none)
      (from_forwards : s.thread.forwards = false)
      (waitsFor : pc.waitsFor = none ∨ pc = .wait .delay) (forwards : pc.forwards = false)
      (early : pc.early = true → s.thread.early = true)
      (stopped : s.thread = .join → pc = .quit) (running : s.thread ≠ .quit) :
      SessionMove rpcrypt s l { s with thread := pc }
  | park {l : SessionLabel n} {pc : SessionPc} {w : SessionWait}
      (from_waitsFor : s.thread.waitsFor = some w) (waitsFor : pc.waitsFor = some w)
      (asleep : pc = .asleep w → sessionCheckStatePred s w = false) :
      SessionMove rpcrypt s l { s with thread := pc }
  | proceed {l : SessionLabel n} {w : SessionWait} (from_waitsFor : s.thread.waitsFor = some w) :
      SessionMove rpcrypt s l (sessionProceed s w)
  | startCtrl (from_ctrlStart : s.thread = .ctrlStart) : SessionMove rpcrypt s (.startCtrl true)
      { s with thread := .wait .ctrlStart, ctrlStarted := true }
  | copyPin (from_setLoginPin : s.thread = .setLoginPin) :
      SessionMove rpcrypt s (.copyPin true) { s with thread := .lockNotif }
  | dropPin (from_setLoginPin : s.thread = .setLoginPin) :
      SessionMove rpcrypt s (.copyPin false) (sessionForwarded s s.ctrl)
  | forward (from_lockNotif : s.thread = .lockNotif) (free : s.notifFree = true) :
      SessionMove rpcrypt s .forward (sessionForwarded s (ctrlSetLoginPin s.ctrl s.loginPin))
  | stopCtrl (from_quitCtrl : s.thread = .quitCtrl) (free : s.notifFree = true) :
      SessionMove rpcrypt s .stopCtrl { s with ctrl := ctrlStop s.ctrl, thread := .join }
  | ctrl {l : CtrlLabel n} {ctrl : Ctrl n} (label : sessionCtrlLabel s l = true)
      (takes : ctrlTakesState rpcrypt s.ctrl l = false) (step : ctrlStep rpcrypt s.ctrl l = some ctrl) :
      SessionMove rpcrypt s (.ctrl l) { s with ctrl := ctrl }
  | ctrlLockState {l : CtrlLabel n} {ctrl : Ctrl n} (label : sessionCtrlLabel s l = true)
      (takes : ctrlTakesState rpcrypt s.ctrl l = true) (step : ctrlStep rpcrypt s.ctrl l = some ctrl) :
      SessionMove rpcrypt s (.ctrlLockState l) { s with ctrlStateUse := .waits l }
  | ctrlUseState {l : CtrlLabel n} {ctrl : Ctrl n} (waits : s.ctrlStateUse = .waits l)
      (free : s.thread.locked = false) (step : ctrlStep rpcrypt s.ctrl l = some ctrl) :
      SessionMove rpcrypt s .ctrlUseState { s with ctrl := ctrl, ctrlStateUse := .signals }
  | ctrlSignal (signals : s.ctrlStateUse = .signals) :
      SessionMove rpcrypt s .ctrlSignal { s.condSignal with ctrlStateUse := .none }
  | stop (free : s.thread.locked = false) :
      SessionMove rpcrypt s .stop { s.condSignal with shouldStop := true }
  | setLoginPin {pin : Bytes} (free : s.thread.locked = false) :
      SessionMove rpcrypt s (.setLoginPin pin)
        { s with loginPinEntered := true, loginPin := pin, signals := s.signals + 1 }
  | signal : SessionMove rpcrypt s .signal { s.condSignal with signals := s.signals - 1 }

/-- The session thread goes on to a place where it does not wait. -/
theorem SessionMove.of_pc {pc pc' : SessionPc} (hpc : s.thread = pc)
    (h : pc.waitsFor = none ∧ pc.forwards = false ∧ (pc'.waitsFor = none ∨ pc' = .wait .delay) ∧ pc'.forwards = false ∧
      (pc'.early = true → pc.early = true) ∧ (pc = .join → pc' = .quit) ∧ pc ≠ .quit) :
    SessionMove rpcrypt s l { s with thread := pc' } := by
  subst hpc
  obtain ⟨hfrom, hfrom', hto, hto', hearly, hjoin, hquit⟩ := h
  exact .goto hfrom hfrom' hto hto' hearly hjoin hquit

theorem sessionThreadStep_move (hs : sessionThreadStep s l = some s') : SessionMove rpcrypt s l s' := by
  unfold sessionThreadStep at hs
  split at hs
  · split at hs
    · next hpc =>
      cases hs
      split <;> exact .of_pc hpc (by decide)
    · cases hs
  · split at hs
    · next hpc =>
      cases hs
      exact .of_pc hpc (by decide)
    · cases hs
  · split at hs
    · next hpc =>
      cases hs
      exact .of_pc hpc (by decide)
    · cases hs
  · split at hs
    · next hpc =>
      cases hs
      split <;> exact .of_pc hpc (by decide)
    · cases hs
  · split at hs
    · next success _ hpc =>
      cases success with
      | true =>
        cases hs
        exact .startCtrl hpc
      | false =>
        cases hs
        exact .of_pc hpc (by decide)
    · cases hs
  · split at hs
    · next w hpc =>
      cases hpred : sessionCheckStatePred s w with
      | true =>
        rw [hpred] at hs
        cases hs
        exact .proceed (by rw [hpc]; rfl)
      | false =>
        rw [hpred] at hs
        cases hs
        exact .park (by rw [hpc]; rfl) rfl fun _ => hpred
    · cases hs
  · split at hs
    · next w hpc =>
      cases hs
      exact .park (by rw [hpc]; rfl) rfl fun h => SessionPc.noConfusion h
    · cases hs
  · split at hs
    · cases hs
    · next w _ hpc =>
      cases hs
      exact .park (by rw [hpc]; rfl) rfl fun h => SessionPc.noConfusion h
    · cases hs
  · split at hs
    · next w timedOut hpc =>
      cases timedOut with
      | true =>
        cases hs
        exact .proceed (by rw [hpc]; rfl)
      | false =>
        cases hs
        exact .park (by rw [hpc]; rfl) rfl fun h => SessionPc.noConfusion h
    · cases hs
  · split at hs
    · next mem _ hpc =>
      cases mem with
      | true =>
        cases hs
        exact .copyPin hpc
      | false =>
        cases hs
        exact .dropPin hpc
    · cases hs
  · split at hs
    · next hpc =>
      split at hs
      · next hfree =>
        cases hs
        exact .forward hpc hfree
      · cases hs
    · cases hs
  · split at hs
    · next hpc =>
      cases hs
      split <;> exact .of_pc hpc (by decide)
    · cases hs
  · split at hs
    · next hpc =>
      cases hs
      exact .of_pc hpc (by decide)
    · cases hs
  · split at hs
    · next hpc =>
      split at hs
      · next hfree =>
        cases hs
        exact .stopCtrl hpc hfree
      · cases hs
    · cases hs
  · split at hs
    · next hpc _ =>
      split at hs
      · cases hs
        exact .of_pc hpc (by decide)
      · cases hs
    · cases hs
  · cases hs

theorem sessionCtrlStep_move (hs : sessionCtrlStep rpcrypt s l = some s') :
    SessionMove rpcrypt s l s' := by
  unfold sessionCtrlStep at hs
  split at hs
  · split at hs
    · next hcond =>
      rw [Bool.and_eq_true, Bool.not_eq_true'] at hcond
      obtain ⟨ctrl, hstep, rfl⟩ := Option.map_eq_some_iff.mp hs
      exact .ctrl hcond.1 hcond.2 hstep
    · cases hs
  · split at hs
    · next hcond =>
      rw [Bool.and_eq_true, Bool.and_eq_true] at hcond
      obtain ⟨ctrl, hstep⟩ := Option.isSome_iff_exists.mp hcond.2
      cases hs
      exact .ctrlLockState hcond.1.1 hcond.1.2 hstep
    · cases hs
  · split at hs
    · next l' huse =>
      split at hs
      · cases hs
      · next hfree =>
        obtain ⟨ctrl, hstep, rfl⟩ := Option.map_eq_some_iff.mp hs
        exact .ctrlUseState huse (Bool.not_eq_true _ ▸ hfree) hstep
    · cases hs
  · split at hs
    · next huse =>
      cases hs
      exact .ctrlSignal huse
    · cases hs
  · cases hs

theorem sessionUserStep_move (hs : sessionUserStep s l = some s') : SessionMove rpcrypt s l s' := by
  unfold sessionUserStep at hs
  split at hs
  · split at hs
    · cases hs
    · next hfree =>
      cases hs
      exact .stop (Bool.not_eq_true _ ▸ hfree)
  · split at hs
    · cases hs
    · next hfree =>
      cases hs
      exact .setLoginPin (Bool.not_eq_true _ ▸ hfree)
  · split at hs
    · cases hs
    · cases hs
      exact .signal
  · cases hs

theorem sessionStep_move (hs : sessionStep rpcrypt s l = some s') : SessionMove rpcrypt s l s' := by
  cases l with
  | ctrl | ctrlLockState | ctrlUseState | ctrlSignal => exact sessionCtrlStep_move hs
  | stop | setLoginPin | signal => exact sessionUserStep_move hs
  | _ => exact sessionThreadStep_move hs

/-! ## When ctrl runs -/

/-- The ctrl thread runs from `chiaki_ctrl_start` on, and is only asked to stop behind everything
else. -/
structure SessionShape (s : Session n) : Prop where
  early : s.thread.early = true → s.ctrlStarted = false
  notStarted : s.ctrlStarted = false → s.ctrl.thread = .init ∧ s.ctrlFree = true
  shouldStop : s.ctrl.shouldStop = true → s.thread = .join ∨ s.thread = .quit
  waits : ∀ l, s.ctrlStateUse = .waits l → l.usesState = true

theorem SessionPc.early_eq_of_waitsFor {pc pc' : SessionPc} {w : SessionWait}
    (h : pc.waitsFor = some w) (h' : pc'.waitsFor = some w) : pc.early = pc'.early := by
  cases pc <;> cases h <;> cases pc' <;> cases h' <;> cases w <;> rfl

@[simp]
theorem Session.condSignal_ctrl (s : Session n) : s.condSignal.ctrl = s.ctrl := by
  unfold condSignal
  split <;> rfl

theorem Session.condSignal_eq (s : Session n) :
    ∃ pc, s.condSignal = { s with thread := pc } ∧
      (pc = s.thread ∨ ∃ w, s.thread = .asleep w ∧ pc = .woken w false) := by
  unfold condSignal
  split
  · next w hpc => exact ⟨_, rfl, Or.inr ⟨w, hpc, rfl⟩⟩
  · exact ⟨s.thread, rfl, Or.inl rfl⟩

theorem sessionShape_init (h : SessionInitial s) : SessionShape s := by
  obtain ⟨_, _, _, _, rfl⟩ := h
  exact ⟨fun _ => rfl, fun _ => ⟨rfl, rfl⟩, fun h => (by cases h), fun l h => (by cases h)⟩

/-- Waking up does not matter. -/
theorem SessionShape.condSignal (h : SessionShape s) : SessionShape s.condSignal := by
  obtain ⟨pc, hs', rfl | ⟨w, hpc, rfl⟩⟩ := s.condSignal_eq
  · rw [hs']
    exact h
  · rw [hs']
    refine ⟨fun he => h.early ?_, h.notStarted, fun hstop => ?_, h.waits⟩
    · rw [hpc]
      cases w <;> first | rfl | cases he
    · rcases h.shouldStop hstop with hj | hj <;> rw [hpc] at hj <;> cases hj

theorem SessionShape.proceed (h : SessionShape s) {w : SessionWait}
    (hpc : s.thread.waitsFor = some w) : SessionShape (sessionProceed s w) := by
  have hstop : s.ctrl.shouldStop ≠ true := fun hstop => by
    rcases h.shouldStop hstop with hj | hj <;> rw [hj] at hpc <;> cases hpc
  have hgoes : ∀ pc, pc.early = false → SessionShape { s with thread := pc } := fun pc hpc' =>
    ⟨fun he => absurd (hpc'.symm.trans he) Bool.false_ne_true, h.notStarted,
      fun hs => absurd hs hstop,
      h.waits⟩
  have hloop : SessionShape (sessionPinLoop s) := by
    unfold sessionPinLoop
    split
    · exact ⟨fun he => (by cases he), h.notStarted, fun hs => absurd hs hstop,
      h.waits⟩
    · split <;> exact hgoes _ rfl
  unfold sessionProceed
  cases w with
  | delay =>
    have hearly : s.thread.early = true := by
      rw [SessionPc.early_eq_of_waitsFor hpc (rfl : (SessionPc.wait .delay).waitsFor = some .delay)]
      rfl
    exact ⟨fun _ => h.early hearly, h.notStarted, fun hs => absurd hs hstop,
      h.waits⟩
  | ctrlStart =>
    simp only
    split
    · exact hgoes _ rfl
    · exact hloop
  | pin =>
    simp only
    split
    · exact hgoes _ rfl
    · split <;> exact hgoes _ rfl
  | sessionId =>
    simp only
    split
    · exact hgoes _ rfl
    · exact hloop

theorem sessionShape_step (h : SessionShape s) (hs : sessionStep rpcrypt s l = some s') :
    SessionShape s' := by
  have hstop : s.thread ≠ .join → s.thread ≠ .quit → s.ctrl.shouldStop ≠ true := fun hj hq hstop => by
    rcases h.shouldStop hstop with hc | hc
    · exact hj hc
    · exact hq hc
  cases sessionStep_move hs with
  | goto _ _ _ _ hearly hjoin hquit =>
    refine ⟨fun he => h.early (hearly he), h.notStarted, fun hs => ?_, h.waits⟩
    exact Or.inr (hjoin ((h.shouldStop hs).resolve_right hquit))
  | park hfrom hto =>
    refine ⟨fun he => h.early ?_, h.notStarted, fun hs => ?_, h.waits⟩
    · rw [SessionPc.early_eq_of_waitsFor hfrom hto]
      exact he
    · rcases h.shouldStop hs with hj | hj <;> rw [hj] at hfrom <;> cases hfrom
  | proceed hfrom => exact h.proceed hfrom
  | startCtrl hpc =>
    refine ⟨fun he => (by cases he), fun hn => (by cases hn), fun hs => absurd hs (hstop ?_ ?_),
      h.waits⟩
    · rw [hpc]
      exact SessionPc.noConfusion
    · rw [hpc]
      exact SessionPc.noConfusion
  | copyPin hpc | dropPin hpc | forward hpc =>
    have hnot : s.ctrl.shouldStop ≠ true :=
      hstop (by rw [hpc]; exact SessionPc.noConfusion) (by rw [hpc]; exact SessionPc.noConfusion)
    exact ⟨fun he => (by cases he), h.notStarted, fun hs => absurd hs hnot, h.waits⟩
  | stopCtrl hpc => exact ⟨fun he => (by cases he), h.notStarted, fun _ => Or.inl rfl, h.waits⟩
  | @ctrl l _ hlabel _ hstep =>
    refine ⟨h.early, fun hn => ?_, fun hs => ?_, h.waits⟩
    · obtain ⟨hinit, hfree⟩ := h.notStarted hn
      refine ⟨(ctrlStep_idle hstep (Or.inl ⟨hinit, fun hl => ?_⟩)).1.trans hinit, hfree⟩
      rw [hl, sessionCtrlLabel, show s.ctrlStarted = false from hn] at hlabel
      cases hlabel
    · refine h.shouldStop ?_
      rw [← ctrlStep_shouldStop hstep fun hl => ?_]
      · exact hs
      · rw [hl] at hlabel
        cases hlabel
  | @ctrlLockState l _ hlabel htakes hstep =>
    refine ⟨h.early, fun hn => ?_, h.shouldStop, fun l' hl' => ?_⟩
    · have hstart : l ≠ .start := fun hl => by
        rw [hl] at htakes
        cases htakes
      rw [(ctrlStep_idle hstep (Or.inl ⟨(h.notStarted hn).1, hstart⟩)).2] at htakes
      cases htakes
    · cases hl'
      exact ctrlTakesState_usesState htakes
  | @ctrlUseState l _ hwaits _ hstep =>
    have hfree : s.ctrlFree = false := by rw [Session.ctrlFree, hwaits]
    refine ⟨h.early, fun hn => ?_, fun hs => ?_, fun l' hl' => (by cases hl')⟩
    · rw [(h.notStarted hn).2] at hfree
      cases hfree
    · refine h.shouldStop ?_
      rw [← ctrlStep_shouldStop hstep fun hl => ?_]
      · exact hs
      · have huses := h.waits l hwaits
        rw [hl] at huses
        cases huses
  | ctrlSignal hsignals =>
    obtain ⟨pc, hs', -⟩ := s.condSignal_eq
    have h' := h.condSignal
    rw [hs'] at h' ⊢
    exact ⟨h'.early, fun hn => ⟨(h'.notStarted hn).1, rfl⟩, h'.shouldStop, fun l hl => (by cases hl)⟩
  | stop =>
    obtain ⟨pc, hs', -⟩ := s.condSignal_eq
    have h' := h.condSignal
    rw [hs'] at h' ⊢
    exact ⟨h'.early, h'.notStarted, h'.shouldStop, h'.waits⟩
  | setLoginPin => exact ⟨h.early, h.notStarted, h.shouldStop, h.waits⟩
  | signal =>
    obtain ⟨pc, hs', -⟩ := s.condSignal_eq
    have h' := h.condSignal
    rw [hs'] at h' ⊢
    exact ⟨h'.early, h'.notStarted, h'.shouldStop, h'.waits⟩

end Chiaki
