import Chiaki.Properties.Ctrl.WakeUp
import Chiaki.Properties.Session.Step

/-!
# `state_mutex` and `notif_mutex`

The session thread takes `notif_mutex` while it holds `state_mutex`, to forward a PIN. The ctrl
thread takes them in the other order, in its handlers and when it fails.

The two block each other exactly when the ctrl thread goes for `state_mutex` while a PIN is on its
way, or a PIN is entered while the ctrl thread waits for `state_mutex` and only the PIN was missing.
-/

namespace Chiaki

open Infra

variable {n : Nat} {rpcrypt : RPCrypt} {s s' : Session n} {l : SessionLabel n}

/-- The session thread waits for `notif_mutex` and holds `state_mutex`, the ctrl thread waits for
`state_mutex` and holds `notif_mutex`. -/
def Session.Deadlocked (s : Session n) : Prop :=
  s.thread = .lockNotif ∧ ∃ l, s.ctrlStateUse = .waits l

/-- The ctrl thread waits for `state_mutex`. -/
def Session.ctrlWaits (s : Session n) : Bool :=
  match s.ctrlStateUse with
  | .waits _ => true
  | _ => false

/-- At the end of the wait, the session thread forwards a PIN if one has been entered. -/
def Session.waitsForPin (s : Session n) (w : SessionWait) : Bool :=
  !s.shouldStop && !s.ctrl.session.ctrlFailed &&
    match w with
    | .delay => false
    | .ctrlStart | .sessionId => s.ctrl.session.ctrlLoginPinRequested
    | .pin => true

def Session.pinAwaited (s : Session n) : Bool := s.thread.waitsFor.any s.waitsForPin

/-- A PIN is on its way to the ctrl thread. -/
def Session.pinOnItsWay (s : Session n) : Bool :=
  s.thread.forwards || (s.pinAwaited && s.loginPinEntered)

/-- The ctrl thread does not go for `state_mutex` while a PIN is on its way, and no PIN is entered
that sends the session thread for `notif_mutex` meanwhile. -/
def pinApart (s : Session n) : SessionLabel n → Bool
  | .ctrlLockState _ => !s.pinOnItsWay
  | .setLoginPin _ => !(s.ctrlWaits && s.pinAwaited)
  | _ => true

/-! ## Deadlock is for good -/

theorem Session.Deadlocked.locked (h : s.Deadlocked) : s.thread.locked = true := by
  rw [h.1]
  rfl

theorem Session.Deadlocked.notifFree (h : s.Deadlocked) : s.notifFree = false := by
  obtain ⟨-, l, hl⟩ := h
  unfold Session.notifFree Session.ctrlFree
  rw [hl]
  rfl

/-- Neither of the two threads moves again. -/
theorem Session.Deadlocked.step (h : s.Deadlocked) (hs : sessionStep rpcrypt s l = some s') :
    s'.Deadlocked := by
  have hlocked := h.locked
  have hwaitsFor : s.thread.waitsFor = none := by
    rw [h.1]
    rfl
  obtain ⟨hpc, l', hl'⟩ := id h
  cases sessionStep_move hs with
  | goto _ hfrom =>
    rw [hpc] at hfrom
    cases hfrom
  | park hfrom | proceed hfrom =>
    rw [hwaitsFor] at hfrom
    cases hfrom
  | startCtrl hfrom | copyPin hfrom | dropPin hfrom | stopCtrl hfrom =>
    rw [hpc] at hfrom
    cases hfrom
  | forward _ hfree =>
    rw [h.notifFree] at hfree
    cases hfree
  | ctrl => exact ⟨hpc, l', hl'⟩
  | ctrlLockState => exact ⟨hpc, _, rfl⟩
  | ctrlUseState _ hfree =>
    rw [hlocked] at hfree
    cases hfree
  | ctrlSignal hsignals =>
    rw [hl'] at hsignals
    cases hsignals
  | stop hfree | setLoginPin hfree =>
    rw [hlocked] at hfree
    cases hfree
  | signal =>
    obtain ⟨pc, hs', rfl | ⟨w, hasleep, -⟩⟩ := s.condSignal_eq
    · rw [hs']
      exact ⟨hpc, l', hl'⟩
    · rw [hpc] at hasleep
      cases hasleep

/-! ## The threads stay apart -/

/-- A PIN is on its way and the ctrl thread waits for `state_mutex`. -/
def Session.pinClash (s : Session n) : Bool := s.pinOnItsWay && s.ctrlWaits

theorem Session.Deadlocked.pinClash (h : s.Deadlocked) : s.pinClash = true := by
  obtain ⟨hpc, l', hl'⟩ := h
  unfold Session.pinClash Session.pinOnItsWay Session.ctrlWaits
  rw [hpc, hl']
  rfl

theorem Session.pinOnItsWay_of_waitsFor {w : SessionWait} (h : s.thread.waitsFor = some w) :
    s.pinOnItsWay = (s.waitsForPin w && s.loginPinEntered) := by
  have hforwards : s.thread.forwards = false := by
    cases hpc : s.thread <;> rw [hpc] at h <;> first | rfl | cases h
  unfold Session.pinOnItsWay Session.pinAwaited
  rw [hforwards, h]
  rfl

theorem Session.pinOnItsWay_of_session {t : Session n} (hpc : t.thread = s.thread)
    (hstop : t.shouldStop = s.shouldStop) (hsession : t.ctrl.session = s.ctrl.session)
    (hpin : t.loginPinEntered = s.loginPinEntered) : t.pinOnItsWay = s.pinOnItsWay := by
  unfold Session.pinOnItsWay Session.pinAwaited Session.waitsForPin
  rw [hpc, hstop, hsession, hpin]

theorem Session.pinOnItsWay_of_none (h : s.thread.waitsFor = none) :
    s.pinOnItsWay = s.thread.forwards := by
  unfold Session.pinOnItsWay Session.pinAwaited
  rw [h]
  exact Bool.or_false _

theorem sessionPinLoop_pinOnItsWay (s : Session n) : (sessionPinLoop s).pinOnItsWay =
    (!s.shouldStop && !s.ctrl.session.ctrlFailed && s.ctrl.session.ctrlLoginPinRequested
      && s.loginPinEntered) := by
  unfold sessionPinLoop
  cases hreq : s.ctrl.session.ctrlLoginPinRequested with
  | true => exact Session.pinOnItsWay_of_waitsFor (w := .pin) rfl
  | false =>
    rw [if_neg Bool.false_ne_true, Bool.and_false, Bool.false_and]
    split <;> exact Session.pinOnItsWay_of_none rfl

/-- **Going on from a wait changes nothing about the PIN.** -/
theorem sessionProceed_pinOnItsWay (s : Session n) (w : SessionWait) :
    (sessionProceed s w).pinOnItsWay = (s.waitsForPin w && s.loginPinEntered) := by
  unfold sessionProceed Session.waitsForPin
  cases w with
  | delay =>
    rw [Bool.and_false, Bool.false_and]
    exact Session.pinOnItsWay_of_none rfl
  | ctrlStart =>
    simp only
    split
    · next hquit =>
      rw [← Bool.not_or, hquit]
      exact Session.pinOnItsWay_of_none rfl
    · exact sessionPinLoop_pinOnItsWay s
  | pin =>
    simp only
    split
    · next hquit =>
      rw [← Bool.not_or, hquit]
      exact Session.pinOnItsWay_of_none rfl
    · next hgo =>
      rw [← Bool.not_or, Bool.eq_false_iff.mpr hgo]
      split
      · next hentered =>
        rw [hentered]
        exact Session.pinOnItsWay_of_none rfl
      · next hentered =>
        rw [Bool.eq_false_iff.mpr hentered]
        exact Session.pinOnItsWay_of_none rfl
  | sessionId =>
    simp only
    split
    · next hstop =>
      rw [hstop]
      exact Session.pinOnItsWay_of_none rfl
    · exact sessionPinLoop_pinOnItsWay s

@[simp]
theorem sessionProceed_ctrlStateUse (s : Session n) (w : SessionWait) :
    (sessionProceed s w).ctrlStateUse = s.ctrlStateUse := by
  unfold sessionProceed sessionPinLoop
  cases w <;> simp only <;> split <;> first | rfl | (split <;> first | rfl | (split <;> rfl))

theorem sessionProceed_pinClash {w : SessionWait} (h : s.thread.waitsFor = some w) :
    (sessionProceed s w).pinClash = s.pinClash := by
  unfold Session.pinClash Session.ctrlWaits
  rw [sessionProceed_pinOnItsWay, Session.pinOnItsWay_of_waitsFor h, sessionProceed_ctrlStateUse]

theorem SessionPc.forwards_of_unlocked {pc : SessionPc} (h : pc.locked = false) :
    pc.forwards = false := by
  cases pc <;> first | rfl | cases h

theorem Session.condSignal_pc (s : Session n) : ∃ pc : SessionPc,
    s.condSignal = { s with thread := pc } ∧ pc.waitsFor = s.thread.waitsFor ∧
      pc.forwards = s.thread.forwards := by
  obtain ⟨pc, hs', rfl | ⟨w, hasleep, rfl⟩⟩ := s.condSignal_eq
  · exact ⟨_, hs', rfl, rfl⟩
  · rw [hasleep]
    exact ⟨_, hs', rfl, rfl⟩

/-- **The step that brings the two together is one of the two that the condition names.** -/
theorem pinApart_step (hshape : SessionShape s) (h : s.pinClash = false)
    (hG : pinApart s l = true) (hs : sessionStep rpcrypt s l = some s') : s'.pinClash = false := by
  -- it is enough to look at the PIN when the ctrl thread waits as before
  have hsame : s'.ctrlStateUse = s.ctrlStateUse → s'.pinOnItsWay = s.pinOnItsWay →
      s'.pinClash = false := fun huse hpin => by
    unfold Session.pinClash Session.ctrlWaits at h ⊢
    rw [huse, hpin]
    exact h
  have hnone : s'.pinOnItsWay = false → s'.pinClash = false := fun hpin => by
    unfold Session.pinClash
    rw [hpin]
    rfl
  cases sessionStep_move hs with
  | goto _ _ hto hforwards =>
    refine hnone ?_
    rcases hto with hto | rfl
    · rw [Session.pinOnItsWay_of_none hto]
      exact hforwards
    · rw [Session.pinOnItsWay_of_waitsFor (w := .delay) rfl]
      unfold Session.waitsForPin
      rw [Bool.and_false, Bool.false_and]
  | park hfrom hto =>
    refine hsame rfl ?_
    rw [Session.pinOnItsWay_of_waitsFor hfrom, Session.pinOnItsWay_of_waitsFor hto]
    rfl
  | proceed hfrom => rw [sessionProceed_pinClash hfrom, h]
  | startCtrl hfrom =>
    -- ctrl has not started, so it does not wait
    have hfree := (hshape.notStarted (hshape.early (by rw [hfrom]; rfl))).2
    unfold Session.pinClash Session.ctrlWaits
    unfold Session.ctrlFree at hfree
    cases huse : s.ctrlStateUse with
    | none => exact Bool.and_false _
    | waits l' | signals =>
      rw [huse] at hfree
      cases hfree
  | copyPin hfrom =>
    refine hsame rfl ?_
    have hpin : s.pinOnItsWay = true := by
      rw [Session.pinOnItsWay_of_none (by rw [hfrom]; rfl), hfrom]
      rfl
    rw [hpin]
    exact Session.pinOnItsWay_of_none rfl
  | dropPin hfrom | forward hfrom =>
    refine hnone ?_
    rw [Session.pinOnItsWay_of_waitsFor (w := .sessionId) rfl]
    exact Bool.and_false _
  | stopCtrl => exact hnone (Session.pinOnItsWay_of_none rfl)
  | ctrl _ htakes hstep =>
    exact hsame rfl (Session.pinOnItsWay_of_session rfl rfl (ctrlStep_session hstep htakes) rfl)
  | ctrlLockState =>
    refine hnone ?_
    rw [← Bool.not_eq_true']
    exact hG
  | ctrlUseState | ctrlSignal => exact Bool.and_false _
  | stop hfree =>
    obtain ⟨pc, hs', -, hforwards⟩ := s.condSignal_pc
    refine hnone ?_
    rw [hs']
    unfold Session.pinOnItsWay Session.pinAwaited
    simp only
    rw [hforwards, SessionPc.forwards_of_unlocked hfree]
    cases pc.waitsFor <;> rfl
  | setLoginPin hfree =>
    have hforwards := SessionPc.forwards_of_unlocked hfree
    have happart : (s.ctrlWaits && s.pinAwaited) = false := by
      rw [← Bool.not_eq_true']
      exact hG
    unfold Session.pinClash Session.pinOnItsWay
    simp only
    rw [hforwards, Bool.false_or, Bool.and_true, Bool.and_comm]
    exact happart
  | signal =>
    obtain ⟨pc, hs', hwaitsFor, hforwards⟩ := s.condSignal_pc
    rw [hs'] at hsame ⊢
    refine hsame rfl ?_
    unfold Session.pinOnItsWay Session.pinAwaited
    simp only
    rw [hwaitsFor, hforwards]
    rfl

/-! ## The way to the deadlock -/

/-- Some steps lead to the deadlock. -/
def Session.CanDeadlock (rpcrypt : RPCrypt) (s : Session n) : Prop :=
  ∃ labels s', Lts.runFun (sessionStep rpcrypt) s labels = some s' ∧ s'.Deadlocked

theorem Session.CanDeadlock.of_step (hs : sessionStep rpcrypt s l = some s')
    (h : s'.CanDeadlock rpcrypt) : s.CanDeadlock rpcrypt := by
  obtain ⟨labels, t, hrun, ht⟩ := h
  refine ⟨l :: labels, t, ?_, ht⟩
  unfold Lts.runFun
  rw [hs]
  exact hrun

theorem Session.canDeadlock_of_lockNotif {l : CtrlLabel n} (hpc : s.thread = .lockNotif)
    (hwaits : s.ctrlStateUse = .waits l) : s.CanDeadlock rpcrypt :=
  ⟨[], s, rfl, hpc, l, hwaits⟩

theorem Session.canDeadlock_of_setLoginPin {l : CtrlLabel n} (hpc : s.thread = .setLoginPin)
    (hwaits : s.ctrlStateUse = .waits l) : s.CanDeadlock rpcrypt := by
  have hs : sessionStep rpcrypt s (.copyPin true) = some { s with thread := .lockNotif } := by
    unfold sessionStep sessionThreadStep
    rw [hpc]
    rfl
  exact .of_step hs (canDeadlock_of_lockNotif rfl hwaits)

/-- What a PIN on its way says about the session. -/
theorem Session.waitsForPin_eq {w : SessionWait} (h : s.waitsForPin w = true) :
    (s.shouldStop || s.ctrl.session.ctrlFailed) = false ∧
      (w = .pin ∨ (w = .ctrlStart ∨ w = .sessionId) ∧ s.ctrl.session.ctrlLoginPinRequested = true) := by
  unfold Session.waitsForPin at h
  rw [← Bool.not_or, Bool.and_eq_true, Bool.not_eq_true'] at h
  refine ⟨h.1, ?_⟩
  cases w with
  | delay => cases h.2
  | ctrlStart => exact Or.inr ⟨Or.inl rfl, h.2⟩
  | pin => exact Or.inl rfl
  | sessionId => exact Or.inr ⟨Or.inr rfl, h.2⟩

theorem sessionStep_check {w : SessionWait} (hpc : s.thread = .wait w)
    (hpin : s.waitsForPin w = true) (hentered : s.loginPinEntered = true) :
    sessionStep rpcrypt s .check = some (sessionProceed s w) := by
  have hpred : sessionCheckStatePred s w = true := by
    unfold sessionCheckStatePred
    obtain ⟨hgo, rfl | ⟨rfl | rfl, hreq⟩⟩ := Session.waitsForPin_eq hpin
    · rw [hgo, hentered]
      rfl
    · rw [hgo, hreq]
      exact Bool.or_true _
    · rw [hgo, hreq]
      exact Bool.or_true _
  unfold sessionStep sessionThreadStep
  simp only
  rw [hpc]
  simp only
  rw [if_pos hpred]

/-- The PIN loop is entered, and the PIN forwarded in its first round. -/
theorem Session.canDeadlock_of_proceed {w : SessionWait} {l : CtrlLabel n}
    (hpin : s.waitsForPin w = true) (hentered : s.loginPinEntered = true)
    (hwaits : s.ctrlStateUse = .waits l) : (sessionProceed s w).CanDeadlock rpcrypt := by
  have hproceed : ∀ t : Session n, (t.shouldStop || t.ctrl.session.ctrlFailed) = false →
      t.loginPinEntered = true → t.ctrlStateUse = .waits l →
      (sessionProceed t .pin).CanDeadlock rpcrypt := fun t hgo ht hl => by
    unfold sessionProceed
    simp only
    rw [if_neg (by rw [hgo]; exact Bool.false_ne_true), if_pos ht]
    exact canDeadlock_of_setLoginPin rfl hl
  obtain ⟨hgo, rfl | ⟨hw, hreq⟩⟩ := Session.waitsForPin_eq hpin
  · exact hproceed s hgo hentered hwaits
  · have hloop : (sessionPinLoop s).CanDeadlock rpcrypt := by
      unfold sessionPinLoop
      rw [if_pos hreq]
      refine .of_step (sessionStep_check rfl ?_ hentered) (hproceed _ hgo hentered hwaits)
      unfold Session.waitsForPin
      rw [← Bool.not_or, Bool.and_true, Bool.not_eq_true']
      exact hgo
    unfold sessionProceed
    rcases hw with rfl | rfl
    · simp only
      rw [if_neg (by rw [hgo]; exact Bool.false_ne_true)]
      exact hloop
    · simp only
      rw [if_neg (by rw [(Bool.or_eq_false_iff.mp hgo).1]; exact Bool.false_ne_true)]
      exact hloop

/-- **Once the two have met, the session thread alone runs into the deadlock.** -/
theorem Session.canDeadlock_of_pinClash (h : s.pinClash = true) : s.CanDeadlock rpcrypt := by
  unfold Session.pinClash at h
  rw [Bool.and_eq_true] at h
  obtain ⟨hpin, hctrl⟩ := h
  obtain ⟨l, hwaits⟩ : ∃ l, s.ctrlStateUse = .waits l := by
    unfold Session.ctrlWaits at hctrl
    split at hctrl
    · next l hwaits => exact ⟨l, hwaits⟩
    · cases hctrl
  cases hwaitsFor : s.thread.waitsFor with
  | none =>
    rw [Session.pinOnItsWay_of_none hwaitsFor] at hpin
    cases hpc : s.thread with
    | setLoginPin => exact canDeadlock_of_setLoginPin hpc hwaits
    | lockNotif => exact canDeadlock_of_lockNotif hpc hwaits
    | _ =>
      rw [hpc] at hpin
      cases hpin
  | some w =>
    rw [Session.pinOnItsWay_of_waitsFor hwaitsFor, Bool.and_eq_true] at hpin
    obtain ⟨hpin, hentered⟩ := hpin
    have hwait : ({ s with thread := .wait w } : Session n).CanDeadlock rpcrypt :=
      .of_step (sessionStep_check rfl hpin hentered) (canDeadlock_of_proceed hpin hentered hwaits)
    have hwoken : ({ s with thread := .woken w false } : Session n).CanDeadlock rpcrypt :=
      .of_step (l := .relock) rfl hwait
    cases hpc : s.thread with
    | wait w' =>
      rw [hpc] at hwaitsFor
      cases hwaitsFor
      exact .of_step (sessionStep_check hpc hpin hentered) (canDeadlock_of_proceed hpin hentered hwaits)
    | asleep w' => 
      rw [hpc] at hwaitsFor
      cases hwaitsFor
      have hs : sessionStep rpcrypt s .wake = some { s with thread := .woken w false } := by
        unfold sessionStep sessionThreadStep
        rw [hpc]
      exact .of_step hs hwoken
    | woken w' timedOut =>
      rw [hpc] at hwaitsFor
      cases hwaitsFor
      have hs : sessionStep rpcrypt s .relock = some (if timedOut then sessionProceed s w else
          { s with thread := .wait w }) := by
        unfold sessionStep sessionThreadStep
        rw [hpc]
      cases timedOut with
      | true => exact .of_step hs (canDeadlock_of_proceed hpin hentered hwaits)
      | false => exact .of_step hs hwait
    | _ =>
      rw [hpc] at hwaitsFor
      cases hwaitsFor

/-- A step against the condition brings the two together. -/
theorem pinClash_of_not_pinApart (hG : pinApart s l = false)
    (hs : sessionStep rpcrypt s l = some s') : s'.pinClash = true := by
  unfold Session.pinClash
  rw [Bool.and_eq_true]
  cases l with
  | ctrlLockState l =>
    have hpin : s.pinOnItsWay = true := by
      rw [← Bool.not_eq_false']
      exact hG
    unfold sessionStep sessionCtrlStep at hs
    simp only at hs
    split at hs <;> cases hs
    exact ⟨hpin, rfl⟩
  | setLoginPin pin =>
    have hmeet : (s.ctrlWaits && s.pinAwaited) = true := by
      rw [← Bool.not_eq_false']
      exact hG
    rw [Bool.and_eq_true] at hmeet
    unfold sessionStep sessionUserStep at hs
    simp only at hs
    split at hs <;> cases hs
    refine ⟨?_, hmeet.1⟩
    unfold Session.pinOnItsWay
    simp only
    rw [Bool.and_true, Bool.or_eq_true]
    exact Or.inr hmeet.2
  | _ => cases hG

/-- **The two threads cannot deadlock as long as they stay apart**, and as soon as they do not, they
can, for good. -/
theorem session_deadlock (rpcrypt : RPCrypt) {s : Session n}
    (hr : ((sessionLts rpcrypt n).restrict fun s l => pinApart s l = true).Reachable s) :
    ¬ s.Deadlocked ∧
      ∀ l s', (sessionLts rpcrypt n).step s l s' → pinApart s l = false →
        ∃ labels t, Lts.runFun (sessionStep rpcrypt) s' labels = some t ∧ t.Deadlocked ∧
          ∀ l' t', (sessionLts rpcrypt n).step t l' t' → t'.Deadlocked := by
  have hshape : (sessionLts rpcrypt n).Invariant SessionShape :=
    ⟨fun _ => sessionShape_init, fun _ _ _ => sessionShape_step⟩
  have happart : ((sessionLts rpcrypt n).restrict fun s l => pinApart s l = true).Invariant
      fun s => SessionShape s ∧ s.pinClash = false := by
    refine hshape.restrict.and_of (fun s hi => ?_) fun s l s' hs hI hst => ?_
    · obtain ⟨_, _, _, _, rfl⟩ := hi
      rfl
    · exact pinApart_step hs hI hst.1 hst.2
  refine ⟨fun hd => ?_, fun l s' hs hG => ?_⟩
  · have hclash := (happart.reachable hr).2
    rw [hd.pinClash] at hclash
    cases hclash
  · obtain ⟨labels, t, hrun, ht⟩ :=
      (Session.canDeadlock_of_pinClash (pinClash_of_not_pinApart hG hs) : s'.CanDeadlock rpcrypt)
    exact ⟨labels, t, hrun, ht, fun l' t' hst => ht.step hst⟩

/-! ### Runs -/

/-- The console asks for a PIN. -/
def pinRequestFrame : Bytes := be32 0 ++ be16 4 ++ [0, 0]

def exampleSession : Session 0 := sessionInit false false [] exampleCtrl.recvBuf

/-- The session starts, and the console asks for a PIN. -/
def sessionToPin (rest : Bytes) : List (SessionLabel 0) :=
  [.lock, .requested true, .check, .timeout, .relock, .startCtrl true, .check, .ctrl .start,
    .ctrl (.connected 3 1 (pinRequestFrame ++ rest)), .ctrlLockState .round, .ctrlUseState, .ctrlSignal,
    .relock, .check, .check]

/-- A PIN is entered and forwarded while the ctrl thread waits for the console. -/
def pinForwarded : List (SessionLabel 0) := sessionToPin [] ++
  [.ctrl .round, .setLoginPin [0x31], .signal, .relock, .check, .copyPin true, .forward]

/-- The console asks once more just when the PIN is entered. -/
def pinRequestedTwice : List (SessionLabel 0) := sessionToPin pinRequestFrame ++
  [.setLoginPin [0x31], .signal, .relock, .ctrlLockState .round, .check, .copyPin true]

theorem pinForwarded_run :
    (Lts.runFun (Lts.guarded (sessionStep plainRPCrypt) fun s l => pinApart s l = true) exampleSession
        pinForwarded).map (fun s => (s.thread, s.ctrl.loginPinEntered, s.ctrl.loginPin))
      = some (.wait .sessionId, true, [0x31]) := by
  decide +kernel

theorem session_deadlock_pinForwarded : ∃ s : Session 0, s.thread = .wait .sessionId ∧
    s.ctrl.loginPinEntered = true ∧ s.ctrl.loginPin = [0x31] ∧ ¬ s.Deadlocked := by
  obtain ⟨s, hrun, hobs⟩ := Option.map_eq_some_iff.mp pinForwarded_run
  simp only [Prod.mk.injEq] at hobs
  refine ⟨s, hobs.1, hobs.2.1, hobs.2.2, (session_deadlock plainRPCrypt ?_).1⟩
  exact Lts.Reachable.runGuarded (.init ⟨_, _, _, _, rfl⟩) hrun

theorem pinRequestedTwice_run :
    (Lts.runFun (sessionStep plainRPCrypt) exampleSession pinRequestedTwice).map
        (fun s => (s.thread, s.ctrlWaits))
      = some (.lockNotif, true) := by
  decide +kernel

/-- **The two threads can deadlock.** -/
theorem not_session_deadlock :
    ∃ s : Session 0, (sessionLts plainRPCrypt 0).Reachable s ∧ s.Deadlocked := by
  obtain ⟨s, hrun, hobs⟩ := Option.map_eq_some_iff.mp pinRequestedTwice_run
  simp only [Prod.mk.injEq] at hobs
  have hinit : (sessionLts plainRPCrypt 0).Reachable exampleSession := .init ⟨_, _, _, _, rfl⟩
  refine ⟨s, hinit.runFun hrun, hobs.1, ?_⟩
  have hwaits := hobs.2
  unfold Session.ctrlWaits at hwaits
  split at hwaits
  · next l huse => exact ⟨l, huse⟩
  · cases hwaits

end Chiaki
