import Chiaki.Properties.Session.Deadlock

/-!
# When ctrl ends

A session thread that waits for the session id or for a PIN is released when ctrl fails. It is not
when the ctrl thread ends without a word: after an error of the select, or when the console closes
the connection.
-/

namespace Chiaki

open Infra

variable {n : Nat} {rpcrypt : RPCrypt} {s s' : Session n} {l : SessionLabel n}

/-- The ctrl thread has ended only because it was asked to, or it has set `ctrl_failed`. -/
def Session.CtrlAnswers (s : Session n) : Prop :=
  s.ctrl.thread = .exited → s.ctrl.shouldStop = true ∨ s.ctrl.session.ctrlFailed = true

/-- Once the ctrl thread has returned, no wait of the session thread goes on. -/
def Session.Released (s : Session n) : Prop :=
  s.ctrl.thread = .exited → s.ctrlFree = true →
    ∀ w, s.thread.waitsFor = some w → sessionCheckStatePred s w = true ∧ s.thread ≠ .asleep w

/-- The connection is not closed and the select does not fail, unless the thread has been asked to
stop already. -/
def endsLoudly (s : Session n) : SessionLabel n → Bool
  | .ctrl l => !silentExit s.ctrl l || s.ctrl.shouldStop
  | _ => true

/-! ## The invariant -/

/-- What only the ctrl thread and `chiaki_ctrl_stop` change. -/
structure CtrlEndKept (c c' : Ctrl n) : Prop where
  thread : c'.thread = c.thread
  shouldStop : c'.shouldStop = c.shouldStop
  ctrlFailed : c'.session.ctrlFailed = c.session.ctrlFailed

/-- What a step is for the end of ctrl. -/
inductive CtrlEndMove (rpcrypt : RPCrypt) (s : Session n) (l : SessionLabel n) (s' : Session n) : Prop
  | kept (kept : CtrlEndKept s.ctrl s'.ctrl) (loud : endsLoudly s l = true)
  | stopped (ctrl : s'.ctrl = ctrlStop s.ctrl) (loud : endsLoudly s l = true)
  | step {cl : CtrlLabel n} (label : l = .ctrl cl) (step : ctrlStep rpcrypt s.ctrl cl = some s'.ctrl)
      (notStop : cl ≠ .stop)
  | stateStep {cl : CtrlLabel n} (step : ctrlStep rpcrypt s.ctrl cl = some s'.ctrl)
      (notStop : cl ≠ .stop) (quiet : silentExit s.ctrl cl = false) (loud : endsLoudly s l = true)

@[simp]
theorem sessionProceed_ctrlEnd (s : Session n) (w : SessionWait) :
    CtrlEndKept s.ctrl (sessionProceed s w).ctrl := by
  have hloop : CtrlEndKept s.ctrl (sessionPinLoop s).ctrl := by
    unfold sessionPinLoop
    split
    · exact ⟨rfl, rfl, rfl⟩
    · split <;> exact ⟨rfl, rfl, rfl⟩
  unfold sessionProceed
  cases w with
  | delay => exact ⟨rfl, rfl, rfl⟩
  | ctrlStart | sessionId =>
    simp only
    split
    · exact ⟨rfl, rfl, rfl⟩
    · exact hloop
  | pin =>
    simp only
    split
    · exact ⟨rfl, rfl, rfl⟩
    · split <;> exact ⟨rfl, rfl, rfl⟩

theorem silentExit_of_usesState {c : Ctrl n} {cl : CtrlLabel n} (h : cl.usesState = true) :
    silentExit c cl = false := by
  unfold CtrlLabel.usesState at h
  split at h <;> first | rfl | cases h

theorem sessionStep_ctrlEnd (hshape : SessionShape s) (hs : sessionStep rpcrypt s l = some s') :
    CtrlEndMove rpcrypt s l s' := by
  by_cases hctrl : ∃ cl, l = .ctrl cl
  · obtain ⟨cl, rfl⟩ := hctrl
    unfold sessionStep sessionCtrlStep at hs
    simp only at hs
    split at hs
    · next hcond =>
      rw [Bool.and_eq_true] at hcond
      obtain ⟨ctrl, hstep, rfl⟩ := Option.map_eq_some_iff.mp hs
      refine .step rfl hstep fun hstop => ?_
      rw [hstop] at hcond
      cases hcond.1
    · cases hs
  · have hloud : endsLoudly s l = true := by
      cases l with
      | ctrl cl => exact absurd ⟨cl, rfl⟩ hctrl
      | _ => rfl
    cases sessionStep_move hs with
    | goto | park | startCtrl | copyPin | dropPin | forward | ctrlLockState | setLoginPin =>
      exact .kept ⟨rfl, rfl, rfl⟩ hloud
    | proceed => exact .kept (sessionProceed_ctrlEnd s _) hloud
    | stopCtrl => exact .stopped rfl hloud
    | ctrl => exact absurd ⟨_, rfl⟩ hctrl
    | @ctrlUseState cl _ hwaits _ hstep =>
      have huses := hshape.waits cl hwaits
      refine .stateStep hstep (fun hstop => ?_) (silentExit_of_usesState huses) hloud
      rw [hstop] at huses
      cases huses
    | ctrlSignal | stop | signal =>
      obtain ⟨pc, hs', -⟩ := s.condSignal_eq
      rw [hs']
      exact .kept ⟨rfl, rfl, rfl⟩ hloud

/-! ### `ctrl_failed` -/

theorem ctrlStep_failed_exited {c c' : Ctrl n} {cl : CtrlLabel n}
    (hs : ctrlStep rpcrypt c cl = some c')
    (h : c.session.ctrlFailed = true → c.thread = .exited) (hfailed : c'.session.ctrlFailed = true) :
    c'.thread = .exited := by
  cases ctrlStep_exit hs with
  | failed _ hthread | silent _ hthread | stopped _ hthread => exact hthread
  | goesOn hsame hthread =>
    rw [hsame] at hfailed
    exact hthread.mpr (h hfailed)

theorem sessionStep_failed (hshape : SessionShape s)
    (h : s.ctrl.session.ctrlFailed = true → s.ctrl.thread = .exited)
    (hs : sessionStep rpcrypt s l = some s') (hfailed : s'.ctrl.session.ctrlFailed = true) :
    s'.ctrl.thread = .exited := by
  cases sessionStep_ctrlEnd hshape hs with
  | kept hkept =>
    rw [hkept.ctrlFailed] at hfailed
    rw [hkept.thread]
    exact h hfailed
  | stopped hctrl =>
    rw [hctrl] at hfailed ⊢
    exact h hfailed
  | step _ hstep | stateStep hstep => exact ctrlStep_failed_exited hstep h hfailed

/-- A step of ctrl that ends it says so, unless it is a silent one. -/
theorem ctrlStep_answers {c c' : Ctrl n} {cl : CtrlLabel n} (hs : ctrlStep rpcrypt c cl = some c')
    (hcl : cl ≠ .stop) (h : c.thread = .exited → c.shouldStop = true ∨ c.session.ctrlFailed = true)
    (hfailed : c.session.ctrlFailed = true → c.thread = .exited) :
    (c'.thread = .exited → c'.shouldStop = true ∨ c'.session.ctrlFailed = true) ↔
      (!silentExit c cl || c.shouldStop) = true := by
  have hstop := ctrlStep_shouldStop hs hcl
  cases ctrlStep_exit hs with
  | failed hf _ htakes =>
    have hloud : silentExit c cl = false :=
      silentExit_of_usesState (ctrlTakesState_usesState htakes)
    rw [hloud]
    exact ⟨fun _ => rfl, fun _ _ => Or.inr hf⟩
  | silent hf hthread hrunning hsilent =>
    have hnot : c.session.ctrlFailed ≠ true := fun hf' => hrunning (hfailed hf')
    rw [hsilent, hstop, hf]
    refine ⟨fun hall => (hall hthread).resolve_right hnot, fun hstop' _ => Or.inl hstop'⟩
  | stopped _ _ hstop' hloud =>
    rw [hloud, hstop]
    exact ⟨fun _ => rfl, fun _ _ => Or.inl hstop'⟩
  | goesOn hf hthread hloud =>
    rw [hloud, hstop, hf]
    exact ⟨fun _ => rfl, fun _ hexited => h (hthread.mp hexited)⟩

theorem sessionStep_answers (hshape : SessionShape s) (h : s.CtrlAnswers)
    (hfailed : s.ctrl.session.ctrlFailed = true → s.ctrl.thread = .exited)
    (hs : sessionStep rpcrypt s l = some s') : s'.CtrlAnswers ↔ endsLoudly s l = true := by
  unfold Session.CtrlAnswers at h ⊢
  cases sessionStep_ctrlEnd hshape hs with
  | kept hkept hloud =>
    rw [hkept.thread, hkept.shouldStop, hkept.ctrlFailed]
    exact ⟨fun _ => hloud, fun _ => h⟩
  | stopped hctrl hloud =>
    rw [hctrl]
    exact ⟨fun _ => hloud, fun _ _ => Or.inl rfl⟩
  | step hl hstep hcl =>
    rw [hl]
    exact ctrlStep_answers hstep hcl h hfailed
  | stateStep hstep hcl hquiet hloud =>
    rw [hloud]
    refine ⟨fun _ => rfl, fun _ => (ctrlStep_answers hstep hcl h hfailed).mpr ?_⟩
    rw [hquiet]
    rfl

/-! ### The waits -/

/-- When ctrl has failed, the session thread has been woken, or will be. -/
structure SessionReleaseInvariant (s : Session n) : Prop where
  failed : s.ctrl.session.ctrlFailed = true → s.ctrl.thread = .exited
  asleep : ∀ w, s.thread = .asleep w → s.ctrl.session.ctrlFailed = false ∨ s.ctrlStateUse = .signals

theorem Session.condSignal_awake (s : Session n) (w : SessionWait) :
    s.condSignal.thread ≠ .asleep w := by
  unfold Session.condSignal
  split
  · exact SessionPc.noConfusion
  · next hpc => exact hpc w

theorem sessionProceed_awake (s : Session n) (w w' : SessionWait) :
    (sessionProceed s w).thread ≠ .asleep w' := by
  have hloop : (sessionPinLoop s).thread ≠ .asleep w' := by
    unfold sessionPinLoop
    split
    · exact SessionPc.noConfusion
    · split <;> exact SessionPc.noConfusion
  unfold sessionProceed
  cases w with
  | delay => exact SessionPc.noConfusion
  | ctrlStart | sessionId =>
    simp only
    split
    · exact SessionPc.noConfusion
    · exact hloop
  | pin =>
    simp only
    split
    · exact SessionPc.noConfusion
    · split <;> exact SessionPc.noConfusion

theorem sessionStep_asleep
    (h : ∀ w, s.thread = .asleep w → s.ctrl.session.ctrlFailed = false ∨ s.ctrlStateUse = .signals)
    (hs : sessionStep rpcrypt s l = some s') (w : SessionWait) (hw : s'.thread = .asleep w) :
    s'.ctrl.session.ctrlFailed = false ∨ s'.ctrlStateUse = .signals := by
  cases sessionStep_move hs with
  | goto _ _ hto =>
    cases hw
    rcases hto with hto | hto <;> cases hto
  | park _ hto hpred =>
    cases hw
    cases hto
    have hquiet := hpred rfl
    unfold sessionCheckStatePred at hquiet
    rw [Bool.or_eq_false_iff, Bool.or_eq_false_iff] at hquiet
    exact Or.inl hquiet.1.2
  | proceed => exact absurd hw (sessionProceed_awake s _ w)
  | startCtrl | copyPin | dropPin | forward | stopCtrl => cases hw
  | ctrl _ htakes hstep =>
    rw [ctrlStep_session hstep htakes]
    exact h w hw
  | @ctrlLockState cl _ hlabel htakes =>
    have hfree : s.ctrlFree = true := by
      cases cl with
      | start | setLoginPin | stop | signal => cases htakes
      | _ => exact hlabel
    refine (h w hw).imp_right fun hsignals => ?_
    unfold Session.ctrlFree at hfree
    rw [hsignals] at hfree
    cases hfree
  | ctrlUseState => exact Or.inr rfl
  | ctrlSignal | stop | signal => exact absurd hw (s.condSignal_awake w)
  | setLoginPin => exact h w hw

theorem SessionReleaseInvariant.step (hshape : SessionShape s) (h : SessionReleaseInvariant s)
    (hs : sessionStep rpcrypt s l = some s') : SessionReleaseInvariant s' :=
  ⟨sessionStep_failed hshape h.failed hs, sessionStep_asleep h.asleep hs⟩

/-- Who is not asked to stop has failed, and has said so. -/
theorem SessionReleaseInvariant.released (hshape : SessionShape s) (h : SessionReleaseInvariant s)
    (hs : s.CtrlAnswers) : s.Released := by
  intro hexited hfree w hw
  rcases hs hexited with hstop | hfailed
  · rcases hshape.shouldStop hstop with hpc | hpc <;> rw [hpc] at hw <;> cases hw
  · refine ⟨?_, fun hasleep => ?_⟩
    · unfold sessionCheckStatePred
      rw [hfailed, Bool.or_true]
      rfl
    · rcases h.asleep w hasleep with hnot | hsignals
      · rw [hnot] at hfailed
        cases hfailed
      · unfold Session.ctrlFree at hfree
        rw [hsignals] at hfree
        cases hfree

/-- **As long as the ctrl thread does not end silently, it ends because it was asked to or sets
`ctrl_failed`**, and no wait of the session thread outlives it. The condition leaves out the silent
ends, and nothing else. -/
theorem session_released (rpcrypt : RPCrypt) {s : Session n}
    (hr : ((sessionLts rpcrypt n).restrict fun s l => endsLoudly s l = true).Reachable s) :
    s.CtrlAnswers ∧ s.Released ∧
      ∀ l s', (sessionLts rpcrypt n).step s l s' → (s'.CtrlAnswers ↔ endsLoudly s l = true) := by
  have hshape : (sessionLts rpcrypt n).Invariant SessionShape :=
    ⟨fun _ => sessionShape_init, fun _ _ _ => sessionShape_step⟩
  have hrelease : (sessionLts rpcrypt n).Invariant fun s => SessionShape s ∧ SessionReleaseInvariant s :=
    hshape.and_of
      (fun s hi => by
        obtain ⟨_, _, _, _, rfl⟩ := hi
        exact ⟨fun hf => (by cases hf), fun w hw => (by cases hw)⟩)
      fun _ _ _ hs h hst => h.step hs hst
  have hanswers : ((sessionLts rpcrypt n).restrict fun s l => endsLoudly s l = true).Invariant
      fun s => (SessionShape s ∧ SessionReleaseInvariant s) ∧ s.CtrlAnswers :=
    hrelease.restrict.and_of
      (fun s hi => by
        obtain ⟨_, _, _, _, rfl⟩ := hi
        exact fun hf => by cases hf)
      fun _ _ _ hs h hst => (sessionStep_answers hs.1 h hs.2.failed hst.2).mpr hst.1
  obtain ⟨⟨hs, hi⟩, ha⟩ := hanswers.reachable hr
  exact ⟨ha, hi.released hs ha, fun l s' hst => sessionStep_answers hs ha hi.failed hst⟩

/-! ## What a silent end does -/

/-- The session thread waits for a PIN, and the ctrl thread has ended without a word. -/
structure Session.Hung (s : Session n) : Prop where
  exited : s.ctrl.thread = .exited
  ctrlFailed : s.ctrl.session.ctrlFailed = false
  ctrlFree : s.ctrlFree = true
  shouldStop : s.shouldStop = false
  loginPinEntered : s.loginPinEntered = false
  waits : s.thread = .wait .pin ∨ s.thread = .asleep .pin ∨ s.thread = .woken .pin false

/-- A call of the user. -/
def SessionLabel.fromUser : SessionLabel n → Bool
  | .stop | .setLoginPin _ => true
  | _ => false

theorem Session.Hung.of_pc (h : s.Hung) {pc : SessionPc}
    (hpc : pc = .wait .pin ∨ pc = .asleep .pin ∨ pc = .woken .pin false) :
    ({ s with thread := pc } : Session n).Hung :=
  ⟨h.exited, h.ctrlFailed, h.ctrlFree, h.shouldStop, h.loginPinEntered, hpc⟩

theorem Session.Hung.threadStep (h : s.Hung) (hs : sessionThreadStep s l = some s') : s'.Hung := by
  have hpred : sessionCheckStatePred s .pin = false := by
    unfold sessionCheckStatePred
    rw [h.shouldStop, h.ctrlFailed, h.loginPinEntered]
    rfl
  unfold sessionThreadStep at hs
  rcases h.waits with hpc | hpc | hpc
  · cases l with
    | check =>
      simp only [hpc] at hs
      rw [if_neg (by rw [hpred]; exact Bool.false_ne_true)] at hs
      cases hs
      exact h.of_pc (Or.inr (Or.inl rfl))
    | _ => simp [hpc] at hs
  · cases l with
    | wake =>
      simp only [hpc] at hs
      cases hs
      exact h.of_pc (Or.inr (Or.inr rfl))
    | _ => simp [hpc] at hs
  · cases l with
    | relock =>
      simp only [hpc] at hs
      cases hs
      exact h.of_pc (Or.inl rfl)
    | _ => simp [hpc] at hs

/-- **Only a call of the user gets the session thread out of there.** -/
theorem Session.Hung.step (h : s.Hung) (hl : l.fromUser = false)
    (hs : sessionStep rpcrypt s l = some s') : s'.Hung := by
  have huse : s.ctrlStateUse = .none := by
    have hfree := h.ctrlFree
    unfold Session.ctrlFree at hfree
    split at hfree
    · assumption
    · cases hfree
  have hthread : sessionStep rpcrypt s l = sessionThreadStep s l → s'.Hung := fun he =>
    h.threadStep (he ▸ hs)
  cases l with
  | stop | setLoginPin => cases hl
  | ctrl cl =>
    unfold sessionStep sessionCtrlStep at hs
    simp only at hs
    split at hs
    · next hcond =>
      rw [Bool.and_eq_true, Bool.not_eq_true'] at hcond
      obtain ⟨ctrl, hstep, rfl⟩ := Option.map_eq_some_iff.mp hs
      refine ⟨?_, ?_, h.ctrlFree, h.shouldStop, h.loginPinEntered, h.waits⟩
      · exact (ctrlStep_idle hstep (Or.inr h.exited)).1.trans h.exited
      · exact (congrArg CtrlSession.ctrlFailed (ctrlStep_session hstep hcond.2)).trans h.ctrlFailed
    · cases hs
  | ctrlLockState cl =>
    unfold sessionStep sessionCtrlStep at hs
    simp only at hs
    split at hs
    · next hcond =>
      -- the thread has ended, so it does not take the mutex
      rw [Bool.and_eq_true, Bool.and_eq_true] at hcond
      obtain ⟨ctrl, hstep⟩ := Option.isSome_iff_exists.mp hcond.2
      rw [(ctrlStep_idle hstep (Or.inr h.exited)).2] at hcond
      cases hcond.1.2
    · cases hs
  | ctrlUseState | ctrlSignal =>
    unfold sessionStep sessionCtrlStep at hs
    simp only [huse] at hs
    cases hs
  | signal =>
    unfold sessionStep sessionUserStep at hs
    simp only at hs
    split at hs
    · cases hs
    · cases hs
      have hpin : ∀ pc, s.condSignal = { s with thread := pc } →
          (pc = .wait .pin ∨ pc = .asleep .pin ∨ pc = .woken .pin false) →
          ({ s.condSignal with signals := s.signals - 1 } : Session n).Hung := fun pc hs' hpc => by
        rw [hs']
        exact ⟨h.exited, h.ctrlFailed, h.ctrlFree, h.shouldStop, h.loginPinEntered, hpc⟩
      obtain ⟨pc, hs', rfl | ⟨w, hasleep, rfl⟩⟩ := s.condSignal_eq
      · exact hpin _ hs' h.waits
      · refine hpin _ hs' ?_
        rcases h.waits with hpc | hpc | hpc <;> rw [hpc] at hasleep <;> cases hasleep
        exact Or.inr (Or.inr rfl)
  | _ => exact hthread rfl

/-- Whatever happens behind it, the session thread waits until the user does something. -/
theorem Session.Hung.forever (h : s.Hung) {t : Session n}
    (hr : ((Lts.ofFun (· = s) (sessionStep rpcrypt)).restrict
      fun _ l => l.fromUser = false).Reachable t) : t.Hung := by
  have hinv : ((Lts.ofFun (· = s) (sessionStep rpcrypt)).restrict
      fun _ l => l.fromUser = false).Invariant Session.Hung :=
    ⟨fun t ht => ht ▸ h, fun _ _ _ ht hst => ht.step hst.1 hst.2⟩
  exact hinv.reachable hr

/-! ### Runs -/

/-- The receiving end of the socket fails while the session waits for a PIN. -/
def recvFailed : List (SessionLabel 0) := sessionToPin [] ++
  [.ctrl .round, .ctrl (.select .success), .ctrl .lock, .ctrlLockState (.recv .error), .ctrlUseState,
    .ctrlSignal]

/-- The console closes the connection while the session waits for a PIN. -/
def closedAtPin : List (SessionLabel 0) := sessionToPin [] ++
  [.ctrl .round, .ctrl (.select .success), .ctrl .lock, .ctrl (.recv .closed)]

/-- The select fails while the session waits for a PIN. -/
def selectFailedAtPin : List (SessionLabel 0) := sessionToPin [] ++
  [.ctrl .round, .ctrl (.select .unknown), .ctrl .lock]

theorem recvFailed_run :
    (Lts.runFun (Lts.guarded (sessionStep plainRPCrypt) fun s l => endsLoudly s l = true) exampleSession
        recvFailed).map (fun s => (s.thread, s.ctrl.thread, s.ctrlFree))
      = some (.woken .pin false, .exited, true) := by
  decide +kernel

theorem session_released_recvFailed : ∃ s : Session 0, s.thread = .woken .pin false ∧
    s.ctrl.thread = .exited ∧ s.CtrlAnswers ∧ sessionCheckStatePred s .pin = true := by
  obtain ⟨s, hrun, hobs⟩ := Option.map_eq_some_iff.mp recvFailed_run
  simp only [Prod.mk.injEq] at hobs
  obtain ⟨hpc, hexited, hfree⟩ := hobs
  obtain ⟨hanswers, hreleased, -⟩ :=
    session_released plainRPCrypt (.runGuarded (.init ⟨_, _, _, _, rfl⟩) hrun)
  exact ⟨s, hpc, hexited, hanswers, (hreleased hexited hfree .pin (by rw [hpc]; rfl)).1⟩

theorem silentAtPin_run : ∀ labels ∈ [closedAtPin, selectFailedAtPin],
    (Lts.runFun (sessionStep plainRPCrypt) exampleSession labels).map
        (fun s => (s.thread, s.ctrl.thread, s.ctrlFree,
          s.ctrl.shouldStop || s.ctrl.session.ctrlFailed || s.shouldStop || s.loginPinEntered))
      = some (.asleep .pin, .exited, true, false) := by
  intro labels hlabels
  rcases List.mem_pair.mp hlabels with rfl | rfl <;> decide +kernel

/-- A run that leaves the session thread waiting for a PIN. Then nothing but a call of the user ends
the wait. -/
def LeftWaiting (labels : List (SessionLabel 0)) : Prop :=
  ∃ s : Session 0, Lts.runFun (sessionStep plainRPCrypt) exampleSession labels = some s ∧
    (sessionLts plainRPCrypt 0).Reachable s ∧ ¬ s.CtrlAnswers ∧ ¬ s.Released ∧
    ∀ t, ((Lts.ofFun (· = s) (sessionStep plainRPCrypt)).restrict
      fun _ l => l.fromUser = false).Reachable t → t.thread.waitsFor = some .pin

theorem leftWaiting_silentAtPin {labels : List (SessionLabel 0)}
    (hlabels : labels ∈ [closedAtPin, selectFailedAtPin]) : LeftWaiting labels := by
  obtain ⟨s, hrun, hobs⟩ := Option.map_eq_some_iff.mp (silentAtPin_run labels hlabels)
  simp only [Prod.mk.injEq, Bool.or_eq_false_iff] at hobs
  obtain ⟨hpc, hexited, hfree, ⟨⟨hstop, hfailed⟩, hstop'⟩, hentered⟩ := hobs
  have hinit : (sessionLts plainRPCrypt 0).Reachable exampleSession := .init ⟨_, _, _, _, rfl⟩
  refine ⟨s, hrun, hinit.runFun hrun, fun ha => ?_, fun hreleased => ?_, fun t ht => ?_⟩
  · rcases ha hexited with h | h
    · rw [hstop] at h
      cases h
    · rw [hfailed] at h
      cases h
  · exact (hreleased hexited hfree .pin (by rw [hpc]; rfl)).2 hpc
  · have hung : s.Hung := ⟨hexited, hfailed, hfree, hstop', hentered, Or.inr (Or.inl hpc)⟩
    rcases (hung.forever ht).waits with hw | hw | hw <;> rw [hw] <;> rfl

/-- **The ctrl thread can end silently**, when the console closes the connection and when the select
fails. -/
theorem not_session_released : LeftWaiting closedAtPin ∧ LeftWaiting selectFailedAtPin :=
  ⟨leftWaiting_silentAtPin (by simp), leftWaiting_silentAtPin (by simp)⟩

end Chiaki
