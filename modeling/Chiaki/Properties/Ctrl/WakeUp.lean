import Chiaki.Infra.Transition
import Chiaki.Properties.Ctrl.Message

/-!
# Waking up the ctrl thread

When the ctrl thread waits, its pipe is signaled only if there is work for it, and whoever has
posted work has signaled or is about to (`ctrlWakeUp_of_resets`). This holds as long as the thread
resets the pipe neither in between a message and its signal nor after a request to stop.

* A signal that comes behind the reset is never taken out again, and a request to stop is lost
  by the reset that follows a login PIN (`not_ctrlWakeUp`).
-/

namespace Chiaki

open Infra

variable {n : Nat} {rpcrypt : RPCrypt} {s s' : Ctrl n} {l : CtrlLabel n} {t : Fin n}
  {message : CtrlMessage}

/-! ## The property -/

/-- There is something to do for the ctrl thread. -/
def Ctrl.hasWork (s : Ctrl n) : Prop :=
  s.msgQueue ≠ [] ∨ s.loginPinEntered = true ∨ s.shouldStop = true

/-- Waiting in `chiaki_stop_pipe_select_single`. -/
structure CtrlWakeUp (s : Ctrl n) : Prop where
  work : s.thread = .select → s.notifPipe = true → s.hasWork
  stop : s.thread = .select → s.shouldStop = true → s.notifPipe = true
  loginPin : s.thread = .select → s.loginPinEntered = true → s.notifPipe = true
  message : s.thread = .select → s.msgQueue ≠ [] →
    s.notifPipe = true ∨ ∃ t message, s.callers t = some message ∧ message ∈ s.msgQueue

/-- The pipe is not reset between a message and its signal, nor after a request to stop. -/
def resetInTime (s : Ctrl n) : CtrlLabel n → Bool
  | .reset => !s.shouldStop && decide (∀ t, s.callers t = none)
  | _ => true

/-! ## The invariant -/

/-- What was posted may be gone from the queue already. -/
def CtrlPc.hasTaken : CtrlPc → Bool
  | .canceled msgQueueUpdated => msgQueueUpdated
  | .reset | .exited => true
  | _ => false

/-- The thread has seen the signal, and not reset the pipe. -/
def CtrlPc.isAwake : CtrlPc → Bool
  | .selected .canceled | .canceled _ | .reset => true
  | _ => false

structure CtrlWakeUpInvariant (s : Ctrl n) : Prop where
  work : s.notifPipe = true → s.hasWork ∨ s.thread.hasTaken = true
  stop : s.shouldStop = true → s.notifPipe = true
  loginPin : s.loginPinEntered = true → s.notifPipe = true
  message : s.msgQueue ≠ [] →
    s.notifPipe = true ∨ ∃ t message, s.callers t = some message ∧ message ∈ s.msgQueue
  posted : ∀ t message, s.callers t = some message →
    message ∈ s.msgQueue ∨ s.thread.hasTaken = true
  awake : s.thread.isAwake = true → s.notifPipe = true
  reset : s.thread = .reset → s.msgQueue = [] ∧ s.loginPinEntered = false

/-- The thread goes on without a look at what is posted. -/
theorem CtrlWakeUpInvariant.of_thread (h : CtrlWakeUpInvariant s) (hnotif : s'.notif = s.notif)
    (htaken : s.thread.hasTaken = true → s'.thread.hasTaken = true)
    (hawake : s'.thread.isAwake = true → s.notifPipe = true) (hreset : s'.thread ≠ .reset) :
    CtrlWakeUpInvariant s' := by
  have hstop : s'.shouldStop = s.shouldStop := congrArg CtrlNotif.shouldStop hnotif
  have hpin : s'.loginPinEntered = s.loginPinEntered := congrArg CtrlNotif.loginPinEntered hnotif
  have hqueue : s'.msgQueue = s.msgQueue := congrArg CtrlNotif.msgQueue hnotif
  have hpipe : s'.notifPipe = s.notifPipe := congrArg CtrlNotif.notifPipe hnotif
  have hcallers : s'.callers = s.callers := congrArg CtrlNotif.callers hnotif
  refine ⟨fun hp => ?_, ?_, ?_, ?_, fun t message ht => ?_, ?_, fun hr => absurd hr hreset⟩
  · rw [hpipe] at hp
    unfold Ctrl.hasWork
    rw [hqueue, hpin, hstop]
    exact (h.work hp).imp_right htaken
  · rw [hstop, hpipe]
    exact h.stop
  · rw [hpin, hpipe]
    exact h.loginPin
  · rw [hqueue, hpipe, hcallers]
    exact h.message
  · rw [hcallers] at ht
    rw [hqueue]
    exact (h.posted t message ht).imp_right htaken
  · rw [hpipe]
    exact hawake

theorem ctrlWakeUpInvariant_init (h : CtrlInitial s) : CtrlWakeUpInvariant s := by
  obtain ⟨session, recvBuf, rfl⟩ := h
  exact ⟨fun hp => (by cases hp), fun hp => (by cases hp), fun hp => (by cases hp),
    fun hq => absurd rfl hq, fun _ _ ht => (by cases ht), fun ha => (by cases ha),
    fun hr => (by cases hr)⟩

/-! ### The ctrl thread -/

theorem CtrlWakeUpInvariant.round (h : CtrlWakeUpInvariant s) (hpc : s.thread = .loop) :
    CtrlWakeUpInvariant (ctrlRound rpcrypt s) := by
  have htaken : s.thread.hasTaken = true → (ctrlRound rpcrypt s).thread.hasTaken = true := by
    rw [hpc]
    exact fun hf => (by cases hf)
  rcases ctrlRound_move rpcrypt s with ⟨hs', -⟩ | ⟨hs', -, -⟩ | ⟨hd, f, hthread⟩ | ⟨hd, hthread, -, -, -⟩
  · rw [hs'] at htaken ⊢
    exact h.of_thread rfl htaken (fun hf => (by cases hf)) CtrlPc.noConfusion
  · rw [hs'] at htaken ⊢
    exact h.of_thread rfl htaken (fun hf => (by cases hf)) CtrlPc.noConfusion
  · refine h.of_thread hd.notif htaken (fun hf => ?_) ?_
    · rw [hthread] at hf
      cases hf
    · rw [hthread]
      exact CtrlPc.noConfusion
  · rw [hpc] at hthread
    refine h.of_thread hd.notif htaken (fun hf => ?_) ?_
    · rw [hthread] at hf
      cases hf
    · rw [hthread]
      exact CtrlPc.noConfusion

/-- The thread sends what is posted. Nothing is left to do when it goes for the reset. -/
theorem CtrlWakeUpInvariant.canceled (h : CtrlWakeUpInvariant s) {msgQueueUpdated : Bool}
    (hpc : s.thread = .canceled msgQueueUpdated) :
    CtrlWakeUpInvariant (ctrlCanceled rpcrypt s msgQueueUpdated) := by
  have hpipe : s.notifPipe = true := h.awake (by rw [hpc]; rfl)
  unfold ctrlCanceled
  split
  · next message next _ =>
    have hsend := (ctrlMessageSend_handled s message.type message.payload :
      CtrlHandled 0 s (ctrlMessageSend rpcrypt s message.type message.payload)).notif
    have hp : (ctrlMessageSend rpcrypt s message.type message.payload).notifPipe = true :=
      (congrArg CtrlNotif.notifPipe hsend).trans hpipe
    exact ⟨fun _ => Or.inr rfl, fun _ => hp, fun _ => hp, fun _ => Or.inl hp,
      fun _ _ _ => Or.inr rfl, fun _ => hp, fun hr => (by cases hr)⟩
  · next hqueue =>
    split
    · have hsend := (ctrlMessageSend_handled s ctrlMessageTypeLoginPinRep s.loginPin :
        CtrlHandled 0 s (ctrlMessageSend rpcrypt s ctrlMessageTypeLoginPinRep s.loginPin)).notif
      have hp : (ctrlMessageSend rpcrypt s ctrlMessageTypeLoginPinRep s.loginPin).notifPipe = true :=
        (congrArg CtrlNotif.notifPipe hsend).trans hpipe
      have hq : (ctrlMessageSend rpcrypt s ctrlMessageTypeLoginPinRep s.loginPin).msgQueue = [] :=
        (congrArg CtrlNotif.msgQueue hsend).trans hqueue
      exact ⟨fun _ => Or.inr rfl, fun _ => hp, fun _ => hp, fun _ => Or.inl hp,
        fun _ _ _ => Or.inr rfl, fun _ => hp, fun _ => ⟨hq, rfl⟩⟩
    · next hpin =>
      split
      · exact ⟨fun _ => Or.inr rfl, fun _ => hpipe, fun _ => hpipe, fun _ => Or.inl hpipe,
          fun _ _ _ => Or.inr rfl, fun hf => (by cases hf), fun hr => (by cases hr)⟩
      · next hstop =>
        split
        · exact ⟨fun _ => Or.inr rfl, fun _ => hpipe, fun _ => hpipe, fun _ => Or.inl hpipe,
            fun _ _ _ => Or.inr rfl, fun _ => hpipe, fun _ => ⟨hqueue, Bool.not_eq_true _ ▸ hpin⟩⟩
        · next hupdated =>
          -- there was work, so the thread has found it
          rcases h.work hpipe with (hq | hp | hs) | htaken
          · exact absurd hqueue hq
          · exact absurd hp hpin
          · exact absurd hs hstop
          · rw [hpc] at htaken
            exact absurd htaken hupdated

theorem CtrlWakeUpInvariant.reset_step (h : CtrlWakeUpInvariant s) (hpc : s.thread = .reset)
    (hG : resetInTime s .reset = true) :
    CtrlWakeUpInvariant { s with notifPipe := false, thread := .loop } := by
  simp only [resetInTime, Bool.and_eq_true, Bool.not_eq_true', decide_eq_true_eq] at hG
  obtain ⟨hstop, hcallers⟩ := hG
  obtain ⟨hqueue, hpin⟩ := h.reset hpc
  refine ⟨fun hp => (by cases hp), fun hs => ?_, fun hp => ?_, fun hq => absurd hqueue hq,
    fun t message ht => ?_, fun ha => (by cases ha), fun hr => (by cases hr)⟩
  · rw [show s.shouldStop = true from hs] at hstop
    cases hstop
  · rw [show s.loginPinEntered = true from hp] at hpin
    cases hpin
  · have hnone := hcallers t
    rw [show s.callers t = some message from ht] at hnone
    cases hnone

/-! ### The other threads -/

theorem CtrlWakeUpInvariant.post (h : CtrlWakeUpInvariant s) (hfree : s.thread.locked = false) :
    CtrlWakeUpInvariant (ctrlPost s t message) where
  work := fun _ => Or.inl (Or.inl (List.append_ne_nil_of_right_ne_nil _ (List.cons_ne_nil _ _)))
  stop := h.stop
  loginPin := h.loginPin
  message := fun _ => Or.inr ⟨t, message, if_pos rfl, List.mem_append_right _ (List.mem_singleton_self _)⟩
  posted := by
    intro u m hu
    by_cases hut : u = t
    · rw [show (ctrlPost s t message).callers u = some message from if_pos hut] at hu
      cases hu
      exact Or.inl (List.mem_append_right _ (List.mem_singleton_self _))
    · rw [show (ctrlPost s t message).callers u = s.callers u from if_neg hut] at hu
      exact (h.posted u m hu).imp_left (List.mem_append_left _)
  awake := h.awake
  reset := fun hr => by
    rw [show s.thread = .reset from hr] at hfree
    cases hfree

theorem CtrlWakeUpInvariant.signal (h : CtrlWakeUpInvariant s) (ht : s.callers t = some message) :
    CtrlWakeUpInvariant (ctrlSignal s t) where
  work := fun _ => by
    rcases h.posted t message ht with hin | htaken
    · exact Or.inl (Or.inl (List.ne_nil_of_mem hin))
    · exact Or.inr htaken
  stop := fun _ => rfl
  loginPin := fun _ => rfl
  message := fun _ => Or.inl rfl
  posted := by
    intro u m hu
    by_cases hut : u = t
    · rw [show (ctrlSignal s t).callers u = none from if_pos hut] at hu
      cases hu
    · rw [show (ctrlSignal s t).callers u = s.callers u from if_neg hut] at hu
      exact h.posted u m hu
  awake := fun _ => rfl
  reset := h.reset

theorem CtrlWakeUpInvariant.setLoginPin (h : CtrlWakeUpInvariant s) (hfree : s.thread.locked = false)
    (pin : Bytes) : CtrlWakeUpInvariant (ctrlSetLoginPin s pin) where
  work := fun _ => Or.inl (Or.inr (Or.inl rfl))
  stop := fun _ => rfl
  loginPin := fun _ => rfl
  message := fun _ => Or.inl rfl
  posted := h.posted
  awake := fun _ => rfl
  reset := fun hr => by
    rw [show s.thread = .reset from hr] at hfree
    cases hfree

theorem CtrlWakeUpInvariant.stop_step (h : CtrlWakeUpInvariant s) : CtrlWakeUpInvariant (ctrlStop s) where
  work := fun _ => Or.inl (Or.inr (Or.inr rfl))
  stop := fun _ => rfl
  loginPin := fun _ => rfl
  message := fun _ => Or.inl rfl
  posted := h.posted
  awake := fun _ => rfl
  reset := h.reset

/-! ## Every run -/

theorem ctrlWakeUpInvariant_step (h : CtrlWakeUpInvariant s) (hG : resetInTime s l = true)
    (hs : (ctrlLts rpcrypt n).step s l s') : CtrlWakeUpInvariant s' := by
  -- the steps of the ctrl thread that leave alone what is posted
  have hmove : ∀ pc session recvBuf recvBufSize counterLocal counterRemote received log,
      s.thread.hasTaken = false → pc.isAwake = false → pc ≠ .reset →
      CtrlWakeUpInvariant { s with
        session := session, recvBuf := recvBuf, recvBufSize := recvBufSize
        cryptCounterLocal := counterLocal, cryptCounterRemote := counterRemote
        received := received, log := log, thread := pc } := by
    intro pc session recvBuf recvBufSize counterLocal counterRemote received log htaken hawake hreset
    refine h.of_thread rfl (fun hf => ?_) (fun hf => ?_) hreset
    · rw [htaken] at hf
      cases hf
    · rw [show _ = false from hawake] at hf
      cases hf
  cases ctrlStep_move hs with
  | start hpc => exact hmove _ _ _ _ _ _ _ _ (by rw [hpc]; rfl) rfl CtrlPc.noConfusion
  | connected hpc => exact hmove _ _ _ _ _ _ _ _ (by rw [hpc]; rfl) rfl CtrlPc.noConfusion
  | connectFailed hpc => exact hmove _ _ _ _ _ _ _ _ (by rw [hpc]; rfl) rfl CtrlPc.noConfusion
  | round hpc => exact h.round hpc
  | overflow hpc => exact hmove _ _ _ _ _ _ _ _ (by rw [hpc]; rfl) rfl CtrlPc.noConfusion
  | @select err hpc hcanceled =>
    have htaken : s.thread.hasTaken = false := by rw [hpc]; rfl
    cases err with
    | canceled =>
      refine h.of_thread rfl (fun hf => ?_) (fun _ => hcanceled rfl) CtrlPc.noConfusion
      rw [htaken] at hf
      cases hf
    | success => exact hmove _ _ _ _ _ _ _ _ htaken rfl CtrlPc.noConfusion
    | unknown => exact hmove _ _ _ _ _ _ _ _ htaken rfl CtrlPc.noConfusion
  | @lock err hpc =>
    have htaken : s.thread.hasTaken = false := by rw [hpc]; rfl
    cases err with
    | canceled =>
      refine h.of_thread rfl (fun hf => ?_) (fun _ => ?_) CtrlPc.noConfusion
      · rw [htaken] at hf
        cases hf
      · exact h.awake (by rw [hpc]; rfl)
    | success => exact hmove _ _ _ _ _ _ _ _ htaken rfl CtrlPc.noConfusion
    | unknown => exact hmove _ _ _ _ _ _ _ _ htaken rfl CtrlPc.noConfusion
  | canceled hpc => exact h.canceled hpc
  | reset hpc => exact h.reset_step hpc hG
  | @recv r _ hpc hrecv =>
    have htaken : s.thread.hasTaken = false := by rw [hpc]; rfl
    unfold ctrlRecv at hrecv
    cases r with
    | data chunk =>
      simp only at hrecv
      split at hrecv
      · cases hrecv
        exact hmove _ _ _ _ _ _ _ _ htaken rfl CtrlPc.noConfusion
      · cases hrecv
    | closed =>
      cases hrecv
      exact hmove _ _ _ _ _ _ _ _ htaken rfl CtrlPc.noConfusion
    | error =>
      cases hrecv
      exact hmove _ _ _ _ _ _ _ _ htaken rfl CtrlPc.noConfusion
  | post hfree => exact h.post hfree
  | signal hcaller => exact h.signal hcaller
  | setLoginPin hfree => exact h.setLoginPin hfree _
  | stop => exact h.stop_step

theorem ctrlWakeUpInvariant_invariant (rpcrypt : RPCrypt) (n : Nat) :
    ((ctrlLts rpcrypt n).restrict fun s l => resetInTime s l = true).Invariant CtrlWakeUpInvariant where
  init := fun _ h => ctrlWakeUpInvariant_init h
  step := fun _ _ _ h hs => ctrlWakeUpInvariant_step h hs.1 hs.2

/-- **The ctrl thread waits with a signal for all that is posted, and for nothing else**, if the
pipe is not reset at the wrong moment. -/
theorem ctrlWakeUp_of_resets (rpcrypt : RPCrypt)
    (hr : ((ctrlLts rpcrypt n).restrict fun s l => resetInTime s l = true).Reachable s) :
    CtrlWakeUp s := by
  have h := (ctrlWakeUpInvariant_invariant rpcrypt n).reachable hr
  refine ⟨fun hpc hp => ?_, fun _ => h.stop, fun _ => h.loginPin, fun _ => h.message⟩
  rcases h.work hp with hwork | htaken
  · exact hwork
  · rw [hpc] at htaken
    cases htaken

/-! ### Runs -/

/-- A cipher that leaves its input as it is. -/
def plainRPCrypt : RPCrypt where
  encrypt _ plain := .ok plain
  decrypt _ enc := .ok enc
  length_encrypt _ _ _ h := by cases h; rfl
  length_decrypt _ _ _ h := by cases h; rfl

def exampleCtrl : Ctrl 2 :=
  ctrlInit ⟨false, false, [], false, false, false, .none⟩ (Vector.replicate _ 0)

/-- The thread has connected and waits. -/
def ctrlWaits : List (CtrlLabel 2) := [.start, .connected 3 1 [], .round]

/-- One message is posted and sent. -/
def postedThenSent : List (CtrlLabel 2) := ctrlWaits ++
  [.post 0 ⟨0x50, []⟩, .signal 0, .select .canceled, .lock, .canceled, .canceled, .reset, .round]

theorem postedThenSent_run :
    (Lts.runFun (Lts.guarded (ctrlStep plainRPCrypt) fun s l => resetInTime s l = true) exampleCtrl
        postedThenSent).map (fun s => (s.thread, s.log))
      = some (.select, [.send (ctrlMessageHeader 0x50 0)]) := by
  decide +kernel

theorem ctrlWakeUp_postedThenSent : ∃ s : Ctrl 2, s.thread = .select ∧
    s.log = [.send (ctrlMessageHeader 0x50 0)] ∧ CtrlWakeUp s := by
  obtain ⟨s, hrun, hobs⟩ := Option.map_eq_some_iff.mp postedThenSent_run
  simp only [Prod.mk.injEq] at hobs
  refine ⟨s, hobs.1, hobs.2, ctrlWakeUp_of_resets plainRPCrypt ?_⟩
  exact Lts.Reachable.runGuarded (.init ⟨_, _, rfl⟩) hrun

/-- A second message is posted before the thread takes the mutex, and sent along with the first
one. Its signal comes after the reset. -/
def signaledLate : List (CtrlLabel 2) := ctrlWaits ++
  [.post 0 ⟨0x50, []⟩, .signal 0, .select .canceled, .post 1 ⟨0x50, []⟩, .lock, .canceled, .canceled,
    .canceled, .reset, .signal 1]

/-- A request to stop comes before the thread takes the mutex to send a login PIN. -/
def stoppedAfterPin : List (CtrlLabel 2) := ctrlWaits ++
  [.setLoginPin [0x31], .select .canceled, .stop, .lock, .canceled, .reset]

theorem signaledLate_run :
    (Lts.runFun (ctrlStep plainRPCrypt) exampleCtrl signaledLate).bind
        (fun s => (ctrlStep plainRPCrypt s .round).map fun s' => (s.thread, s'.thread, s'.notifPipe,
          s'.msgQueue, s'.loginPinEntered, s'.shouldStop))
      = some (.loop, .select, true, [], false, false) := by
  decide +kernel

theorem stoppedAfterPin_run :
    (Lts.runFun (ctrlStep plainRPCrypt) exampleCtrl stoppedAfterPin).bind
        (fun s => (ctrlStep plainRPCrypt s .round).map fun s' => (s.thread, s'.thread, s'.notifPipe,
          s'.shouldStop, decide (∀ t, s'.callers t = none)))
      = some (.loop, .select, false, true, true) := by
  decide +kernel

/-- **The thread can begin to wait with a signal and no work, and after a request to stop with no
signal.** -/
theorem not_ctrlWakeUp :
    (∃ s s' : Ctrl 2, (ctrlLts plainRPCrypt 2).Reachable s ∧ s.thread = .loop ∧
      (ctrlLts plainRPCrypt 2).step s .round s' ∧ s'.thread = .select ∧
      s'.notifPipe = true ∧ ¬ s'.hasWork) ∧
    (∃ s s' : Ctrl 2, (ctrlLts plainRPCrypt 2).Reachable s ∧ s.thread = .loop ∧
      (ctrlLts plainRPCrypt 2).step s .round s' ∧ s'.thread = .select ∧
      s'.shouldStop = true ∧ s'.notifPipe = false ∧ ∀ t, s'.callers t = none) ∧
    ¬ ∀ s : Ctrl 2, (ctrlLts plainRPCrypt 2).Reachable s → CtrlWakeUp s := by
  have hinit : (ctrlLts plainRPCrypt 2).Reachable exampleCtrl := .init ⟨_, _, rfl⟩
  have hstop : ∃ s s' : Ctrl 2, (ctrlLts plainRPCrypt 2).Reachable s ∧ s.thread = .loop ∧
      (ctrlLts plainRPCrypt 2).step s .round s' ∧ s'.thread = .select ∧
      s'.shouldStop = true ∧ s'.notifPipe = false ∧ ∀ t, s'.callers t = none := by
    obtain ⟨s, hrun, hobs⟩ := Option.bind_eq_some_iff.mp stoppedAfterPin_run
    obtain ⟨s', hstep, hobs⟩ := Option.map_eq_some_iff.mp hobs
    simp only [Prod.mk.injEq] at hobs
    obtain ⟨hloop, hselect, hpipe, hs, hcallers⟩ := hobs
    exact ⟨s, s', hinit.runFun hrun, hloop, hstep, hselect, hs, hpipe, of_decide_eq_true hcallers⟩
  refine ⟨?_, hstop, fun hall => ?_⟩
  · obtain ⟨s, hrun, hobs⟩ := Option.bind_eq_some_iff.mp signaledLate_run
    obtain ⟨s', hstep, hobs⟩ := Option.map_eq_some_iff.mp hobs
    simp only [Prod.mk.injEq] at hobs
    obtain ⟨hloop, hselect, hpipe, hqueue, hpin, hs⟩ := hobs
    refine ⟨s, s', hinit.runFun hrun, hloop, hstep, hselect, hpipe, ?_⟩
    rintro (hq | hp | hst)
    · exact hq hqueue
    · rw [hpin] at hp
      cases hp
    · rw [hs] at hst
      cases hst
  · obtain ⟨s, s', hr, -, hstep, hselect, hs, hpipe, -⟩ := hstop
    have hsignaled := (hall s' (.step hr hstep)).stop hselect hs
    rw [hpipe] at hsignaled
    cases hsignaled

end Chiaki
