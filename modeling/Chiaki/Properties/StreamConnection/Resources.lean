import Mathlib.Data.List.Induction
import Chiaki.StreamRun
import Chiaki.Properties.StreamConnection.Step

/-!
# What `chiaki_stream_connection_run` takes, it gives back

* `StreamRun.KeepsProtocol` — every operation so far was allowed, and once the function has returned
  nothing is held
* `runsClean` — the steps with which this goes on: no receiver is missing, and the stream connection
  has not been stopped when the first wait is over
* `StreamRunPc.Holds` — what is held at each place in the function
* `stream_run_resources` — the protocol is kept exactly as long as the steps are clean
-/

namespace Chiaki

open Infra StreamConnection

variable {P S : Type} {ec : EcGroup P S} {r r' : StreamResources}

/-! ## Sequences of operations -/

theorem StreamResources.afterAll_append (r : StreamResources) (ops ops' : List StreamOp) :
    r.afterAll (ops ++ ops') = (r.afterAll ops).bind fun r' => r'.afterAll ops' :=
  List.foldlM_append

/-- The operations tell which of the two threads runs. -/
structure StreamTraced (ops : List StreamOp) (r : StreamResources) : Prop where
  startCongestion : .startCongestion ∈ ops ↔ r.congestion ≠ .before
  stopCongestion : .stopCongestion ∈ ops ↔ r.congestion = .givenBack
  startFeedback : .startFeedback ∈ ops ↔ r.feedback ≠ .before
  stopFeedback : .stopFeedback ∈ ops ↔ r.feedback = .givenBack

/-- Any other operation leaves the two threads as they are. -/
theorem StreamTraced.other {ops : List StreamOp} {op : StreamOp} (h : StreamTraced ops r)
    (hop : op ∉ [.startCongestion, .stopCongestion, .startFeedback, .stopFeedback])
    (hcongestion : r'.congestion = r.congestion) (hfeedback : r'.feedback = r.feedback) :
    StreamTraced (ops ++ [op]) r' := by
  simp only [List.mem_cons, List.not_mem_nil, or_false, not_or] at hop
  obtain ⟨hstart, hstop, hstartFeedback, hstopFeedback⟩ := hop
  constructor
  · rw [hcongestion, ← h.startCongestion]
    simp [Ne.symm hstart]
  · rw [hcongestion, ← h.stopCongestion]
    simp [Ne.symm hstop]
  · rw [hfeedback, ← h.startFeedback]
    simp [Ne.symm hstartFeedback]
  · rw [hfeedback, ← h.stopFeedback]
    simp [Ne.symm hstopFeedback]

theorem StreamTraced.after {ops : List StreamOp} {op : StreamOp} (h : StreamTraced ops r)
    (hop : r.after op = some r') : StreamTraced (ops ++ [op]) r' := by
  obtain ⟨h1, h2, h3, h4⟩ := h
  cases op with
  | startCongestion =>
    unfold StreamResources.after at hop
    simp only at hop
    split at hop
    · next hcond =>
      cases hop
      exact ⟨by simp, by simp [h2, hcond.2], by simpa using h3, by simpa using h4⟩
    · cases hop
  | stopCongestion =>
    unfold StreamResources.after at hop
    simp only at hop
    split at hop
    · next hcond =>
      cases hop
      exact ⟨by simp [h1, hcond], by simp, by simpa using h3, by simpa using h4⟩
    · cases hop
  | startFeedback =>
    unfold StreamResources.after at hop
    simp only at hop
    split at hop
    · next hcond =>
      cases hop
      exact ⟨by simpa using h1, by simpa using h2, by simp, by simp [h4, hcond.2]⟩
    · cases hop
  | stopFeedback =>
    unfold StreamResources.after at hop
    simp only at hop
    split at hop
    · next hcond =>
      cases hop
      exact ⟨by simpa using h1, by simpa using h2, by simp [h3, hcond], by simp⟩
    · cases hop
  | _ =>
    unfold StreamResources.after at hop
    simp only at hop
    split at hop
    · cases hop <;> exact StreamTraced.other ⟨h1, h2, h3, h4⟩ (by simp) rfl rfl
    · cases hop <;> exact StreamTraced.other ⟨h1, h2, h3, h4⟩ (by simp) rfl rfl

theorem StreamResources.traced {ops : List StreamOp} (h : start.afterAll ops = some r) :
    StreamTraced ops r := by
  induction ops using List.reverseRecOn generalizing r with
  | nil =>
    cases h
    exact ⟨by simp [start], by simp [start], by simp [start], by simp [start]⟩
  | append_singleton ops op ih =>
    rw [afterAll_append] at h
    obtain ⟨t, ht, hop⟩ := Option.bind_eq_some_iff.mp h
    refine (ih ht).after ?_
    simpa [afterAll] using hop

theorem congestionRuns_iff {ops : List StreamOp} (h : StreamResources.start.afterAll ops = some r) :
    congestionRuns ops = true ↔ r.congestion = .held := by
  have htraced := StreamResources.traced h
  rw [congestionRuns, decide_eq_true_iff, htraced.startCongestion, htraced.stopCongestion]
  cases r.congestion <;> decide

theorem feedbackRuns_iff {ops : List StreamOp} (h : StreamResources.start.afterAll ops = some r) :
    feedbackRuns ops = true ↔ r.feedback = .held := by
  have htraced := StreamResources.traced h
  rw [feedbackRuns, decide_eq_true_iff, htraced.startFeedback, htraced.stopFeedback]
  cases r.feedback <;> decide

/-! ## What is held where -/

/-- Between the beginning and the end everything is there; only the feedback sender comes late. A
wait gives the mutex back and takes it again, which is not seen here. -/
def StreamResources.working (locked : Bool) (feedback : Holding) : StreamResources where
  locked := locked
  receiver := fun _ => .held
  takion := .held
  congestion := .held
  feedback := feedback

/-- While Takion is closed, the receivers are left. -/
def StreamResources.closing (congestion feedback : Holding) : StreamResources where
  locked := false
  receiver := fun _ => .held
  takion := .givenBack
  congestion := congestion
  feedback := feedback

/-- The feedback sender during a wait. -/
def StreamWait.feedback : StreamWait → Holding
  | .heartbeat => .held
  | _ => .before

/-- What is held where the running thread stands. -/
def StreamRunPc.Holds (r : StreamResources) : StreamRunPc → Prop
  | .begin => r = .start
  | .enter w => r = .working true w.feedback
  | .waiting w => r = .working true w.feedback
  | .sendBig => r = .working true .before
  | .sendHeartbeat => r = .working true .held
  | .sendDisconnect _ => ∃ feedback, feedback ≠ .held ∧ r = .working true feedback
  | .connected => r = .working false .held
  | .closing _ => ∃ congestion feedback, congestion ≠ .held ∧ feedback ≠ .held ∧
      r = .closing congestion feedback
  | .returned _ _ => r.Released
  | .finished => r.Released

/-- The function has returned. -/
def StreamRunPc.over : StreamRunPc → Bool
  | .returned _ _ => true
  | .finished => true
  | _ => false

theorem StreamRunPc.Holds.released {pc : StreamRunPc} (h : pc.Holds r) (hover : pc.over = true) :
    r.Released := by
  cases pc with
  | returned | finished => exact h
  | _ => cases hover

/-- A thread that sends through Takion runs only while Takion is open. -/
theorem StreamRunPc.Holds.takion {pc : StreamRunPc} (h : pc.Holds r)
    (hruns : r.congestion = .held ∨ r.feedback = .held) : r.takion = .held := by
  cases pc with
  | begin =>
    cases h
    rcases hruns with hruns | hruns <;> cases hruns
  | enter | waiting | sendBig | sendHeartbeat | connected =>
    cases h
    rfl
  | sendDisconnect =>
    obtain ⟨_, _, rfl⟩ := h
    rfl
  | closing =>
    obtain ⟨_, _, hcongestion, hfeedback, rfl⟩ := h
    rcases hruns with hruns | hruns
    · exact absurd hruns hcongestion
    · exact absurd hruns hfeedback
  | returned | finished =>
    obtain ⟨-, -, -, hcongestion, hfeedback⟩ := h
    rcases hruns with hruns | hruns
    · exact absurd hruns hcongestion
    · exact absurd hruns hfeedback

/-- The operations so far are allowed, and have led to what is held now. -/
def StreamRun.Holds (s : StreamRun P S) : Prop :=
  ∃ r, StreamResources.start.afterAll s.ops = some r ∧ s.conn.run.Holds r

/-- **The protocol.** -/
def StreamRun.KeepsProtocol (s : StreamRun P S) : Prop :=
  ∃ r, StreamResources.start.afterAll s.ops = some r ∧ (s.conn.run.over = true → r.Released)

theorem StreamRun.Holds.keepsProtocol {s : StreamRun P S} (h : s.Holds) : s.KeepsProtocol := by
  obtain ⟨r, hr, hpc⟩ := h
  exact ⟨r, hr, hpc.released⟩

/-- Some more operations. -/
theorem StreamRun.Holds.next {s : StreamRun P S} {conn : StreamConnection P S} {ops : List StreamOp}
    (hr : StreamResources.start.afterAll s.ops = some r) (hops : r.afterAll ops = some r')
    (hpc : conn.run.Holds r') : StreamRun.Holds ⟨conn, s.ops ++ ops⟩ := by
  refine ⟨r', ?_, hpc⟩
  rw [StreamResources.afterAll_append, hr]
  exact hops

/-- A step that leaves the running thread where it is. -/
theorem StreamRun.Holds.same {s : StreamRun P S} (h : s.Holds) {conn : StreamConnection P S}
    (hrun : conn.run = s.conn.run) : StreamRun.Holds ⟨conn, s.ops ++ []⟩ := by
  obtain ⟨r, hr, hpc⟩ := h
  exact .next hr rfl (hrun ▸ hpc)

/-! ## Steps -/

/-- The receivers are created one by one. -/
theorem receiver_all : (fun x => if x = StreamReceiver.video then Holding.held
    else if x = .haptics then .held else if x = .audio then .held else .before) = fun _ => .held := by
  funext x
  cases x <;> rfl

theorem StreamRun.Holds.begin_step {s : StreamRun P S} (h : s.Holds) (hrun : s.conn.run = .begin)
    {result : BeginResult} (hresult : result ≠ .receivers) (failed : StreamReceiver) :
    StreamRun.Holds ⟨streamRunBegin s.conn result, s.ops ++ streamBeginOps failed result⟩ := by
  obtain ⟨r, hr, hpc⟩ := h
  rw [hrun] at hpc
  obtain rfl : r = .start := hpc
  cases result with
  | receivers => exact absurd rfl hresult
  | connect err =>
    refine .next hr rfl ⟨rfl, fun x => ?_, by decide, by decide, by decide⟩
    cases x <;> decide
  | congestionControl err =>
    have hafter : StreamResources.start.afterAll (streamBeginOps failed (.congestionControl err))
        = some (.closing .before .before) := by
      rw [StreamResources.closing, ← receiver_all]
      rfl
    exact .next hr hafter ⟨.before, .before, by decide, by decide, rfl⟩
  | success =>
    have hafter : StreamResources.start.afterAll (streamBeginOps failed .success)
        = some (.working true .before) := by
      rw [StreamResources.working, ← receiver_all]
      rfl
    exact .next hr hafter rfl

/-- The receivers are freed one by one. -/
theorem errVideoReceiver_after (h : ∀ x, r.receiver x = .held) :
    r.afterAll errVideoReceiver = some { r with receiver := fun _ => .givenBack } := by
  have hall : (fun x => if x = StreamReceiver.audio then Holding.givenBack
      else if x = .haptics then .givenBack else if x = .video then .givenBack else r.receiver x)
      = fun _ => .givenBack := by
    funext x
    cases x <;> rfl
  rw [← hall]
  simp [StreamResources.afterAll, errVideoReceiver, StreamResources.after, h]

theorem errCongestionControl_after {feedback : Holding} (h : feedback ≠ .held) :
    (StreamResources.working true feedback).afterAll errCongestionControl
      = some (.closing .givenBack feedback) := by
  cases feedback with
  | held => exact absurd rfl h
  | before | givenBack => rfl

theorem StreamRun.Holds.proceed {s : StreamRun P S} (h : s.Holds) {w : StreamWait}
    (hrun : s.conn.run = .enter w ∨ s.conn.run = .waiting w)
    (hclean : w = .takion → s.conn.shouldStop = false) (err feedbackSender : ErrorCode) :
    StreamRun.Holds ⟨streamRunProceed s.conn w err feedbackSender,
      s.ops ++ streamProceedOps s.conn w err feedbackSender⟩ := by
  obtain ⟨r, hr, hpc⟩ := h
  have hworking : r = .working true w.feedback := by
    rcases hrun with hrun | hrun
    · rw [hrun] at hpc
      exact hpc
    · rw [hrun] at hpc
      exact hpc
  subst hworking
  unfold streamRunProceed streamProceedOps
  cases w with
  | takion =>
    simp only [hclean rfl, Bool.false_eq_true, if_false]
    split
    · exact .next hr (errCongestionControl_after (by decide)) ⟨_, _, by decide, by decide, rfl⟩
    · exact .next hr rfl rfl
  | bang =>
    simp only
    split
    · exact .next hr rfl ⟨.before, by decide, rfl⟩
    · split
      · exact .next hr rfl ⟨.before, by decide, rfl⟩
      · exact .next hr rfl rfl
  | streaminfo =>
    simp only
    split
    · exact .next hr rfl ⟨.before, by decide, rfl⟩
    · split
      · exact .next hr rfl ⟨.before, by decide, rfl⟩
      · split
        · exact .next hr rfl ⟨.before, by decide, rfl⟩
        · exact .next hr rfl rfl
  | heartbeat =>
    simp only
    split
    · exact .next hr rfl ⟨.givenBack, by decide, rfl⟩
    · exact .next hr rfl rfl

/-- The steps with which the protocol is kept: a receiver that cannot be created ends the function
with the mutex locked, and a stop before the end of the first wait leaves the congestion control
behind. -/
def runsClean (s : StreamRun P S) : StreamRunLabel → Bool
  | .stream (.begin .receivers) _ => false
  | .stream (.check _) _ => !s.conn.shouldStop || s.conn.run != .enter .takion
  | .stream (.wake _ _) _ => !s.conn.shouldStop || s.conn.run != .waiting .takion
  | _ => true

theorem StreamResources.afterAll_use (h : r.takion = .held) : r.afterAll [.use] = some r := by
  simp [afterAll, after, h]

theorem StreamRun.Holds.runMove {s : StreamRun P S} (h : s.Holds) {conn : StreamConnection P S}
    {l : StreamLabel} {failed : StreamReceiver} (hclean : runsClean s (.stream l failed) = true)
    (hs : streamStep ec s.conn l = some conn) (hmove : StreamRunMove s.conn l conn) :
    StreamRun.Holds ⟨conn, s.ops ++ streamOps s.conn failed l⟩ := by
  cases hmove with
  | begin hrun =>
    refine h.begin_step hrun ?_ failed
    rintro rfl
    cases hclean
  | pass hrun hcheck =>
    simp only [streamOps, hrun, hcheck, if_true]
    exact h.proceed (.inl hrun) (by rintro rfl; simpa [runsClean, hrun] using hclean) _ _
  | wait hrun hcheck =>
    obtain ⟨r, hr, hpc⟩ := h
    rw [hrun] at hpc
    simp only [streamOps, hrun, hcheck, Bool.false_eq_true, if_false]
    exact .next hr rfl hpc
  | timeout hrun =>
    simp only [streamOps, hrun, if_true]
    exact h.proceed (.inr hrun) (by rintro rfl; simpa [runsClean, hrun] using hclean) _ _
  | wake hrun hcheck =>
    simp only [streamOps, hrun, hcheck, Bool.false_eq_true, if_false, if_true]
    exact h.proceed (.inr hrun) (by rintro rfl; simpa [runsClean, hrun] using hclean) _ _
  | @spurious w feedbackSender hrun =>
    by_cases hcheck : stateFinishedCondCheck s.conn = true
    · -- the predicate holds, so the thread goes on
      have hgoes : streamRunProceed s.conn w .success feedbackSender = s.conn := by
        unfold streamStep at hs
        split at hs
        · cases hs
        · simpa [streamRunStep, hrun, hcheck] using hs
      have hnext := h.proceed (.inr hrun) (by rintro rfl; simpa [runsClean, hrun] using hclean)
        .success feedbackSender
      rw [hgoes] at hnext
      simp only [streamOps, hrun, hcheck, Bool.false_eq_true, if_false, if_true]
      exact hnext
    · simp only [streamOps, hrun, hcheck, Bool.false_eq_true, if_false]
      exact h.same rfl
  | big hrun =>
    obtain ⟨r, hr, hpc⟩ := h
    rw [hrun] at hpc
    obtain rfl : r = .working true .before := hpc
    simp only [streamOps, streamSendOps, hrun]
    exact .next hr rfl rfl
  | bigError hrun =>
    obtain ⟨r, hr, hpc⟩ := h
    rw [hrun] at hpc
    obtain rfl : r = .working true .before := hpc
    simp only [streamOps, streamSendOps, hrun]
    exact .next hr rfl ⟨.before, by decide, rfl⟩
  | heartbeat hrun =>
    obtain ⟨r, hr, hpc⟩ := h
    rw [hrun] at hpc
    obtain rfl : r = .working true .held := hpc
    simp only [streamOps, streamSendOps, hrun]
    exact .next hr rfl rfl
  | disconnect hrun =>
    obtain ⟨r, hr, hpc⟩ := h
    rw [hrun] at hpc
    obtain ⟨feedback, hfeedback, rfl⟩ := hpc
    simp only [streamOps, streamSendOps, hrun]
    exact .next hr (errCongestionControl_after hfeedback) ⟨_, _, by decide, hfeedback, rfl⟩
  | relock hrun =>
    obtain ⟨r, hr, hpc⟩ := h
    rw [hrun] at hpc
    obtain rfl : r = .working false .held := hpc
    exact .next hr rfl rfl
  | join hrun =>
    obtain ⟨r, hr, hpc⟩ := h
    rw [hrun] at hpc
    obtain ⟨congestion, feedback, hcongestion, hfeedback, rfl⟩ := hpc
    exact .next hr (errVideoReceiver_after fun _ => rfl)
      ⟨rfl, fun _ => Holding.noConfusion, Holding.noConfusion, hcongestion, hfeedback⟩
  | fini hrun =>
    obtain ⟨r, hr, hpc⟩ := h
    rw [hrun] at hpc
    exact .next hr rfl hpc
  | stop => exact h.same rfl

theorem streamOps_takion {conn conn' : StreamConnection P S} {l : StreamLabel}
    (hmove : StreamTakionMove ec conn l conn') (failed : StreamReceiver) :
    streamOps conn failed l = [] := by
  cases hmove <;> rfl

theorem StreamRun.Holds.step {s s' : StreamRun P S} (h : s.Holds) {l : StreamRunLabel}
    (hclean : runsClean s l = true) (hs : streamRunStepOps ec s l = some s') : s'.Holds := by
  cases l with
  | stream l failed =>
    obtain ⟨conn, hconn, rfl⟩ := Option.map_eq_some_iff.mp hs
    obtain ⟨-, hmove | hmove⟩ := streamStep_cases hconn
    · exact h.runMove hclean hconn hmove
    · rw [streamOps_takion hmove failed]
      exact h.same (streamTakionMove_frame hmove).run
  | noMemory =>
    obtain ⟨r, hr, hpc⟩ := h
    unfold streamRunStepOps at hs
    simp only at hs
    split at hs
    · next hrun =>
      cases hs
      rw [hrun] at hpc
      obtain rfl : r = .start := hpc
      exact ⟨.start, hr, rfl, fun _ => Holding.noConfusion, by decide, by decide, by decide⟩
    · cases hs
  | sendCongestion =>
    obtain ⟨r, hr, hpc⟩ := h
    unfold streamRunStepOps at hs
    simp only at hs
    split at hs
    · next hruns =>
      cases hs
      have hopen := hpc.takion (.inl ((congestionRuns_iff hr).mp hruns))
      exact .next hr (StreamResources.afterAll_use hopen) hpc
    · cases hs
  | sendFeedback =>
    obtain ⟨r, hr, hpc⟩ := h
    unfold streamRunStepOps at hs
    simp only at hs
    split at hs
    · next hruns =>
      cases hs
      have hopen := hpc.takion (.inr ((feedbackRuns_iff hr).mp hruns))
      exact .next hr (StreamResources.afterAll_use hopen) hpc
    · cases hs

/-! ## The other steps -/

/-- Takion is closed under the congestion control. -/
theorem StreamRun.Holds.early {s s' : StreamRun P S} (h : s.Holds)
    (hrun : s.conn.run = .enter .takion ∨ s.conn.run = .waiting .takion)
    (hops : s'.ops = s.ops ++ closeTakion) : ¬ s'.KeepsProtocol := by
  obtain ⟨r, hr, hpc⟩ := h
  have hworking : r = .working true .before := by
    rcases hrun with hrun | hrun
    · rw [hrun] at hpc
      exact hpc
    · rw [hrun] at hpc
      exact hpc
  subst hworking
  rintro ⟨r', hr', -⟩
  rw [hops, StreamResources.afterAll_append, hr] at hr'
  cases hr'

/-- The function returns with the mutex. -/
theorem StreamRun.Holds.locked {s : StreamRun P S} (h : s.Holds) (hrun : s.conn.run = .begin)
    (failed : StreamReceiver) : ¬ StreamRun.KeepsProtocol
      ⟨streamRunBegin s.conn .receivers, s.ops ++ streamBeginOps failed .receivers⟩ := by
  obtain ⟨r, hr, hpc⟩ := h
  rw [hrun] at hpc
  obtain rfl : r = .start := hpc
  rintro ⟨r', hr', hreleased⟩
  rw [StreamResources.afterAll_append, hr] at hr'
  have hfree : r'.locked = false := (hreleased rfl).1
  have hlocked : r'.locked = true := by
    cases failed <;> cases hr' <;> rfl
  rw [hlocked] at hfree
  cases hfree

theorem StreamRun.Holds.not_clean {s s' : StreamRun P S} (h : s.Holds) {l : StreamRunLabel}
    (hclean : runsClean s l = false) (hs : streamRunStepOps ec s l = some s') : ¬ s'.KeepsProtocol := by
  cases l with
  | stream l failed =>
    obtain ⟨conn, hconn, rfl⟩ := Option.map_eq_some_iff.mp hs
    cases l with
    | begin result =>
      cases result with
      | receivers =>
        obtain ⟨-, hmove | hmove⟩ := streamStep_cases hconn
        · cases hmove with
          | begin hrun => exact h.locked hrun failed
        · cases hmove
      | _ => cases hclean
    | check feedbackSender =>
      simp only [runsClean, Bool.or_eq_false_iff, Bool.not_eq_false', bne_eq_false_iff_eq] at hclean
      refine h.early (.inl hclean.2) ?_
      simp [streamOps, streamProceedOps, stateFinishedCondCheck, hclean]
    | wake timeout feedbackSender =>
      simp only [runsClean, Bool.or_eq_false_iff, Bool.not_eq_false', bne_eq_false_iff_eq] at hclean
      refine h.early (.inr hclean.2) ?_
      simp [streamOps, streamProceedOps, stateFinishedCondCheck, hclean]
    | _ => cases hclean
  | _ => cases hclean

theorem streamRunHolds_invariant (ec : EcGroup P S) :
    ((streamRunLts ec).restrict fun s l => runsClean s l = true).Invariant StreamRun.Holds where
  init := by
    rintro s ⟨⟨ecdh, handshakeKey, hconn⟩, hops⟩
    exact ⟨.start, by rw [hops]; rfl, by rw [hconn]; rfl⟩
  step := fun _ _ _ h hs => h.step hs.1 hs.2

/-- **What the stream connection takes, it gives back**, in the right order, in every run in which
no receiver is missing and no stop comes before the end of the first wait; and with such a step the
protocol is broken. -/
theorem stream_run_resources (ec : EcGroup P S) {s : StreamRun P S}
    (hs : ((streamRunLts ec).restrict fun s l => runsClean s l = true).Reachable s) :
    s.KeepsProtocol ∧ ∀ l s', (streamRunLts ec).step s l s' →
      (s'.KeepsProtocol ↔ runsClean s l = true) := by
  have h := (streamRunHolds_invariant ec).reachable hs
  refine ⟨h.keepsProtocol, fun l s' hstep => ⟨fun hkeeps => ?_, fun hclean => ?_⟩⟩
  · cases hclean : runsClean s l with
    | true => rfl
    | false => exact absurd hkeeps (h.not_clean hclean hstep)
  · exact (h.step hclean hstep).keepsProtocol

/-! ### Runs -/

/-- Labels of the stream connection. -/
def streamRunLabels (ls : List StreamLabel) : List StreamRunLabel := ls.map fun l => .stream l .audio

/-- A whole session, in which both threads send. -/
def sessionWithThreads : List StreamRunLabel :=
  streamRunLabels runToHeartbeat ++ [.sendCongestion, .sendFeedback] ++
    streamRunLabels [.stop, .wake false .success, .send .success, .recvError, .event, .join]

theorem sessionWithThreads_run :
    (Lts.runFun (Lts.guarded (streamRunStepOps generatorGroup) fun s l => runsClean s l = true)
        ⟨zeroSession, []⟩ sessionWithThreads).map (fun s => (s.conn.run, s.ops.length))
      = some (.returned .canceled false, 20) := by
  decide +kernel

theorem stream_run_resources_sessionWithThreads : ∃ s : StreamRun Unit Unit,
    s.conn.run = .returned .canceled false ∧ s.KeepsProtocol := by
  obtain ⟨s, hrun, hobs⟩ := Option.map_eq_some_iff.mp sessionWithThreads_run
  simp only [Prod.mk.injEq] at hobs
  refine ⟨s, hobs.1, (stream_run_resources generatorGroup ?_).1⟩
  exact Lts.Reachable.runGuarded (.init ⟨⟨_, _, rfl⟩, rfl⟩) hrun

/-- There is no memory for the haptics receiver. -/
def noHaptics : List StreamRunLabel := [.stream (.begin .receivers) .haptics]

/-- The stream connection is stopped while it waits for Takion, which then ends. -/
def stoppedEarly : List StreamRunLabel :=
  streamRunLabels [.begin .success, .check .success, .stop, .wake false .success, .handshake false,
    .event, .join] ++ [.sendCongestion]

theorem noHaptics_run :
    (Lts.runFun (streamRunStepOps generatorGroup) ⟨zeroSession, []⟩ noHaptics).map
        (fun s => (s.conn.run, (StreamResources.start.afterAll s.ops).map (·.locked)))
      = some (.returned .unknown true, some true) := by
  decide +kernel

theorem stoppedEarly_run :
    (Lts.runFun (streamRunStepOps generatorGroup) ⟨zeroSession, []⟩ stoppedEarly).map
        (fun s => (s.conn.run, congestionRuns s.ops, s.ops.getLast?,
          (StreamResources.start.afterAll s.ops).isNone))
      = some (.returned .success false, true, some .use, true) := by
  decide +kernel

/-- **The function can return with the mutex locked, and with the congestion control still sending
through the closed Takion.** -/
theorem not_stream_run_resources :
    (∃ s : StreamRun Unit Unit, (streamRunLts generatorGroup).Reachable s ∧
      s.conn.run = .returned .unknown true ∧
      (StreamResources.start.afterAll s.ops).map (·.locked) = some true ∧ ¬ s.KeepsProtocol) ∧
    ∃ s : StreamRun Unit Unit, (streamRunLts generatorGroup).Reachable s ∧
      s.conn.run = .returned .success false ∧ congestionRuns s.ops = true ∧
      s.ops.getLast? = some .use ∧ ¬ s.KeepsProtocol := by
  have hinit : (streamRunLts generatorGroup).Reachable ⟨zeroSession, []⟩ := .init ⟨⟨_, _, rfl⟩, rfl⟩
  constructor
  · obtain ⟨s, hrun, hobs⟩ := Option.map_eq_some_iff.mp noHaptics_run
    simp only [Prod.mk.injEq] at hobs
    obtain ⟨hpc, hlocked⟩ := hobs
    refine ⟨s, hinit.runFun hrun, hpc, hlocked, ?_⟩
    rintro ⟨r, hr, hreleased⟩
    have hfree := (hreleased (by rw [hpc]; rfl)).1
    rw [hr, Option.map_some, hfree] at hlocked
    cases hlocked
  · obtain ⟨s, hrun, hobs⟩ := Option.map_eq_some_iff.mp stoppedEarly_run
    simp only [Prod.mk.injEq] at hobs
    obtain ⟨hpc, hruns, hlast, hnone⟩ := hobs
    refine ⟨s, hinit.runFun hrun, hpc, hruns, hlast, ?_⟩
    rintro ⟨r, hr, -⟩
    rw [hr] at hnone
    cases hnone

end Chiaki
