import Chiaki.Properties.FrameProcessor
import Chiaki.VideoReceiver

/-!
# The order of video frames

What `chiaki_video_receiver_av_packet` does is a sequence of moves (`VideoMove`), and a property of
runs is one that every move keeps (`videoReceiver_invariant`).

`videoReceiver_frames` is about the order of the frames: the current frame is only replaced by a later
one, a frame is flushed only between its start and the next one and at most once, and
`frame_index_prev` is the last frame that was flushed.
-/

namespace Chiaki

open Infra

variable {jerasure : Jerasure} {u : TakionAVUnit} {env : VideoPacketEnv}

/-! ## Moves -/

/-- The event is neither about the current frame nor about its units. -/
def VideoEvent.Aside : VideoEvent → Prop
  | .header _ => True
  | .corruptFrame _ _ => True
  | _ => False

/-- One thing that is done with a packet. -/
inductive VideoMove (jerasure : Jerasure) (u : TakionAVUnit) (env : VideoPacketEnv)
    (r : VideoReceiver) : List VideoEvent → VideoReceiver → Prop
  | aside {r' : VideoReceiver} {events : List VideoEvent}
      (sampleCb : r'.videoSampleCb = r.videoSampleCb) (cur : r'.frameIndexCur = r.frameIndexCur)
      (prev : r'.frameIndexPrev = r.frameIndexPrev) (proc : r'.frameProcessor = r.frameProcessor)
      (quiet : ∀ e ∈ events, e.Aside) : VideoMove jerasure u env r events r'
  | flushFailed {mem : Bool} {proc : FrameProcessor} {size : Nat}
      (flush : frameProcessorFlush jerasure r.frameProcessor mem = .ok (proc, .failed, size)) :
      VideoMove jerasure u env r [] { r with frameProcessor := proc }
  | flushed {mem : Bool} {proc : FrameProcessor} {result : FrameFlushResult} {size : Nat}
      (complete : Int) (cur : 0 ≤ r.frameIndexCur) (building : r.frameIndexPrev ≠ r.frameIndexCur)
      (flush : frameProcessorFlush jerasure r.frameProcessor mem = .ok (proc, result, size)) :
      VideoMove jerasure u env r
        [.frame r.frameIndexCur (proc.frameBuf.take size) r.videoSampleCb]
        { r with
          frameProcessor := proc
          frameIndexPrev := r.frameIndexCur
          frameIndexPrevComplete := complete }
  | start {proc : FrameProcessor} {err : ErrorCode}
      (next : r.frameIndexCur < 0 ∨ seqNum16Gt u.frameIndex (toSeqNum16 r.frameIndexCur) = true)
      (alloc : frameProcessorAllocFrame r.frameProcessor u env.slotsMem env.frameMem = .ok (proc, err)) :
      VideoMove jerasure u env r [.start u err]
        { r with frameIndexCur := u.frameIndex, frameProcessor := proc }
  | unit {proc : FrameProcessor} {err : ErrorCode} (cur : 0 ≤ r.frameIndexCur)
      (notOld : seqNum16Lt u.frameIndex (toSeqNum16 r.frameIndexCur) = false)
      (notNext : seqNum16Gt u.frameIndex (toSeqNum16 r.frameIndexCur) = false)
      (put : frameProcessorPutUnit r.frameProcessor u = .ok (proc, err)) :
      VideoMove jerasure u env r [.unit u err] { r with frameProcessor := proc }

/-- Moves one after the other. -/
inductive VideoMoves (jerasure : Jerasure) (u : TakionAVUnit) (env : VideoPacketEnv) :
    VideoReceiver → List VideoEvent → VideoReceiver → Prop
  | nil (r : VideoReceiver) : VideoMoves jerasure u env r [] r
  | cons {r r' r'' : VideoReceiver} {es es' : List VideoEvent} : VideoMove jerasure u env r es r' →
      VideoMoves jerasure u env r' es' r'' → VideoMoves jerasure u env r (es ++ es') r''

theorem VideoMove.moves {r r' : VideoReceiver} {es : List VideoEvent}
    (h : VideoMove jerasure u env r es r') : VideoMoves jerasure u env r es r' := by
  have := VideoMoves.cons h (.nil r')
  rwa [List.append_nil] at this

theorem VideoMoves.trans {r r' r'' : VideoReceiver} {es es' : List VideoEvent}
    (h : VideoMoves jerasure u env r es r') (h' : VideoMoves jerasure u env r' es' r'') :
    VideoMoves jerasure u env r (es ++ es') r'' := by
  induction h with
  | nil => exact h'
  | cons hm _ ih =>
    rw [List.append_assoc]
    exact .cons hm (ih h')

/-- What every move keeps is kept by all of them. -/
theorem VideoMoves.keep {P : VideoReceiver → List VideoEvent → Prop} {r r' : VideoReceiver}
    {es log : List VideoEvent} (h : VideoMoves jerasure u env r es r') (hP : P r log)
    (hmove : ∀ r es r' log, VideoMove jerasure u env r es r' → P r log → P r' (log ++ es)) :
    P r' (log ++ es) := by
  induction h generalizing log with
  | nil =>
    rw [List.append_nil]
    exact hP
  | cons hm _ ih =>
    rw [← List.append_assoc]
    exact ih (hmove _ _ _ _ hm hP)

/-! ## What the functions do -/

theorem videoReceiverFlushFrame_moves {r r' : VideoReceiver} {es : List VideoEvent}
    {flush : VideoFlushEnv} (hcur : 0 ≤ r.frameIndexCur) (hprev : r.frameIndexPrev ≠ r.frameIndexCur)
    (h : videoReceiverFlushFrame jerasure r flush = .ok (r', es)) :
    VideoMoves jerasure u env r es r' ∧ r'.frameIndexCur = r.frameIndexCur := by
  obtain ⟨⟨proc, result, size⟩, hflush, h⟩ := bind_eq_ok_iff.mp h
  by_cases hfailed : result = .failed
  · subst hfailed
    simp only [if_true] at h
    cases h
    exact ⟨(VideoMove.flushFailed hflush).moves, rfl⟩
  · simp only [hfailed, if_false] at h
    cases h
    exact ⟨(VideoMove.flushed _ hcur hprev hflush).moves, rfl⟩

theorem videoReceiverFlushIf_moves {cond : Bool} {r r' : VideoReceiver} {es : List VideoEvent}
    {flush : VideoFlushEnv}
    (hcond : cond = true → 0 ≤ r.frameIndexCur ∧ r.frameIndexPrev ≠ r.frameIndexCur)
    (h : videoReceiverFlushIf jerasure cond r flush = .ok (r', es)) :
    VideoMoves jerasure u env r es r' ∧ r'.frameIndexCur = r.frameIndexCur := by
  unfold videoReceiverFlushIf at h
  split at h
  · next htrue => exact videoReceiverFlushFrame_moves (hcond htrue).1 (hcond htrue).2 h
  · cases h
    exact ⟨.nil r, rfl⟩

/-- Another profile is all that a packet changes before its frame may start. -/
theorem videoReceiverSelectProfile_eq {r r' : VideoReceiver} {es : List VideoEvent}
    (h : videoReceiverSelectProfile r u = some (r', es)) :
    ∃ (index : Int) (headers : List Bytes),
      r' = { r with profileCur := index } ∧ es = headers.map VideoEvent.header := by
  unfold videoReceiverSelectProfile at h
  simp only at h
  split at h
  · cases hprofile : r.profiles[u.packet.adaptiveStreamIndex]? with
    | none =>
      rw [hprofile] at h
      cases h
    | some header =>
      rw [hprofile] at h
      cases h
      refine ⟨_, if r.videoSampleCb then [header] else [], rfl, ?_⟩
      split <;> rfl
  · cases h
    exact ⟨r.profileCur, [], rfl, rfl⟩

theorem videoReceiverSelectProfile_moves {r r' : VideoReceiver} {es : List VideoEvent}
    (h : videoReceiverSelectProfile r u = some (r', es)) :
    VideoMoves jerasure u env r es r' ∧ r'.frameIndexCur = r.frameIndexCur := by
  obtain ⟨index, headers, rfl, rfl⟩ := videoReceiverSelectProfile_eq h
  refine ⟨VideoMove.moves (.aside rfl rfl rfl rfl fun e he => ?_), rfl⟩
  obtain ⟨header, -, rfl⟩ := List.mem_map.mp he
  trivial

theorem videoReceiverStartFrame_moves {r r' : VideoReceiver} {es : List VideoEvent}
    (hnext : r.frameIndexCur < 0 ∨ seqNum16Gt u.frameIndex (toSeqNum16 r.frameIndexCur) = true)
    (h : videoReceiverStartFrame jerasure r u env = .ok (r', es)) :
    VideoMoves jerasure u env r es r' ∧ r'.frameIndexCur = u.frameIndex := by
  obtain ⟨⟨r2, flushed⟩, hflushed, h⟩ := bind_eq_ok_iff.mp h
  obtain ⟨⟨proc, err⟩, halloc, h⟩ := bind_eq_ok_iff.mp h
  cases h
  refine ⟨?_, rfl⟩
  -- the packet statistics are not looked at here
  have hstats : VideoMoves jerasure u env r [] { r with
      packetStats := r.packetStats.map (frameProcessorReportPacketStats r.frameProcessor) } :=
    VideoMove.moves (.aside rfl rfl rfl rfl (List.forall_mem_nil _))
  obtain ⟨hflush, hcur⟩ := @videoReceiverFlushIf_moves jerasure u env _ _ _ _ _
    (fun hcond => of_decide_eq_true hcond) hflushed
  have hreport : VideoMoves jerasure u env r2 (videoReceiverReportCorrupt r2 u) r2 := by
    refine VideoMove.moves (.aside rfl rfl rfl rfl fun e he => ?_)
    unfold videoReceiverReportCorrupt at he
    simp only at he
    split at he
    · rw [List.mem_singleton.mp he]
      trivial
    · cases he
  have hstart : VideoMoves jerasure u env r2 _ _ := (VideoMove.start (by rwa [hcur]) halloc).moves
  exact hstats.trans ((hflush.trans hreport).trans hstart)

theorem videoReceiverPutUnit_moves {r r' : VideoReceiver} {es : List VideoEvent}
    {flush : VideoFlushEnv} (hcur : 0 ≤ r.frameIndexCur)
    (hold : seqNum16Lt u.frameIndex (toSeqNum16 r.frameIndexCur) = false)
    (hnext : seqNum16Gt u.frameIndex (toSeqNum16 r.frameIndexCur) = false)
    (h : videoReceiverPutUnit jerasure r u flush = .ok (r', es)) :
    VideoMoves jerasure u env r es r' := by
  obtain ⟨⟨proc, err⟩, hput, h⟩ := bind_eq_ok_iff.mp h
  obtain ⟨⟨r2, flushed⟩, hflushed, h⟩ := bind_eq_ok_iff.mp h
  cases h
  have hunit : VideoMoves jerasure u env r [.unit u err] { r with frameProcessor := proc } :=
    (VideoMove.unit hcur hold hnext hput).moves
  have hflush := @videoReceiverFlushIf_moves jerasure u env _ { r with frameProcessor := proc } _ _ _
    (fun hcond => ⟨hcur, fun he => by
      rw [Bool.and_eq_true, decide_eq_true_eq] at hcond
      exact hcond.1 he.symm⟩) hflushed
  exact hunit.trans hflush.1

theorem toSeqNum16_cast {n : Nat} (h : n < 2 ^ 16) : toSeqNum16 n = n := by
  unfold toSeqNum16
  omega

theorem TakionAVUnit.frameIndex_lt (u : TakionAVUnit) : u.frameIndex < 2 ^ 16 :=
  Nat.mod_lt _ (Nat.two_pow_pos _)

/-- **A packet is handled in moves.** -/
theorem videoReceiverAvPacket_moves {r r' : VideoReceiver} {es : List VideoEvent}
    (h : videoReceiverAvPacket jerasure r u env = .ok (r', es)) :
    VideoMoves jerasure u env r es r' := by
  unfold videoReceiverAvPacket at h
  split at h
  · cases h
    exact .nil r
  · next hold =>
    cases hprofile : videoReceiverSelectProfile r u with
    | none =>
      rw [hprofile] at h
      cases h
      exact .nil r
    | some p =>
      obtain ⟨r1, header⟩ := p
      rw [hprofile] at h
      obtain ⟨⟨r2, started⟩, hstarted, h⟩ := bind_eq_ok_iff.mp h
      obtain ⟨⟨r3, put⟩, hput, h⟩ := bind_eq_ok_iff.mp h
      cases h
      obtain ⟨hheader, hcur1⟩ := @videoReceiverSelectProfile_moves jerasure u env r r1 header hprofile
      unfold videoReceiverNextFrame at hstarted
      split at hstarted
      · next hnext =>
        -- the packet belongs to the frame that it has started
        obtain ⟨hstart, hcur2⟩ := videoReceiverStartFrame_moves hnext hstarted
        have hself : toSeqNum16 r2.frameIndexCur = u.frameIndex := by
          rw [hcur2]
          exact toSeqNum16_cast u.frameIndex_lt
        refine (hheader.trans hstart).trans (videoReceiverPutUnit_moves ?_ ?_ ?_ hput)
        · rw [hcur2]
          exact Int.natCast_nonneg _
        · rw [hself]
          simp [seqNumLt]
        · rw [hself]
          simp [seqNumGt]
      · next hsame =>
        cases hstarted
        rw [not_or, Bool.not_eq_true] at hsame
        have hnonneg : 0 ≤ r1.frameIndexCur := Int.not_lt.mp hsame.1
        rw [← hcur1, not_and, Bool.not_eq_true] at hold
        rw [List.append_nil]
        exact hheader.trans (videoReceiverPutUnit_moves hnonneg (hold hnonneg) hsame.2 hput)

/-- A packet with an invalid profile is ignored. -/
theorem videoReceiverAvPacket_ignored {r : VideoReceiver}
    (h : videoReceiverSelectProfile r u = none) :
    videoReceiverAvPacket jerasure r u env = .ok (r, []) := by
  unfold videoReceiverAvPacket
  rw [h]
  split <;> rfl

/-! ## Runs -/

/-- What a step of a run is. -/
inductive VideoStep (jerasure : Jerasure) (s : VideoReceiverRun) : VideoLabel → VideoReceiverRun → Prop
  | streamInfo (profiles : List Bytes) : VideoStep jerasure s (.streamInfo profiles)
      { s with receiver := videoReceiverStreamInfo s.receiver profiles }
  | failed {u : TakionAVUnit} {env : VideoPacketEnv} {f : Fault}
      (packet : videoReceiverAvPacket jerasure s.receiver u env = .error f) :
      VideoStep jerasure s (.avPacket u env) { s with fault := some f }
  | handled {u : TakionAVUnit} {env : VideoPacketEnv} {r : VideoReceiver} {es : List VideoEvent}
      (packet : videoReceiverAvPacket jerasure s.receiver u env = .ok (r, es)) :
      VideoStep jerasure s (.avPacket u env) { s with receiver := r, log := s.log ++ es }

theorem videoReceiverStep_cases {s s' : VideoReceiverRun} {l : VideoLabel}
    (h : videoReceiverStep jerasure s l = some s') : VideoStep jerasure s l s' := by
  unfold videoReceiverStep at h
  split at h
  · cases h
  · cases l with
    | streamInfo profiles =>
      cases h
      exact .streamInfo profiles
    | avPacket u env =>
      simp only at h
      cases hpacket : videoReceiverAvPacket jerasure s.receiver u env with
      | error f =>
        rw [hpacket] at h
        cases h
        exact .failed hpacket
      | ok x =>
        rw [hpacket] at h
        cases h
        exact .handled hpacket

/-- What every move of a packet that the run may get keeps is an invariant. -/
theorem videoReceiver_invariant {G : VideoReceiverRun → VideoLabel → Prop}
    {P : VideoReceiver → List VideoEvent → Prop}
    (hinit : ∀ sampleCb stats, P (videoReceiverInit sampleCb stats) [])
    (hinfo : ∀ r log profiles, P r log → P (videoReceiverStreamInfo r profiles) log)
    (hpacket : ∀ s u env r es, G s (.avPacket u env) →
      (videoReceiverSelectProfile s.receiver u).isSome = true → P s.receiver s.log →
      VideoMoves jerasure u env s.receiver es r → P r (s.log ++ es)) :
    ((videoReceiverLts jerasure).restrict G).Invariant fun s => P s.receiver s.log where
  init := by
    rintro s ⟨sampleCb, stats, rfl⟩
    exact hinit sampleCb stats
  step := by
    rintro s l s' hP ⟨hG, hs⟩
    cases videoReceiverStep_cases hs with
    | streamInfo profiles => exact hinfo _ _ profiles hP
    | failed => exact hP
    | @handled u env r es hpkt =>
      cases hselect : videoReceiverSelectProfile s.receiver u with
      | none =>
        rw [videoReceiverAvPacket_ignored hselect] at hpkt
        cases hpkt
        rwa [List.append_nil]
      | some x =>
        exact hpacket s u env r es hG (by rw [hselect]; rfl) hP (videoReceiverAvPacket_moves hpkt)

/-! ## The order of the frames -/

/-- Neither the start of a frame nor the flush of one. -/
def VideoEvent.Quiet : VideoEvent → Prop
  | .start _ _ => False
  | .frame _ _ _ => False
  | _ => True

def VideoEvent.IsFrame : VideoEvent → Prop
  | .frame _ _ _ => True
  | _ => False

theorem VideoEvent.Aside.quiet {e : VideoEvent} (h : e.Aside) : e.Quiet := by
  cases e <;> trivial

theorem VideoEvent.Quiet.not_isFrame {e : VideoEvent} (h : e.Quiet) : ¬ e.IsFrame := by
  cases e with
  | frame => exact absurd h id
  | _ => exact id

/-- The last frame started is the one with index `i`, and it has not been flushed. -/
def FrameOpen (log : List VideoEvent) (i : Int) : Prop :=
  ∃ before u err since, log = before ++ .start u err :: since ∧ i = u.frameIndex ∧
    ∀ e ∈ since, e.Quiet

/-- Every frame is flushed after its start, and neither another start nor another flush is between
the two: a frame is flushed at most once, and not after a later one has started. -/
def FramesInOrder (log : List VideoEvent) : Prop :=
  ∀ before i buf passed after, log = before ++ .frame i buf passed :: after → FrameOpen before i

/-- Frame `i` is the last one that was flushed, and there was one. It was passed to
`video_sample_cb` if there is one. -/
def LastFrame (log : List VideoEvent) (sampleCb : Bool) (i : Int) : Prop :=
  ∃ before buf after, log = before ++ .frame i buf sampleCb :: after ∧ ∀ e ∈ after, ¬ e.IsFrame

/-- Where an element of a list with something behind it stands. -/
theorem append_eq_append_cons {α : Type} {log es before after : List α} {x : α}
    (h : log ++ es = before ++ x :: after) :
    (∃ after', log = before ++ x :: after') ∨ ∃ es', before = log ++ es' ∧ es = es' ++ x :: after := by
  rcases List.append_eq_append_iff.mp h with ⟨es', hbefore, hes⟩ | ⟨rest, hlog, hafter⟩
  · exact Or.inr ⟨es', hbefore, hes⟩
  · rcases List.cons_eq_append_iff.mp hafter with ⟨rfl, hes⟩ | ⟨after', rfl, -⟩
    · exact Or.inr ⟨[], by rw [hlog, List.append_nil, List.append_nil], hes⟩
    · exact Or.inl ⟨after', hlog⟩

theorem FrameOpen.append {log es : List VideoEvent} {i : Int} (h : FrameOpen log i)
    (hes : ∀ e ∈ es, e.Quiet) : FrameOpen (log ++ es) i := by
  obtain ⟨before, u, err, since, rfl, hi, hsince⟩ := h
  refine ⟨before, u, err, since ++ es, by simp, hi, fun e he => ?_⟩
  rcases List.mem_append.mp he with he | he
  · exact hsince e he
  · exact hes e he

theorem FramesInOrder.append {log es : List VideoEvent} (h : FramesInOrder log)
    (hes : ∀ e ∈ es, ¬ e.IsFrame) : FramesInOrder (log ++ es) := by
  intro before i buf passed after he
  rcases append_eq_append_cons he with ⟨after', hlog⟩ | ⟨es', -, hes'⟩
  · exact h before i buf passed after' hlog
  · exact absurd trivial (hes (.frame i buf passed) (by rw [hes']; simp))

theorem FramesInOrder.frame {log : List VideoEvent} {i : Int} (h : FramesInOrder log)
    (ho : FrameOpen log i) (buf : Bytes) (passed : Bool) :
    FramesInOrder (log ++ [.frame i buf passed]) := by
  intro before j buf' passed' after he
  rcases append_eq_append_cons he with ⟨after', hlog⟩ | ⟨es', rfl, hes'⟩
  · exact h before j buf' passed' after' hlog
  · rcases List.singleton_eq_append_iff.mp hes' with ⟨rfl, hes'⟩ | ⟨-, hnil⟩
    · cases hes'
      rwa [List.append_nil]
    · cases hnil

theorem LastFrame.append {log es : List VideoEvent} {sampleCb : Bool} {i : Int}
    (h : LastFrame log sampleCb i) (hes : ∀ e ∈ es, ¬ e.IsFrame) :
    LastFrame (log ++ es) sampleCb i := by
  obtain ⟨before, buf, after, rfl, hafter⟩ := h
  refine ⟨before, buf, after ++ es, by simp, fun e he => ?_⟩
  rcases List.mem_append.mp he with he | he
  · exact hafter e he
  · exact hes e he

/-- What every move keeps of the indices and the log. -/
structure VideoFrames (r : VideoReceiver) (log : List VideoEvent) : Prop where
  inOrder : FramesInOrder log
  building : 0 ≤ r.frameIndexCur → r.frameIndexPrev ≠ r.frameIndexCur → FrameOpen log r.frameIndexCur
  last : (r.frameIndexPrev = -1 ∧ ∀ e ∈ log, ¬ e.IsFrame) ∨
    LastFrame log r.videoSampleCb r.frameIndexPrev
  range : r.frameIndexCur = -1 ∨ ∃ n, n < 2 ^ 16 ∧ r.frameIndexCur = (n : Nat)

theorem VideoFrames.quiet {r r' : VideoReceiver} {log es : List VideoEvent} (h : VideoFrames r log)
    (hes : ∀ e ∈ es, e.Quiet) (hcb : r'.videoSampleCb = r.videoSampleCb)
    (hcur : r'.frameIndexCur = r.frameIndexCur) (hprev : r'.frameIndexPrev = r.frameIndexPrev) :
    VideoFrames r' (log ++ es) := by
  have hframe : ∀ e ∈ es, ¬ e.IsFrame := fun e he => (hes e he).not_isFrame
  refine ⟨h.inOrder.append hframe, ?_, ?_, ?_⟩
  · rw [hcur, hprev]
    exact fun h0 hne => (h.building h0 hne).append hes
  · rw [hcb, hprev]
    refine h.last.imp (fun hnone => ⟨hnone.1, fun e he => ?_⟩) fun hlast => hlast.append hframe
    rcases List.mem_append.mp he with he | he
    · exact hnone.2 e he
    · exact hframe e he
  · rw [hcur]
    exact h.range

/-- **Every move keeps the order of the frames.** -/
theorem videoFrames_move {r r' : VideoReceiver} {log es : List VideoEvent}
    (hm : VideoMove jerasure u env r es r') (h : VideoFrames r log) : VideoFrames r' (log ++ es) := by
  cases hm with
  | aside hcb hcur hprev _ hquiet => exact h.quiet (fun e he => (hquiet e he).quiet) hcb hcur hprev
  | flushFailed => exact h.quiet (List.forall_mem_nil _) rfl rfl rfl
  | unit => exact h.quiet (by rintro e he; rw [List.mem_singleton.mp he]; trivial) rfl rfl rfl
  | flushed complete hcur hbuilding =>
    refine ⟨h.inOrder.frame (h.building hcur hbuilding) _ _, fun _ hne => absurd rfl hne, ?_, h.range⟩
    exact Or.inr ⟨log, _, [], rfl, List.forall_mem_nil _⟩
  | @start proc err =>
    have hframe : ∀ e ∈ [VideoEvent.start u err], ¬ e.IsFrame := by
      rintro e he
      rw [List.mem_singleton.mp he]
      exact id
    refine ⟨h.inOrder.append hframe, fun _ _ => ⟨log, u, _, [], rfl, rfl, List.forall_mem_nil _⟩, ?_,
      Or.inr ⟨_, u.frameIndex_lt, rfl⟩⟩
    refine h.last.imp (fun hnone => ⟨hnone.1, fun e he => ?_⟩) fun hlast => hlast.append hframe
    rcases List.mem_append.mp he with he | he
    · exact hnone.2 e he
    · exact hframe e he

theorem videoFrames_invariant (jerasure : Jerasure) (G : VideoReceiverRun → VideoLabel → Prop) :
    ((videoReceiverLts jerasure).restrict G).Invariant fun s => VideoFrames s.receiver s.log := by
  refine videoReceiver_invariant ?_ ?_ ?_
  · intro sampleCb stats
    refine ⟨fun before i buf passed after he => by simp at he, fun h0 => ?_, ?_, Or.inl rfl⟩
    · exact absurd h0 (Int.not_le.mpr (Int.negSucc_lt_zero 0))
    · exact Or.inl ⟨rfl, List.forall_mem_nil _⟩
  · intro r log profiles h
    unfold videoReceiverStreamInfo
    split
    · exact h
    · exact ⟨h.inOrder, h.building, h.last, h.range⟩
  · intro s u env r es _ _ h hm
    exact hm.keep h fun _ _ _ _ hm h => videoFrames_move hm h

/-- The current frame is another one only if that is serially greater, or if there was none. -/
def FrameAdvances (cur cur' : Int) : Prop :=
  cur' = cur ∨ ∃ n, n < 2 ^ 16 ∧ cur' = (n : Nat) ∧
    (cur = -1 ∨ seqNum16Gt n (toSeqNum16 cur) = true)

theorem VideoMoves.advances {r r' : VideoReceiver} {es : List VideoEvent}
    (h : VideoMoves jerasure u env r es r') : r'.frameIndexCur = r.frameIndexCur ∨
      r'.frameIndexCur = u.frameIndex ∧
        (r.frameIndexCur < 0 ∨ seqNum16Gt u.frameIndex (toSeqNum16 r.frameIndexCur) = true) := by
  induction h with
  | nil => exact Or.inl rfl
  | cons hm _ ih =>
    cases hm with
    | aside _ hcur => rwa [hcur] at ih
    | flushFailed => exact ih
    | flushed => exact ih
    | unit => exact ih
    | start hnext =>
      refine Or.inr ⟨?_, hnext⟩
      rcases ih with ih | ih
      · exact ih
      · exact ih.1

/--
**Video frames are delivered in order.** The current frame is only ever replaced by a serially
greater one, a frame is flushed at most once and only until the next one starts, and
`frame_index_prev` is -1 or the last frame that was flushed.
-/
theorem videoReceiver_frames {s : VideoReceiverRun} (hr : (videoReceiverLts jerasure).Reachable s) :
    (∀ l s', (videoReceiverLts jerasure).step s l s' →
      FrameAdvances s.receiver.frameIndexCur s'.receiver.frameIndexCur) ∧
    FramesInOrder s.log ∧
    (s.receiver.frameIndexPrev = -1 ∨
      LastFrame s.log s.receiver.videoSampleCb s.receiver.frameIndexPrev) := by
  have h := (videoFrames_invariant jerasure fun _ _ => True).reachable
    (hr.to_restrict fun _ _ => trivial)
  refine ⟨fun l s' hs => ?_, h.inOrder, h.last.imp And.left id⟩
  cases videoReceiverStep_cases hs with
  | streamInfo profiles =>
    refine Or.inl ?_
    unfold videoReceiverStreamInfo
    split <;> rfl
  | failed => exact Or.inl rfl
  | @handled u env r es hpkt =>
    rcases (videoReceiverAvPacket_moves hpkt).advances with hsame | ⟨hcur, hnext⟩
    · exact Or.inl hsame
    · refine Or.inr ⟨u.frameIndex, u.frameIndex_lt, hcur, hnext.imp_left fun hneg => ?_⟩
      rcases h.range with hnone | ⟨n, -, hn⟩
      · exact hnone
      · omega

/-- A unit of the video frame with an index. -/
def videoUnit (frameIndex unitIndex unitsInFrameTotal unitsInFrameFec : Nat) (bytes : Bytes) :
    TakionAVUnit :=
  let unit := exampleUnit unitIndex unitsInFrameTotal unitsInFrameFec bytes
  { unit with packet := { unit.packet with frameIndex := frameIndex } }

def fineVideoEnv : VideoPacketEnv := ⟨⟨true, true⟩, true, true, ⟨true, true⟩⟩

def newVideoReceiver : VideoReceiverRun := ⟨videoReceiverInit true none, [], none⟩

/-- Two frames at the end of the sequence numbers, and a packet of the first that comes late. -/
def twoFrames : List VideoLabel :=
  [.streamInfo [[0xaa]], .avPacket (videoUnit 0xffff 0 1 0 [0, 0, 7]) fineVideoEnv,
    .avPacket (videoUnit 0 0 1 0 [0, 0, 8]) fineVideoEnv,
    .avPacket (videoUnit 0xffff 0 1 0 [0, 0, 9]) fineVideoEnv]

/-- The frame that is flushed. -/
def VideoEvent.flushedFrame : VideoEvent → Option (Int × Bytes)
  | .frame frameIndex buf _ => some (frameIndex, buf)
  | _ => none

theorem twoFrames_run :
    (Lts.runFun (videoReceiverStep noJerasure) newVideoReceiver twoFrames).map
        (fun r => (r.receiver.frameIndexPrev, r.log.filterMap VideoEvent.flushedFrame))
      = some (0, [(0xffff, [7]), (0, [8])]) := by
  decide +kernel

theorem videoReceiver_frames_twoFrames : ∃ r : VideoReceiverRun,
    r.log.filterMap VideoEvent.flushedFrame = [(0xffff, [7]), (0, [8])] ∧ FramesInOrder r.log ∧
    (r.receiver.frameIndexPrev = -1 ∨
      LastFrame r.log r.receiver.videoSampleCb r.receiver.frameIndexPrev) := by
  obtain ⟨r, hrun, hobs⟩ := Option.map_eq_some_iff.mp twoFrames_run
  simp only [Prod.mk.injEq] at hobs
  have hr : (videoReceiverLts noJerasure).Reachable r :=
    Lts.Reachable.runFun (.init ⟨true, none, rfl⟩) hrun
  exact ⟨r, hobs.2, (videoReceiver_frames hr).2⟩

end Chiaki
