import Chiaki.Properties.VideoReceiver.Assembly
import Chiaki.Properties.VideoReceiver.Order

/-!
# The units of video frames

`videoReceiver_units` says that the units of two frames are never mixed, if every packet is of the
current frame, an older or a newer one, and every frame that is started can be allocated.

* The number exactly opposite to the current frame is neither older nor newer, and a frame that
  cannot be allocated is used like one that was (`not_videoReceiver_units`).
-/

namespace Chiaki

open Infra

variable {jerasure : Jerasure} {u : TakionAVUnit} {env : VideoPacketEnv} {r r' : VideoReceiver}
  {log es : List VideoEvent}

/-! ## The frame that a unit belongs to -/

/-- A frame that has been started: the packet that did it, the result of the allocation, and the
units that were accepted since. -/
structure StartedFrame where
  first : TakionAVUnit
  err : ErrorCode
  units : List TakionAVUnit

def StartedFrame.next : Option StartedFrame → VideoEvent → Option StartedFrame
  | _, .start u err => some ⟨u, err, []⟩
  | some f, .unit u .success => some { f with units := f.units ++ [u] }
  | f, _ => f

/-- The last frame that has been started. -/
def startedFrame (log : List VideoEvent) : Option StartedFrame := log.foldl StartedFrame.next none

/-- The frame consists of the packets of one frame index. -/
structure StartedFrame.Pure (f : StartedFrame) : Prop where
  allocated : f.err = .success
  units : ∀ u ∈ f.units, u.frameIndex = f.first.frameIndex

/-- A unit that is accepted is one of the frame that was started last, and a frame that is flushed
is put together from packets of this frame only. -/
def VideoEvent.Unmixed (jerasure : Jerasure) (before : List VideoEvent) : VideoEvent → Prop
  | .unit u .success =>
    ∃ f, startedFrame before = some f ∧ f.Pure ∧ u.frameIndex = f.first.frameIndex
  | .frame i buf _ =>
    ∃ f mem, startedFrame before = some f ∧ f.Pure ∧ i = f.first.frameIndex ∧
      assembleFrame jerasure f.first f.units mem = .ok buf
  | _ => True

def UnitsUnmixed (jerasure : Jerasure) (log : List VideoEvent) : Prop :=
  ∀ before e after, log = before ++ e :: after → e.Unmixed jerasure before

/-- `frame_index_cur` is the frame that was started last, and it was allocated. -/
structure IsCurrent (r : VideoReceiver) (log : List VideoEvent) (f : StartedFrame) : Prop where
  started : startedFrame log = some f
  pure : f.Pure
  cur : r.frameIndexCur = f.first.frameIndex

/-- What every move keeps of the units. Until the current frame is flushed, the frame processor has
its units and nothing else. -/
structure VideoUnits (jerasure : Jerasure) (r : VideoReceiver) (log : List VideoEvent) : Prop where
  unmixed : UnitsUnmixed jerasure log
  wf : FrameProcessorWf r.frameProcessor
  current : 0 ≤ r.frameIndexCur → ∃ f, IsCurrent r log f ∧
    (r.frameIndexPrev ≠ r.frameIndexCur → FrameBuilding r.frameProcessor f.first f.units)

theorem startedFrame_append (log : List VideoEvent) (e : VideoEvent) :
    startedFrame (log ++ [e]) = StartedFrame.next (startedFrame log) e := by
  unfold startedFrame
  rw [List.foldl_append]
  rfl

theorem startedFrame_aside (h : ∀ e ∈ es, e.Aside) : startedFrame (log ++ es) = startedFrame log := by
  unfold startedFrame
  rw [List.foldl_append]
  generalize log.foldl StartedFrame.next none = started
  induction es with
  | nil => rfl
  | cons e es ih =>
    have hnext : StartedFrame.next started e = started := by
      have haside := h e (List.mem_cons_self ..)
      cases e with
      | header | corruptFrame => cases started <;> rfl
      | _ => exact absurd haside id
    rw [List.foldl_cons, hnext]
    exact ih fun e he => h e (List.mem_cons_of_mem _ he)

theorem UnitsUnmixed.aside (h : UnitsUnmixed jerasure log) (hes : ∀ e ∈ es, e.Aside) :
    UnitsUnmixed jerasure (log ++ es) := by
  intro before e after he
  rcases append_eq_append_cons he with ⟨after', hlog⟩ | ⟨es', -, hes'⟩
  · exact h before e after' hlog
  · have haside := hes e (by rw [hes']; simp)
    cases e with
    | header | corruptFrame => trivial
    | _ => exact absurd haside id

theorem UnitsUnmixed.append (h : UnitsUnmixed jerasure log) {e : VideoEvent}
    (he : e.Unmixed jerasure log) : UnitsUnmixed jerasure (log ++ [e]) := by
  intro before e' after happend
  rcases append_eq_append_cons happend with ⟨after', hlog⟩ | ⟨es', rfl, hes'⟩
  · exact h before e' after' hlog
  · rcases List.singleton_eq_append_iff.mp hes' with ⟨rfl, hes'⟩ | ⟨-, hnil⟩
    · cases hes'
      rwa [List.append_nil]
    · cases hnil

/-! ## Every move keeps the units apart -/

/-- A number that is neither older nor newer is the same, or the opposite. -/
theorem seqNum16_same {a b : Nat} (ha : a < 2 ^ 16) (hb : b < 2 ^ 16) (hlt : seqNum16Lt a b = false)
    (hgt : seqNum16Gt a b = false) (hopp : a ≠ (b + 2 ^ 15) % 2 ^ 16) : a = b := by
  simp only [seqNumLt, seqNumGt, beq_iff_eq] at hlt hgt
  split at hlt
  · assumption
  · rw [if_neg (by assumption)] at hgt
    simp only [Bool.or_eq_false_iff, Bool.and_eq_false_iff, decide_eq_false_iff_not] at hlt hgt
    omega

/-- The packet starts a frame. -/
def startsFrame (r : VideoReceiver) (u : TakionAVUnit) : Bool :=
  decide (r.frameIndexCur < 0) || seqNum16Gt u.frameIndex (toSeqNum16 r.frameIndexCur)

/-- The frame of the packet can be allocated. -/
def frameFits (r : VideoReceiver) (u : TakionAVUnit) (env : VideoPacketEnv) : Bool :=
  decide (u.packet.unitsInFrameFec ≤ u.packet.unitsInFrameTotal) &&
    allocFrameFits r.frameProcessor u env.slotsMem env.frameMem

/-- The number of the packet is exactly opposite to the one of the current frame. -/
def oppositeFrame (r : VideoReceiver) (u : TakionAVUnit) : Bool :=
  decide (0 ≤ r.frameIndexCur) && decide (u.frameIndex = toSeqNum16 (r.frameIndexCur + 2 ^ 15))

theorem videoUnits_move (hm : VideoMove jerasure u env r es r') (h : VideoUnits jerasure r log)
    (hstart : startsFrame r u = true → frameFits r u env = true) (hopp : oppositeFrame r u = false) :
    VideoUnits jerasure r' (log ++ es) := by
  cases hm with
  | aside hcb hcur hprev hproc hquiet =>
    refine ⟨h.unmixed.aside hquiet, by rw [hproc]; exact h.wf, ?_⟩
    rw [hcur, hprev, hproc]
    intro h0
    obtain ⟨f, hf, hbuilding⟩ := h.current h0
    exact ⟨f, ⟨(startedFrame_aside hquiet).trans hf.started, hf.pure, hcur.trans hf.cur⟩, hbuilding⟩
  | flushFailed hflush =>
    rw [(frameProcessorFlush_keep hflush).2.2 rfl, List.append_nil]
    exact h
  | flushed complete hcur hbuilding hflush =>
    obtain ⟨f, hf, hbuilt⟩ := h.current hcur
    refine ⟨h.unmixed.append ?_, (frameProcessorFlush_spec h.wf _).2 _ _ _ hflush, fun _ => ?_⟩
    · exact ⟨f, _, hf.started, hf.pure, hf.cur, (hbuilt hbuilding).flush hflush⟩
    exact ⟨f, ⟨(startedFrame_append log _).trans (by rw [hf.started]; rfl), hf.pure, hf.cur⟩,
      fun hne => absurd rfl hne⟩
  | @start proc err next halloc =>
    have hstarts : startsFrame r u = true := by
      rw [startsFrame, Bool.or_eq_true, decide_eq_true_iff]
      exact next
    have hfits := hstart hstarts
    rw [frameFits, Bool.and_eq_true, decide_eq_true_iff] at hfits
    obtain ⟨s', err', hrun, -, -, hwf⟩ := frameProcessorAllocFrame_spec h.wf.toFrameProcessorAlloc u
      env.slotsMem env.frameMem
    rw [halloc] at hrun
    cases hrun
    rw [frameProcessorAllocFrame_fits h.wf.toFrameProcessorAlloc hfits.1 hfits.2] at halloc
    cases halloc
    refine ⟨h.unmixed.append trivial, hwf (Nat.not_lt.mpr hfits.1) hfits.2, fun _ => ?_⟩
    exact ⟨⟨u, .success, []⟩, ⟨startedFrame_append log _, ⟨rfl, List.forall_mem_nil _⟩, rfl⟩,
      fun _ => FrameBuilding.start hfits.1 hfits.2⟩
  | @unit proc err hcur notOld notNext hput =>
    obtain ⟨f, hf, hbuilt⟩ := h.current hcur
    have hwf := frameProcessorPutUnit_wf h.wf hput
    by_cases herr : err = .success
    · subst herr
      have hu : u.frameIndex = f.first.frameIndex := by
        rw [hf.cur, toSeqNum16_cast f.first.frameIndex_lt] at notOld notNext
        refine seqNum16_same u.frameIndex_lt f.first.frameIndex_lt notOld notNext fun he => ?_
        rw [oppositeFrame, hf.cur, Bool.and_eq_false_iff, decide_eq_false_iff_not,
          decide_eq_false_iff_not] at hopp
        rcases hopp with hneg | hne
        · exact hneg (Int.natCast_nonneg _)
        · exact hne (by unfold toSeqNum16; omega)
      refine ⟨h.unmixed.append ⟨f, hf.started, hf.pure, hu⟩, hwf, fun _ => ?_⟩
      refine ⟨{ f with units := f.units ++ [u] }, ⟨?_, ⟨hf.pure.allocated, fun x hx => ?_⟩, hf.cur⟩,
        fun hne => (hbuilt hne).put hput⟩
      · rw [startedFrame_append, hf.started]
        rfl
      · rcases List.mem_append.mp hx with hx | hx
        · exact hf.pure.units x hx
        · rw [List.mem_singleton.mp hx]
          exact hu
    · have hsame := frameProcessorPutUnit_rejected hput herr
      subst hsame
      have hplain : VideoEvent.Unmixed jerasure log (.unit u err) := by
        cases err <;> trivial
      refine ⟨h.unmixed.append hplain, hwf, fun _ => ⟨f, ⟨?_, hf.pure, hf.cur⟩, hbuilt⟩⟩
      rw [startedFrame_append, hf.started]
      cases err <;> first | rfl | exact absurd rfl herr

/-! ## Runs -/

/-- What a packet has to be, unless its profile is invalid: not of the opposite frame, and one of a
frame that can be allocated if it starts one. -/
def videoLabelFits (s : VideoReceiverRun) : VideoLabel → Bool
  | .streamInfo _ => true
  | .avPacket u env => (videoReceiverSelectProfile s.receiver u).isNone ||
      !oppositeFrame s.receiver u && (!startsFrame s.receiver u || frameFits s.receiver u env)

theorem startsFrame_self (hcur : r.frameIndexCur = u.frameIndex) : startsFrame r u = false := by
  rw [startsFrame, hcur, toSeqNum16_cast u.frameIndex_lt, Bool.or_eq_false_iff]
  exact ⟨decide_eq_false (Int.not_lt.mpr (Int.natCast_nonneg _)), by simp [seqNumGt]⟩

theorem oppositeFrame_self (hcur : r.frameIndexCur = u.frameIndex) : oppositeFrame r u = false := by
  have hlt := u.frameIndex_lt
  rw [oppositeFrame, hcur, Bool.and_eq_false_iff]
  refine Or.inr (decide_eq_false fun he => ?_)
  unfold toSeqNum16 at he
  omega

/-- While a packet is handled, its frame has been started, or everything that is looked at for that
is as before. -/
def PacketProgress (r0 : VideoReceiver) (u : TakionAVUnit) (r : VideoReceiver) : Prop :=
  r.frameIndexCur = u.frameIndex ∨ r.frameIndexCur = r0.frameIndexCur ∧
    r.frameProcessor.unitSlotsSize = r0.frameProcessor.unitSlotsSize ∧
    r.frameProcessor.frameBufSize = r0.frameProcessor.frameBufSize

theorem PacketProgress.checks {r0 : VideoReceiver} (h : PacketProgress r0 u r)
    (hopp : oppositeFrame r0 u = false)
    (hstart : startsFrame r0 u = true → frameFits r0 u env = true) :
    oppositeFrame r u = false ∧ (startsFrame r u = true → frameFits r u env = true) := by
  rcases h with hcur | ⟨hcur, hslots, hbuf⟩
  · refine ⟨oppositeFrame_self hcur, fun hs => ?_⟩
    rw [startsFrame_self hcur] at hs
    cases hs
  · unfold oppositeFrame startsFrame frameFits at *
    rw [hcur, allocFrameFits_congr hslots hbuf]
    exact ⟨hopp, hstart⟩

theorem packetProgress_move {r0 : VideoReceiver} (hm : VideoMove jerasure u env r es r')
    (h : PacketProgress r0 u r) : PacketProgress r0 u r' := by
  cases hm with
  | aside _ hcur _ hproc =>
    unfold PacketProgress
    rw [hcur, hproc]
    exact h
  | flushFailed hflush =>
    obtain ⟨hslots, hbuf, -⟩ := frameProcessorFlush_keep hflush
    exact h.imp id fun h => ⟨h.1, hslots.trans h.2.1, hbuf.trans h.2.2⟩
  | flushed _ _ _ hflush =>
    obtain ⟨hslots, hbuf, -⟩ := frameProcessorFlush_keep hflush
    exact h.imp id fun h => ⟨h.1, hslots.trans h.2.1, hbuf.trans h.2.2⟩
  | start => exact Or.inl rfl
  | unit _ _ _ hput =>
    obtain ⟨hslots, hbuf⟩ := frameProcessorPutUnit_keep hput
    exact h.imp id fun h => ⟨h.1, hslots.trans h.2.1, hbuf.trans h.2.2⟩

theorem videoUnits_invariant (jerasure : Jerasure) :
    ((videoReceiverLts jerasure).restrict fun s l => videoLabelFits s l = true).Invariant
      fun s => VideoUnits jerasure s.receiver s.log := by
  refine videoReceiver_invariant ?_ ?_ ?_
  · intro sampleCb stats
    refine ⟨fun before e after he => by simp at he, ?_, fun h0 => ?_⟩
    · exact ⟨⟨rfl, Or.inr ⟨rfl, rfl⟩⟩, Nat.le_refl _, fun hn => absurd rfl hn, Nat.le_refl _,
        fun hn => absurd rfl hn, Nat.le_refl _, fun _ hx => absurd hx List.not_mem_nil⟩
    · exact absurd h0 (Int.not_le.mpr (Int.negSucc_lt_zero 0))
  · intro r log profiles h
    unfold videoReceiverStreamInfo
    split
    · exact h
    · refine ⟨h.unmixed, h.wf, fun h0 => ?_⟩
      obtain ⟨f, hf, hbuilding⟩ := h.current h0
      exact ⟨f, ⟨hf.started, hf.pure, hf.cur⟩, hbuilding⟩
  · intro s u env r es hG hselect h hm
    simp only [videoLabelFits, Option.isNone_eq_false_iff.mpr hselect, Bool.false_or,
      Bool.and_eq_true, Bool.or_eq_true, Bool.not_eq_true'] at hG
    have hstart : startsFrame s.receiver u = true → frameFits s.receiver u env = true := fun hs =>
      hG.2.resolve_left (by rw [hs]; exact Bool.noConfusion)
    let P := fun r log => VideoUnits jerasure r log ∧ PacketProgress s.receiver u r
    have hmove : ∀ r es r' log, VideoMove jerasure u env r es r' → P r log → P r' (log ++ es) := by
      intro r es r' log hm h
      obtain ⟨hopp, hfits⟩ := h.2.checks hG.1 hstart
      exact ⟨videoUnits_move hm h.1 hfits hopp, packetProgress_move hm h.2⟩
    have hkeep : P r (s.log ++ es) := hm.keep ⟨h, Or.inr ⟨rfl, rfl, rfl⟩⟩ hmove
    exact hkeep.1

/--
**Units of two frames are never mixed** while every packet that is used is of the current frame, an
older or a newer one, and every frame that is started can be allocated: what is accepted or flushed
is of the frame that was started last, and that is `frame_index_cur`.
-/
theorem videoReceiver_units {s : VideoReceiverRun}
    (hr : ((videoReceiverLts jerasure).restrict fun s l => videoLabelFits s l = true).Reachable s) :
    UnitsUnmixed jerasure s.log ∧
      (0 ≤ s.receiver.frameIndexCur → ∃ f, IsCurrent s.receiver s.log f) := by
  have h := (videoUnits_invariant jerasure).reachable hr
  refine ⟨h.unmixed, fun h0 => ?_⟩
  obtain ⟨f, hf, -⟩ := h.current h0
  exact ⟨f, hf⟩

/-! ### Runs -/

theorem twoFrames_units_run :
    (Lts.runFun (Lts.guarded (videoReceiverStep noJerasure) fun s l => videoLabelFits s l = true)
        newVideoReceiver twoFrames).map (fun r => r.log.filterMap VideoEvent.flushedFrame)
      = some [(0xffff, [7]), (0, [8])] := by
  decide +kernel

theorem videoReceiver_units_twoFrames : ∃ r : VideoReceiverRun,
    r.log.filterMap VideoEvent.flushedFrame = [(0xffff, [7]), (0, [8])] ∧
    UnitsUnmixed noJerasure r.log ∧
    (0 ≤ r.receiver.frameIndexCur → ∃ f, IsCurrent r.receiver r.log f) := by
  obtain ⟨r, hrun, hobs⟩ := Option.map_eq_some_iff.mp twoFrames_units_run
  exact ⟨r, hobs, videoReceiver_units (Lts.Reachable.runGuarded (.init ⟨true, none, rfl⟩) hrun)⟩

/-- The first of two units of frame 0, and a second unit of frame 0x8000. -/
def oppositeUnit : List VideoLabel :=
  [.streamInfo [[0xaa]], .avPacket (videoUnit 0 0 2 0 [0, 0, 7]) fineVideoEnv,
    .avPacket (videoUnit 0x8000 1 2 0 [0, 0, 9]) fineVideoEnv]

/-- A whole frame, and a packet that starts one with more FEC units than units. -/
def unallocatedFrame : List VideoLabel :=
  [.streamInfo [[0xaa]], .avPacket (videoUnit 1 0 1 0 [0, 0, 7]) fineVideoEnv,
    .avPacket (videoUnit 2 5 1 2 [0, 0, 9]) fineVideoEnv]

/-- **Units of two frames get into one, and bytes of one frame are passed as another.** -/
theorem not_videoReceiver_units :
    (∃ r : VideoReceiverRun, (videoReceiverLts noJerasure).Reachable r ∧
      Lts.runFun (videoReceiverStep noJerasure) newVideoReceiver oppositeUnit = some r ∧
      r.log.filterMap VideoEvent.flushedFrame = [(0, [7, 9])] ∧ ¬ UnitsUnmixed noJerasure r.log) ∧
    (∃ r : VideoReceiverRun, (videoReceiverLts noJerasure).Reachable r ∧
      Lts.runFun (videoReceiverStep noJerasure) newVideoReceiver unallocatedFrame = some r ∧
      r.log.filterMap VideoEvent.flushedFrame = [(1, [7]), (2, [7])] ∧
      ¬ UnitsUnmixed noJerasure r.log) := by
  constructor
  · have hlog : (Lts.runFun (videoReceiverStep noJerasure) newVideoReceiver oppositeUnit).map
        VideoReceiverRun.log = some [.header [0xaa], .start (videoUnit 0 0 2 0 [0, 0, 7]) .success,
          .unit (videoUnit 0 0 2 0 [0, 0, 7]) .success, .unit (videoUnit 0x8000 1 2 0 [0, 0, 9]) .success,
          .frame 0 [7, 9] true] := by
      decide +kernel
    obtain ⟨r, hrun, hlog⟩ := Option.map_eq_some_iff.mp hlog
    refine ⟨r, Lts.Reachable.runFun (.init ⟨true, none, rfl⟩) hrun, hrun, by rw [hlog]; rfl, fun hun => ?_⟩
    rw [hlog] at hun
    obtain ⟨f, hf, -, hsame⟩ := hun [_, _, _] _ _ rfl
    cases hf
    exact absurd hsame (by decide)
  · have hlog : (Lts.runFun (videoReceiverStep noJerasure) newVideoReceiver unallocatedFrame).map
        VideoReceiverRun.log = some [.header [0xaa], .start (videoUnit 1 0 1 0 [0, 0, 7]) .success,
          .unit (videoUnit 1 0 1 0 [0, 0, 7]) .success, .frame 1 [7] true,
          .start (videoUnit 2 5 1 2 [0, 0, 9]) .invalidData,
          .unit (videoUnit 2 5 1 2 [0, 0, 9]) .invalidData, .frame 2 [7] true] := by
      decide +kernel
    obtain ⟨r, hrun, hlog⟩ := Option.map_eq_some_iff.mp hlog
    refine ⟨r, Lts.Reachable.runFun (.init ⟨true, none, rfl⟩) hrun, hrun, by rw [hlog]; rfl, fun hun => ?_⟩
    rw [hlog] at hun
    obtain ⟨f, _, hf, hpure, -⟩ := hun [_, _, _, _, _, _] _ _ rfl
    cases hf
    cases hpure.allocated

end Chiaki
