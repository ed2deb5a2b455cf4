import Chiaki.Properties.FrameProcessor.Counters
import Chiaki.Properties.VideoReceiver.Units

/-!
# What is reported of video frames

`videoReceiver_stats` says that what is pushed to the packet statistics, frame by frame, is the
number of units that were accepted for it and the number of those that were not.

* A frame without FEC units is expected to have one, and a frame that is given up early leaves the
  counters as they were (`not_videoReceiver_stats`).
-/

namespace Chiaki

open Infra

variable {jerasure : Jerasure} {u : TakionAVUnit} {env : VideoPacketEnv} {r r' : VideoReceiver}
  {log es : List VideoEvent} {s s' : FrameProcessor} {err : ErrorCode}

/-! ## What is pushed -/

/-- `chiaki_frame_processor_report_packet_stats`: the number of units that were received, and the
number of those that were not. -/
def statsPushed (s : FrameProcessor) : Nat × Nat :=
  let received := (s.unitsSourceReceived + s.unitsFecReceived) % 2 ^ 32
  let expected := (s.unitsSourceExpected + s.unitsFecExpected) % 2 ^ 32
  (received, (expected + 2 ^ 64 - received) % 2 ^ 64)

/-- All that was pushed, on top of what was there. -/
def pushGenerations (stats : PacketStats) (pushes : List (Nat × Nat)) : PacketStats :=
  pushes.foldl (fun stats push => packetStatsPushGeneration stats push.1 push.2) stats

theorem pushGenerations_append (stats : PacketStats) (pushes : List (Nat × Nat)) (s : FrameProcessor) :
    pushGenerations stats (pushes ++ [statsPushed s])
      = frameProcessorReportPacketStats s (pushGenerations stats pushes) := by
  rw [pushGenerations, List.foldl_append]
  rfl

theorem videoReceiverFlushIf_keep {cond : Bool} {flush : VideoFlushEnv}
    (h : videoReceiverFlushIf jerasure cond r flush = .ok (r', es)) :
    r'.packetStats = r.packetStats ∧ r'.frameIndexCur = r.frameIndexCur := by
  unfold videoReceiverFlushIf at h
  split at h
  · obtain ⟨⟨proc, result, size⟩, -, h⟩ := bind_eq_ok_iff.mp h
    by_cases hfailed : result = .failed
    · simp only [hfailed, if_true] at h
      cases h
      exact ⟨rfl, rfl⟩
    · simp only [hfailed, if_false] at h
      cases h
      exact ⟨rfl, rfl⟩
  · cases h
    exact ⟨rfl, rfl⟩

/-- The packet is used, and starts a frame. -/
def packetStarts (r : VideoReceiver) (u : TakionAVUnit) : Bool :=
  startsFrame r u && (videoReceiverSelectProfile r u).isSome

/-- A packet that starts a frame is not an old one. -/
theorem startsFrame_notOld (h : startsFrame r u = true) :
    ¬ (r.frameIndexCur ≥ 0 ∧ seqNum16Lt u.frameIndex (toSeqNum16 r.frameIndexCur) = true) := by
  rintro ⟨hcur, hold⟩
  rw [startsFrame, Bool.or_eq_true, decide_eq_true_eq] at h
  have hnext := h.resolve_left (Int.not_lt.mpr hcur)
  simp only [seqNumLt, seqNumGt, beq_iff_eq] at hold hnext
  split at hold
  · cases hold
  · rw [if_neg (by assumption)] at hnext
    simp only [Bool.or_eq_true, Bool.and_eq_true, decide_eq_true_eq] at hold hnext
    omega

/-- **Only a packet that starts a frame pushes**, before it does anything else. -/
theorem videoReceiverAvPacket_packetStats (h : videoReceiverAvPacket jerasure r u env = .ok (r', es)) :
    r'.packetStats = (if packetStarts r u then r.packetStats.map (frameProcessorReportPacketStats
      r.frameProcessor) else r.packetStats) ∧ (packetStarts r u = true → r'.frameIndexCur = u.frameIndex) := by
  unfold videoReceiverAvPacket at h
  split at h
  · next hold =>
    cases h
    have hstarts : packetStarts r u = false := by
      rw [packetStarts, Bool.and_eq_false_iff]
      exact Or.inl (Bool.eq_false_iff.mpr fun hstarts => startsFrame_notOld hstarts hold)
    rw [hstarts]
    exact ⟨rfl, fun hfalse => by cases hfalse⟩
  · cases hprofile : videoReceiverSelectProfile r u with
    | none =>
      rw [hprofile] at h
      cases h
      rw [packetStarts, hprofile, Option.isSome_none, Bool.and_false]
      exact ⟨rfl, fun hfalse => by cases hfalse⟩
    | some p =>
      obtain ⟨r1, header⟩ := p
      rw [hprofile] at h
      obtain ⟨⟨r2, started⟩, hstarted, h⟩ := bind_eq_ok_iff.mp h
      obtain ⟨⟨r3, put⟩, hput, h⟩ := bind_eq_ok_iff.mp h
      cases h
      obtain ⟨index, headers, rfl, -⟩ := videoReceiverSelectProfile_eq hprofile
      obtain ⟨⟨proc, err⟩, -, hput⟩ := bind_eq_ok_iff.mp hput
      obtain ⟨⟨r4, flushed⟩, hflushed, hput⟩ := bind_eq_ok_iff.mp hput
      cases hput
      obtain ⟨hstats3, hcur3⟩ := videoReceiverFlushIf_keep hflushed
      rw [packetStarts, hprofile, Option.isSome_some, Bool.and_true, hstats3, hcur3]
      unfold videoReceiverNextFrame at hstarted
      split at hstarted
      · next hnext =>
        have hstarts : startsFrame r u = true := by
          rw [startsFrame, Bool.or_eq_true, decide_eq_true_eq]
          exact hnext
        obtain ⟨⟨r5, flushed5⟩, hflushed5, hstarted⟩ := bind_eq_ok_iff.mp hstarted
        obtain ⟨⟨proc5, err5⟩, -, hstarted⟩ := bind_eq_ok_iff.mp hstarted
        cases hstarted
        rw [hstarts, if_pos rfl]
        exact ⟨(videoReceiverFlushIf_keep hflushed5).1, fun _ => rfl⟩
      · next hnext =>
        cases hstarted
        have hstarts : startsFrame r u = false := by
          rw [startsFrame, Bool.eq_false_iff, ne_eq, Bool.or_eq_true, decide_eq_true_eq]
          exact hnext
        rw [hstarts, if_neg Bool.false_ne_true]
        exact ⟨rfl, fun hfalse => by cases hfalse⟩

/-! ## The frames so far -/

/-- The frames before the current one, and the current one. -/
structure FramesSoFar where
  closed : List StartedFrame
  current : Option StartedFrame

def FramesSoFar.next (f : FramesSoFar) (e : VideoEvent) : FramesSoFar where
  closed := match e with
    | .start _ _ => f.closed ++ f.current.toList
    | _ => f.closed
  current := StartedFrame.next f.current e

def framesSoFar (log : List VideoEvent) : FramesSoFar := log.foldl FramesSoFar.next ⟨[], none⟩

theorem framesSoFar_append (log : List VideoEvent) (e : VideoEvent) :
    framesSoFar (log ++ [e]) = (framesSoFar log).next e := by
  unfold framesSoFar
  rw [List.foldl_append]
  rfl

theorem framesSoFar_current (log : List VideoEvent) : (framesSoFar log).current = startedFrame log := by
  unfold framesSoFar startedFrame
  generalize hstart : (⟨[], none⟩ : FramesSoFar) = start
  have hcurrent : start.current = none := by rw [← hstart]
  rw [← hcurrent]
  clear hstart hcurrent
  induction log generalizing start with
  | nil => rfl
  | cons e log ih => exact ih (start.next e)

theorem framesSoFar_aside (h : ∀ e ∈ es, e.Aside) : framesSoFar (log ++ es) = framesSoFar log := by
  unfold framesSoFar
  rw [List.foldl_append]
  generalize log.foldl FramesSoFar.next ⟨[], none⟩ = frames
  induction es with
  | nil => rfl
  | cons e es ih =>
    have hnext : frames.next e = frames := by
      have haside := h e (List.mem_cons_self ..)
      cases e with
      | header | corruptFrame => cases frames with | mk closed current => cases current <;> rfl
      | _ => exact absurd haside id
    rw [List.foldl_cons, hnext]
    exact ih fun e he => h e (List.mem_cons_of_mem _ he)

/-- A flush is about the current frame. -/
theorem framesSoFar_frame (log : List VideoEvent) (i : Int) (buf : Bytes) (passed : Bool) :
    framesSoFar (log ++ [.frame i buf passed]) = framesSoFar log := by
  rw [framesSoFar_append]
  cases framesSoFar log with
  | mk closed current => cases current <;> rfl

/-- What a packet has done so far: it has not started a frame, or it has closed the current one. -/
def ClosedBy (r0 : VideoReceiver) (log0 : List VideoEvent) (u : TakionAVUnit) (r : VideoReceiver)
    (log : List VideoEvent) : Prop :=
  (r.frameIndexCur = r0.frameIndexCur ∧ (framesSoFar log).closed = (framesSoFar log0).closed ∧
    (startsFrame r0 u = true → (framesSoFar log).current = (framesSoFar log0).current)) ∨
  startsFrame r0 u = true ∧ r.frameIndexCur = u.frameIndex ∧
    (framesSoFar log).closed = (framesSoFar log0).closed ++ (framesSoFar log0).current.toList

theorem startsFrame_iff : startsFrame r u = true ↔
    r.frameIndexCur < 0 ∨ seqNum16Gt u.frameIndex (toSeqNum16 r.frameIndexCur) = true := by
  rw [startsFrame, Bool.or_eq_true, decide_eq_true_eq]

theorem startsFrame_congr (h : r'.frameIndexCur = r.frameIndexCur) : startsFrame r' u = startsFrame r u := by
  rw [startsFrame, startsFrame, h]

theorem closedBy_move {r0 : VideoReceiver} {log0 : List VideoEvent}
    (hm : VideoMove jerasure u env r es r') (h : ClosedBy r0 log0 u r log) :
    ClosedBy r0 log0 u r' (log ++ es) := by
  cases hm with
  | aside _ hcur _ _ hquiet =>
    unfold ClosedBy
    rw [hcur, framesSoFar_aside hquiet]
    exact h
  | flushFailed =>
    rw [List.append_nil]
    exact h
  | flushed =>
    unfold ClosedBy
    rw [framesSoFar_frame]
    exact h
  | start next =>
    have hnext := startsFrame_iff.mpr next
    rcases h with ⟨hcur, hclosed, hcurrent⟩ | ⟨-, hcur, -⟩
    · rw [startsFrame_congr hcur] at hnext
      refine Or.inr ⟨hnext, rfl, ?_⟩
      rw [framesSoFar_append]
      exact congrArg₂ (fun closed current => closed ++ Option.toList current) hclosed (hcurrent hnext)
    · rw [startsFrame_self hcur] at hnext
      cases hnext
  | unit cur notOld notNext =>
    rcases h with ⟨hcur, hclosed, -⟩ | ⟨hstarts, hcur, hclosed⟩
    · refine Or.inl ⟨hcur, ?_, fun hstarts => ?_⟩
      · rw [framesSoFar_append]
        exact hclosed
      · rw [← startsFrame_congr hcur, startsFrame_iff, notNext] at hstarts
        rcases hstarts with hneg | hfalse
        · exact absurd cur (Int.not_le.mpr hneg)
        · cases hfalse
    · refine Or.inr ⟨hstarts, hcur, ?_⟩
      rw [framesSoFar_append]
      exact hclosed

/-! ## What the counters say of the current frame -/

/-- Units that were received, of both kinds. -/
def FrameProcessor.received (s : FrameProcessor) : Nat := s.unitsSourceReceived + s.unitsFecReceived

/-- Units that are expected, of both kinds. -/
def FrameProcessor.expected (s : FrameProcessor) : Nat := s.unitsSourceExpected + s.unitsFecExpected

/-- There are as many units in the slots as were received, or more after decoding. -/
structure ReceivedFits (s : FrameProcessor) : Prop where
  slots : s.unitSlots.length ≤ unitSlotsMax
  received : s.received ≤ (occupiedSlots s.unitSlots fun _ => True).card

theorem ReceivedFits.le (h : ReceivedFits s) : s.received ≤ s.unitSlots.length := by
  refine h.received.trans ?_
  rw [← Finset.card_range s.unitSlots.length]
  exact Finset.card_filter_le _ _

/-- The frame processor counts the units of the current frame. -/
structure FrameCounted (s : FrameProcessor) (current : Option StartedFrame) : Prop where
  fits : ReceivedFits s
  idle : current = none → s.received = 0 ∧ s.expected = 0
  active : ∀ f, current = some f → s.received = f.units.length ∧ (f.err = .success →
    s.expected = f.first.packet.unitsInFrameTotal ∧ s.unitSlots.length = s.expected)

theorem FrameCounted.flush {mem : Bool} {result : FrameFlushResult} {n : Nat}
    {current : Option StartedFrame} (h : FrameCounted s current)
    (hflush : frameProcessorFlush jerasure s mem = .ok (s', result, n)) : FrameCounted s' current := by
  obtain ⟨buf, stats, slots, rfl, hlen, hslots⟩ := frameProcessorFlush_slots hflush
  have hsub : occupiedSlots s.unitSlots (fun _ => True) ⊆ occupiedSlots slots fun _ => True :=
    occupiedSlots_subset hlen fun j => (hslots j).imp_right And.right
  refine ⟨⟨hlen.trans_le h.fits.slots, h.fits.received.trans (Finset.card_le_card hsub)⟩, h.idle,
    fun f hf => ?_⟩
  obtain ⟨hreceived, hexpected⟩ := h.active f hf
  exact ⟨hreceived, fun herr => ⟨(hexpected herr).1, hlen.trans (hexpected herr).2⟩⟩

theorem FrameCounted.put {f : StartedFrame} (h : FrameCounted s (some f))
    (hput : frameProcessorPutUnit s u = .ok (s', err)) :
    FrameCounted s' (StartedFrame.next (some f) (.unit u err)) := by
  cases frameProcessorPutUnit_outcome hput with
  | refused hrefused herr =>
    have hsame : StartedFrame.next (some f) (.unit u err) = some f := by
      cases err <;> first | rfl | exact absurd rfl herr
    rw [hsame]
    exact h
  | accepted haccepted hslot =>
    have hdata : u.packet.dataSize ≠ 0 := by
      intro hzero
      simp [putUnitRefused, hzero] at haccepted
    have hcard := @occupiedSlots_set s.unitSlots (fun _ => True) _ u.packet.unitIndex u.packet.dataSize
      hslot hdata
    rw [if_pos trivial] at hcard
    have hlen : (s.unitSlots.set u.packet.unitIndex u.packet.dataSize).length = s.unitSlots.length :=
      List.length_set
    obtain ⟨hreceived, hexpected⟩ := h.active f rfl
    have hone : (s.unitsSourceReceived + (if u.packet.unitIndex < s.unitsSourceExpected then 1 else 0))
        + (s.unitsFecReceived + if u.packet.unitIndex < s.unitsSourceExpected then 0 else 1)
        = s.received + 1 := by
      unfold FrameProcessor.received
      split <;> omega
    refine ⟨⟨hlen.trans_le h.fits.slots, ?_⟩, fun hnone => (by cases hnone), fun g hg => ?_⟩
    · exact (hone.trans_le (Nat.add_le_add_right h.fits.received 1)).trans_eq hcard.symm
    · cases hg
      refine ⟨hone.trans ?_, fun herr => ⟨(hexpected herr).1, hlen.trans (hexpected herr).2⟩⟩
      rw [List.length_append, List.length_singleton, hreceived]

/-! ### A new frame -/

theorem FrameCounted.new (hslots : s.unitSlots.length ≤ unitSlotsMax) (hzero : s.received = 0)
    (hsuccess : err = .success →
      s.expected = u.packet.unitsInFrameTotal ∧ s.unitSlots.length = s.expected) :
    FrameCounted s (some ⟨u, err, []⟩) where
  fits := ⟨hslots, hzero ▸ Nat.zero_le _⟩
  idle := fun hnone => absurd hnone (Option.some_ne_none _)
  active := by
    rintro f ⟨⟩
    exact ⟨hzero, hsuccess⟩

/-- The counters are cleared for a new frame, or were not in use. -/
theorem frameCounted_alloc {slotsMem frameMem : Bool} (h : ReceivedFits s)
    (halloc : frameProcessorAllocFrame s u slotsMem frameMem = .ok (s', err))
    (hcleared : s.received = 0 ∨
      u.packet.unitsInFrameFec ≤ u.packet.unitsInFrameTotal ∧ allocTooSmall u = false)
    (hfec : allocFrameFits s u slotsMem frameMem = true → 1 ≤ u.packet.unitsInFrameFec) :
    FrameCounted s' (some ⟨u, err, []⟩) := by
  have hfits : err = .success → u.packet.unitsInFrameFec ≤ u.packet.unitsInFrameTotal ∧
      1 ≤ u.packet.unitsInFrameFec := by
    rintro rfl
    obtain ⟨hle, hfits⟩ := frameProcessorAllocFrame_success halloc
    exact ⟨hle, hfec hfits⟩
  cases frameProcessorAllocFrame_outcome halloc with
  | refused hless =>
    have hzero := hcleared.resolve_right fun hle => absurd hless (Nat.not_lt.mpr hle.1)
    exact .new h.slots hzero fun herr => (by cases herr)
  | small hsmall _ slots _ source fec =>
    have hzero := hcleared.resolve_right fun hle => by
      rw [hsmall] at hle
      cases hle.2
    have hsame : s'.received = s.received := by
      rw [FrameProcessor.received, source, fec]
      rfl
    refine .new ?_ (hsame.trans hzero) fun herr => (by cases herr)
    rw [slots]
    exact h.slots
  | many _ _ _ slots _ source fec =>
    refine .new ?_ ?_ fun herr => (by cases herr)
    · rw [slots]
      exact h.slots
    · rw [FrameProcessor.received, source, fec]
  | cleared _ many expects slots size source fec =>
    have hlen : s'.unitSlots.length = s'.unitSlotsSize := by
      rw [slots, List.length_replicate]
    have hexpected : s'.expected = u.packet.unitsInFrameTotal - u.packet.unitsInFrameFec
        + max u.packet.unitsInFrameFec 1 := by
      rw [FrameProcessor.expected, expects.source, expects.fec]
    have hmax : s'.expected ≤ unitSlotsMax := by
      rw [hexpected]
      exact Nat.not_lt.mp (of_decide_eq_false many)
    refine .new ?_ ?_ fun herr => ⟨?_, ?_⟩
    · rw [hlen]
      rcases size with hsize | ⟨hsize, -⟩
      · exact hsize.trans_le hmax
      · rw [hsize]
        exact Nat.zero_le _
    · rw [FrameProcessor.received, source, fec]
    · have hle := hfits herr
      omega
    · rw [hlen]
      exact size.resolve_right fun hfailed => hfailed.2 herr

/-! ## Packets -/

/-- A packet that starts a frame clears the counters, if there is anything in them, and it says that
there are FEC units if its frame can be allocated. -/
def frameCounts (r : VideoReceiver) (u : TakionAVUnit) (env : VideoPacketEnv) : Bool :=
  (decide (r.frameProcessor.received = 0)
      || decide (u.packet.unitsInFrameFec ≤ u.packet.unitsInFrameTotal) && !allocTooSmall u)
    && (!frameFits r u env || decide (1 ≤ u.packet.unitsInFrameFec))

/-- The frame processor counts the units of the frame that was started last. -/
structure VideoCounted (r : VideoReceiver) (log : List VideoEvent) : Prop where
  counted : FrameCounted r.frameProcessor (startedFrame log)
  started : 0 ≤ r.frameIndexCur → startedFrame log ≠ none

theorem frameCounts_flush {mem : Bool} {proc : FrameProcessor} {result : FrameFlushResult} {n : Nat}
    (hflush : frameProcessorFlush jerasure r.frameProcessor mem = .ok (proc, result, n))
    (hproc : r'.frameProcessor = proc) : frameCounts r' u env = frameCounts r u env := by
  obtain ⟨hslots, hbuf, -⟩ := frameProcessorFlush_keep hflush
  obtain ⟨_, _, _, rfl, -, -⟩ := frameProcessorFlush_slots hflush
  unfold frameCounts frameFits
  rw [hproc, allocFrameFits_congr hslots hbuf]
  rfl

theorem startedFrame_frame (log : List VideoEvent) (i : Int) (buf : Bytes) (passed : Bool) :
    startedFrame (log ++ [.frame i buf passed]) = startedFrame log := by
  rw [← framesSoFar_current, framesSoFar_frame, framesSoFar_current]

theorem VideoCounted.sameFrame {log' : List VideoEvent} (h : VideoCounted r log)
    (hcur : r'.frameIndexCur = r.frameIndexCur) (hlog : startedFrame log' = startedFrame log)
    (hcounted : FrameCounted r'.frameProcessor (startedFrame log)) : VideoCounted r' log' where
  counted := hlog ▸ hcounted
  started := by
    rw [hcur, hlog]
    exact h.started

/-- **Every move keeps the count**, as long as the packet may start its frame. -/
theorem videoCounted_move (hm : VideoMove jerasure u env r es r')
    (h : VideoCounted r log ∧ (startsFrame r u = true → frameCounts r u env = true)) :
    VideoCounted r' (log ++ es) ∧ (startsFrame r' u = true → frameCounts r' u env = true) := by
  obtain ⟨h, hstart⟩ := h
  cases hm with
  | aside _ hcur _ hproc hquiet =>
    refine ⟨h.sameFrame hcur (startedFrame_aside hquiet) (hproc ▸ h.counted), ?_⟩
    rw [startsFrame_congr hcur]
    unfold frameCounts frameFits
    rw [hproc]
    exact hstart
  | flushFailed hflush =>
    refine ⟨h.sameFrame rfl (by rw [List.append_nil]) (h.counted.flush hflush), ?_⟩
    rw [frameCounts_flush hflush rfl]
    exact hstart
  | flushed _ _ _ hflush =>
    refine ⟨h.sameFrame rfl (startedFrame_frame ..) (h.counted.flush hflush), ?_⟩
    rw [frameCounts_flush hflush rfl]
    exact hstart
  | @start proc err next halloc =>
    have hcounts := hstart (startsFrame_iff.mpr next)
    simp only [frameCounts, frameFits, Bool.and_eq_true, Bool.or_eq_true, Bool.not_eq_true',
      Bool.and_eq_false_iff, decide_eq_true_eq, decide_eq_false_iff_not] at hcounts
    refine ⟨⟨?_, fun _ => ?_⟩, fun hstarts => ?_⟩
    · rw [startedFrame_append]
      refine frameCounted_alloc h.counted.fits halloc hcounts.1 fun hfits => ?_
      rcases hcounts.2 with (hless | hnofit) | hfec
      · omega
      · rw [hfits] at hnofit
        cases hnofit
      · exact hfec
    · rw [startedFrame_append]
      exact Option.some_ne_none _
    · rw [startsFrame_self rfl] at hstarts
      cases hstarts
  | @unit proc err cur notOld notNext hput =>
    obtain ⟨f, hf⟩ := Option.ne_none_iff_exists'.mp (h.started cur)
    have hcounted := h.counted
    rw [hf] at hcounted
    have hnext : startedFrame (log ++ [.unit u err]) = StartedFrame.next (some f) (.unit u err) := by
      rw [startedFrame_append, hf]
    refine ⟨⟨?_, fun _ => ?_⟩, fun hstarts => ?_⟩
    · rw [hnext]
      exact hcounted.put hput
    · rw [hnext]
      cases err <;> exact Option.some_ne_none _
    · rcases startsFrame_iff.mp hstarts with hneg | hgt
      · exact absurd cur (Int.not_le.mpr hneg)
      · rw [notNext] at hgt
        cases hgt

/-! ## Runs -/

/-- What was pushed for a frame: the units that were accepted, and if the frame was allocated, those
that were not. -/
structure FrameReported (push : Nat × Nat) (f : StartedFrame) : Prop where
  received : push.1 = f.units.length
  lost : f.err = .success → push.1 + push.2 = f.first.packet.unitsInFrameTotal

theorem FrameCounted.reported {f : StartedFrame} (h : FrameCounted s (Option.some f)) :
    FrameReported (statsPushed s) f := by
  obtain ⟨hreceived, hexpected⟩ := h.active f rfl
  have hle := h.fits.le
  have hmax := h.fits.slots
  rw [FrameProcessor.received] at hreceived hle
  unfold unitSlotsMax at hmax
  refine ⟨?_, fun herr => ?_⟩
  · show (s.unitsSourceReceived + s.unitsFecReceived) % 2 ^ 32 = _
    omega
  · obtain ⟨htotal, hslots⟩ := hexpected herr
    rw [FrameProcessor.expected] at htotal hslots
    show (s.unitsSourceReceived + s.unitsFecReceived) % 2 ^ 32 + ((s.unitsSourceExpected
      + s.unitsFecExpected) % 2 ^ 32 + 2 ^ 64 - (s.unitsSourceReceived + s.unitsFecReceived) % 2 ^ 32) % 2 ^ 64
      = _
    omega

theorem FrameCounted.nothing (h : FrameCounted s Option.none) : statsPushed s = (0, 0) := by
  obtain ⟨hreceived, hexpected⟩ := h.idle rfl
  rw [FrameProcessor.received] at hreceived
  rw [FrameProcessor.expected] at hexpected
  unfold statsPushed
  rw [hreceived, hexpected]
  rfl

/-- What is pushed when a packet starts a frame. -/
def recordPushes (jerasure : Jerasure) (s : VideoReceiverRun) (l : VideoLabel) (pushes : List (Nat × Nat)) :
    List (Nat × Nat) :=
  match l with
  | .avPacket u env =>
    match videoReceiverAvPacket jerasure s.receiver u env with
    | .ok _ =>
      if packetStarts s.receiver u then pushes ++ [statsPushed s.receiver.frameProcessor] else pushes
    | .error _ => pushes
  | .streamInfo _ => pushes

/-- A receiver with packet statistics, and all that was pushed to them. -/
def videoStatsLts (jerasure : Jerasure) (stats : PacketStats) :
    Lts (VideoReceiverRun × List (Nat × Nat)) VideoLabel :=
  (Lts.ofFun (fun s => ∃ sampleCb, s = ⟨videoReceiverInit sampleCb (some stats), [], none⟩)
    (videoReceiverStep jerasure)).withHistory [] (recordPushes jerasure)

/-- Every packet that is used and starts a frame makes the counters right for it. -/
def lossCounted (s : VideoReceiverRun) : VideoLabel → Bool
  | .streamInfo _ => true
  | .avPacket u env => !packetStarts s.receiver u || frameCounts s.receiver u env

/-- Nothing was received before the first frame. For every frame after it that was followed by
another, there is what was pushed. -/
structure LossCounted (stats : PacketStats) (s : VideoReceiverRun) (pushes : List (Nat × Nat)) : Prop where
  pushed : s.receiver.packetStats = some (pushGenerations stats pushes)
  received : (pushes.map Prod.fst).sum
    = ((framesSoFar s.log).closed.map fun f => f.units.length).sum
  frames : (pushes = [] ∧ (framesSoFar s.log).closed = []) ∨
    ∃ rest, pushes = (0, 0) :: rest ∧ List.Forall₂ FrameReported rest (framesSoFar s.log).closed

/-- What every step keeps. -/
structure LossInvariant (stats : PacketStats) (s : VideoReceiverRun) (pushes : List (Nat × Nat)) : Prop where
  counted : VideoCounted s.receiver s.log
  pushed : s.receiver.packetStats = some (pushGenerations stats pushes)
  frames : (pushes = [] ∧ framesSoFar s.log = ⟨[], none⟩) ∨
    (startedFrame s.log ≠ none ∧
      ∃ rest, pushes = (0, 0) :: rest ∧ List.Forall₂ FrameReported rest (framesSoFar s.log).closed)

theorem LossInvariant.lossCounted {stats : PacketStats} {s : VideoReceiverRun} {pushes : List (Nat × Nat)}
    (h : LossInvariant stats s pushes) : LossCounted stats s pushes := by
  refine ⟨h.pushed, ?_, h.frames.imp (fun hnone => ⟨hnone.1, by rw [hnone.2]⟩) And.right⟩
  rcases h.frames with ⟨hpushes, hlog⟩ | ⟨-, rest, hpushes, hrest⟩
  · rw [hpushes, hlog]
    rfl
  · rw [hpushes, List.map_cons, List.sum_cons, Nat.zero_add]
    clear hpushes
    generalize (framesSoFar s.log).closed = closed at hrest ⊢
    induction hrest with
    | nil => rfl
    | cons hreported _ ih =>
      rw [List.map_cons, List.map_cons, List.sum_cons, List.sum_cons, hreported.received, ih]

/-- A packet that starts a frame pushes what was counted of the current one, and no other packet
pushes. -/
theorem lossInvariant_packet {stats : PacketStats} {s : VideoReceiverRun} {pushes : List (Nat × Nat)}
    {receiver : VideoReceiver} (h : LossInvariant stats s pushes)
    (hG : packetStarts s.receiver u = true → frameCounts s.receiver u env = true)
    (hselect : (videoReceiverSelectProfile s.receiver u).isSome = true)
    (hpkt : videoReceiverAvPacket jerasure s.receiver u env = .ok (receiver, es)) :
    LossInvariant stats { s with receiver := receiver, log := s.log ++ es }
      (if packetStarts s.receiver u then pushes ++ [statsPushed s.receiver.frameProcessor] else pushes) := by
  have hmoves := videoReceiverAvPacket_moves hpkt
  obtain ⟨hstats, hcur⟩ := videoReceiverAvPacket_packetStats hpkt
  have hstarts : packetStarts s.receiver u = startsFrame s.receiver u := by
    rw [packetStarts, hselect, Bool.and_true]
  rw [hstarts] at hG hstats hcur ⊢
  have hkeep : VideoCounted receiver (s.log ++ es) ∧
      (startsFrame receiver u = true → frameCounts receiver u env = true) :=
    @VideoMoves.keep jerasure u env (fun r log => VideoCounted r log ∧
      (startsFrame r u = true → frameCounts r u env = true)) _ _ _ _ hmoves ⟨h.counted, hG⟩
      fun _ _ _ _ hm hr => videoCounted_move hm hr
  have hclosed : ClosedBy s.receiver s.log u receiver (s.log ++ es) :=
    @VideoMoves.keep jerasure u env (ClosedBy s.receiver s.log u) _ _ _ _ hmoves
      (Or.inl ⟨rfl, rfl, fun _ => rfl⟩) fun _ _ _ _ hm hr => closedBy_move hm hr
  by_cases hstart : startsFrame s.receiver u = true
  · rw [if_pos hstart] at hstats ⊢
    have hnew : (framesSoFar (s.log ++ es)).closed
        = (framesSoFar s.log).closed ++ (framesSoFar s.log).current.toList := by
      rcases hclosed with ⟨hsame, -⟩ | ⟨-, -, hclosed⟩
      · rw [startsFrame_self (hsame.symm.trans (hcur hstart))] at hstart
        cases hstart
      · exact hclosed
    have hsome : startedFrame (s.log ++ es) ≠ none := hkeep.1.started (by
      rw [hcur hstart]
      exact Int.natCast_nonneg _)
    refine ⟨hkeep.1, ?_, Or.inr ⟨hsome, ?_⟩⟩
    · rw [pushGenerations_append]
      exact hstats.trans (by rw [h.pushed]; rfl)
    rcases h.frames with ⟨hpushes, hlog⟩ | ⟨hcurrent, rest, hpushes, hrest⟩
    · have hcounted := h.counted.counted
      rw [← framesSoFar_current, hlog] at hcounted
      refine ⟨[], ?_, ?_⟩
      · rw [hpushes, hcounted.nothing]
        rfl
      · rw [hnew, hlog]
        exact .nil
    · obtain ⟨f, hf⟩ := Option.ne_none_iff_exists'.mp hcurrent
      have hcounted := h.counted.counted
      rw [hf] at hcounted
      refine ⟨rest ++ [statsPushed s.receiver.frameProcessor], ?_, ?_⟩
      · rw [hpushes]
        rfl
      · rw [hnew, framesSoFar_current, hf]
        exact List.rel_append hrest (.cons hcounted.reported .nil)
  · rw [if_neg hstart] at hstats ⊢
    have hnonneg : 0 ≤ s.receiver.frameIndexCur := by
      rw [startsFrame_iff, not_or] at hstart
      exact Int.not_lt.mp hstart.1
    obtain ⟨hsame, hold, -⟩ := hclosed.resolve_right fun hstarted => hstart hstarted.1
    have hsome : startedFrame (s.log ++ es) ≠ none := hkeep.1.started (by
      rw [hsame]
      exact hnonneg)
    refine ⟨hkeep.1, hstats.trans h.pushed, Or.inr ⟨hsome, ?_⟩⟩
    rcases h.frames with ⟨-, hlog⟩ | ⟨-, rest, hpushes, hrest⟩
    · have hcurrent := h.counted.started hnonneg
      rw [← framesSoFar_current, hlog] at hcurrent
      exact absurd rfl hcurrent
    · exact ⟨rest, hpushes, by rw [hold]; exact hrest⟩

theorem lossInvariant_invariant (jerasure : Jerasure) (stats : PacketStats) :
    ((videoStatsLts jerasure stats).restrict fun x l => lossCounted x.1 l = true).Invariant
      fun x => LossInvariant stats x.1 x.2 where
  init := by
    rintro ⟨s, pushes⟩ ⟨⟨sampleCb, hs⟩, hpushes⟩
    replace hs : s = ⟨videoReceiverInit sampleCb (some stats), [], none⟩ := hs
    replace hpushes : pushes = [] := hpushes
    subst hs hpushes
    refine ⟨⟨⟨⟨Nat.zero_le _, Nat.zero_le _⟩, fun _ => ⟨rfl, rfl⟩, fun f hf => (by cases hf)⟩, fun h0 => ?_⟩,
      rfl, Or.inl ⟨rfl, rfl⟩⟩
    exact absurd h0 (Int.not_le.mpr (Int.negSucc_lt_zero 0))
  step := by
    rintro ⟨s, pushes⟩ l ⟨s', pushes'⟩ h ⟨hG, hs, hrecord⟩
    replace hrecord : pushes' = recordPushes jerasure s l pushes := hrecord
    subst hrecord
    cases videoReceiverStep_cases hs with
    | streamInfo profiles =>
      unfold videoReceiverStreamInfo
      split
      · exact h
      · exact ⟨⟨h.counted.counted, h.counted.started⟩, h.pushed, h.frames⟩
    | failed hpkt =>
      simp only [recordPushes, hpkt]
      exact ⟨h.counted, h.pushed, h.frames⟩
    | @handled u env r es hpkt =>
      simp only [lossCounted, Bool.or_eq_true, Bool.not_eq_true'] at hG
      simp only [recordPushes, hpkt]
      cases hselect : videoReceiverSelectProfile s.receiver u with
      | none =>
        rw [videoReceiverAvPacket_ignored hselect] at hpkt
        cases hpkt
        have hstarts : packetStarts s.receiver u = false := by
          rw [packetStarts, hselect, Option.isSome_none, Bool.and_false]
        rw [hstarts, if_neg Bool.false_ne_true, List.append_nil]
        exact h
      | some y =>
        refine lossInvariant_packet h (fun hstarts => hG.resolve_left ?_) (by rw [hselect]; rfl) hpkt
        rw [hstarts]
        exact Bool.noConfusion

/--
**Every unit of a video frame is reported once**, as received or as lost: what is pushed in a run is
the number of units that were accepted for each of the frames before the current one, and if the
frame was allocated, the rest of its units.
-/
theorem videoReceiver_stats (jerasure : Jerasure) (stats : PacketStats)
    {x : VideoReceiverRun × List (Nat × Nat)}
    (hr : ((videoStatsLts jerasure stats).restrict fun x l => lossCounted x.1 l = true).Reachable x) :
    LossCounted stats x.1 x.2 :=
  ((lossInvariant_invariant jerasure stats).reachable hr).lossCounted

/-! ### Runs -/

def countedVideoReceiver : VideoReceiverRun := ⟨videoReceiverInit true (some ⟨0, 0⟩), [], none⟩

/-- What some packets lead to, with what is pushed. -/
def statsRun (G : VideoReceiverRun → VideoLabel → Bool) (labels : List VideoLabel) :
    Option (VideoReceiverRun × List (Nat × Nat)) :=
  Lts.runFun (Lts.guarded (Lts.recordFun (videoReceiverStep noJerasure) (recordPushes noJerasure))
    fun x l => G x.1 l = true) (countedVideoReceiver, []) labels

/-- A frame with a FEC unit, of which one unit is lost, and the next frame. -/
def lostUnit : List VideoLabel :=
  [.streamInfo [[0xaa]], .avPacket (videoUnit 1 0 3 1 [0, 0, 7]) fineVideoEnv,
    .avPacket (videoUnit 1 1 3 1 [0, 0, 8]) fineVideoEnv,
    .avPacket (videoUnit 2 0 2 1 [0, 0, 9]) fineVideoEnv]

theorem statsRun_reachable {G : VideoReceiverRun → VideoLabel → Bool} {labels : List VideoLabel}
    {x : VideoReceiverRun × List (Nat × Nat)} (h : statsRun G labels = some x) :
    ((videoStatsLts noJerasure ⟨0, 0⟩).restrict fun x l => G x.1 l = true).Reachable x :=
  Lts.Reachable.runRecord (.init (And.intro ⟨true, rfl⟩ rfl)) h

theorem lostUnit_run :
    (statsRun lossCounted lostUnit).map (fun x => (x.2, x.1.receiver.packetStats))
      = some ([(0, 0), (2, 1)], some ⟨2, 1⟩) := by
  decide +kernel

theorem videoReceiver_stats_lostUnit : ∃ x : VideoReceiverRun × List (Nat × Nat),
    x.2 = [(0, 0), (2, 1)] ∧ LossCounted ⟨0, 0⟩ x.1 x.2 := by
  obtain ⟨x, hrun, hobs⟩ := Option.map_eq_some_iff.mp lostUnit_run
  simp only [Prod.mk.injEq] at hobs
  exact ⟨x, hobs.1, videoReceiver_stats noJerasure ⟨0, 0⟩ (statsRun_reachable hrun)⟩

/-- A whole frame without FEC units, and the next frame. -/
def wholeFrame : List VideoLabel :=
  [.streamInfo [[0xaa]], .avPacket (videoUnit 1 0 1 0 [0, 0, 7]) fineVideoEnv,
    .avPacket (videoUnit 2 0 1 0 [0, 0, 8]) fineVideoEnv]

/-- A whole frame, a packet that starts one with more FEC units than units, and the next frame. -/
def countedTwice : List VideoLabel :=
  [.streamInfo [[0xaa]], .avPacket (videoUnit 1 0 2 1 [0, 0, 7]) fineVideoEnv,
    .avPacket (videoUnit 2 5 1 2 [0, 0, 9]) fineVideoEnv,
    .avPacket (videoUnit 3 0 2 1 [0, 0, 9]) fineVideoEnv]

/-- **A unit that was not sent counts as lost, and units count twice.** All units of the frame were
accepted in the first run, and one unit in the second. -/
theorem not_videoReceiver_stats :
    (∃ x : VideoReceiverRun × List (Nat × Nat), (videoStatsLts noJerasure ⟨0, 0⟩).Reachable x ∧
      statsRun (fun _ _ => true) wholeFrame = some x ∧ x.2 = [(0, 0), (1, 1)] ∧
      ((framesSoFar x.1.log).closed.map fun f => (f.first.packet.unitsInFrameTotal, f.units.length, f.err))
        = [(1, 1, .success)] ∧ ¬ LossCounted ⟨0, 0⟩ x.1 x.2) ∧
    ∃ x : VideoReceiverRun × List (Nat × Nat), (videoStatsLts noJerasure ⟨0, 0⟩).Reachable x ∧
      statsRun (fun _ _ => true) countedTwice = some x ∧ x.2 = [(0, 0), (1, 1), (1, 1)] ∧
      ((framesSoFar x.1.log).closed.map fun f => (f.first.packet.unitsInFrameTotal, f.units.length, f.err))
        = [(2, 1, .success), (1, 0, .invalidData)] ∧ ¬ LossCounted ⟨0, 0⟩ x.1 x.2 := by
  constructor
  · have hobs : (statsRun (fun _ _ => true) wholeFrame).map (fun x => (x.2,
        (framesSoFar x.1.log).closed.map fun f => (f.first.packet.unitsInFrameTotal, f.units.length, f.err)))
        = some ([(0, 0), (1, 1)], [(1, 1, .success)]) := by
      decide +kernel
    obtain ⟨x, hrun, hx⟩ := Option.map_eq_some_iff.mp hobs
    obtain ⟨hpushes, hclosed⟩ := Prod.mk.inj hx
    refine ⟨x, (statsRun_reachable hrun).of_restrict, hrun, hpushes, hclosed, fun hloss => ?_⟩
    rcases hloss.frames with ⟨hnil, -⟩ | ⟨rest, hrest, hframes⟩
    · rw [hpushes] at hnil
      cases hnil
    · rw [hpushes] at hrest
      obtain ⟨-, rfl⟩ := List.cons.inj hrest
      obtain ⟨f, fs, hreported, -, hfs⟩ := List.forall₂_cons_left_iff.mp hframes
      rw [hfs, List.map_cons] at hclosed
      simp only [List.cons.injEq, Prod.mk.injEq] at hclosed
      have hlost := hreported.lost hclosed.1.2.2
      rw [hclosed.1.1] at hlost
      exact absurd hlost (by decide)
  · have hobs : (statsRun (fun _ _ => true) countedTwice).map (fun x => (x.2,
        (framesSoFar x.1.log).closed.map fun f => (f.first.packet.unitsInFrameTotal, f.units.length, f.err)))
        = some ([(0, 0), (1, 1), (1, 1)], [(2, 1, .success), (1, 0, .invalidData)]) := by
      decide +kernel
    obtain ⟨x, hrun, hx⟩ := Option.map_eq_some_iff.mp hobs
    obtain ⟨hpushes, hclosed⟩ := Prod.mk.inj hx
    refine ⟨x, (statsRun_reachable hrun).of_restrict, hrun, hpushes, hclosed, fun hloss => ?_⟩
    have hsum : ((framesSoFar x.1.log).closed.map fun f => f.units.length).sum = 1 := by
      have hlengths := congrArg (List.map fun p : Nat × Nat × ErrorCode => p.2.1) hclosed
      rw [List.map_map] at hlengths
      exact congrArg List.sum hlengths
    have hreceived := hloss.received
    rw [hsum, hpushes] at hreceived
    exact absurd hreceived (by decide)

end Chiaki
