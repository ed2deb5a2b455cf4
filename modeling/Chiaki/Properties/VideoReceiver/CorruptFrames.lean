import Chiaki.Properties.VideoReceiver.Stats

/-!
# Reports of missing and corrupt frames

`videoReceiver_corruptFrames`: when a frame starts, what is reported as corrupt are the frames since
the last one that was delivered, and none of those ever is.

Frame indices are 16 bits of the number of a frame. The number is part of the history of a run, as
are the frames that were delivered: those whose units were complete or restored, and that the
callback accepted.
-/

namespace Chiaki

open Infra

variable {jerasure : Jerasure} {u : TakionAVUnit} {env : VideoPacketEnv} {r r' : VideoReceiver}
  {es : List VideoEvent}

/-! ## What a packet delivers -/

/-- `chiaki_video_receiver_flush_frame` flushes a frame that is not corrupt and that the callback
accepts. -/
def flushDelivers (jerasure : Jerasure) (r : VideoReceiver) (env : VideoFlushEnv) : Bool :=
  match frameProcessorFlush jerasure r.frameProcessor env.mem with
  | .ok (_, .success, _) | .ok (_, .fecSuccess, _) => !r.videoSampleCb || env.cbSucc
  | _ => false

/-- The frame before is delivered when the next one starts. -/
def deliversLast (jerasure : Jerasure) (r : VideoReceiver) (env : VideoPacketEnv) : Bool :=
  decide (r.frameIndexCur ≥ 0 ∧ r.frameIndexPrev ≠ r.frameIndexCur) && flushDelivers jerasure r env.last

/-- The frame of a packet is delivered as soon as there is enough of it. -/
def deliversNext (jerasure : Jerasure) (r : VideoReceiver) (u : TakionAVUnit) (env : VideoPacketEnv) : Bool :=
  if r.frameIndexCur ≥ 0 ∧ seqNum16Lt u.frameIndex (toSeqNum16 r.frameIndexCur) then false
  else
    match videoReceiverSelectProfile r u with
    | none => false
    | some (r, _) =>
      match videoReceiverNextFrame jerasure r u env with
      | .error _ => false
      | .ok (r, _) =>
        match frameProcessorPutUnit r.frameProcessor u with
        | .error _ => false
        | .ok (proc, _) => decide (r.frameIndexCur ≠ r.frameIndexPrev) && frameProcessorFlushPossible proc
            && flushDelivers jerasure { r with frameProcessor := proc } env.next

/-- The interval of a report. -/
def VideoEvent.corrupted : VideoEvent → Option (Nat × Nat)
  | .corruptFrame first last => some (first, last)
  | _ => none

theorem videoReceiverFlushFrame_delivers {flush : VideoFlushEnv}
    (h : videoReceiverFlushFrame jerasure r flush = .ok (r', es)) :
    r'.frameIndexCur = r.frameIndexCur ∧ es.filterMap VideoEvent.corrupted = [] ∧
      r'.frameIndexPrevComplete
        = if flushDelivers jerasure r flush then r.frameIndexCur else r.frameIndexPrevComplete := by
  obtain ⟨⟨proc, result, size⟩, hflush, h⟩ := bind_eq_ok_iff.mp h
  cases result with
  | failed =>
    cases h
    refine ⟨rfl, rfl, ?_⟩
    simp [flushDelivers, hflush]
  | success | fecSuccess =>
    cases h
    refine ⟨rfl, rfl, ?_⟩
    simp only [flushDelivers, hflush]
    cases r.videoSampleCb <;> cases flush.cbSucc <;> rfl
  | fecFailed =>
    cases h
    refine ⟨rfl, rfl, ?_⟩
    simp [flushDelivers, hflush]

theorem videoReceiverFlushIf_delivers {cond : Bool} {flush : VideoFlushEnv}
    (h : videoReceiverFlushIf jerasure cond r flush = .ok (r', es)) :
    r'.frameIndexCur = r.frameIndexCur ∧ es.filterMap VideoEvent.corrupted = [] ∧
      r'.frameIndexPrevComplete = if cond && flushDelivers jerasure r flush then r.frameIndexCur
        else r.frameIndexPrevComplete := by
  unfold videoReceiverFlushIf at h
  cases cond with
  | true => exact videoReceiverFlushFrame_delivers h
  | false =>
    cases h
    exact ⟨rfl, rfl, rfl⟩

/-- `frame_index_prev_complete` when the frame of a packet starts. -/
def completeBefore (jerasure : Jerasure) (r : VideoReceiver) (env : VideoPacketEnv) : Int :=
  if deliversLast jerasure r env then r.frameIndexCur else r.frameIndexPrevComplete

/-- What is reported when the frame of a packet starts. -/
def reportAt (jerasure : Jerasure) (r : VideoReceiver) (u : TakionAVUnit) (env : VideoPacketEnv) :
    List (Nat × Nat) :=
  (videoReceiverReportCorrupt { r with frameIndexPrevComplete := completeBefore jerasure r env } u).filterMap
    VideoEvent.corrupted

theorem videoReceiverStartFrame_delivers (h : videoReceiverStartFrame jerasure r u env = .ok (r', es)) :
    r'.frameIndexCur = u.frameIndex ∧ r'.frameIndexPrevComplete = completeBefore jerasure r env ∧
      es.filterMap VideoEvent.corrupted = reportAt jerasure r u env := by
  obtain ⟨⟨r1, flushed⟩, hflushed, h⟩ := bind_eq_ok_iff.mp h
  obtain ⟨⟨proc, err⟩, -, h⟩ := bind_eq_ok_iff.mp h
  cases h
  obtain ⟨hcur, hquiet, hcomplete⟩ := videoReceiverFlushIf_delivers hflushed
  have hcomplete' : r1.frameIndexPrevComplete = completeBefore jerasure r env := hcomplete
  have hstart : (VideoEvent.start u err).corrupted = none := rfl
  refine ⟨rfl, hcomplete', ?_⟩
  rw [List.filterMap_append, List.filterMap_append, hquiet, List.filterMap_cons_none hstart,
    List.filterMap_nil, List.nil_append, List.append_nil, reportAt]
  unfold videoReceiverReportCorrupt
  rw [hcomplete', show r1.frameIndexCur = r.frameIndexCur from hcur]

/-- **What a packet does to the two frame indices**, and what it reports. -/
theorem videoReceiverAvPacket_delivers (h : videoReceiverAvPacket jerasure r u env = .ok (r', es)) :
    r'.frameIndexCur = (if packetStarts r u then (u.frameIndex : Int) else r.frameIndexCur) ∧
      r'.frameIndexPrevComplete = (if deliversNext jerasure r u env then r'.frameIndexCur
        else if packetStarts r u then completeBefore jerasure r env else r.frameIndexPrevComplete) ∧
      es.filterMap VideoEvent.corrupted = if packetStarts r u then reportAt jerasure r u env else [] := by
  unfold videoReceiverAvPacket at h
  unfold deliversNext
  split at h
  · next hold =>
    cases h
    have hstarts : packetStarts r u = false := by
      rw [packetStarts, Bool.and_eq_false_iff]
      exact Or.inl (Bool.eq_false_iff.mpr fun hstarts => startsFrame_notOld hstarts hold)
    rw [if_pos hold, hstarts]
    exact ⟨rfl, rfl, rfl⟩
  · next hold =>
    rw [if_neg hold]
    cases hprofile : videoReceiverSelectProfile r u with
    | none =>
      rw [hprofile] at h
      cases h
      rw [packetStarts, hprofile, Option.isSome_none, Bool.and_false]
      exact ⟨rfl, rfl, rfl⟩
    | some p =>
      obtain ⟨r1, header⟩ := p
      rw [hprofile] at h
      obtain ⟨⟨r2, started⟩, hstarted, h⟩ := bind_eq_ok_iff.mp h
      obtain ⟨⟨r3, put⟩, hput, h⟩ := bind_eq_ok_iff.mp h
      cases h
      obtain ⟨⟨proc, err⟩, hunit, hput⟩ := bind_eq_ok_iff.mp hput
      obtain ⟨⟨r4, flushed⟩, hflushed, hput⟩ := bind_eq_ok_iff.mp hput
      cases hput
      obtain ⟨hcur, hquiet, hcomplete⟩ := videoReceiverFlushIf_delivers hflushed
      obtain ⟨index, headers, rfl, rfl⟩ := videoReceiverSelectProfile_eq hprofile
      have hheader : (headers.map VideoEvent.header).filterMap VideoEvent.corrupted = [] := by
        rw [List.filterMap_map]
        exact List.filterMap_eq_nil_iff.mpr fun _ _ => rfl
      have hunitEvent : (VideoEvent.unit u err).corrupted = none := rfl
      rw [packetStarts, hprofile, Option.isSome_some, Bool.and_true, List.filterMap_append,
        List.filterMap_append, hheader, List.filterMap_cons_none hunitEvent, hquiet, List.nil_append,
        List.append_nil]
      simp only [hstarted, hunit]
      rw [hcur]
      unfold videoReceiverNextFrame at hstarted
      split at hstarted
      · next hnext =>
        have hstarts : startsFrame r u = true := startsFrame_iff.mpr hnext
        obtain ⟨hcur2, hcomplete2, hreport⟩ := videoReceiverStartFrame_delivers hstarted
        rw [hstarts, if_pos rfl, if_pos rfl, if_pos rfl]
        refine ⟨hcur2, hcomplete.trans ?_, hreport⟩
        rw [hcomplete2]
        rfl
      · next hnext =>
        cases hstarted
        have hstarts : startsFrame r u = false := Bool.eq_false_iff.mpr fun hs => hnext (startsFrame_iff.mp hs)
        rw [hstarts, if_neg Bool.false_ne_true, if_neg Bool.false_ne_true, if_neg Bool.false_ne_true]
        exact ⟨rfl, hcomplete, rfl⟩

/-! ## The history of a run -/

/-- A frame starts: the last frame that was delivered, its own number, and what is reported. -/
structure FrameStart where
  last : Nat
  frame : Nat
  sent : List (Nat × Nat)

/-- The number of the current frame, the frames that were delivered (the last one first), and the
frames that were started. -/
structure DeliveryHistory where
  current : Nat
  delivered : List Nat
  starts : List FrameStart

/-- Frame 0 counts as delivered at the start. -/
def DeliveryHistory.new : DeliveryHistory := ⟨0, [0], []⟩

/-- The last frame that was delivered. -/
def DeliveryHistory.last (h : DeliveryHistory) : Nat := h.delivered.headD 0

def DeliveryHistory.deliverIf (h : DeliveryHistory) (cond : Bool) : DeliveryHistory :=
  if cond then { h with delivered := h.current :: h.delivered } else h

/-- How far the frame of a packet is ahead of a frame. -/
def framesAhead (u : TakionAVUnit) (last : Nat) : Nat := (u.frameIndex + (2 ^ 16 - last % 2 ^ 16)) % 2 ^ 16

def DeliveryHistory.start (h : DeliveryHistory) (u : TakionAVUnit) (sent : List (Nat × Nat)) :
    DeliveryHistory :=
  let frame := h.last + framesAhead u h.last
  { h with current := frame, starts := h.starts ++ [⟨h.last, frame, sent⟩] }

/-- What a packet adds to the history. -/
def recordDelivery (jerasure : Jerasure) (s : VideoReceiverRun) (l : VideoLabel) (h : DeliveryHistory) :
    DeliveryHistory :=
  match l with
  | .streamInfo _ => h
  | .avPacket u env =>
    match videoReceiverAvPacket jerasure s.receiver u env with
    | .error _ => h
    | .ok (_, es) =>
      let started := if packetStarts s.receiver u
        then (h.deliverIf (deliversLast jerasure s.receiver env)).start u (es.filterMap VideoEvent.corrupted)
        else h
      started.deliverIf (deliversNext jerasure s.receiver u env)

/-- A frame that starts is less than 2^15 ahead of the last one that was delivered. -/
def nearDelivered (jerasure : Jerasure) (s : VideoReceiverRun) (h : DeliveryHistory) : VideoLabel → Bool
  | .streamInfo _ => true
  | .avPacket u env => !packetStarts s.receiver u
    || decide (framesAhead u (h.deliverIf (deliversLast jerasure s.receiver env)).last < 2 ^ 15)

/-! ## What is reported -/

/-- The frames from `first` to `final` are reported, which is before the frame starts. None of them
is delivered, and every frame since the last one that was is among them. -/
structure CorruptReportRight (p : FrameStart) (delivered : List Nat) (first final : Nat) : Prop where
  sent : p.sent = [(first % 2 ^ 16, final % 2 ^ 16)]
  nonempty : first ≤ final
  serial : final < first + 2 ^ 15
  before : final + 1 = p.frame
  undelivered : ∀ x ∈ delivered, ¬ (first ≤ x ∧ x ≤ final)
  covers : ∀ x, p.last < x → x < p.frame → first ≤ x ∧ x ≤ final

/-- Nothing is reported if the frame is the next one. -/
structure FrameStart.Right (p : FrameStart) (delivered : List Nat) : Prop where
  last : p.last ∈ delivered
  latest : ∀ x ∈ delivered, x ≤ p.last ∨ p.frame ≤ x
  report : (p.sent = [] ∧ p.frame ≤ p.last + 1) ∨
    ∃ first final, CorruptReportRight p delivered first final

/-- All reports were sent when a frame started, and are right. -/
structure CorruptFramesRight (sent : List (Nat × Nat)) (h : DeliveryHistory) : Prop where
  sent : sent = h.starts.flatMap FrameStart.sent
  right : ∀ p ∈ h.starts, p.Right h.delivered

/-- What the frame indices say of the history. -/
structure FrameDeliveryInvariant (cur complete : Int) (sent : List (Nat × Nat)) (h : DeliveryHistory) :
    Prop where
  complete : complete = (h.last % 2 ^ 16 : Nat)
  last : h.last ∈ h.delivered
  latest : ∀ x ∈ h.delivered, x ≤ h.last
  current : (cur < 0 ∧ h = .new) ∨
    (cur = (h.current % 2 ^ 16 : Nat) ∧ h.last ≤ h.current ∧ h.current < h.last + 2 ^ 15)
  started : ∀ p ∈ h.starts, p.frame ≤ h.current
  reports : CorruptFramesRight sent h

variable {cur complete : Int} {sent : List (Nat × Nat)} {h : DeliveryHistory}

/-- Only the current frame is delivered, which comes after everything that was reported. -/
theorem FrameDeliveryInvariant.deliverIf (hi : FrameDeliveryInvariant cur complete sent h) {cond : Bool}
    (hcond : cond = true → 0 ≤ cur) :
    FrameDeliveryInvariant cur (if cond then cur else complete) sent (h.deliverIf cond) := by
  cases cond with
  | false => exact hi
  | true =>
    obtain ⟨hcur, hlast, hnear⟩ := hi.current.resolve_left fun hnone =>
      absurd (hcond rfl) (Int.not_le.mpr hnone.1)
    refine ⟨hcur, List.mem_cons_self .., fun x hx => ?_, Or.inr ⟨hcur, Nat.le_refl _, ?_⟩, hi.started,
      hi.reports.sent, fun p hp => ?_⟩
    · rcases List.mem_cons.mp hx with rfl | hx
      · exact Nat.le_refl _
      · exact (hi.latest x hx).trans hlast
    · exact Nat.lt_add_of_pos_right (by decide)
    · have hright := hi.reports.right p hp
      have hframe := hi.started p hp
      refine ⟨List.mem_cons_of_mem _ hright.last, fun x hx => ?_, hright.report.imp_right ?_⟩
      · rcases List.mem_cons.mp hx with rfl | hx
        · exact Or.inr hframe
        · exact hright.latest x hx
      · rintro ⟨first, final, hreport⟩
        refine ⟨first, final, hreport.sent, hreport.nonempty, hreport.serial, hreport.before, fun x hx => ?_,
          hreport.covers⟩
        rcases List.mem_cons.mp hx with rfl | hx
        · have hbefore := hreport.before
          exact fun hin => absurd hin.2 (by omega)
        · exact hreport.undelivered x hx

/-- The frame of a packet that is near is `framesAhead` of the last one. -/
theorem frameIndex_eq (u : TakionAVUnit) (last : Nat) :
    u.frameIndex = (last + framesAhead u last) % 2 ^ 16 := by
  have hlt := u.frameIndex_lt
  unfold framesAhead
  omega

/-- **What is reported** when a frame starts that is near: the frames from the last one that was
delivered on, if there are any. -/
theorem FrameDeliveryInvariant.report_eq (hi : FrameDeliveryInvariant r.frameIndexCur complete sent h)
    (hnear : framesAhead u h.last < 2 ^ 15) :
    (videoReceiverReportCorrupt { r with frameIndexPrevComplete := complete } u).filterMap
        VideoEvent.corrupted
      = if 1 < framesAhead u h.last
        then [((h.last + 1) % 2 ^ 16, (h.last + framesAhead u h.last - 1) % 2 ^ 16)] else [] := by
  have hindex := frameIndex_eq u h.last
  generalize framesAhead u h.last = ahead at hnear hindex ⊢
  have hnext : toSeqNum16 (complete + 1) = (h.last + 1) % 2 ^ 16 := by
    rw [hi.complete]
    unfold toSeqNum16
    omega
  have hgt : seqNum16Gt u.frameIndex (toSeqNum16 (complete + 1)) = decide (1 < ahead) := by
    rw [hnext, hindex, seqNum16Gt_mod (by omega) (by omega)]
    exact decide_eq_decide.mpr (by omega)
  -- frame 1 is the next one at the beginning, so the exception for it is none
  have hexception : 1 < ahead → ¬ (u.frameIndex = 1 ∧ r.frameIndexCur < 0) := by
    rintro hahead ⟨hone, hneg⟩
    rcases hi.current with ⟨-, hnew⟩ | ⟨hcur, -⟩
    · have hlast : h.last = 0 := by rw [hnew]; rfl
      omega
    · omega
  unfold videoReceiverReportCorrupt
  simp only [hgt, decide_eq_true_eq]
  by_cases hahead : 1 < ahead
  · rw [if_pos ⟨hahead, hexception hahead⟩, if_pos hahead, hnext]
    have hstop : toSeqNum16 ((u.frameIndex : Int) - 1) = (h.last + ahead - 1) % 2 ^ 16 := by
      rw [hindex]
      unfold toSeqNum16
      omega
    rw [hstop]
    rfl
  · rw [if_neg fun hreported => hahead hreported.1, if_neg hahead]
    rfl

/-- **A frame that starts is reported right.** -/
theorem FrameDeliveryInvariant.start (hi : FrameDeliveryInvariant r.frameIndexCur complete sent h)
    (hstarts : startsFrame r u = true) (hnear : framesAhead u h.last < 2 ^ 15) {reports : List (Nat × Nat)}
    (hreports : reports = (videoReceiverReportCorrupt { r with frameIndexPrevComplete := complete } u).filterMap
      VideoEvent.corrupted) :
    FrameDeliveryInvariant u.frameIndex complete (sent ++ reports) (h.start u reports) := by
  have hindex := frameIndex_eq u h.last
  rw [hi.report_eq hnear] at hreports
  have hlast : (h.start u reports).last = h.last := rfl
  -- the current frame comes before the one that starts
  have hcurrent : h.current ≤ h.last + framesAhead u h.last := by
    rcases hi.current with ⟨-, hnew⟩ | ⟨hcur, hle, hlt⟩
    · rw [hnew]
      exact Nat.zero_le _
    · rcases startsFrame_iff.mp hstarts with hneg | hgt
      · omega
      · rw [hcur, toSeqNum16_cast (Nat.mod_lt _ (Nat.two_pow_pos _)), hindex,
          seqNum16Gt_mod (by omega) (by omega)] at hgt
        exact Nat.le_of_lt (of_decide_eq_true hgt)
  refine ⟨hi.complete, hi.last, hi.latest, Or.inr ⟨?_, Nat.le_add_right _ _, ?_⟩, fun p hp => ?_, ?_,
    fun p hp => ?_⟩
  · exact congrArg Nat.cast hindex
  · rw [hlast]
    exact Nat.add_lt_add_left hnear _
  · rcases List.mem_append.mp hp with hp | hp
    · exact (hi.started p hp).trans hcurrent
    · rw [List.mem_singleton.mp hp]
      exact Nat.le_refl _
  · rw [hi.reports.sent, DeliveryHistory.start, List.flatMap_append, List.flatMap_singleton]
  · rcases List.mem_append.mp hp with hp | hp
    · exact hi.reports.right p hp
    · rw [List.mem_singleton.mp hp]
      refine ⟨hi.last, fun x hx => Or.inl (hi.latest x hx), ?_⟩
      by_cases hahead : 1 < framesAhead u h.last
      · rw [if_pos hahead] at hreports
        refine Or.inr ⟨h.last + 1, h.last + framesAhead u h.last - 1, hreports, ?_, ?_, ?_, ?_, ?_⟩
        · omega
        · omega
        · simp only
          omega
        · intro x hx hin
          have hle := hi.latest x hx
          omega
        · intro x hafter hbefore
          simp only at hafter hbefore
          omega
      · rw [if_neg hahead] at hreports
        refine Or.inl ⟨hreports, ?_⟩
        simp only
        omega

/-! ## Runs -/

/-- A receiver with the history of what was delivered. -/
def videoDeliveryLts (jerasure : Jerasure) : Lts (VideoReceiverRun × DeliveryHistory) VideoLabel :=
  (videoReceiverLts jerasure).withHistory .new (recordDelivery jerasure)

/-- A frame that is delivered is the current one. -/
theorem deliversNext_cur (h : videoReceiverAvPacket jerasure r u env = .ok (r', es))
    (hdelivers : deliversNext jerasure r u env = true) : 0 ≤ r'.frameIndexCur := by
  obtain ⟨hcur, -, -⟩ := videoReceiverAvPacket_delivers h
  rw [hcur]
  split
  · exact Int.natCast_nonneg _
  · next hstarts =>
    unfold deliversNext at hdelivers
    split at hdelivers
    · cases hdelivers
    · cases hprofile : videoReceiverSelectProfile r u with
      | none =>
        rw [hprofile] at hdelivers
        cases hdelivers
      | some p =>
        rw [packetStarts, hprofile, Option.isSome_some, Bool.and_true, startsFrame_iff, not_or] at hstarts
        exact Int.not_lt.mp hstarts.1

theorem deliversLast_cur (h : deliversLast jerasure r env = true) : 0 ≤ r.frameIndexCur := by
  rw [deliversLast, Bool.and_eq_true, decide_eq_true_eq] at h
  exact h.1.1

theorem frameDelivery_invariant (jerasure : Jerasure) :
    ((videoDeliveryLts jerasure).restrict fun x l => nearDelivered jerasure x.1 x.2 l = true).Invariant
      fun x => FrameDeliveryInvariant x.1.receiver.frameIndexCur x.1.receiver.frameIndexPrevComplete
        (x.1.log.filterMap VideoEvent.corrupted) x.2 where
  init := by
    rintro ⟨s, h⟩ ⟨⟨sampleCb, stats, hs⟩, hh⟩
    replace hs : s = ⟨videoReceiverInit sampleCb stats, [], none⟩ := hs
    replace hh : h = .new := hh
    subst hs hh
    exact ⟨rfl, List.mem_singleton.mpr rfl, fun x hx => Nat.le_of_eq (List.mem_singleton.mp hx),
      Or.inl ⟨Int.negSucc_lt_zero 0, rfl⟩, List.forall_mem_nil _, rfl, List.forall_mem_nil _⟩
  step := by
    rintro ⟨s, h⟩ l ⟨s', h'⟩ hi ⟨hG, hs, hrecord⟩
    replace hrecord : h' = recordDelivery jerasure s l h := hrecord
    subst hrecord
    cases videoReceiverStep_cases hs with
    | streamInfo profiles =>
      unfold videoReceiverStreamInfo
      split <;> exact hi
    | failed hpkt =>
      simp only [recordDelivery, hpkt]
      exact hi
    | @handled u env r es hpkt =>
      simp only [recordDelivery, hpkt, List.filterMap_append]
      obtain ⟨hcur, hcomplete, hreports⟩ := videoReceiverAvPacket_delivers hpkt
      have hnext := deliversNext_cur hpkt
      rw [hcomplete]
      by_cases hstarts : packetStarts s.receiver u = true
      · -- the frame before is delivered or not, then the report is made
        simp only [hstarts, if_true] at hcur hreports ⊢
        simp only [nearDelivered, hstarts, Bool.not_true, Bool.false_or, decide_eq_true_eq] at hG
        have hlast := hi.deliverIf (@deliversLast_cur jerasure env s.receiver)
        have hstart := hlast.start (Bool.and_eq_true_iff.mp hstarts).1 hG hreports
        rw [← hcur] at hstart
        exact hstart.deliverIf hnext
      · rw [Bool.not_eq_true] at hstarts
        simp only [hstarts, Bool.false_eq_true, if_false] at hcur hreports ⊢
        rw [hreports, List.append_nil, hcur]
        rw [hcur] at hnext
        exact hi.deliverIf hnext

/--
**Reports of corrupt frames are right**, in every run in which every frame that starts is less than
2^15 ahead of the last one that was delivered: a report is about the frames before the one that
starts, none of them is ever delivered, and all frames since the last one that was are among them.
-/
theorem videoReceiver_corruptFrames (jerasure : Jerasure) {x : VideoReceiverRun × DeliveryHistory}
    (hr : ((videoDeliveryLts jerasure).restrict fun x l => nearDelivered jerasure x.1 x.2 l = true).Reachable
      x) : CorruptFramesRight (x.1.log.filterMap VideoEvent.corrupted) x.2 :=
  ((frameDelivery_invariant jerasure).reachable hr).reports

/-- Frames 1 and 3 are whole, and frame 2 is missing. -/
def missingFrame : List VideoLabel :=
  [.streamInfo [[0xaa]], .avPacket (videoUnit 1 0 1 0 [0, 0, 7]) fineVideoEnv,
    .avPacket (videoUnit 3 0 1 0 [0, 0, 9]) fineVideoEnv]

/-- What some packets that are near lead to, with the history. -/
def deliveryRun (labels : List VideoLabel) : Option (VideoReceiverRun × DeliveryHistory) :=
  Lts.runFun (Lts.guarded (Lts.recordFun (videoReceiverStep noJerasure) (recordDelivery noJerasure))
    fun x l => nearDelivered noJerasure x.1 x.2 l = true) (newVideoReceiver, .new) labels

theorem deliveryRun_missingFrame :
    (deliveryRun missingFrame).map (fun x => (x.1.log.filterMap VideoEvent.corrupted, x.2.delivered))
      = some ([(2, 2)], [3, 1, 0]) := by
  decide +kernel

theorem videoReceiver_corruptFrames_missing : ∃ x : VideoReceiverRun × DeliveryHistory,
    x.1.log.filterMap VideoEvent.corrupted = [(2, 2)] ∧ x.2.delivered = [3, 1, 0] ∧
      CorruptFramesRight (x.1.log.filterMap VideoEvent.corrupted) x.2 := by
  obtain ⟨x, hrun, hobs⟩ := Option.map_eq_some_iff.mp deliveryRun_missingFrame
  obtain ⟨hsent, hdelivered⟩ := Prod.mk.inj hobs
  have hr : ((videoDeliveryLts noJerasure).restrict
      fun x l => nearDelivered noJerasure x.1 x.2 l = true).Reachable x :=
    Lts.Reachable.runRecord (.init (And.intro ⟨true, none, rfl⟩ rfl)) hrun
  exact ⟨x, hsent, hdelivered, videoReceiver_corruptFrames noJerasure hr⟩

end Chiaki
