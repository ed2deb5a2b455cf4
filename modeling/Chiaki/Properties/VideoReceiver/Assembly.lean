import Chiaki.Properties.FrameProcessor

/-!
# What a frame is put together from

A frame processor keeps its buffer when the next frame is smaller, so that the bytes of earlier
frames are still behind it. They are not looked at: with more memory behind the buffer, everything
goes on as without (`frameProcessorPutUnit_extend`, `frameProcessorFlush_extend`). Together with
`frameProcessorAllocFrame_fits`, the frame is what a new frame processor makes of the same units
(`assembleFrame`).
-/

namespace Chiaki

open Infra

variable {jerasure : Jerasure} {p s s' : FrameProcessor} {u : TakionAVUnit} {rest : Bytes} {size : Nat}
  {stats : StreamStats}

/-! ## More memory behind the buffer -/

theorem splice_append {buf data : Bytes} {off : Nat} (h : off + data.length ≤ buf.length)
    (rest : Bytes) : splice (buf ++ rest) off data = splice buf off data ++ rest := by
  unfold splice
  rw [List.take_append_of_le_length (by omega), List.drop_append_of_le_length h]
  simp only [List.append_assoc]

/-- The frame processor with more memory behind the buffer, and other statistics. -/
abbrev FrameProcessor.extend (p : FrameProcessor) (rest : Bytes) (size : Nat) (stats : StreamStats) :
    FrameProcessor :=
  { p with frameBuf := p.frameBuf ++ rest, frameBufSize := size, streamStats := stats }

theorem frameProcessorPutUnit_extend (h : FrameProcessorWf p) (u : TakionAVUnit) :
    frameProcessorPutUnit (p.extend rest size stats) u
      = (frameProcessorPutUnit p u).map fun x => (x.1.extend rest size stats, x.2) := by
  unfold frameProcessorPutUnit
  simp only
  by_cases hindex : u.packet.unitIndex > p.unitSlotsSize
  · rw [if_pos hindex, if_pos hindex]
    rfl
  rw [if_neg hindex, if_neg hindex]
  by_cases hdata : u.packet.dataSize = 0
  · rw [if_pos hdata, if_pos hdata]
    rfl
  rw [if_neg hdata, if_neg hdata]
  by_cases hsize : u.packet.dataSize > p.bufSizePerUnit
  · rw [if_pos hsize, if_pos hsize]
    rfl
  rw [if_neg hsize, if_neg hsize]
  cases hslot : p.unitSlots[u.packet.unitIndex]? with
  | none => rfl
  | some dataSize =>
    simp only
    by_cases hfull : dataSize ≠ 0
    · rw [if_pos hfull, if_pos hfull]
      rfl
    obtain ⟨hlt, -⟩ := List.getElem?_eq_some_iff.mp hslot
    rw [h.slots] at hlt
    have hfit := h.unit_fits hlt
    have hstride := h.stride
    have hlen := u.length_bytes
    have hin : ¬ ((!p.flushed) = true ∧
        p.frameBuf.length < u.packet.unitIndex * p.bufStridePerUnit + u.packet.dataSize) := by
      omega
    have hin' : ¬ ((!p.flushed) = true ∧
        (p.frameBuf ++ rest).length < u.packet.unitIndex * p.bufStridePerUnit + u.packet.dataSize) := by
      rw [List.length_append]
      omega
    rw [if_neg hfull, if_neg hfull, if_neg hin, if_neg hin']
    have hbuf : (if p.flushed then p.frameBuf ++ rest
        else splice (p.frameBuf ++ rest) (u.packet.unitIndex * p.bufStridePerUnit) u.bytes)
        = (if p.flushed then p.frameBuf
          else splice p.frameBuf (u.packet.unitIndex * p.bufStridePerUnit) u.bytes) ++ rest := by
      split
      · rfl
      · exact splice_append (by omega) rest
    rw [hbuf]
    by_cases hsource : u.packet.unitIndex < p.unitsSourceExpected
    · simp only [hsource, ↓reduceIte]
      rfl
    · simp only [hsource, ↓reduceIte]
      rfl

/-! ## Missing units -/

theorem foldl_splice_append {k : Nat} {units : List (Bytes × Nat)} {buf : Bytes} (rest : Bytes)
    (h : ∀ q ∈ units, k * q.2 + q.1.length ≤ buf.length) :
    units.foldl (fun buf (unit, i) => splice buf (k * i) unit) (buf ++ rest)
      = units.foldl (fun buf (unit, i) => splice buf (k * i) unit) buf ++ rest := by
  induction units generalizing buf with
  | nil => rfl
  | cons q units ih =>
    obtain ⟨unit, i⟩ := q
    have hfit := h (unit, i) (List.mem_cons_self ..)
    simp only [List.foldl_cons]
    rw [splice_append hfit, ih]
    rw [length_splice hfit]
    exact fun q hq => h q (List.mem_cons_of_mem _ hq)

theorem fecDecode_append {buf : Bytes} {unitSize stride k m : Nat} {erasures : List Nat} (rest : Bytes)
    (h : ∀ i, i < k + m → stride * i + unitSize ≤ buf.length) :
    fecDecode jerasure (buf ++ rest) unitSize stride k m erasures
      = (fecDecode jerasure buf unitSize stride k m erasures).map fun r => r.map (· ++ rest) := by
  unfold fecDecode
  by_cases hstride : stride < unitSize
  · rw [if_pos hstride, if_pos hstride]
    rfl
  rw [if_neg hstride, if_neg hstride]
  have hall : ∀ more, ((List.range (k + m)).all fun i =>
      decide (stride * i + unitSize ≤ (buf ++ more).length)) = true := by
    refine fun more => List.all_eq_true.mpr fun i hi => decide_eq_true ?_
    rw [List.length_append]
    exact Nat.le_add_right_of_le (h i (List.mem_range.mp hi))
  have hall' := hall []
  rw [List.append_nil] at hall'
  have hunits : (List.range (k + m)).map (fun i => slice (buf ++ rest) (stride * i) unitSize)
      = (List.range (k + m)).map fun i => slice buf (stride * i) unitSize :=
    List.map_congr_left fun i hi => slice_append (h i (List.mem_range.mp hi)) rest
  rw [hall rest, hall', hunits]
  simp only [Bool.not_true, Bool.false_eq_true, if_false]
  cases hdecode : jerasure.decode k m erasures
      ((List.range (k + m)).map fun i => slice buf (stride * i) unitSize) with
  | none => rfl
  | some units =>
    have hfits := fecDecode_units_fit h hdecode
    simp only [foldl_splice_append rest hfits]
    rfl

theorem frameProcessorErasures_extend {erasuresCount : Nat} : ∀ (n i : Nat) (erasures : List Nat),
    frameProcessorErasures (p.extend rest size stats) erasuresCount n i erasures
      = frameProcessorErasures p erasuresCount n i erasures := by
  intro n
  induction n with
  | zero => exact fun i erasures => rfl
  | succ n ih =>
    intro i erasures
    simp only [frameProcessorErasures, ih]

theorem frameProcessorRestore_extend : ∀ (n i : Nat) (slots : List Nat),
    (∀ j, j < i + n → p.bufStridePerUnit * j + 0x50 ≤ p.frameBuf.length) →
    frameProcessorRestore (p.extend rest size stats) n i slots = frameProcessorRestore p n i slots := by
  intro n
  induction n with
  | zero => exact fun i slots _ => rfl
  | succ n ih =>
    intro i slots hfit
    have hin := hfit i (by omega)
    have hin' : p.bufStridePerUnit * i + 0x50 ≤ (p.frameBuf ++ rest).length := by
      rw [List.length_append]
      omega
    have hrest := fun slots => ih (i + 1) slots fun j hj => hfit j (by omega)
    have hin2 : ¬ (p.frameBuf ++ rest).length < p.bufStridePerUnit * i + 2 := by omega
    have hin0x50 : ¬ (p.frameBuf ++ rest).length < p.bufStridePerUnit * i + 0x50 := by omega
    unfold frameProcessorRestore
    simp only
    rw [if_neg hin2, if_neg (show ¬ p.frameBuf.length < p.bufStridePerUnit * i + 2 by omega),
      u16At_append (by omega)]
    by_cases hpadding : u16At p.frameBuf (p.bufStridePerUnit * i) ≥ p.bufSizePerUnit
    · rw [if_pos hpadding, if_pos hpadding, if_neg hin0x50, if_neg (Nat.not_lt.mpr hin), hrest]
    · rw [if_neg hpadding, if_neg hpadding, hrest]

theorem frameProcessorFec_extend (h : FrameProcessorWf p) (mem : Bool) :
    frameProcessorFec jerasure (p.extend rest size stats) mem
      = (frameProcessorFec jerasure p mem).map fun x => (x.1.extend rest size stats, x.2) := by
  have hexpected := h.expected
  unfold frameProcessorFec
  simp only [frameProcessorErasures_extend]
  generalize ((p.unitsSourceExpected + p.unitsFecExpected) + 2 ^ 32
      - (p.unitsSourceReceived + p.unitsFecReceived) % 2 ^ 32) % 2 ^ 32 = count
  cases mem with
  | false => rfl
  | true =>
    cases hlist : frameProcessorErasures p count (p.unitsSourceExpected + p.unitsFecExpected) 0 [] with
    | error f => rfl
    | ok erasures =>
      simp only [Bool.not_true, Bool.false_eq_true, if_false, bind, Except.bind, pure, Except.pure]
      by_cases hcount : erasures.length ≠ count
      · rw [if_pos hcount, if_pos hcount]
        rfl
      rw [if_neg hcount, if_neg hcount]
      have hfit : ∀ i, i < p.unitsSourceExpected + p.unitsFecExpected →
          p.bufStridePerUnit * i + p.bufSizePerUnit ≤ p.frameBuf.length := fun i hi => by
        have hfit := h.unit_fits (show i < p.unitSlotsSize by omega)
        have hstride := h.stride
        rw [Nat.mul_comm]
        omega
      rw [fecDecode_append rest hfit]
      obtain ⟨r, hdecode, hlen⟩ := @fecDecode_spec jerasure p.frameBuf p.bufSizePerUnit
        p.bufStridePerUnit p.unitsSourceExpected p.unitsFecExpected erasures hfit
      rw [hdecode]
      cases r with
      | error err => rfl
      | ok buf =>
        have hrestore := @frameProcessorRestore_extend { p with frameBuf := buf } rest size stats
          p.unitsSourceExpected 0 p.unitSlots fun j hj => by
            have hdump := h.dump_fits (show j < p.unitsSourceExpected by omega)
            rw [← hlen buf rfl, Nat.mul_comm] at hdump
            exact Nat.le_trans (Nat.add_le_add_left (by decide) _) hdump
        simp only [Except.map]
        rw [hrestore]
        cases frameProcessorRestore { p with frameBuf := buf } p.unitsSourceExpected 0 p.unitSlots <;> rfl

/-! ## The whole frame -/

theorem frameProcessorCompact_extend (h : FrameProcessorWf p) : ∀ (n i cur : Nat) (buf : Bytes),
    i + n ≤ p.unitsSourceExpected → cur ≤ i * p.bufStridePerUnit → buf.length = p.frameBuf.length →
    frameProcessorCompact (p.extend rest size stats) n i cur (buf ++ rest)
      = (frameProcessorCompact p n i cur buf).map fun x => (x.1 ++ rest, x.2) := by
  intro n
  induction n with
  | zero => exact fun i cur buf _ _ _ => rfl
  | succ n ih =>
    intro i cur buf hle hcur hlen
    have hexpected := h.expected
    have hdump := h.dump_fits (show i < p.unitsSourceExpected by omega)
    have hfit := h.unit_fits (show i < p.unitSlotsSize by omega)
    have hslot : i < p.unitSlots.length := by rw [h.slots]; omega
    have hsize := h.sizes _ (List.getElem_mem hslot)
    have hstride := h.stride
    have hnext : (i + 1) * p.bufStridePerUnit = i * p.bufStridePerUnit + p.bufStridePerUnit :=
      Nat.succ_mul _ _
    have hmul : i * p.bufSizePerUnit ≤ i * p.bufStridePerUnit := Nat.mul_le_mul_left i hstride
    have happend : (buf ++ rest).length = buf.length + rest.length := List.length_append
    unfold frameProcessorCompact
    rw [List.getElem?_eq_getElem hslot]
    simp only
    by_cases hempty : p.unitSlots[i] = 0
    · rw [if_pos hempty, if_pos hempty]
      exact ih (i + 1) cur buf (by omega) (by omega) hlen
    rw [if_neg hempty, if_neg hempty]
    by_cases hshort : p.unitSlots[i] < 2
    · have hin : ¬ buf.length < i * p.bufSizePerUnit + 0x50 := by omega
      have hin' : ¬ (buf ++ rest).length < i * p.bufSizePerUnit + 0x50 := by omega
      rw [if_pos hshort, if_pos hshort, if_neg hin, if_neg hin']
      exact ih (i + 1) cur buf (by omega) (by omega) hlen
    have hin : ¬ (buf.length < i * p.bufStridePerUnit + 2 + (p.unitSlots[i] - 2) ∨
        buf.length < cur + (p.unitSlots[i] - 2)) := by omega
    have hin' : ¬ ((buf ++ rest).length < i * p.bufStridePerUnit + 2 + (p.unitSlots[i] - 2) ∨
        (buf ++ rest).length < cur + (p.unitSlots[i] - 2)) := by omega
    have hpart : (slice buf (i * p.bufStridePerUnit + 2) (p.unitSlots[i] - 2)).length
        = p.unitSlots[i] - 2 := length_slice (by omega)
    rw [if_neg hshort, if_neg hshort, if_neg hin, if_neg hin', slice_append (by omega),
      splice_append (by omega)]
    refine ih (i + 1) _ _ (by omega) (by omega) ?_
    rw [length_splice (by omega), hlen]

/-- What is in the units that are moved together, and what becomes of the flush. -/
inductive FlushDecoded (jerasure : Jerasure) (s : FrameProcessor) (mem : Bool) :
    FrameProcessor → FrameFlushResult → Prop
  | complete (h : ¬ s.unitsSourceReceived < s.unitsSourceExpected) :
      FlushDecoded jerasure s mem s .success
  | fec {s1 : FrameProcessor} {err : ErrorCode} (h : s.unitsSourceReceived < s.unitsSourceExpected)
      (hfec : frameProcessorFec jerasure s mem = .ok (s1, err)) :
      FlushDecoded jerasure s mem s1 (if err = .success then .fecSuccess else .fecFailed)

theorem FlushDecoded.ne_failed {mem : Bool} {result : FrameFlushResult}
    (h : FlushDecoded jerasure s mem s' result) : result ≠ .failed := by
  cases h with
  | complete => exact FrameFlushResult.noConfusion
  | fec => split <;> exact FrameFlushResult.noConfusion

theorem frameProcessorFlush_eq_ok {mem : Bool} {result : FrameFlushResult} {n : Nat} :
    frameProcessorFlush jerasure s mem = .ok (s', result, n) ↔
      ((s.unitsSourceExpected = 0 ∨ s.flushed) ∧ s' = s ∧ result = .failed ∧ n = 0) ∨
      (¬ (s.unitsSourceExpected = 0 ∨ s.flushed) ∧ ∃ s1 buf, FlushDecoded jerasure s mem s1 result ∧
        frameProcessorCompact s1 s1.unitsSourceExpected 0 0 s1.frameBuf = .ok (buf, n) ∧
        s' = { s1 with
          frameBuf := buf
          streamStats := { frames := s1.streamStats.frames + 1, bytes := s1.streamStats.bytes + n } }) := by
  unfold frameProcessorFlush
  by_cases hnone : s.unitsSourceExpected = 0 ∨ s.flushed
  · rw [if_pos hnone]
    constructor
    · intro h
      cases h
      exact Or.inl ⟨hnone, rfl, rfl, rfl⟩
    · rintro (⟨-, rfl, rfl, rfl⟩ | ⟨hsome, -⟩)
      · rfl
      · exact absurd hnone hsome
  rw [if_neg hnone]
  simp only
  by_cases hless : s.unitsSourceReceived < s.unitsSourceExpected
  · rw [if_pos hless]
    constructor
    · intro h
      obtain ⟨⟨s1, err⟩, hfec, h⟩ := bind_eq_ok_iff.mp h
      have hdecoded := FlushDecoded.fec hless hfec
      refine Or.inr ⟨hnone, s1, ?_⟩
      cases err <;> obtain ⟨_, ⟨⟩, h⟩ := bind_eq_ok_iff.mp h <;>
        obtain ⟨⟨buf, cur⟩, hcompact, h⟩ := bind_eq_ok_iff.mp h <;> cases h <;>
        exact ⟨buf, hdecoded, hcompact, rfl⟩
    · rintro (⟨hyes, -⟩ | ⟨-, s1, buf, hdecoded, hcompact, rfl⟩)
      · exact absurd hyes hnone
      · cases hdecoded with
        | complete hmore => exact absurd hless hmore
        | @fec _ err _ hfec =>
          refine bind_eq_ok_iff.mpr ⟨_, hfec, ?_⟩
          cases err <;> exact bind_eq_ok_iff.mpr ⟨_, rfl, bind_eq_ok_iff.mpr ⟨_, hcompact, rfl⟩⟩
  · rw [if_neg hless]
    constructor
    · intro h
      obtain ⟨_, ⟨⟩, h⟩ := bind_eq_ok_iff.mp h
      obtain ⟨⟨buf, cur⟩, hcompact, h⟩ := bind_eq_ok_iff.mp h
      cases h
      exact Or.inr ⟨hnone, s, buf, .complete hless, hcompact, rfl⟩
    · rintro (⟨hyes, -⟩ | ⟨-, s1, buf, hdecoded, hcompact, rfl⟩)
      · exact absurd hyes hnone
      · cases hdecoded with
        | complete => exact bind_eq_ok_iff.mpr ⟨_, rfl, bind_eq_ok_iff.mpr ⟨_, hcompact, rfl⟩⟩
        | fec hmore => exact absurd hmore hless

/-- Decoding changes the buffer and the sizes of the units. -/
theorem FlushDecoded.keep {mem : Bool} {result : FrameFlushResult}
    (h : FlushDecoded jerasure s mem s' result) :
    ∃ buf slots, s' = { s with frameBuf := buf, unitSlots := slots } := by
  cases h with
  | complete => exact ⟨s.frameBuf, s.unitSlots, rfl⟩
  | fec _ hfec =>
    unfold frameProcessorFec at hfec
    simp only at hfec
    split at hfec
    · cases hfec
      exact ⟨s.frameBuf, s.unitSlots, rfl⟩
    · obtain ⟨erasures, -, hfec⟩ := bind_eq_ok_iff.mp hfec
      split at hfec
      · cases hfec
      · obtain ⟨r, -, hfec⟩ := bind_eq_ok_iff.mp hfec
        cases r with
        | error err =>
          cases hfec
          exact ⟨s.frameBuf, s.unitSlots, rfl⟩
        | ok buf =>
          obtain ⟨slots, -, hfec⟩ := bind_eq_ok_iff.mp hfec
          cases hfec
          exact ⟨buf, slots, rfl⟩

theorem frameProcessorFlush_keep {mem : Bool} {result : FrameFlushResult} {n : Nat}
    (h : frameProcessorFlush jerasure s mem = .ok (s', result, n)) :
    s'.unitSlotsSize = s.unitSlotsSize ∧ s'.frameBufSize = s.frameBufSize ∧
      (result = .failed → s' = s) := by
  rcases frameProcessorFlush_eq_ok.mp h with ⟨-, rfl, -, -⟩ | ⟨-, s1, buf, hdecoded, -, rfl⟩
  · exact ⟨rfl, rfl, fun _ => rfl⟩
  · obtain ⟨buf1, slots, rfl⟩ := hdecoded.keep
    exact ⟨rfl, rfl, fun hfailed => absurd hfailed hdecoded.ne_failed⟩

theorem FlushDecoded.extend (h : FrameProcessorWf p) {mem : Bool} {result : FrameFlushResult}
    (hd : FlushDecoded jerasure (p.extend rest size stats) mem s' result) :
    ∃ p', s' = p'.extend rest size stats ∧ FrameProcessorWf p' ∧ FlushDecoded jerasure p mem p' result := by
  cases hd with
  | complete hless => exact ⟨p, rfl, h, .complete hless⟩
  | @fec s1 err hless hfec =>
    rw [frameProcessorFec_extend h] at hfec
    cases hrun : frameProcessorFec jerasure p mem with
    | error f =>
      rw [hrun] at hfec
      cases hfec
    | ok x =>
      rw [hrun] at hfec
      cases hfec
      exact ⟨x.1, rfl, (frameProcessorFec_spec h mem).2 x.1 x.2 hrun, .fec hless hrun⟩

theorem frameProcessorCompact_le {n i cur cur' : Nat} {buf buf' : Bytes}
    (h : frameProcessorCompact s n i cur buf = .ok (buf', cur')) (hcur : cur ≤ buf.length) :
    cur' ≤ buf'.length := by
  induction n generalizing i cur buf with
  | zero =>
    cases h
    exact hcur
  | succ n ih =>
    unfold frameProcessorCompact at h
    split at h
    · cases h
    · next dataSize _ =>
      split at h
      · exact ih h hcur
      · split at h
        · split at h
          · cases h
          · exact ih h hcur
        · simp only at h
          split at h
          · cases h
          · next hin =>
            refine ih h ?_
            have hpart : (slice buf (i * s.bufStridePerUnit + 2) (dataSize - 2)).length
                = dataSize - 2 := length_slice (by omega)
            rw [length_splice (by omega)]
            omega

/-- **What is behind the buffer does not get into the frame.** -/
theorem frameProcessorFlush_extend (h : FrameProcessorWf p) {mem : Bool} {result : FrameFlushResult}
    {n : Nat} (hf : frameProcessorFlush jerasure (p.extend rest size stats) mem = .ok (s', result, n)) :
    ∃ p', frameProcessorFlush jerasure p mem = .ok (p', result, n) ∧
      s'.frameBuf.take n = p'.frameBuf.take n := by
  rcases frameProcessorFlush_eq_ok.mp hf with ⟨hnone, rfl, rfl, rfl⟩ | ⟨hsome, s1, buf, hd, hc, rfl⟩
  · exact ⟨p, frameProcessorFlush_eq_ok.mpr (Or.inl ⟨hnone, rfl, rfl, rfl⟩), rfl⟩
  · obtain ⟨p1, rfl, hwf, hd'⟩ := FlushDecoded.extend h hd
    have hext := @frameProcessorCompact_extend p1 rest size stats hwf p1.unitsSourceExpected 0 0
      p1.frameBuf (by omega) (Nat.zero_le _) rfl
    replace hext : frameProcessorCompact (p1.extend rest size stats)
      (p1.extend rest size stats).unitsSourceExpected 0 0 (p1.extend rest size stats).frameBuf = _ := hext
    rw [hext] at hc
    cases hrun : frameProcessorCompact p1 p1.unitsSourceExpected 0 0 p1.frameBuf with
    | error f =>
      rw [hrun] at hc
      cases hc
    | ok x =>
      obtain ⟨buf1, n1⟩ := x
      rw [hrun] at hc
      cases hc
      refine ⟨_, frameProcessorFlush_eq_ok.mpr (Or.inr ⟨hsome, p1, buf1, hd', hrun, rfl⟩), ?_⟩
      exact List.take_append_of_le_length (frameProcessorCompact_le hrun (Nat.zero_le _))

/-! ## A new frame -/

/-- `frame_buf` is cleared as far as the frame goes. -/
theorem frameProcessorAllocBuf_fits (h : FrameProcessorAlloc s) {mem : Bool} {required : Nat}
    (hrequired : s.unitSlotsSize * s.bufStridePerUnit = required)
    (hover : s.unitSlotsSize ≤ (2 ^ 64 - 1) / s.bufStridePerUnit)
    (hmem : mem = true ∨ required ≤ s.frameBufSize) (hpos : 0 < required) :
    frameProcessorAllocBuf s mem = .ok ({ s with
      frameBuf := List.replicate (required + videoBufferPaddingSize) 0
        ++ s.frameBuf.drop (required + videoBufferPaddingSize)
      frameBufSize := max s.frameBufSize required }, .success) := by
  have hlen : s.frameBuf.length ≤ s.frameBufSize + videoBufferPaddingSize := by
    rcases h.buf with hbuf | ⟨hnil, -⟩
    · exact Nat.le_of_eq hbuf
    · rw [hnil]
      exact Nat.zero_le _
  unfold frameProcessorAllocBuf
  rw [if_neg (Nat.not_lt.mpr hover)]
  simp only [hrequired]
  by_cases hsmall : s.frameBufSize < required
  · have hmem : mem = true := hmem.resolve_right (Nat.not_le.mpr hsmall)
    rw [if_pos hsmall, if_pos hmem, List.drop_eq_nil_of_le (by omega), List.append_nil,
      Nat.max_eq_right (Nat.le_of_lt hsmall)]
  · have hbuf : s.frameBuf.length = s.frameBufSize + videoBufferPaddingSize := by
      rcases h.buf with hbuf | ⟨-, hzero⟩
      · exact hbuf
      · omega
    rw [if_neg hsmall, if_neg (by omega), Nat.max_eq_left (Nat.not_lt.mp hsmall)]
    unfold splice
    rw [List.take_zero, List.nil_append, Nat.zero_add, List.length_replicate]

/-- The frame processor at the beginning of the frame of a packet. -/
def frameAllocated (s : FrameProcessor) (u : TakionAVUnit) : FrameProcessor :=
  let source := u.packet.unitsInFrameTotal - u.packet.unitsInFrameFec
  let fec := max u.packet.unitsInFrameFec 1
  let bufSize := u.packet.dataSize + if u.hasExtension source then u16At u.bytes 0 else 0
  let stride := (bufSize + 0xf) / 0x10 * 0x10
  let required := (source + fec) * stride
  { s with
    frameBuf := List.replicate (required + videoBufferPaddingSize) 0
      ++ s.frameBuf.drop (required + videoBufferPaddingSize)
    frameBufSize := max s.frameBufSize required
    bufSizePerUnit := bufSize
    bufStridePerUnit := stride
    unitsSourceExpected := source
    unitsFecExpected := fec
    unitsSourceReceived := 0
    unitsFecReceived := 0
    unitSlots := List.replicate (source + fec) 0
    unitSlotsSize := source + fec
    flushed := false }

/-- **A frame that fits is allocated.** -/
theorem frameProcessorAllocFrame_fits (h : FrameProcessorAlloc s) {slotsMem frameMem : Bool}
    (hle : u.packet.unitsInFrameFec ≤ u.packet.unitsInFrameTotal)
    (hfits : allocFrameFits s u slotsMem frameMem = true) :
    frameProcessorAllocFrame s u slotsMem frameMem = .ok (frameAllocated s u, .success) := by
  unfold allocFrameFits at hfits
  unfold frameProcessorAllocFrame frameAllocated
  have hmax : (if u.packet.unitsInFrameFec < 1 then 1 else u.packet.unitsInFrameFec)
      = max u.packet.unitsInFrameFec 1 := by
    split <;> omega
  simp only [hmax] at hfits ⊢
  rw [if_neg (Nat.not_lt.mpr hle)]
  generalize u.packet.unitsInFrameTotal - u.packet.unitsInFrameFec = source at hfits ⊢
  generalize u.hasExtension source = ext at hfits ⊢
  generalize hfec : max u.packet.unitsInFrameFec 1 = fec at hfits ⊢
  generalize (u.packet.dataSize + if ext then u16At u.bytes 0 else 0) = bufSize at hfits ⊢
  generalize hstride : (bufSize + 0xf) / 0x10 * 0x10 = stride at hfits ⊢
  simp only [Bool.and_eq_true, Bool.or_eq_true, Bool.not_eq_true', decide_eq_true_eq] at hfits
  obtain ⟨⟨⟨⟨⟨hext, hbuf⟩, hslots⟩, hover⟩, hslotsMem⟩, hframeMem⟩ := hfits
  have hshort : ¬ (ext && decide (u.packet.dataSize < 2)) = true := by
    rw [Bool.and_eq_true, decide_eq_true_eq]
    rintro ⟨hyes, hless⟩
    rcases hext with hno | hsize
    · rw [hno] at hyes
      cases hyes
    · omega
  rw [if_neg hshort, if_neg (by omega)]
  have hpos : 0 < (source + fec) * stride := Nat.mul_pos (by omega) (by omega)
  have hcleared := fun (s1 : FrameProcessor) (h1 : FrameProcessorAlloc s1)
      (hsize : s1.unitSlotsSize = source + fec) (hs : s1.bufStridePerUnit = stride)
      (hb : s1.frameBufSize = s.frameBufSize) =>
    @frameProcessorAllocBuf_fits s1 h1 frameMem ((source + fec) * stride) (by rw [hsize, hs])
      (by rw [hsize, hs]; exact hover) (by rw [hb]; exact hframeMem) hpos
  unfold frameProcessorAllocSlots
  simp only
  rw [if_neg (Nat.not_lt.mpr hslots)]
  by_cases hsame : source + fec ≠ s.unitSlotsSize
  · rw [if_pos hsame, if_pos (hslotsMem.resolve_right hsame)]
    exact hcleared _ ⟨List.length_replicate, h.buf⟩ rfl rfl rfl
  · rw [if_neg hsame, if_neg (by rw [h.slots]; exact Nat.lt_irrefl _)]
    replace hsame := Decidable.of_not_not hsame
    rw [hcleared _ ⟨?_, ?_⟩ ?_ ?_ ?_, hsame]
    · exact List.length_replicate
    · exact h.buf
    · exact hsame.symm
    · rfl
    · rfl

theorem allocFrameFits_congr {slotsMem frameMem : Bool} (hslots : s'.unitSlotsSize = s.unitSlotsSize)
    (hbuf : s'.frameBufSize = s.frameBufSize) :
    allocFrameFits s' u slotsMem frameMem = allocFrameFits s u slotsMem frameMem := by
  simp only [allocFrameFits, hslots, hbuf]

/-- A new frame processor can allocate the frame as well, if there is memory. -/
theorem allocFrameFits_init {slotsMem frameMem : Bool}
    (h : allocFrameFits s u slotsMem frameMem = true) :
    allocFrameFits frameProcessorInit u true true = true := by
  simp only [allocFrameFits, Bool.and_eq_true, Bool.true_or, and_true] at h ⊢
  exact h.1.1

/-! ## The frame of some units -/

theorem frameProcessorPutUnit_rejected {err : ErrorCode} (h : frameProcessorPutUnit s u = .ok (s', err))
    (herr : err ≠ .success) : s' = s := by
  unfold frameProcessorPutUnit at h
  simp only at h
  repeat' split at h
  all_goals first
    | cases h
      rfl
    | cases h
      exact absurd rfl herr
    | cases h

theorem frameProcessorPutUnit_keep {err : ErrorCode} (h : frameProcessorPutUnit s u = .ok (s', err)) :
    s'.unitSlotsSize = s.unitSlotsSize ∧ s'.frameBufSize = s.frameBufSize := by
  unfold frameProcessorPutUnit at h
  simp only at h
  repeat' split at h
  all_goals
    cases h
    try exact ⟨rfl, rfl⟩

theorem frameProcessorPutUnit_wf (h : FrameProcessorWf s) {err : ErrorCode}
    (hput : frameProcessorPutUnit s u = .ok (s', err)) : FrameProcessorWf s' := by
  by_cases hindex : u.packet.unitIndex ≠ s.unitSlotsSize ∨ u.packet.dataSize = 0 ∨
      s.bufSizePerUnit < u.packet.dataSize
  · obtain ⟨s1, err1, hrun, hwf⟩ := frameProcessorPutUnit_spec h hindex
    rw [hrun] at hput
    cases hput
    exact hwf
  · rw [not_or, not_or, Decidable.not_not, Nat.not_lt] at hindex
    rw [frameProcessorPutUnit_behind h.toFrameProcessorAlloc hindex.1 hindex.2.1 hindex.2.2] at hput
    cases hput

/-- A new frame processor with the units of a frame. The packet that comes first says how large the
frame is. -/
def frameBuilt (first : TakionAVUnit) (units : List TakionAVUnit) : Except Fault FrameProcessor := do
  let (proc, _) ← frameProcessorAllocFrame frameProcessorInit first true true
  units.foldlM (fun proc u => Prod.fst <$> frameProcessorPutUnit proc u) proc

/-- What a new frame processor makes of the units of a frame. -/
def assembleFrame (jerasure : Jerasure) (first : TakionAVUnit) (units : List TakionAVUnit) (mem : Bool) :
    Except Fault Bytes := do
  let proc ← frameBuilt first units
  let (proc, _, size) ← frameProcessorFlush jerasure proc mem
  return proc.frameBuf.take size

/-- The frame processor is like a new one with the units of a frame, and there may be more memory
behind the buffer. -/
def FrameBuilding (s : FrameProcessor) (first : TakionAVUnit) (units : List TakionAVUnit) : Prop :=
  ∃ p rest size stats, frameBuilt first units = .ok p ∧ FrameProcessorWf p ∧ s = p.extend rest size stats

/-- It is the same for all frame processors, but for what is behind the frame. -/
theorem frameAllocated_extend (s : FrameProcessor) (u : TakionAVUnit) :
    frameAllocated s u = (frameAllocated frameProcessorInit u).extend
      (s.frameBuf.drop ((frameAllocated s u).unitSlotsSize * (frameAllocated s u).bufStridePerUnit
        + videoBufferPaddingSize)) (frameAllocated s u).frameBufSize s.streamStats := by
  simp only [frameAllocated, frameProcessorInit, List.drop_nil, List.append_nil]

theorem FrameBuilding.start {slotsMem frameMem : Bool}
    (hle : u.packet.unitsInFrameFec ≤ u.packet.unitsInFrameTotal)
    (hfits : allocFrameFits s u slotsMem frameMem = true) :
    FrameBuilding (frameAllocated s u) u [] := by
  have hinit : FrameProcessorAlloc frameProcessorInit := ⟨rfl, Or.inr ⟨rfl, rfl⟩⟩
  have hfits' := allocFrameFits_init hfits
  obtain ⟨p, err, hrun, -, -, hwf⟩ := frameProcessorAllocFrame_spec hinit u true true
  have hsame := hrun.symm.trans (frameProcessorAllocFrame_fits hinit hle hfits')
  cases hsame
  exact ⟨_, _, _, _, bind_eq_ok_iff.mpr ⟨_, hrun, rfl⟩, hwf (Nat.not_lt.mpr hle) hfits',
    frameAllocated_extend s u⟩

theorem FrameBuilding.put {first : TakionAVUnit} {units : List TakionAVUnit}
    (h : FrameBuilding s first units) (hput : frameProcessorPutUnit s u = .ok (s', .success)) :
    FrameBuilding s' first (units ++ [u]) := by
  obtain ⟨p, rest, size, stats, hbuilt, hwf, rfl⟩ := h
  rw [frameProcessorPutUnit_extend hwf] at hput
  cases hrun : frameProcessorPutUnit p u with
  | error f =>
    rw [hrun] at hput
    cases hput
  | ok x =>
    obtain ⟨p', err⟩ := x
    rw [hrun] at hput
    cases hput
    refine ⟨p', rest, size, stats, ?_, frameProcessorPutUnit_wf hwf hrun, rfl⟩
    obtain ⟨⟨p0, err0⟩, halloc, hunits⟩ := bind_eq_ok_iff.mp hbuilt
    refine bind_eq_ok_iff.mpr ⟨_, halloc, ?_⟩
    simp only at hunits ⊢
    rw [List.foldlM_append]
    refine bind_eq_ok_iff.mpr ⟨p, hunits, ?_⟩
    rw [List.foldlM_cons, hrun]
    rfl

theorem FrameBuilding.flush {first : TakionAVUnit} {units : List TakionAVUnit} {mem : Bool}
    {result : FrameFlushResult} {n : Nat} (h : FrameBuilding s first units)
    (hflush : frameProcessorFlush jerasure s mem = .ok (s', result, n)) :
    assembleFrame jerasure first units mem = .ok (s'.frameBuf.take n) := by
  obtain ⟨p, rest, size, stats, hbuilt, hwf, rfl⟩ := h
  obtain ⟨p', hrun, htake⟩ := frameProcessorFlush_extend hwf hflush
  rw [htake]
  exact bind_eq_ok_iff.mpr ⟨p, hbuilt, bind_eq_ok_iff.mpr ⟨_, hrun, rfl⟩⟩

end Chiaki
