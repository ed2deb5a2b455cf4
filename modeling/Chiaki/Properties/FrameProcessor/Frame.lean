import Chiaki.Properties.FrameProcessor.Counters

/-!
# What a flushed frame consists of

`frameProcessor_assembles`: the frame is the data of the source units in their order, each without
its first two bytes.

* While the units are moved together, what has been written ends before the unit that is read next
  (`frameProcessorCompact_eq`).
* With units that decoding restores, the frame is the one of which no unit was lost.
* A frame without source units is not flushed (`not_frameProcessor_assembles`).

`frameProcessor_flushedAgain`: a frame that was flushed is flushed again, and late units are written
over what was moved, since `flushed` is not set.
-/

namespace Chiaki

open Infra

variable {jerasure : Jerasure} {s s' : FrameProcessor} {u : TakionAVUnit} {err : ErrorCode}
  {buf buf' : Bytes}

/-! ## The memory in every run -/

theorem FrameProcessorAlloc.congr (h : FrameProcessorAlloc s)
    (hslots : s'.unitSlots.length = s.unitSlots.length) (hsize : s'.unitSlotsSize = s.unitSlotsSize)
    (hbuf : s'.frameBuf.length = s.frameBuf.length) (hbufSize : s'.frameBufSize = s.frameBufSize) :
    FrameProcessorAlloc s' := by
  refine ⟨by rw [hslots, hsize]; exact h.slots, ?_⟩
  rw [hbuf, hbufSize]
  refine h.buf.imp_right fun hnil => ⟨List.eq_nil_of_length_eq_zero ?_, hnil.2⟩
  rw [hbuf, hnil.1]
  rfl

theorem frameProcessorPutUnit_alloc (h : FrameProcessorAlloc s)
    (hput : frameProcessorPutUnit s u = .ok (s', err)) : FrameProcessorAlloc s' := by
  cases frameProcessorPutUnit_outcome hput with
  | refused => exact h
  | accepted _ _ hin =>
    refine h.congr List.length_set rfl ?_ rfl
    split
    · rfl
    · next hopen => exact length_splice (hin.resolve_left hopen)

theorem fecDecode_length {unitSize stride k m : Nat} {erasures : List Nat}
    (h : fecDecode jerasure buf unitSize stride k m erasures = .ok (.ok buf')) :
    unitSize ≤ stride ∧ (∀ i, i < k + m → stride * i + unitSize ≤ buf.length) ∧
      ∃ units, jerasure.decode k m erasures
        ((List.range (k + m)).map fun i => slice buf (stride * i) unitSize) = some units ∧
        buf' = units.zipIdx.foldl (fun buf (unit, i) => splice buf (stride * i) unit) buf := by
  unfold fecDecode at h
  by_cases hstride : stride < unitSize
  · rw [if_pos hstride] at h
    cases h
  rw [if_neg hstride] at h
  cases hall : (List.range (k + m)).all fun i => decide (stride * i + unitSize ≤ buf.length) with
  | false =>
    rw [hall] at h
    cases h
  | true =>
    simp only [hall, Bool.not_true, Bool.false_eq_true, if_false] at h
    refine ⟨Nat.not_lt.mp hstride, fun i hi => ?_, ?_⟩
    · exact of_decide_eq_true (List.all_eq_true.mp hall i (List.mem_range.mpr hi))
    · cases hdecode : jerasure.decode k m erasures
        ((List.range (k + m)).map fun i => slice buf (stride * i) unitSize) with
      | none =>
        rw [hdecode] at h
        cases h
      | some units =>
        rw [hdecode] at h
        cases h
        exact ⟨units, rfl, rfl⟩

theorem frameProcessorCompact_length {n i cur cur' : Nat}
    (h : frameProcessorCompact s n i cur buf = .ok (buf', cur')) : buf'.length = buf.length := by
  induction n generalizing i cur buf with
  | zero =>
    cases h
    rfl
  | succ n ih =>
    unfold frameProcessorCompact at h
    split at h
    · cases h
    · next dataSize _ =>
      split at h
      · exact ih h
      · split at h
        · split at h
          · cases h
          · exact ih h
        · simp only at h
          split at h
          · cases h
          · rw [ih h, length_splice]
            rw [length_slice (by omega)]
            omega

theorem frameProcessorFlush_alloc {mem : Bool} {result : FrameFlushResult} {n : Nat}
    (h : FrameProcessorAlloc s) (hflush : frameProcessorFlush jerasure s mem = .ok (s', result, n)) :
    FrameProcessorAlloc s' := by
  rcases frameProcessorFlush_eq_ok.mp hflush with ⟨-, rfl, -, -⟩ | ⟨-, s1, buf, hdecoded, hcompact, rfl⟩
  · exact h
  · have hs1 : FrameProcessorAlloc s1 := by
      cases hdecoded with
      | complete => exact h
      | fec _ hfec =>
        rcases frameProcessorFec_outcome hfec with ⟨rfl, -⟩ | ⟨-, _, buf1, slots, -, hdecode, hrestore, rfl⟩
        · exact h
        · obtain ⟨-, hfit, units, hunits, rfl⟩ := fecDecode_length hdecode
          exact h.congr (frameProcessorRestore_slots hrestore).1 rfl
            (length_foldl_splice (fecDecode_units_fit hfit hunits)) rfl
    exact hs1.congr rfl rfl (frameProcessorCompact_length hcompact) rfl

/-- **The sizes of the arrays are what the fields say** in every run. -/
theorem frameProcessorAlloc_reachable {r : FrameProcessorRun}
    (hr : (frameProcessorLts jerasure).Reachable r) : FrameProcessorAlloc r.proc := by
  induction hr with
  | init hinit =>
    rw [show _ = _ from hinit]
    exact ⟨rfl, Or.inr ⟨rfl, rfl⟩⟩
  | @step r r' l _ hs h =>
    cases (frameProcessorStep_cases hs).2 with
    | allocFrame u slotsMem frameMem =>
      obtain ⟨s', err, hrun, halloc, -⟩ := frameProcessorAllocFrame_spec h u slotsMem frameMem
      rw [hrun]
      exact halloc
    | putUnit u =>
      cases hrun : frameProcessorPutUnit r.proc u with
      | error f => exact h
      | ok x => exact frameProcessorPutUnit_alloc h hrun
    | reportPacketStats => exact h
    | flush mem =>
      cases hrun : frameProcessorFlush jerasure r.proc mem with
      | error f => exact h
      | ok x => exact frameProcessorFlush_alloc h hrun

/-! ## Moving the units together -/

/-- What is moved of the units from slot `i` on. -/
def unitParts (s : FrameProcessor) (n i : Nat) : Bytes :=
  (List.range' i n).flatMap fun j =>
    slice s.frameBuf (j * s.bufStridePerUnit + 2) (s.unitSlots[j]?.getD 0 - 2)

theorem unitParts_succ (s : FrameProcessor) (n i : Nat) :
    unitParts s (n + 1) i = slice s.frameBuf (i * s.bufStridePerUnit + 2) (s.unitSlots[i]?.getD 0 - 2)
      ++ unitParts s n (i + 1) := by
  rw [unitParts, List.range'_succ, List.flatMap_cons]
  rfl

/-- **Moving a unit keeps those behind it**, so each part is moved as it was. -/
theorem frameProcessorCompact_eq (h : FrameProcessorWf s) : ∀ (n i cur : Nat) (buf buf' : Bytes) (cur' : Nat),
    i + n ≤ s.unitsSourceExpected → cur ≤ i * s.bufStridePerUnit → buf.length = s.frameBuf.length →
    (∀ off m, i * s.bufStridePerUnit ≤ off → slice buf off m = slice s.frameBuf off m) →
    frameProcessorCompact s n i cur buf = .ok (buf', cur') →
    buf'.take cur' = buf.take cur ++ unitParts s n i := by
  intro n
  induction n with
  | zero =>
    intro i cur buf buf' cur' _ _ _ _ hrun
    cases hrun
    exact (List.append_nil _).symm
  | succ n ih =>
    intro i cur buf buf' cur' hle hcur hlen hbehind hrun
    have hexpected := h.expected
    have hfit := h.unit_fits (show i < s.unitSlotsSize by omega)
    have hslot : i < s.unitSlots.length := by rw [h.slots]; omega
    have hsize := h.sizes _ (List.getElem_mem hslot)
    have hstride := h.stride
    have hnext : (i + 1) * s.bufStridePerUnit = i * s.bufStridePerUnit + s.bufStridePerUnit :=
      Nat.succ_mul _ _
    rw [unitParts_succ]
    unfold frameProcessorCompact at hrun
    rw [List.getElem?_eq_getElem hslot] at hrun ⊢
    simp only [Option.getD_some] at hrun ⊢
    -- nothing is moved of a unit without data
    have hskip : s.unitSlots[i] < 2 → frameProcessorCompact s n (i + 1) cur buf = .ok (buf', cur') →
        buf'.take cur' = buf.take cur ++ (slice s.frameBuf (i * s.bufStridePerUnit + 2) (s.unitSlots[i] - 2)
          ++ unitParts s n (i + 1)) := by
      intro hshort hrun
      have hnone : slice s.frameBuf (i * s.bufStridePerUnit + 2) (s.unitSlots[i] - 2) = [] := by
        rw [slice, Nat.sub_eq_zero_of_le (Nat.le_of_lt hshort), List.take_zero]
      rw [hnone, List.nil_append]
      exact ih (i + 1) cur buf buf' cur' (by omega) (by omega) hlen
        (fun off m hoff => hbehind off m (by omega)) hrun
    split at hrun
    · exact hskip (by omega) hrun
    · split at hrun
      · next hshort =>
        split at hrun
        · cases hrun
        · exact hskip hshort hrun
      · next hlong =>
        split at hrun
        · cases hrun
        · generalize hpart : slice buf (i * s.bufStridePerUnit + 2) (s.unitSlots[i] - 2) = part at hrun
          have hpartLen : part.length = s.unitSlots[i] - 2 := by
            rw [← hpart]
            exact length_slice (by omega)
          have hin : cur + part.length ≤ buf.length := by omega
          have hrest := ih (i + 1) _ _ buf' cur' (by omega) (by omega) ((length_splice hin).trans hlen)
            (fun off m hoff => ?_) hrun
          · rw [← hbehind _ _ (by omega), hpart, hrest, ← hpartLen, take_splice (by omega),
              List.append_assoc]
          · rw [slice_splice_of_ge (by omega) hin]
            exact hbehind off m (by omega)

/-! ## The data of the units -/

/-- The data of the source units one after the other, each without its first two bytes. -/
def sourceData (n : Nat) (data : Nat → Bytes) : Bytes :=
  (List.range n).flatMap fun i => (data i).drop 2

theorem sourceData_congr {n : Nat} {data data' : Nat → Bytes} (h : ∀ i, i < n → data' i = data i) :
    sourceData n data' = sourceData n data := by
  unfold sourceData
  rw [List.flatMap_def, List.flatMap_def]
  congr 1
  exact List.map_congr_left fun i hi => by rw [h i (List.mem_range.mp hi)]

/-- The source units are in their slots and in their places. -/
def HoldsSource (s : FrameProcessor) (data : Nat → Bytes) : Prop :=
  ∀ i, i < s.unitsSourceExpected → s.unitSlots[i]? = some (data i).length ∧
    slice s.frameBuf (i * s.bufStridePerUnit) (data i).length = data i

theorem drop_slice (buf : Bytes) (off n k : Nat) : (slice buf off n).drop k = slice buf (off + k) (n - k) := by
  unfold slice
  rw [List.drop_take, List.drop_drop]

/-- **The frame is the data of the source units.** -/
theorem HoldsSource.compact {data : Nat → Bytes} {n : Nat} (h : HoldsSource s data)
    (hwf : FrameProcessorWf s)
    (hrun : frameProcessorCompact s s.unitsSourceExpected 0 0 s.frameBuf = .ok (buf, n)) :
    buf.take n = sourceData s.unitsSourceExpected data := by
  rw [frameProcessorCompact_eq hwf _ 0 0 _ _ _ (by omega) (Nat.zero_le _) rfl (fun _ _ _ => rfl) hrun,
    List.take_zero, List.nil_append, unitParts, sourceData, ← List.range_eq_range', List.flatMap_def,
    List.flatMap_def]
  congr 1
  refine List.map_congr_left fun i hi => ?_
  obtain ⟨hslot, hdata⟩ := h i (List.mem_range.mp hi)
  rw [hslot, Option.getD_some, ← drop_slice, hdata]

/-! ## Units that are put -/

/-- Units one after the other, and those of them that are accepted. -/
def putUnits : FrameProcessor → List TakionAVUnit → Except Fault (FrameProcessor × List TakionAVUnit)
  | s, [] => .ok (s, [])
  | s, u :: us => do
    let (s, err) ← frameProcessorPutUnit s u
    let (s, accepted) ← putUnits s us
    return (s, if err = .success then u :: accepted else accepted)

/-- The data that was accepted for an index. -/
def storedUnit (accepted : List TakionAVUnit) (i : Nat) : Bytes :=
  ((accepted.find? fun u => u.packet.unitIndex == i).map TakionAVUnit.bytes).getD []

/-- The accepted units are in their slots and in their places, and are counted. -/
structure HoldsAccepted (s : FrameProcessor) (accepted : List TakionAVUnit) : Prop where
  wf : FrameProcessorWf s
  building : s.flushed = false
  filled : ∀ u ∈ accepted, u.bytes ≠ []
  counted : CountersInvariant ⟨s, ⟨0, 0⟩, true, none⟩ false
  units : ∀ i, i < s.unitSlotsSize → s.unitSlots[i]? = some (storedUnit accepted i).length ∧
    slice s.frameBuf (i * s.bufStridePerUnit) (storedUnit accepted i).length = storedUnit accepted i

/-- What stays the same until the frame is flushed. -/
structure SameFrame (s s' : FrameProcessor) : Prop where
  source : s'.unitsSourceExpected = s.unitsSourceExpected
  fec : s'.unitsFecExpected = s.unitsFecExpected
  size : s'.bufSizePerUnit = s.bufSizePerUnit
  slots : s'.unitSlotsSize = s.unitSlotsSize

theorem storedUnit_append (accepted : List TakionAVUnit) (u : TakionAVUnit) (i : Nat)
    (hfilled : ∀ u ∈ accepted, u.bytes ≠ []) (hnew : storedUnit accepted u.packet.unitIndex = []) :
    storedUnit (accepted ++ [u]) i = if i = u.packet.unitIndex then u.bytes else storedUnit accepted i := by
  unfold storedUnit at hnew ⊢
  rw [List.find?_append, List.find?_singleton]
  by_cases hi : i = u.packet.unitIndex
  · subst hi
    cases hfind : accepted.find? fun v => v.packet.unitIndex == u.packet.unitIndex with
    | none => simp
    | some v =>
      rw [hfind] at hnew
      exact absurd hnew (hfilled v (List.mem_of_find?_eq_some hfind))
  · rw [if_neg hi, if_neg (by rw [beq_iff_eq]; exact fun h => hi h.symm), Option.or_none]

theorem HoldsAccepted.put {accepted : List TakionAVUnit} (h : HoldsAccepted s accepted)
    (hindex : u.packet.unitIndex < s.unitsSourceExpected + s.unitsFecExpected)
    (hput : frameProcessorPutUnit s u = .ok (s', err)) :
    HoldsAccepted s' (if err = .success then accepted ++ [u] else accepted) ∧ SameFrame s s' := by
  have hwf := frameProcessorPutUnit_wf h.wf hput
  have hcounted := @countersInvariant_putUnit u ⟨s, ⟨0, 0⟩, true, none⟩ false h.counted true (by
    rw [countersKept, decide_eq_true hindex, Bool.true_or])
  simp only [hput, Except.map, FrameProcessorRun.after] at hcounted
  cases frameProcessorPutUnit_outcome hput with
  | refused _ herr =>
    rw [if_neg herr]
    exact ⟨h, rfl, rfl, rfl, rfl⟩
  | accepted haccepted hslot hin =>
    rw [if_pos rfl]
    refine ⟨⟨hwf, h.building, ?_, hcounted, fun i hi => ?_⟩, rfl, rfl, rfl, rfl⟩
    · intro v hv hnil
      rcases List.mem_append.mp hv with hv | hv
      · exact h.filled v hv hnil
      · rw [List.mem_singleton.mp hv] at hnil
        simp [putUnitRefused, ← u.length_bytes, hnil] at haccepted
    · have hlt : u.packet.unitIndex < s.unitSlotsSize := Nat.lt_of_lt_of_le hindex h.wf.expected
      obtain ⟨hold, -⟩ := h.units _ hlt
      have hnone : storedUnit accepted u.packet.unitIndex = [] := by
        rw [hslot, Option.some.injEq] at hold
        exact List.eq_nil_of_length_eq_zero hold.symm
      have hfit : u.packet.unitIndex * s.bufStridePerUnit + u.bytes.length ≤ s.frameBuf.length :=
        hin.resolve_left (by rw [h.building]; exact Bool.false_ne_true)
      have hsize : u.bytes.length ≤ s.bufStridePerUnit := by
        have hmax : u.packet.dataSize ≤ s.bufSizePerUnit := by
          by_contra hlarge
          simp [putUnitRefused, Nat.not_le.mp hlarge] at haccepted
        rw [u.length_bytes]
        exact hmax.trans h.wf.stride
      rw [storedUnit_append accepted u i h.filled hnone, h.building]
      simp only [Bool.false_eq_true, if_false]
      by_cases hiu : i = u.packet.unitIndex
      · subst hiu
        rw [if_pos rfl, List.getElem?_set_self (by rw [h.wf.slots]; exact hlt), u.length_bytes]
        exact ⟨rfl, slice_splice u.length_bytes (by rw [← u.length_bytes]; exact hfit)⟩
      · obtain ⟨hslot', hdata⟩ := h.units i hi
        rw [if_neg hiu, List.getElem?_set_ne (Ne.symm hiu)]
        refine ⟨hslot', ?_⟩
        have hstored : (storedUnit accepted i).length ≤ s.bufStridePerUnit := by
          have hle := h.wf.sizes _ (List.mem_of_getElem? hslot')
          exact hle.trans h.wf.stride
        -- the places of two units do not overlap
        rcases Nat.lt_or_gt_of_ne hiu with hbefore | hafter
        · have hmul : (i + 1) * s.bufStridePerUnit ≤ u.packet.unitIndex * s.bufStridePerUnit :=
            Nat.mul_le_mul_right _ hbefore
          rw [Nat.succ_mul] at hmul
          rw [slice_splice_of_le (by omega) hfit, hdata]
        · have hmul : (u.packet.unitIndex + 1) * s.bufStridePerUnit ≤ i * s.bufStridePerUnit :=
            Nat.mul_le_mul_right _ hafter
          rw [Nat.succ_mul] at hmul
          rw [slice_splice_of_ge (by omega) hfit, hdata]

/-- **Units of the frame can be put in any order**, and those that are accepted are all there. -/
theorem HoldsAccepted.putUnits {us accepted : List TakionAVUnit} (h : HoldsAccepted s accepted)
    (hindex : ∀ u ∈ us, u.packet.unitIndex < s.unitsSourceExpected + s.unitsFecExpected) :
    ∃ s' more, Chiaki.putUnits s us = .ok (s', more) ∧ HoldsAccepted s' (accepted ++ more) ∧
      SameFrame s s' := by
  induction us generalizing s accepted with
  | nil => exact ⟨s, [], rfl, by rw [List.append_nil]; exact h, rfl, rfl, rfl, rfl⟩
  | cons u us ih =>
    have hu := hindex u (List.mem_cons_self ..)
    obtain ⟨s1, err, hput, -⟩ := frameProcessorPutUnit_spec h.wf
      (Or.inl (Nat.ne_of_lt (Nat.lt_of_lt_of_le hu h.wf.expected)))
    obtain ⟨h1, hsame1⟩ := h.put hu hput
    obtain ⟨s2, more, hrun, h2, hsame2⟩ := ih h1 fun v hv => by
      rw [hsame1.source, hsame1.fec]
      exact hindex v (List.mem_cons_of_mem _ hv)
    refine ⟨s2, if err = .success then u :: more else more, ?_, ?_, hsame2.source.trans hsame1.source,
      hsame2.fec.trans hsame1.fec, hsame2.size.trans hsame1.size, hsame2.slots.trans hsame1.slots⟩
    · exact bind_eq_ok_iff.mpr ⟨_, hput, bind_eq_ok_iff.mpr ⟨_, hrun, rfl⟩⟩
    · split at h2
      · next herr =>
        rw [if_pos herr]
        rwa [List.append_assoc] at h2
      · next herr =>
        rw [if_neg herr]
        exact h2

/-- At the beginning of a frame there are no units. -/
theorem HoldsAccepted.start {slotsMem frameMem : Bool} (h : FrameProcessorAlloc s)
    (halloc : frameProcessorAllocFrame s u slotsMem frameMem = .ok (s', .success)) :
    HoldsAccepted s' [] := by
  obtain ⟨hle, hfits⟩ := frameProcessorAllocFrame_success halloc
  obtain ⟨s1, err, hrun, -, -, hwf⟩ := frameProcessorAllocFrame_spec h u slotsMem frameMem
  rw [halloc] at hrun
  cases hrun
  replace hwf := hwf (Nat.not_lt.mpr hle) hfits
  rw [frameProcessorAllocFrame_fits h hle hfits] at halloc
  cases halloc
  have hmax : (frameAllocated s u).unitSlotsSize ≤ unitSlotsMax := by
    simp only [allocFrameFits, Bool.and_eq_true, decide_eq_true_eq] at hfits
    exact hfits.1.1.1.2
  have hempty : ∀ i, i < (frameAllocated s u).unitSlotsSize →
      (frameAllocated s u).unitSlots[i]? = some 0 := by
    intro i hi
    show (List.replicate (frameAllocated s u).unitSlotsSize 0)[i]? = some 0
    rw [List.getElem?_replicate, if_pos hi]
  refine ⟨hwf, rfl, List.forall_mem_nil _, ?_, fun i hi => ⟨hempty i hi, List.take_zero ..⟩⟩
  refine .of_empty (by simp) hwf.slots (hwf.slots.trans_le hmax) ?_ (fun j hj => hempty j ?_) rfl rfl
  · exact hwf.expected.trans (hmax.trans (by decide))
  · exact hwf.slots ▸ hj

/-! ## Units that were lost -/

/-- Units that are written to their places are there. -/
theorem slice_foldl_splice {stride size : Nat} {units : List Bytes} {k : Nat}
    (hsize : ∀ unit ∈ units, unit.length = size) (hstride : size ≤ stride)
    (hfit : ∀ p ∈ units.zipIdx k, stride * p.2 + p.1.length ≤ buf.length) (i : Nat) :
    slice ((units.zipIdx k).foldl (fun buf (unit, i) => splice buf (stride * i) unit) buf) (stride * i) size
      = ((if k ≤ i then units[i - k]? else none).getD (slice buf (stride * i) size)) := by
  induction units generalizing buf k with
  | nil => simp
  | cons unit units ih =>
    have hunit : stride * k + unit.length ≤ buf.length := hfit (unit, k) (List.mem_cons_self ..)
    have hlen := hsize unit (List.mem_cons_self ..)
    simp only [List.zipIdx_cons, List.foldl_cons]
    rw [ih (fun v hv => hsize v (List.mem_cons_of_mem _ hv)) (fun p hp => by
      rw [length_splice hunit]
      exact hfit p (List.mem_cons_of_mem _ hp))]
    rcases Nat.lt_trichotomy i k with hbefore | rfl | hafter
    · have hmul : stride * (i + 1) ≤ stride * k := Nat.mul_le_mul_left _ hbefore
      rw [Nat.mul_succ] at hmul
      rw [if_neg (by omega), if_neg (by omega), Option.getD_none, Option.getD_none,
        slice_splice_of_le (by omega) hunit]
    · rw [if_neg (by omega), if_pos (Nat.le_refl _), Nat.sub_self, List.getElem?_cons_zero,
        Option.getD_none, Option.getD_some]
      exact slice_splice hlen (by rw [← hlen]; exact hunit)
    · have hmul : stride * (k + 1) ≤ stride * i := Nat.mul_le_mul_left _ hafter
      rw [Nat.mul_succ] at hmul
      have hindex : i - k = i - (k + 1) + 1 := by omega
      rw [if_pos (by omega), if_pos (by omega), hindex, List.getElem?_cons_succ,
        slice_splice_of_ge (by omega) hunit]

/-- The units of the frame, as they are decoded. -/
def frameUnits (s : FrameProcessor) : List Bytes :=
  (List.range (s.unitsSourceExpected + s.unitsFecExpected)).map fun i =>
    slice s.frameBuf (s.bufStridePerUnit * i) s.bufSizePerUnit

/-- Every source unit is as large as the places are, but for as many bytes as it says first. -/
def SentUnits (s : FrameProcessor) (sent : Nat → Bytes) : Prop :=
  ∀ i, i < s.unitsSourceExpected → 2 ≤ (sent i).length ∧
    (sent i).length + u16At (sent i) 0 = s.bufSizePerUnit

/-- Decoding restores the source units that are missing as they were sent, with zeros behind them,
and leaves the others as they are. -/
def DecodesAsSent (jerasure : Jerasure) (s : FrameProcessor) (sent : Nat → Bytes) : Prop :=
  ∀ units, jerasure.decode s.unitsSourceExpected s.unitsFecExpected
      (emptySlots s 0 (s.unitsSourceExpected + s.unitsFecExpected)) (frameUnits s) = some units →
    ∀ i, i < s.unitsSourceExpected → units[i]? = if s.unitSlots[i]? = some 0
      then some (sent i ++ List.replicate (s.bufSizePerUnit - (sent i).length) 0) else (frameUnits s)[i]?

/-- Only empty slots are collected. -/
theorem frameProcessorErasures_ok {count n i : Nat} {acc erasures : List Nat}
    (h : frameProcessorErasures s count n i acc = .ok erasures) : erasures = acc ++ emptySlots s i n := by
  induction n generalizing i acc with
  | zero =>
    cases h
    rw [emptySlots, List.range'_zero, List.filter_nil, List.append_nil]
  | succ n ih =>
    unfold frameProcessorErasures at h
    rw [emptySlots_succ]
    cases hslot : s.unitSlots[i]? with
    | none =>
      rw [hslot] at h
      cases h
    | some dataSize =>
      rw [hslot] at h
      simp only [Option.some.injEq] at h ⊢
      by_cases hfull : dataSize = 0
      · rw [if_neg (fun hne => hne hfull)] at h
        rw [if_pos hfull]
        split at h
        · cases h
        · rw [ih h, List.append_assoc, List.singleton_append]
      · rw [if_pos hfull] at h
        rw [if_neg hfull]
        exact ih h

theorem u16At_slice (buf : Bytes) {off n : Nat} (hn : 2 ≤ n) : u16At (slice buf off n) 0 = u16At buf off := by
  have hbyte : ∀ i, i < n → u8At (slice buf off n) i = u8At buf (off + i) := fun i hi => by
    rw [u8At, u8At, List.getD_eq_getElem?_getD, List.getD_eq_getElem?_getD, getElem?_slice, if_pos hi]
  rw [u16At, u16At, hbyte 0 (by omega), hbyte (0 + 1) (by omega)]
  rfl

theorem slice_slice {off n m : Nat} (h : m ≤ n) : (slice buf off n).take m = slice buf off m := by
  rw [slice, slice, List.take_take, Nat.min_eq_left h]

/-- A unit that was accepted is not missing, and one that was not is. -/
theorem HoldsAccepted.slot_eq_zero {accepted : List TakionAVUnit} (h : HoldsAccepted s accepted) {i : Nat}
    (hi : i < s.unitSlotsSize) : s.unitSlots[i]? = some 0 ↔ storedUnit accepted i = [] := by
  rw [(h.units i hi).1, Option.some.injEq, List.length_eq_zero_iff]

theorem exists_of_storedUnit {accepted : List TakionAVUnit} {i : Nat} (h : storedUnit accepted i ≠ []) :
    ∃ u ∈ accepted, u.packet.unitIndex = i ∧ storedUnit accepted i = u.bytes := by
  unfold storedUnit at h ⊢
  cases hfind : accepted.find? fun u => u.packet.unitIndex == i with
  | none =>
    rw [hfind] at h
    exact absurd rfl h
  | some u =>
    refine ⟨u, List.mem_of_find?_eq_some hfind, ?_, rfl⟩
    have hindex := List.find?_some hfind
    exact beq_iff_eq.mp hindex

/-- The source units that were accepted are what was sent. -/
def AcceptedAsSent (n : Nat) (accepted : List TakionAVUnit) (sent : Nat → Bytes) : Prop :=
  ∀ u ∈ accepted, u.packet.unitIndex < n → u.bytes = sent u.packet.unitIndex

/-- **Restored units are as they were sent.** -/
theorem HoldsAccepted.restored {accepted : List TakionAVUnit} {sent : Nat → Bytes} {mem : Bool}
    (h : HoldsAccepted s accepted) (hfec : frameProcessorFec jerasure s mem = .ok (s', .success))
    (hsent : SentUnits s sent) (haccepted : AcceptedAsSent s.unitsSourceExpected accepted sent)
    (hdecodes : DecodesAsSent jerasure s sent) : HoldsSource s' sent := by
  rcases frameProcessorFec_outcome hfec with ⟨-, hne⟩ | ⟨-, erasures, buf, slots, herasures, hdecode,
    hrestore, rfl⟩
  · exact absurd rfl hne
  obtain ⟨hstride, hfit, units, hunits, hbuf⟩ := fecDecode_length hdecode
  rw [frameProcessorErasures_ok herasures, List.nil_append] at hunits
  intro i hi
  replace hi : i < s.unitsSourceExpected := hi
  have hexpected := h.wf.expected
  obtain ⟨htwo, hpadding⟩ := hsent i hi
  have hsizes : ∀ unit ∈ units, unit.length = s.bufSizePerUnit := by
    intro unit hunit
    have hlen : unit.length ∈ units.map List.length := List.mem_map.mpr ⟨unit, hunit, rfl⟩
    rw [jerasure.length_decode _ _ _ _ _ hunits, List.map_map] at hlen
    obtain ⟨j, hj, hlen⟩ := List.mem_map.mp hlen
    rw [← hlen]
    exact length_slice (hfit j (List.mem_range.mp hj))
  -- the whole place of the unit after decoding
  have hplace := slice_foldl_splice hsizes hstride (fecDecode_units_fit hfit hunits) i
  rw [← hbuf, if_pos (Nat.zero_le i), Nat.sub_zero, hdecodes units hunits i hi] at hplace
  have hdata : slice buf (s.bufStridePerUnit * i) (sent i).length = sent i := by
    rw [← slice_slice (show (sent i).length ≤ s.bufSizePerUnit by omega), hplace]
    split
    · rw [Option.getD_some, List.take_left]
    · next hfull =>
      rw [h.slot_eq_zero (by omega)] at hfull
      obtain ⟨u, hu, hui, hstored⟩ := exists_of_storedUnit hfull
      have hsame : storedUnit accepted i = sent i := by
        rw [hstored, haccepted u hu (by rw [hui]; exact hi), hui]
      have hunit : (frameUnits s)[i]? = some (slice s.frameBuf (s.bufStridePerUnit * i) s.bufSizePerUnit) := by
        rw [frameUnits, List.getElem?_map, List.getElem?_range (by omega)]
        rfl
      rw [hunit, Option.getD_some, slice_slice (by omega), Nat.mul_comm, ← hsame]
      exact (h.units i (by omega)).2
  refine ⟨?_, ?_⟩
  · have hrestored : restoredSize { s with frameBuf := buf } i = some (sent i).length := by
      unfold restoredSize
      simp only
      rw [← u16At_slice _ htwo, hdata, if_pos (by omega), ← hpadding, Nat.add_sub_cancel]
    rw [(frameProcessorRestore_slots hrestore).2 i, if_pos ⟨Nat.zero_le i, by omega⟩, hrestored,
      Option.some_or]
  · rw [Nat.mul_comm]
    exact hdata

/-! ## The whole frame -/

/-- No source unit was lost. -/
def NoneLost (n : Nat) (accepted : List TakionAVUnit) : Prop :=
  ∀ i, i < n → ∃ u ∈ accepted, u.packet.unitIndex = i

theorem HoldsAccepted.storedUnit_ne {accepted : List TakionAVUnit} (h : HoldsAccepted s accepted) {i : Nat}
    (hi : ∃ u ∈ accepted, u.packet.unitIndex = i) : storedUnit accepted i ≠ [] := by
  obtain ⟨u, hu, hui⟩ := hi
  unfold storedUnit
  cases hfind : accepted.find? fun u => u.packet.unitIndex == i with
  | none =>
    have hnone := List.find?_eq_none.mp hfind u hu
    rw [beq_iff_eq] at hnone
    exact absurd hui hnone
  | some v => exact h.filled v (List.mem_of_find?_eq_some hfind)

theorem HoldsAccepted.stored_sent {accepted : List TakionAVUnit} {sent : Nat → Bytes}
    (h : HoldsAccepted s accepted) (haccepted : AcceptedAsSent s.unitsSourceExpected accepted sent)
    (hnone : NoneLost s.unitsSourceExpected accepted) :
    ∀ i, i < s.unitsSourceExpected → storedUnit accepted i = sent i := by
  intro i hi
  obtain ⟨u, hu, hui, hstored⟩ := exists_of_storedUnit (h.storedUnit_ne (hnone i hi))
  rw [hstored, haccepted u hu (by rw [hui]; exact hi), hui]

/-- Nothing is decoded unless a source unit was lost. -/
theorem HoldsAccepted.complete {accepted : List TakionAVUnit} (h : HoldsAccepted s accepted)
    (hnone : NoneLost s.unitsSourceExpected accepted) :
    ¬ s.unitsSourceReceived < s.unitsSourceExpected := by
  have hexpected := h.wf.expected
  have hsub : Finset.range s.unitsSourceExpected ⊆ s.sourceSlots := by
    intro i hi
    have hi := Finset.mem_range.mp hi
    refine mem_occupiedSlots.mpr ⟨by rw [h.wf.slots]; omega, ?_, hi⟩
    rw [ne_eq, h.slot_eq_zero (by omega)]
    exact h.storedUnit_ne (hnone i hi)
  have hcard := Finset.card_le_card hsub
  rw [Finset.card_range] at hcard
  rw [show s.unitsSourceReceived = s.sourceSlots.card from h.counted.source rfl]
  exact Nat.not_lt.mpr hcard

theorem HoldsAccepted.holdsSource {accepted : List TakionAVUnit} (h : HoldsAccepted s accepted) :
    HoldsSource s (storedUnit accepted) := fun i hi =>
  h.units i (Nat.lt_of_lt_of_le hi (Nat.le_trans (Nat.le_add_right _ _) h.wf.expected))

/-- The assertions hold and every access is inside of the arrays. -/
theorem HoldsAccepted.flush_ok {accepted : List TakionAVUnit} (h : HoldsAccepted s accepted) (mem : Bool) :
    ∃ s' result n, frameProcessorFlush jerasure s mem = .ok (s', result, n) := by
  have hexpected := h.wf.expected
  rw [← h.wf.slots] at hexpected
  cases hflush : frameProcessorFlush jerasure s mem with
  | error f =>
    have hasserts := (@frameProcessorFlush_spec jerasure s h.wf mem).1 f hflush
    have houtOfBounds := frameProcessorFlush_outOfBounds (fun _ => h.counted.erasures hexpected) f hflush
    rw [hasserts] at houtOfBounds
    cases houtOfBounds
  | ok x => exact ⟨x.1, x.2.1, x.2.2, rfl⟩

/-- What the flush of a frame returns. -/
structure FrameAssembled (jerasure : Jerasure) (s : FrameProcessor) (accepted : List TakionAVUnit)
    (result : FrameFlushResult) (frame : Bytes) : Prop where
  returned : result ≠ .failed
  stored : result ≠ .fecSuccess → frame = sourceData s.unitsSourceExpected (storedUnit accepted)
  sent : ∀ sent, SentUnits s sent → AcceptedAsSent s.unitsSourceExpected accepted sent →
    result = .fecSuccess ∧ DecodesAsSent jerasure s sent ∨ NoneLost s.unitsSourceExpected accepted →
    frame = sourceData s.unitsSourceExpected sent

theorem HoldsAccepted.flush {accepted : List TakionAVUnit} {mem : Bool} {result : FrameFlushResult} {n : Nat}
    (h : HoldsAccepted s accepted) (hsource : s.unitsSourceExpected ≠ 0)
    (hflush : frameProcessorFlush jerasure s mem = .ok (s', result, n)) :
    FrameAssembled jerasure s accepted result (s'.frameBuf.take n) := by
  rcases frameProcessorFlush_eq_ok.mp hflush with ⟨hnone, -⟩ | ⟨-, s1, buf, hdecoded, hcompact, rfl⟩
  · rcases hnone with hzero | hflushed
    · exact absurd hzero hsource
    · rw [h.building] at hflushed
      cases hflushed
  refine ⟨hdecoded.ne_failed, fun hresult => ?_, fun sent hsent haccepted hall => ?_⟩
  · have hsame : s1 = s := by
      cases hdecoded with
      | complete => rfl
      | fec _ hfec =>
        rcases frameProcessorFec_outcome hfec with ⟨hsame, -⟩ | ⟨rfl, -⟩
        · exact hsame
        · exact absurd (if_pos rfl) hresult
    subst hsame
    exact h.holdsSource.compact h.wf hcompact
  · cases hdecoded with
    | complete =>
      have hnone := hall.resolve_left fun hfec => FrameFlushResult.noConfusion hfec.1
      rw [h.holdsSource.compact h.wf hcompact]
      exact sourceData_congr fun i hi => (h.stored_sent haccepted hnone i hi).symm ▸ rfl
    | @fec _ err hless hfec =>
      obtain ⟨hresult, hdecodes⟩ := hall.resolve_right fun hnone => h.complete hnone hless
      have herr : err = .success := by
        by_contra herr
        rw [if_neg herr] at hresult
        cases hresult
      subst herr
      have hwf := (frameProcessorFec_spec h.wf mem).2 _ _ hfec
      have hsame : s1.unitsSourceExpected = s.unitsSourceExpected := by
        obtain ⟨_, _, rfl⟩ := (FlushDecoded.fec hless hfec).keep
        rfl
      rw [(h.restored hfec hsent haccepted hdecodes).compact hwf hcompact, hsame]

/-- The frame is inside of the buffer. -/
theorem frameProcessorFlush_le {mem : Bool} {result : FrameFlushResult} {n : Nat}
    (h : frameProcessorFlush jerasure s mem = .ok (s', result, n)) : n ≤ s'.frameBuf.length := by
  rcases frameProcessorFlush_eq_ok.mp h with ⟨-, -, -, rfl⟩ | ⟨-, s1, buf, -, hcompact, rfl⟩
  · exact Nat.zero_le _
  · exact frameProcessorCompact_le hcompact (Nat.zero_le _)

/--
**A flushed frame is the data of its source units**, in their order and each without its first two
bytes: of the units that were accepted, in whatever order they came, and if decoding restores those
that are missing, of all units that were sent, as if none had been lost.
-/
theorem frameProcessor_assembles {r : FrameProcessorRun} {first : TakionAVUnit} {us : List TakionAVUnit}
    {slotsMem frameMem mem : Bool} (hr : (frameProcessorLts jerasure).Reachable r)
    (halloc : frameProcessorAllocFrame r.proc first slotsMem frameMem = .ok (s, .success))
    (hsource : s.unitsSourceExpected ≠ 0)
    (hunits : ∀ u ∈ us, u.packet.unitIndex < s.unitsSourceExpected + s.unitsFecExpected) :
    ∃ s1 accepted s2 result n, putUnits s us = .ok (s1, accepted) ∧
      frameProcessorFlush jerasure s1 mem = .ok (s2, result, n) ∧ n ≤ s2.frameBuf.length ∧
      SameFrame s s1 ∧ FrameAssembled jerasure s1 accepted result (s2.frameBuf.take n) := by
  have h := HoldsAccepted.start (frameProcessorAlloc_reachable hr) halloc
  obtain ⟨s1, accepted, hput, h1, hsame⟩ := h.putUnits hunits
  rw [List.nil_append] at h1
  obtain ⟨s2, result, n, hflush⟩ := @HoldsAccepted.flush_ok jerasure s1 accepted h1 mem
  exact ⟨s1, accepted, s2, result, n, hput, hflush, frameProcessorFlush_le hflush, hsame,
    h1.flush (by rw [hsame.source]; exact hsource) hflush⟩

/-! ### Runs -/

/-- With one source unit and one FEC unit, these are the same. -/
def copyJerasure : Jerasure where
  decode k m erasures units :=
    match units with
    | [data, coding] =>
      if k = 1 ∧ m = 1 ∧ data.length = coding.length then
        match erasures with
        | [] => some [data, coding]
        | [0] => some [coding, coding]
        | [1] => some [data, data]
        | _ => none
      else none
    | _ => none
  length_decode := by
    intro k m erasures units units' h
    split at h
    · split at h
      · next hlen =>
        split at h <;> cases h <;> simp [hlen.2.2]
      · cases h
    · cases h

/-- The FEC unit of a frame whose only source unit is lost. -/
def lostSource : TakionAVUnit := exampleUnit 1 2 1 [0, 1, 7, 0]

/-- The frame processor with that unit. -/
def lostSourceFrame : FrameProcessor :=
  { frameAllocated frameProcessorInit lostSource with
    unitSlots := [0, 4]
    unitsFecReceived := 1
    frameBuf := splice (frameAllocated frameProcessorInit lostSource).frameBuf 16 lostSource.bytes }

theorem frameProcessor_assembles_lostSource : ∃ s s1 s2 n,
    frameProcessorAllocFrame frameProcessorInit lostSource true true = .ok (s, .success) ∧
    putUnits s [lostSource] = .ok (s1, [lostSource]) ∧
    frameProcessorFlush copyJerasure s1 true = .ok (s2, .fecSuccess, n) ∧ s2.frameBuf.take n = [7] := by
  have halloc : frameProcessorAllocFrame frameProcessorInit lostSource true true
      = .ok (frameAllocated frameProcessorInit lostSource, .success) := rfl
  have hput : putUnits (frameAllocated frameProcessorInit lostSource) [lostSource]
      = .ok (lostSourceFrame, [lostSource]) := rfl
  have hr : (frameProcessorLts copyJerasure).Reachable emptyFrameProcessor := .init rfl
  obtain ⟨s1, accepted, s2, result, n, hput', hflush, -, -, hframe⟩ :=
    @frameProcessor_assembles copyJerasure _ _ _ [lostSource] _ _ true hr halloc (by decide) (by decide)
  rw [hput] at hput'
  cases hput'
  -- decoding gives the FEC unit for the one that was lost
  have hdecode : copyJerasure.decode 1 1 (emptySlots lostSourceFrame 0 2) (frameUnits lostSourceFrame)
      = some [[0, 1, 7, 0], [0, 1, 7, 0]] := by
    decide +kernel
  have hresult : (frameProcessorFlush copyJerasure lostSourceFrame true).map (fun x => x.2.1)
      = .ok .fecSuccess := by
    rfl
  rw [hflush] at hresult
  cases hresult
  have hone : ∀ i, i < 1 → i = 0 := fun i hi => Nat.lt_one_iff.mp hi
  have hseven := hframe.sent (fun _ => [0, 1, 7]) ?_ ?_ (Or.inl ⟨rfl, ?_⟩)
  · exact ⟨_, _, s2, n, halloc, hput, hflush, hseven⟩
  · have hsize : 3 + u16At [0, 1, 7] 0 = lostSourceFrame.bufSizePerUnit := by decide +kernel
    exact fun i _ => ⟨Nat.le_succ 2, hsize⟩
  · intro u hu hless
    rw [List.mem_singleton.mp hu] at hless
    exact absurd hless (by decide)
  · intro units hunits i hi
    have hunits := hdecode.symm.trans hunits
    cases hunits
    cases hone i hi
    rfl

/-- The only unit of a frame without source units. -/
def fecOnly : TakionAVUnit := exampleUnit 0 1 1 [0, 0, 7]

/-- **A frame without source units is allocated but not flushed.** -/
theorem not_frameProcessor_assembles : ∃ s s1,
    frameProcessorAllocFrame frameProcessorInit fecOnly true true = .ok (s, .success) ∧
    putUnits s [fecOnly] = .ok (s1, [fecOnly]) ∧
    frameProcessorFlush noJerasure s1 true = .ok (s1, .failed, 0) ∧
    ¬ FrameAssembled noJerasure s1 [fecOnly] .failed [] := by
  have halloc : frameProcessorAllocFrame frameProcessorInit fecOnly true true
      = .ok (frameAllocated frameProcessorInit fecOnly, .success) := rfl
  exact ⟨_, _, halloc, rfl, rfl, fun h => h.returned rfl⟩

/-! ## After the flush -/

/-- Units that come late do not change the buffer, and the frame is not flushed again. -/
def StaysFlushed (jerasure : Jerasure) (s : FrameProcessor) : Prop :=
  ∀ us s' accepted mem, putUnits s us = .ok (s', accepted) →
    s'.frameBuf = s.frameBuf ∧ ∃ s'' n, frameProcessorFlush jerasure s' mem = .ok (s'', .failed, n)

/-- The frame is flushed whenever it is asked for. -/
structure FlushesAgain (s : FrameProcessor) : Prop where
  source : s.unitsSourceExpected ≠ 0
  building : s.flushed = false

theorem FlushesAgain.ne_failed {mem : Bool} {result : FrameFlushResult} {n : Nat} (h : FlushesAgain s)
    (hflush : frameProcessorFlush jerasure s mem = .ok (s', result, n)) : result ≠ .failed := by
  rcases frameProcessorFlush_eq_ok.mp hflush with ⟨hnone, -⟩ | ⟨-, s1, buf, hdecoded, -⟩
  · rcases hnone with hzero | hflushed
    · exact absurd hzero h.source
    · rw [h.building] at hflushed
      cases hflushed
  · exact hdecoded.ne_failed

theorem FlushesAgain.of_flush {mem : Bool} {result : FrameFlushResult} {n : Nat}
    (hflush : frameProcessorFlush jerasure s mem = .ok (s', result, n)) (hresult : result ≠ .failed) :
    FlushesAgain s' := by
  have hopen : ¬ (s.unitsSourceExpected = 0 ∨ s.flushed = true) := by
    rcases frameProcessorFlush_eq_ok.mp hflush with ⟨-, -, hfailed, -⟩ | ⟨hopen, -⟩
    · exact absurd hfailed hresult
    · exact hopen
  obtain ⟨buf, stats, slots, rfl, -⟩ := frameProcessorFlush_slots hflush
  rw [not_or, Bool.not_eq_true] at hopen
  exact ⟨hopen.1, hopen.2⟩

theorem FlushesAgain.put (h : FlushesAgain s) (hput : frameProcessorPutUnit s u = .ok (s', err)) :
    FlushesAgain s' := by
  cases frameProcessorPutUnit_outcome hput with
  | refused => exact h
  | accepted => exact ⟨h.source, h.building⟩

theorem FlushesAgain.putUnits {us accepted : List TakionAVUnit} (h : FlushesAgain s)
    (hput : Chiaki.putUnits s us = .ok (s', accepted)) : FlushesAgain s' := by
  induction us generalizing s accepted with
  | nil =>
    cases hput
    exact h
  | cons u us ih =>
    obtain ⟨⟨s1, err⟩, hu, hput⟩ := bind_eq_ok_iff.mp hput
    obtain ⟨⟨s2, more⟩, hmore, hput⟩ := bind_eq_ok_iff.mp hput
    cases hput
    exact ih (h.put hu) hmore

/-- A unit that is accepted is written to its place. -/
theorem FlushesAgain.written (h : FlushesAgain s) (hput : frameProcessorPutUnit s u = .ok (s', .success)) :
    slice s'.frameBuf (u.packet.unitIndex * s.bufStridePerUnit) u.bytes.length = u.bytes := by
  cases frameProcessorPutUnit_outcome hput with
  | refused _ herr => exact absurd rfl herr
  | accepted _ _ hin =>
    simp only [h.building, Bool.false_eq_true, if_false]
    exact slice_splice rfl (hin.resolve_left (by rw [h.building]; exact Bool.false_ne_true))

/-- **No flushed frame stays flushed**: whatever comes late, a further flush never returns that there
is no frame, and the data of a late unit that is accepted is written to the buffer. -/
theorem frameProcessor_flushedAgain {mem : Bool} {result : FrameFlushResult} {n : Nat}
    (hflush : frameProcessorFlush jerasure s mem = .ok (s', result, n)) (hresult : result ≠ .failed) :
    ¬ StaysFlushed jerasure s' ∧
      ∀ us s1 accepted, putUnits s' us = .ok (s1, accepted) →
        (∀ mem s2 result2 m, frameProcessorFlush jerasure s1 mem = .ok (s2, result2, m) →
          result2 ≠ .failed) ∧
        ∀ u s2, frameProcessorPutUnit s1 u = .ok (s2, .success) →
          slice s2.frameBuf (u.packet.unitIndex * s1.bufStridePerUnit) u.bytes.length = u.bytes := by
  have hagain : FlushesAgain s' := .of_flush hflush hresult
  refine ⟨fun hstays => ?_, fun us s1 accepted hput => ⟨fun _ _ _ _ hflush1 => ?_, fun _ _ hput1 => ?_⟩⟩
  · obtain ⟨-, s2, m, hflush2⟩ := hstays [] s' [] mem rfl
    exact hagain.ne_failed hflush2 rfl
  · exact (hagain.putUnits hput).ne_failed hflush1
  · exact (hagain.putUnits hput).written hput1

/-- The source units of a frame. -/
def sourceUnits : List FrameProcessorLabel :=
  [.allocFrame (exampleUnit 0 3 1 [0, 0, 1, 2, 3]) true true, .putUnit (exampleUnit 0 3 1 [0, 0, 1, 2, 3]),
    .putUnit (exampleUnit 1 3 1 [0, 0, 4, 5, 6])]

/-- The FEC unit of the frame, which comes late. -/
def lateUnit : TakionAVUnit := exampleUnit 2 3 1 [0, 0, 9]

/-- The frame that a flush returns, with the result. -/
def flushOf (s : FrameProcessor) : Option (FrameFlushResult × Bytes) :=
  (frameProcessorFlush noJerasure s true).toOption.map fun x => (x.2.1, x.1.frameBuf.take x.2.2)

theorem flushOf_eq_some {result : FrameFlushResult} {frame : Bytes} (h : flushOf s = some (result, frame)) :
    ∃ s' n, frameProcessorFlush noJerasure s true = .ok (s', result, n) ∧ s'.frameBuf.take n = frame := by
  unfold flushOf at h
  cases hflush : frameProcessorFlush noJerasure s true with
  | error f =>
    rw [hflush] at h
    cases h
  | ok x =>
    obtain ⟨s', result', n⟩ := x
    rw [hflush] at h
    cases h
    exact ⟨s', n, rfl, rfl⟩

theorem sourceUnits_run :
    (Lts.runFun (frameProcessorStep noJerasure) emptyFrameProcessor sourceUnits).map
        (fun r => flushOf r.proc) = some (some (.success, [1, 2, 3, 4, 5, 6])) := by
  decide +kernel

theorem frameProcessor_flushedAgain_sourceUnits : ∃ s s' n,
    frameProcessorFlush noJerasure s true = .ok (s', .success, n) ∧
    s'.frameBuf.take n = [1, 2, 3, 4, 5, 6] ∧ ¬ StaysFlushed noJerasure s' := by
  obtain ⟨r, -, hobs⟩ := Option.map_eq_some_iff.mp sourceUnits_run
  obtain ⟨s', n, hflush, hframe⟩ := flushOf_eq_some hobs
  exact ⟨r.proc, s', n, hflush, hframe,
    (frameProcessor_flushedAgain hflush FrameFlushResult.noConfusion).1⟩

/-- The place of the late unit after it is put. -/
def latePlace (s : FrameProcessor) : Option Bytes :=
  (putUnits s [lateUnit]).toOption.map fun x => slice x.1.frameBuf 32 3

theorem latePlace_eq_some {place : Bytes} (h : latePlace s = some place) :
    ∃ s' accepted, putUnits s [lateUnit] = .ok (s', accepted) ∧ slice s'.frameBuf 32 3 = place := by
  unfold latePlace at h
  cases hput : putUnits s [lateUnit] with
  | error f =>
    rw [hput] at h
    cases h
  | ok x =>
    rw [hput] at h
    cases h
    exact ⟨x.1, x.2, rfl, rfl⟩

/-- What a flush returns after the late unit was put. -/
def lateFlush (s : FrameProcessor) : Option (FrameFlushResult × Bytes) :=
  (putUnits s [lateUnit]).toOption.bind fun x => flushOf x.1

theorem lateUnit_run :
    (Lts.runFun (frameProcessorStep noJerasure) emptyFrameProcessor (sourceUnits ++ [.flush true])).map
        (fun r => decide (r.proc.frameBuf.take 6 = [1, 2, 3, 4, 5, 6])
          && decide (slice r.proc.frameBuf 32 3 = [0, 0, 0]) && decide (latePlace r.proc = some [0, 0, 9])
          && decide (lateFlush r.proc = some (.success, [3, 4, 5, 4, 5, 6]))) = some true := by
  decide +kernel

/-- **A late unit is written to the buffer of a flushed frame, and the next flush makes another frame
of it.** -/
theorem not_frameProcessor_staysFlushed : ∃ r : FrameProcessorRun,
    (frameProcessorLts noJerasure).Reachable r ∧
    Lts.runFun (frameProcessorStep noJerasure) emptyFrameProcessor (sourceUnits ++ [.flush true]) = some r ∧
    r.proc.frameBuf.take 6 = [1, 2, 3, 4, 5, 6] ∧
    (∃ s accepted, putUnits r.proc [lateUnit] = .ok (s, accepted) ∧ s.frameBuf ≠ r.proc.frameBuf) ∧
    lateFlush r.proc = some (.success, [3, 4, 5, 4, 5, 6]) ∧ ¬ StaysFlushed noJerasure r.proc := by
  obtain ⟨r, hrun, hobs⟩ := Option.map_eq_some_iff.mp lateUnit_run
  simp only [Bool.and_eq_true, decide_eq_true_eq] at hobs
  obtain ⟨⟨⟨hframe, hempty⟩, hplace⟩, hagain⟩ := hobs
  obtain ⟨s, accepted, hput, hwritten⟩ := latePlace_eq_some hplace
  have hne : s.frameBuf ≠ r.proc.frameBuf := fun hsame => by
    rw [hsame, hempty] at hwritten
    exact absurd hwritten (by decide)
  exact ⟨r, Lts.Reachable.runFun (.init rfl) hrun, hrun, hframe, ⟨s, accepted, hput, hne⟩, hagain,
    fun hstays => hne (hstays [lateUnit] s accepted true hput).1⟩

end Chiaki
