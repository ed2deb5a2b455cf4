import Chiaki.Properties.VideoReceiver.Assembly
import Mathlib.Order.Interval.Finset.Nat

/-!
# The counters of the frame processor

`frameCounters_match`: the units that were received are those in the slots, until decoding restores
the sizes of the others.

* A frame that cannot be allocated may leave the slots or even the counters of the frame before
  (`not_frameCounters_match`).
-/

namespace Chiaki

open Infra

variable {jerasure : Jerasure} {s s' : FrameProcessor} {u : TakionAVUnit} {err : ErrorCode}

/-! ## What the calls do to the slots -/

/-- The units of the frame are too small, which is found out before the counters are cleared. -/
def allocTooSmall (u : TakionAVUnit) : Bool :=
  let source := u.packet.unitsInFrameTotal - u.packet.unitsInFrameFec
  u.hasExtension source && decide (u.packet.dataSize < 2) ||
    decide (u.packet.dataSize + (if u.hasExtension source then u16At u.bytes 0 else 0) = 0)

/-- The frame has more units than there can be slots. -/
def allocTooMany (u : TakionAVUnit) : Bool :=
  decide (u.packet.unitsInFrameTotal - u.packet.unitsInFrameFec + max u.packet.unitsInFrameFec 1
    > unitSlotsMax)

/-- The frame processor expects the frame of a packet. -/
structure ExpectsFrame (u : TakionAVUnit) (s : FrameProcessor) : Prop where
  source : s.unitsSourceExpected = u.packet.unitsInFrameTotal - u.packet.unitsInFrameFec
  fec : s.unitsFecExpected = max u.packet.unitsInFrameFec 1

/-- What becomes of a frame that is allocated, or not. -/
inductive AllocOutcome (s : FrameProcessor) (u : TakionAVUnit) : FrameProcessor → ErrorCode → Prop
  | refused (h : u.packet.unitsInFrameTotal < u.packet.unitsInFrameFec) :
      AllocOutcome s u s .invalidData
  | small {s' : FrameProcessor} (h : allocTooSmall u = true) (expects : ExpectsFrame u s')
      (slots : s'.unitSlots = s.unitSlots) (size : s'.unitSlotsSize = s.unitSlotsSize)
      (source : s'.unitsSourceReceived = s.unitsSourceReceived)
      (fec : s'.unitsFecReceived = s.unitsFecReceived) : AllocOutcome s u s' .bufTooSmall
  | many {s' : FrameProcessor} (small : allocTooSmall u = false) (h : allocTooMany u = true)
      (expects : ExpectsFrame u s')
      (slots : s'.unitSlots = s.unitSlots) (size : s'.unitSlotsSize = s.unitSlotsSize)
      (source : s'.unitsSourceReceived = 0) (fec : s'.unitsFecReceived = 0) :
      AllocOutcome s u s' .invalidData
  | cleared {s' : FrameProcessor} {err : ErrorCode} (small : allocTooSmall u = false)
      (many : allocTooMany u = false) (expects : ExpectsFrame u s')
      (slots : s'.unitSlots = List.replicate s'.unitSlotsSize 0)
      (size : s'.unitSlotsSize = s'.unitsSourceExpected + s'.unitsFecExpected ∨
        s'.unitSlotsSize = 0 ∧ err ≠ .success)
      (source : s'.unitsSourceReceived = 0) (fec : s'.unitsFecReceived = 0) : AllocOutcome s u s' err

/-- Making room in `frame_buf` changes nothing else. -/
theorem frameProcessorAllocBuf_eq {mem : Bool} (h : frameProcessorAllocBuf s mem = .ok (s', err)) :
    ∃ buf size, s' = { s with frameBuf := buf, frameBufSize := size } := by
  unfold frameProcessorAllocBuf at h
  split at h
  · cases h
    exact ⟨_, _, rfl⟩
  · simp only at h
    split at h
    · split at h <;> cases h <;> exact ⟨_, _, rfl⟩
    · split at h
      · cases h
      · cases h
        exact ⟨_, _, rfl⟩

theorem frameProcessorAllocSlots_outcome {slotsMem frameMem : Bool} (hexpects : ExpectsFrame u s)
    (hsource : s.unitsSourceReceived = 0) (hfec : s.unitsFecReceived = 0)
    (hsmall : allocTooSmall u = false)
    (h : frameProcessorAllocSlots s slotsMem frameMem = .ok (s', err)) : AllocOutcome s u s' err := by
  unfold frameProcessorAllocSlots at h
  simp only at h
  have hmany : allocTooMany u = decide (s.unitsSourceExpected + s.unitsFecExpected > unitSlotsMax) := by
    rw [allocTooMany, hexpects.source, hexpects.fec]
  split at h
  · next hbig =>
    cases h
    exact .many hsmall (by rw [hmany]; exact decide_eq_true hbig) hexpects rfl rfl hsource hfec
  · next hfits =>
    have hmany : allocTooMany u = false := by
      rw [hmany]
      exact decide_eq_false hfits
    split at h
    · split at h
      · obtain ⟨buf, size, rfl⟩ := frameProcessorAllocBuf_eq h
        exact .cleared hsmall hmany ⟨hexpects.source, hexpects.fec⟩ rfl (Or.inl rfl) hsource hfec
      · cases h
        exact .cleared hsmall hmany ⟨hexpects.source, hexpects.fec⟩ rfl (Or.inr ⟨rfl, ErrorCode.noConfusion⟩)
          hsource hfec
    · next hsame =>
      split at h
      · cases h
      · obtain ⟨buf, size, rfl⟩ := frameProcessorAllocBuf_eq h
        exact .cleared hsmall hmany ⟨hexpects.source, hexpects.fec⟩ rfl
          (Or.inl (Decidable.not_not.mp hsame).symm) hsource hfec

/-- **Allocating a frame** has one of four outcomes. -/
theorem frameProcessorAllocFrame_outcome {slotsMem frameMem : Bool}
    (h : frameProcessorAllocFrame s u slotsMem frameMem = .ok (s', err)) : AllocOutcome s u s' err := by
  unfold frameProcessorAllocFrame at h
  simp only at h
  have hmax : (if u.packet.unitsInFrameFec < 1 then 1 else u.packet.unitsInFrameFec)
      = max u.packet.unitsInFrameFec 1 := by
    split <;> omega
  rw [hmax] at h
  by_cases hless : u.packet.unitsInFrameTotal < u.packet.unitsInFrameFec
  · rw [if_pos hless] at h
    cases h
    exact .refused hless
  rw [if_neg hless] at h
  generalize hshort : (u.hasExtension (u.packet.unitsInFrameTotal - u.packet.unitsInFrameFec)
    && decide (u.packet.dataSize < 2)) = short at h
  generalize hbuf : (u.packet.dataSize + if u.hasExtension (u.packet.unitsInFrameTotal
    - u.packet.unitsInFrameFec) then u16At u.bytes 0 else 0) = bufSize at h
  have hsmall : allocTooSmall u = (short || decide (bufSize = 0)) := by
    rw [allocTooSmall, hshort, hbuf]
  cases short with
  | true =>
    rw [if_pos rfl] at h
    cases h
    exact .small hsmall ⟨rfl, rfl⟩ rfl rfl rfl rfl
  | false =>
    rw [if_neg Bool.false_ne_true] at h
    rw [Bool.false_or] at hsmall
    by_cases hempty : bufSize = 0
    · rw [if_pos hempty] at h
      cases h
      rw [decide_eq_true hempty] at hsmall
      exact .small hsmall ⟨rfl, rfl⟩ rfl rfl rfl rfl
    · rw [if_neg hempty] at h
      rw [decide_eq_false hempty] at hsmall
      have houtcome := frameProcessorAllocSlots_outcome ⟨rfl, rfl⟩ rfl rfl hsmall h
      -- the slots and their number are those from before
      cases houtcome with
      | refused hrefused => exact absurd hrefused hless
      | small hsmall' => rw [hsmall] at hsmall'; cases hsmall'
      | many _ hmany expects slots size source fec =>
        exact .many hsmall hmany expects slots size source fec
      | cleared _ hmany expects slots size source fec =>
        exact .cleared hsmall hmany expects slots size source fec

theorem frameProcessorAllocBuf_success {mem : Bool} (h : frameProcessorAllocBuf s mem = .ok (s', .success)) :
    s.unitSlotsSize ≤ (2 ^ 64 - 1) / s.bufStridePerUnit ∧
      (mem = true ∨ s.unitSlotsSize * s.bufStridePerUnit ≤ s.frameBufSize) := by
  unfold frameProcessorAllocBuf at h
  split at h
  · cases h
  · next hover =>
    refine ⟨Nat.not_lt.mp hover, ?_⟩
    simp only at h
    split at h
    · cases mem with
      | true => exact Or.inl rfl
      | false => cases h
    · next hlarge => exact Or.inr (Nat.not_lt.mp hlarge)

theorem frameProcessorAllocSlots_success {slotsMem frameMem : Bool} {required : Nat}
    (hrequired : s.unitsSourceExpected + s.unitsFecExpected = required)
    (h : frameProcessorAllocSlots s slotsMem frameMem = .ok (s', .success)) :
    required ≤ unitSlotsMax ∧ required ≤ (2 ^ 64 - 1) / s.bufStridePerUnit ∧
      (slotsMem = true ∨ required = s.unitSlotsSize) ∧
      (frameMem = true ∨ required * s.bufStridePerUnit ≤ s.frameBufSize) := by
  unfold frameProcessorAllocSlots at h
  simp only [hrequired] at h
  split at h
  · cases h
  · next hmany =>
    refine ⟨Nat.not_lt.mp hmany, ?_⟩
    split at h
    · split at h
      · next hmem =>
        obtain ⟨hover, hbuf⟩ := frameProcessorAllocBuf_success h
        exact ⟨hover, Or.inl hmem, hbuf⟩
      · cases h
    · next hsame =>
      split at h
      · cases h
      · obtain ⟨hover, hbuf⟩ := frameProcessorAllocBuf_success h
        have hsame := Decidable.of_not_not hsame
        rw [hsame]
        exact ⟨hover, Or.inr rfl, hbuf⟩

/-- **A frame that is allocated fits.** -/
theorem frameProcessorAllocFrame_success {slotsMem frameMem : Bool}
    (h : frameProcessorAllocFrame s u slotsMem frameMem = .ok (s', .success)) :
    u.packet.unitsInFrameFec ≤ u.packet.unitsInFrameTotal ∧
      allocFrameFits s u slotsMem frameMem = true := by
  unfold frameProcessorAllocFrame at h
  unfold allocFrameFits
  have hmax : (if u.packet.unitsInFrameFec < 1 then 1 else u.packet.unitsInFrameFec)
      = max u.packet.unitsInFrameFec 1 := by
    split <;> omega
  simp only [hmax] at h ⊢
  by_cases hless : u.packet.unitsInFrameTotal < u.packet.unitsInFrameFec
  · rw [if_pos hless] at h
    cases h
  rw [if_neg hless] at h
  refine ⟨Nat.not_lt.mp hless, ?_⟩
  generalize u.packet.unitsInFrameTotal - u.packet.unitsInFrameFec = source at h ⊢
  generalize u.hasExtension source = ext at h ⊢
  generalize (u.packet.dataSize + if ext then u16At u.bytes 0 else 0) = bufSize at h ⊢
  by_cases hshort : (ext && decide (u.packet.dataSize < 2)) = true
  · rw [if_pos hshort] at h
    cases h
  rw [if_neg hshort] at h
  by_cases hempty : bufSize = 0
  · rw [if_pos hempty] at h
    cases h
  rw [if_neg hempty] at h
  obtain ⟨hslots, hover, hslotsMem, hframeMem⟩ := frameProcessorAllocSlots_success rfl h
  have hext : ext = false ∨ 2 ≤ u.packet.dataSize := by
    rw [Bool.and_eq_true, decide_eq_true_eq, not_and, Nat.not_lt] at hshort
    exact (Bool.eq_false_or_eq_true ext).symm.imp_right hshort
  simp only [Bool.and_eq_true, Bool.or_eq_true, Bool.not_eq_true', decide_eq_true_eq]
  exact ⟨⟨⟨⟨⟨hext, Nat.pos_of_ne_zero hempty⟩, hslots⟩, hover⟩, hslotsMem⟩, hframeMem⟩

/-! ### Slots that are not empty -/

/-- The slots with an index that meets `p` and a unit. -/
def occupiedSlots (slots : List Nat) (p : Nat → Prop) [DecidablePred p] : Finset Nat :=
  (Finset.range slots.length).filter fun j => slots[j]? ≠ some 0 ∧ p j

/-- The source units in the slots. -/
def FrameProcessor.sourceSlots (s : FrameProcessor) : Finset Nat :=
  occupiedSlots s.unitSlots (· < s.unitsSourceExpected)

/-- The FEC units in the slots. -/
def FrameProcessor.fecSlots (s : FrameProcessor) : Finset Nat :=
  occupiedSlots s.unitSlots fun j => s.unitsSourceExpected ≤ j ∧ j < s.unitsSourceExpected + s.unitsFecExpected

section Slots

variable {slots slots' : List Nat} {p q : Nat → Prop} [DecidablePred p] [DecidablePred q] {i j n : Nat}

theorem mem_occupiedSlots : j ∈ occupiedSlots slots p ↔ j < slots.length ∧ slots[j]? ≠ some 0 ∧ p j := by
  rw [occupiedSlots, Finset.mem_filter, Finset.mem_range]

theorem occupiedSlots_congr (hlen : slots'.length = slots.length)
    (h : ∀ j, j < slots.length → ((slots'[j]? ≠ some 0 ∧ q j) ↔ (slots[j]? ≠ some 0 ∧ p j))) :
    occupiedSlots slots' q = occupiedSlots slots p := by
  ext j
  rw [mem_occupiedSlots, mem_occupiedSlots, hlen]
  exact and_congr_right fun hj => h j hj

theorem occupiedSlots_empty (h : ∀ j, j < slots.length → p j → slots[j]? = some 0) :
    occupiedSlots slots p = ∅ := by
  ext j
  rw [mem_occupiedSlots]
  exact iff_of_false (fun hj => hj.2.1 (h j hj.1 hj.2.2)) (Finset.notMem_empty j)

theorem occupiedSlots_subset (hlen : slots'.length = slots.length)
    (h : ∀ j : Nat, slots'[j]? = slots[j]? ∨ slots'[j]? ≠ some 0) :
    occupiedSlots slots p ⊆ occupiedSlots slots' p := by
  intro j hj
  obtain ⟨hj, hslot, hp⟩ := mem_occupiedSlots.mp hj
  refine mem_occupiedSlots.mpr ⟨hlen.symm ▸ hj, ?_, hp⟩
  rcases h j with hsame | hne
  · rw [hsame]
    exact hslot
  · exact hne

/-- No more slots are occupied than there are in the window. -/
theorem card_occupiedSlots_le (h : ∀ j, p j → i ≤ j ∧ j < i + n) : (occupiedSlots slots p).card ≤ n := by
  have hsub : occupiedSlots slots p ⊆ Finset.Ico i (i + n) := fun j hj =>
    Finset.mem_Ico.mpr (h j (mem_occupiedSlots.mp hj).2.2)
  have hcard := Finset.card_le_card hsub
  rwa [Nat.card_Ico, Nat.add_sub_cancel_left] at hcard

theorem occupiedSlots_set (hslot : slots[i]? = some 0) (hn : n ≠ 0) :
    (occupiedSlots (slots.set i n) p).card = (occupiedSlots slots p).card + if p i then 1 else 0 := by
  obtain ⟨hi, -⟩ := List.getElem?_eq_some_iff.mp hslot
  split
  · next hp =>
    have hnew : i ∉ occupiedSlots slots p := fun hmem => (mem_occupiedSlots.mp hmem).2.1 hslot
    rw [← Finset.card_insert_of_notMem hnew]
    congr 1
    ext j
    rw [Finset.mem_insert, mem_occupiedSlots, mem_occupiedSlots, List.length_set]
    by_cases hj : j = i
    · subst hj
      simp [hi, hp, hn]
    · simp [hj, List.getElem?_set_ne (Ne.symm hj)]
  · next hp =>
    have hsame : occupiedSlots (slots.set i n) p = occupiedSlots slots p := by
      refine occupiedSlots_congr List.length_set fun j _ => ?_
      by_cases hj : j = i
      · subst hj
        exact iff_of_false (fun h => hp h.2) fun h => hp h.2
      · rw [List.getElem?_set_ne (Ne.symm hj)]
    rw [hsame, Nat.add_zero]

end Slots

/-- The two kinds of units are those of the whole frame. -/
theorem card_sourceSlots_add_fecSlots (s : FrameProcessor) :
    s.sourceSlots.card + s.fecSlots.card
      = (occupiedSlots s.unitSlots (· < s.unitsSourceExpected + s.unitsFecExpected)).card := by
  rw [FrameProcessor.sourceSlots, FrameProcessor.fecSlots, ← Finset.card_union_of_disjoint]
  · congr 1
    ext j
    simp only [Finset.mem_union, mem_occupiedSlots]
    constructor
    · rintro (⟨hlen, hslot, hless⟩ | ⟨hlen, hslot, -, hless⟩)
      · exact ⟨hlen, hslot, Nat.lt_add_right _ hless⟩
      · exact ⟨hlen, hslot, hless⟩
    · rintro ⟨hlen, hslot, hless⟩
      rcases Nat.lt_or_ge j s.unitsSourceExpected with hsource | hfec
      · exact Or.inl ⟨hlen, hslot, hsource⟩
      · exact Or.inr ⟨hlen, hslot, hfec, hless⟩
  · rw [Finset.disjoint_left]
    intro j hsource hfec
    have hless : j < s.unitsSourceExpected := (mem_occupiedSlots.mp hsource).2.2
    have hle : s.unitsSourceExpected ≤ j := (mem_occupiedSlots.mp hfec).2.2.1
    exact absurd hless (Nat.not_lt.mpr hle)

/-- The empty slots, from slot `i` on. -/
def emptySlots (s : FrameProcessor) (i n : Nat) : List Nat :=
  (List.range' i n).filter fun j => s.unitSlots[j]? = some 0

theorem emptySlots_succ (s : FrameProcessor) (i n : Nat) :
    emptySlots s i (n + 1)
      = if s.unitSlots[i]? = some 0 then i :: emptySlots s (i + 1) n else emptySlots s (i + 1) n := by
  simp only [emptySlots, List.range'_succ, List.filter_cons, decide_eq_true_eq]

/-- The erasures are the empty slots. -/
theorem frameProcessorErasures_eq {count : Nat} : ∀ (n i : Nat) (erasures : List Nat),
    i + n ≤ s.unitSlots.length → erasures.length + (emptySlots s i n).length ≤ count →
    frameProcessorErasures s count n i erasures = .ok (erasures ++ emptySlots s i n) := by
  intro n
  induction n with
  | zero =>
    intro i erasures _ _
    rw [emptySlots, List.range'_zero, List.filter_nil, List.append_nil]
    rfl
  | succ n ih =>
    intro i erasures hle hcount
    have hslot : s.unitSlots[i]? = some s.unitSlots[i] := List.getElem?_eq_getElem (by omega)
    unfold frameProcessorErasures
    rw [emptySlots_succ, hslot] at hcount
    rw [emptySlots_succ, hslot]
    simp only [Option.some.injEq] at hcount ⊢
    by_cases hempty : s.unitSlots[i] = 0
    · rw [if_pos hempty, List.length_cons] at hcount
      rw [if_neg (fun h => h hempty), if_neg (by omega), if_pos hempty, ih (i + 1) _ (by omega)]
      · rw [List.append_assoc, List.singleton_append]
      · rw [List.length_append, List.length_singleton]
        omega
    · rw [if_neg hempty] at hcount
      rw [if_pos hempty, if_neg hempty]
      exact ih (i + 1) erasures (by omega) hcount

/-- As many slots are empty as are not occupied. -/
theorem length_emptySlots {n : Nat} (h : n ≤ s.unitSlots.length) :
    (emptySlots s 0 n).length + (occupiedSlots s.unitSlots (· < n)).card = n := by
  have hoccupied : occupiedSlots s.unitSlots (· < n)
      = (Finset.range n).filter fun j => ¬ s.unitSlots[j]? = some 0 := by
    ext j
    rw [mem_occupiedSlots, Finset.mem_filter, Finset.mem_range]
    exact ⟨fun hj => ⟨hj.2.2, hj.2.1⟩, fun hj => ⟨Nat.lt_of_lt_of_le hj.1 h, hj.2, hj.1⟩⟩
  have hempty : (emptySlots s 0 n).length
      = ((Finset.range n).filter fun j => s.unitSlots[j]? = some 0).card := by
    rw [emptySlots, ← List.range_eq_range']
    rfl
  rw [hoccupied, hempty, Finset.card_filter_add_card_filter_not, Finset.card_range]

/-! ### The other calls -/

/-- `chiaki_frame_processor_put_unit` returns early. -/
def putUnitRefused (s : FrameProcessor) (u : TakionAVUnit) : Bool :=
  decide (u.packet.unitIndex > s.unitSlotsSize) || decide (u.packet.dataSize = 0)
    || decide (u.packet.dataSize > s.bufSizePerUnit)
    || decide (s.unitSlots[u.packet.unitIndex]?.getD 0 ≠ 0)

/-- A unit is refused, or it goes into an empty slot and into the buffer, and is counted. -/
inductive PutOutcome (s : FrameProcessor) (u : TakionAVUnit) : FrameProcessor → ErrorCode → Prop
  | refused {err : ErrorCode} (h : putUnitRefused s u = true) (herr : err ≠ .success) : PutOutcome s u s err
  | accepted (h : putUnitRefused s u = false) (hslot : s.unitSlots[u.packet.unitIndex]? = some 0)
      (hin : s.flushed = true ∨
        u.packet.unitIndex * s.bufStridePerUnit + u.bytes.length ≤ s.frameBuf.length) :
      PutOutcome s u { s with
        unitSlots := s.unitSlots.set u.packet.unitIndex u.packet.dataSize
        frameBuf := if s.flushed then s.frameBuf
          else splice s.frameBuf (u.packet.unitIndex * s.bufStridePerUnit) u.bytes
        unitsSourceReceived := s.unitsSourceReceived
          + if u.packet.unitIndex < s.unitsSourceExpected then 1 else 0
        unitsFecReceived := s.unitsFecReceived
          + if u.packet.unitIndex < s.unitsSourceExpected then 0 else 1 } .success

theorem frameProcessorPutUnit_outcome (h : frameProcessorPutUnit s u = .ok (s', err)) :
    PutOutcome s u s' err := by
  unfold frameProcessorPutUnit at h
  simp only at h
  by_cases hindex : u.packet.unitIndex > s.unitSlotsSize
  · rw [if_pos hindex] at h
    cases h
    exact .refused (by simp [putUnitRefused, hindex]) ErrorCode.noConfusion
  rw [if_neg hindex] at h
  by_cases hdata : u.packet.dataSize = 0
  · rw [if_pos hdata] at h
    cases h
    exact .refused (by simp [putUnitRefused, hdata]) ErrorCode.noConfusion
  rw [if_neg hdata] at h
  by_cases hsize : u.packet.dataSize > s.bufSizePerUnit
  · rw [if_pos hsize] at h
    cases h
    exact .refused (by simp [putUnitRefused, hsize]) ErrorCode.noConfusion
  rw [if_neg hsize] at h
  cases hslot : s.unitSlots[u.packet.unitIndex]? with
  | none =>
    rw [hslot] at h
    cases h
  | some dataSize =>
    rw [hslot] at h
    simp only at h
    by_cases hfull : dataSize ≠ 0
    · rw [if_pos hfull] at h
      cases h
      exact .refused (by simp [putUnitRefused, hslot, hfull]) ErrorCode.noConfusion
    rw [if_neg hfull] at h
    rw [Decidable.not_not.mp hfull] at hslot
    have haccepted : putUnitRefused s u = false := by
      simp [putUnitRefused, hslot, hdata, Nat.not_lt.mp hindex, Nat.not_lt.mp hsize]
    by_cases hout : !s.flushed ∧
        s.frameBuf.length < u.packet.unitIndex * s.bufStridePerUnit + u.packet.dataSize
    · rw [if_pos hout] at h
      cases h
    rw [if_neg hout] at h
    have hin : s.flushed = true ∨
        u.packet.unitIndex * s.bufStridePerUnit + u.bytes.length ≤ s.frameBuf.length := by
      rw [Bool.not_eq_true', not_and, ← u.length_bytes] at hout
      exact (Bool.eq_false_or_eq_true s.flushed).imp_right fun hopen => Nat.not_lt.mp (hout hopen)
    have hput := PutOutcome.accepted haccepted hslot hin
    by_cases hsource : u.packet.unitIndex < s.unitsSourceExpected
    · simp only [hsource, if_true] at h hput
      cases h
      exact hput
    · simp only [hsource, if_false] at h hput
      cases h
      exact hput

/-- `erasures_count` -/
def fecErasuresCount (s : FrameProcessor) : Nat :=
  ((s.unitsSourceExpected + s.unitsFecExpected) + 2 ^ 32
    - (s.unitsSourceReceived + s.unitsFecReceived) % 2 ^ 32) % 2 ^ 32

/-- Decoding fails, or it changes the buffer and restores the sizes of units. -/
theorem frameProcessorFec_outcome {mem : Bool} (h : frameProcessorFec jerasure s mem = .ok (s', err)) :
    (s' = s ∧ err ≠ .success) ∨ (err = .success ∧ ∃ erasures buf slots,
      frameProcessorErasures s (fecErasuresCount s) (s.unitsSourceExpected + s.unitsFecExpected) 0 []
        = .ok erasures ∧
      fecDecode jerasure s.frameBuf s.bufSizePerUnit s.bufStridePerUnit s.unitsSourceExpected
        s.unitsFecExpected erasures = .ok (.ok buf) ∧
      frameProcessorRestore { s with frameBuf := buf } s.unitsSourceExpected 0 s.unitSlots = .ok slots ∧
      s' = { s with frameBuf := buf, unitSlots := slots }) := by
  unfold frameProcessorFec at h
  simp only at h
  split at h
  · cases h
    exact Or.inl ⟨rfl, ErrorCode.noConfusion⟩
  · obtain ⟨erasures, herasures, h⟩ := bind_eq_ok_iff.mp h
    split at h
    · cases h
    · obtain ⟨r, hdecode, h⟩ := bind_eq_ok_iff.mp h
      cases r with
      | error e =>
        cases h
        exact Or.inl ⟨rfl, ErrorCode.noConfusion⟩
      | ok buf =>
        obtain ⟨slots, hrestore, h⟩ := bind_eq_ok_iff.mp h
        cases h
        exact Or.inr ⟨rfl, erasures, buf, slots, herasures, hdecode, hrestore, rfl⟩

/-- The size that is restored for a slot, if the padding is not too large. -/
def restoredSize (s : FrameProcessor) (j : Nat) : Option Nat :=
  let padding := u16At s.frameBuf (s.bufStridePerUnit * j)
  if padding < s.bufSizePerUnit then some (s.bufSizePerUnit - padding) else none

/-- Sizes are restored from slot `i` on. -/
theorem frameProcessorRestore_slots {n i : Nat} {slots slots' : List Nat}
    (h : frameProcessorRestore s n i slots = .ok slots') :
    slots'.length = slots.length ∧ ∀ j, slots'[j]?
      = if i ≤ j ∧ j < i + n then (restoredSize s j).or slots[j]? else slots[j]? := by
  induction n generalizing i slots with
  | zero =>
    cases h
    exact ⟨rfl, fun j => by rw [if_neg (by omega)]⟩
  | succ n ih =>
    unfold frameProcessorRestore at h
    simp only at h
    split at h
    · cases h
    · split at h
      · next hpadding =>
        split at h
        · cases h
        · obtain ⟨hlen, hslots⟩ := ih h
          refine ⟨hlen, fun j => ?_⟩
          rw [hslots j]
          by_cases hji : j = i
          · subst hji
            rw [if_neg (by omega), if_pos (by omega), restoredSize, if_neg (Nat.not_lt.mpr hpadding),
              Option.none_or]
          · rw [if_congr (by omega : (i + 1 ≤ j ∧ j < i + 1 + n) ↔ (i ≤ j ∧ j < i + (n + 1))) rfl rfl]
      · next hpadding =>
        split at h
        · cases h
        · next hin =>
          obtain ⟨hlen, hslots⟩ := ih h
          rw [List.length_set] at hlen
          refine ⟨hlen, fun j => ?_⟩
          rw [hslots j]
          by_cases hji : j = i
          · subst hji
            rw [if_neg (by omega), if_pos (by omega), restoredSize, if_pos (Nat.not_le.mp hpadding),
              Option.some_or, List.getElem?_set_self (Nat.not_le.mp hin)]
          · rw [if_congr (by omega : (i + 1 ≤ j ∧ j < i + 1 + n) ↔ (i ≤ j ∧ j < i + (n + 1))) rfl rfl,
              List.getElem?_set_ne (Ne.symm hji)]

/-- A size that is restored is not zero. -/
theorem restoredSize_or_ne {j : Nat} {slot : Option Nat} :
    (restoredSize s j).or slot = slot ∨ (restoredSize s j).or slot ≠ some 0 := by
  unfold restoredSize
  simp only
  split
  · refine Or.inr fun hzero => ?_
    rw [Option.some_or, Option.some.injEq] at hzero
    omega
  · exact Or.inl (Option.none_or ..)

/-- Flushing keeps all slots of FEC units, and the slots that are occupied. -/
theorem frameProcessorFlush_slots {mem : Bool} {result : FrameFlushResult} {n : Nat}
    (h : frameProcessorFlush jerasure s mem = .ok (s', result, n)) :
    ∃ buf stats slots, s' = { s with frameBuf := buf, streamStats := stats, unitSlots := slots } ∧
      slots.length = s.unitSlots.length ∧
      ∀ j, slots[j]? = s.unitSlots[j]? ∨ j < s.unitsSourceExpected ∧ slots[j]? ≠ some 0 := by
  rcases frameProcessorFlush_eq_ok.mp h with ⟨-, rfl, -, -⟩ | ⟨-, s1, buf, hdecoded, -, rfl⟩
  · exact ⟨_, _, _, rfl, rfl, fun j => Or.inl rfl⟩
  · cases hdecoded with
    | complete => exact ⟨_, _, _, rfl, rfl, fun j => Or.inl rfl⟩
    | fec _ hfec =>
      rcases frameProcessorFec_outcome hfec with ⟨rfl, -⟩ | ⟨-, _, buf1, slots, -, -, hrestore, rfl⟩
      · exact ⟨_, _, _, rfl, rfl, fun j => Or.inl rfl⟩
      · obtain ⟨hlen, hslots⟩ := frameProcessorRestore_slots hrestore
        refine ⟨_, _, _, rfl, hlen, fun j => ?_⟩
        rw [hslots j]
        split
        · next hj => exact restoredSize_or_ne.imp_right fun hne => ⟨by omega, hne⟩
        · exact Or.inl rfl

/-! ## The counters -/

/-- Only an access outside of an array can fail. -/
def OnlyOutOfBounds {α : Type} (x : Except Fault α) : Prop := ∀ f, x = .error f → f = .outOfBounds

theorem frameProcessorAllocBuf_outOfBounds (s : FrameProcessor) (mem : Bool) :
    OnlyOutOfBounds (frameProcessorAllocBuf s mem) := by
  intro f h
  unfold frameProcessorAllocBuf at h
  simp only at h
  repeat' split at h
  all_goals cases h
  rfl

theorem frameProcessorAllocFrame_outOfBounds (s : FrameProcessor) (u : TakionAVUnit)
    (slotsMem frameMem : Bool) : OnlyOutOfBounds (frameProcessorAllocFrame s u slotsMem frameMem) := by
  intro f h
  have hslots : ∀ s1, OnlyOutOfBounds (frameProcessorAllocSlots s1 slotsMem frameMem) := by
    intro s1 f h
    unfold frameProcessorAllocSlots at h
    simp only at h
    by_cases hmany : s1.unitsSourceExpected + s1.unitsFecExpected > unitSlotsMax
    · rw [if_pos hmany] at h
      cases h
    rw [if_neg hmany] at h
    by_cases hother : s1.unitsSourceExpected + s1.unitsFecExpected ≠ s1.unitSlotsSize
    · rw [if_pos hother] at h
      cases slotsMem with
      | true => exact frameProcessorAllocBuf_outOfBounds _ _ f h
      | false => cases h
    · rw [if_neg hother] at h
      by_cases hlen : s1.unitSlots.length < s1.unitSlotsSize
      · rw [if_pos hlen] at h
        cases h
        rfl
      · rw [if_neg hlen] at h
        exact frameProcessorAllocBuf_outOfBounds _ _ f h
  unfold frameProcessorAllocFrame at h
  simp only at h
  by_cases hless : u.packet.unitsInFrameTotal < u.packet.unitsInFrameFec
  · rw [if_pos hless] at h
    cases h
  rw [if_neg hless] at h
  generalize (u.hasExtension (u.packet.unitsInFrameTotal - u.packet.unitsInFrameFec)
    && decide (u.packet.dataSize < 2)) = short at h
  generalize (u.packet.dataSize + if u.hasExtension (u.packet.unitsInFrameTotal
    - u.packet.unitsInFrameFec) then u16At u.bytes 0 else 0) = bufSize at h
  cases short with
  | true => cases h
  | false =>
    rw [if_neg Bool.false_ne_true] at h
    by_cases hempty : bufSize = 0
    · rw [if_pos hempty] at h
      cases h
    · rw [if_neg hempty] at h
      exact hslots _ f h

theorem frameProcessorPutUnit_outOfBounds (s : FrameProcessor) (u : TakionAVUnit) :
    OnlyOutOfBounds (frameProcessorPutUnit s u) := by
  intro f h
  unfold frameProcessorPutUnit at h
  simp only at h
  repeat' split at h
  all_goals first
    | cases h
      rfl
    | cases h

theorem frameProcessorRestore_outOfBounds (s : FrameProcessor) (n i : Nat) (slots : List Nat) :
    OnlyOutOfBounds (frameProcessorRestore s n i slots) := by
  intro f h
  induction n generalizing i slots with
  | zero => cases h
  | succ n ih =>
    unfold frameProcessorRestore at h
    simp only at h
    repeat' split at h
    all_goals first
      | exact ih _ _ h
      | cases h
        rfl

theorem frameProcessorCompact_outOfBounds (s : FrameProcessor) (n i cur : Nat) (buf : Bytes) :
    OnlyOutOfBounds (frameProcessorCompact s n i cur buf) := by
  intro f h
  induction n generalizing i cur buf with
  | zero => cases h
  | succ n ih =>
    unfold frameProcessorCompact at h
    simp only at h
    repeat' split at h
    all_goals first
      | exact ih _ _ _ h
      | cases h
        rfl

theorem fecDecode_outOfBounds (buf : Bytes) (unitSize stride k m : Nat) (erasures : List Nat) :
    OnlyOutOfBounds (fecDecode jerasure buf unitSize stride k m erasures) := by
  intro f h
  unfold fecDecode at h
  repeat' split at h
  all_goals first
    | cases h
      rfl
    | cases h

/-- The list of the erasures gets as many entries as there is room for. -/
def ErasuresMatch (s : FrameProcessor) : Prop :=
  ∃ erasures, frameProcessorErasures s (fecErasuresCount s)
    (s.unitsSourceExpected + s.unitsFecExpected) 0 [] = .ok erasures ∧
    erasures.length = fecErasuresCount s

theorem frameProcessorFec_outOfBounds (h : ErasuresMatch s) (mem : Bool) :
    OnlyOutOfBounds (frameProcessorFec jerasure s mem) := by
  obtain ⟨erasures, hrun, hlen⟩ := h
  intro f hf
  unfold frameProcessorFec at hf
  simp only at hf
  rw [show ((s.unitsSourceExpected + s.unitsFecExpected) + 2 ^ 32
    - (s.unitsSourceReceived + s.unitsFecReceived) % 2 ^ 32) % 2 ^ 32 = fecErasuresCount s from rfl,
    hrun] at hf
  cases mem with
  | false => cases hf
  | true =>
    simp only [Bool.not_true, Bool.false_eq_true, if_false, bind, Except.bind, pure, Except.pure] at hf
    rw [if_neg (fun hne => hne hlen)] at hf
    cases hdecode : fecDecode jerasure s.frameBuf s.bufSizePerUnit s.bufStridePerUnit
      s.unitsSourceExpected s.unitsFecExpected erasures with
    | error g =>
      rw [hdecode] at hf
      cases hf
      exact fecDecode_outOfBounds _ _ _ _ _ _ _ hdecode
    | ok r =>
      rw [hdecode] at hf
      cases r with
      | error _ => cases hf
      | ok buf =>
        simp only at hf
        cases hrestore : frameProcessorRestore { s with frameBuf := buf } s.unitsSourceExpected 0
          s.unitSlots with
        | error g =>
          rw [hrestore] at hf
          cases hf
          exact frameProcessorRestore_outOfBounds _ _ _ _ _ hrestore
        | ok slots =>
          rw [hrestore] at hf
          cases hf

/-- Missing units are decoded before the frame is put together. -/
def flushDecodes (s : FrameProcessor) : Bool :=
  !(decide (s.unitsSourceExpected = 0) || s.flushed) && decide (s.unitsSourceReceived < s.unitsSourceExpected)

/-- The assertions of the decoding hold. -/
theorem frameProcessorFlush_outOfBounds {mem : Bool} (h : flushDecodes s = true → ErasuresMatch s) :
    OnlyOutOfBounds (frameProcessorFlush jerasure s mem) := by
  intro f hf
  unfold frameProcessorFlush at hf
  simp only [bind, Except.bind, pure, Except.pure] at hf
  by_cases hnone : s.unitsSourceExpected = 0 ∨ s.flushed = true
  · rw [if_pos hnone] at hf
    cases hf
  rw [if_neg hnone] at hf
  by_cases hless : s.unitsSourceReceived < s.unitsSourceExpected
  · have hdecodes : flushDecodes s = true := by
      rw [not_or, Bool.not_eq_true] at hnone
      simp [flushDecodes, hnone.1, hnone.2, hless]
    rw [if_pos hless] at hf
    cases hfec : frameProcessorFec jerasure s mem with
    | error g =>
      rw [hfec] at hf
      cases hf
      exact frameProcessorFec_outOfBounds (h hdecodes) mem _ hfec
    | ok x =>
      obtain ⟨s1, err⟩ := x
      rw [hfec] at hf
      cases hrun : frameProcessorCompact s1 s1.unitsSourceExpected 0 0 s1.frameBuf with
      | error g =>
        cases err <;> simp only [hrun] at hf <;> cases hf <;>
          exact frameProcessorCompact_outOfBounds _ _ _ _ _ _ hrun
      | ok y =>
        cases err <;> simp only [hrun] at hf <;> cases hf
  · rw [if_neg hless] at hf
    cases hrun : frameProcessorCompact s s.unitsSourceExpected 0 0 s.frameBuf with
    | error g =>
      simp only [hrun] at hf
      cases hf
      exact frameProcessorCompact_outOfBounds _ _ _ _ _ _ hrun
    | ok y =>
      simp only [hrun] at hf
      cases hf

/-! ## Every sequence of calls -/

variable {r r' : FrameProcessorRun} {l : FrameProcessorLabel} {restored : Bool}

/-- A unit that was missing has a size now. -/
def sizeRestored (s s' : FrameProcessor) : Bool :=
  (List.range s.unitSlots.length).any fun j => decide (s.unitSlots[j]? = some 0 ∧ s'.unitSlots[j]? ≠ some 0)

/-- Whether decoding has restored sizes since the slots were cleared. -/
def recordRestored (jerasure : Jerasure) (r : FrameProcessorRun) (l : FrameProcessorLabel)
    (restored : Bool) : Bool :=
  match l with
  | .allocFrame u slotsMem frameMem =>
    match frameProcessorAllocFrame r.proc u slotsMem frameMem with
    | .ok _ => restored && (decide (u.packet.unitsInFrameTotal < u.packet.unitsInFrameFec) || allocTooSmall u)
    | .error _ => restored
  | .flush mem =>
    match frameProcessorFlush jerasure r.proc mem with
    | .ok (proc, _, _) => restored || sizeRestored r.proc proc
    | .error _ => restored
  | _ => restored

/-- The units in the slots are of the same kind in the frame of another packet. -/
def sameKinds (s : FrameProcessor) (u : TakionAVUnit) : Bool :=
  let source := u.packet.unitsInFrameTotal - u.packet.unitsInFrameFec
  let expected := source + max u.packet.unitsInFrameFec 1
  (List.range s.unitSlots.length).all fun j => decide (s.unitSlots[j]? ≠ some 0 →
    (j < source ↔ j < s.unitsSourceExpected) ∧
    (j < expected ↔ j < s.unitsSourceExpected + s.unitsFecExpected))

/-- A frame that is too small is of the kind of the one before, or there was no unit; also if it is
too large. A unit that is put belongs to the frame, and missing units are decoded once only and with
slots for all units. -/
def countersKept (restored : Bool) (r : FrameProcessorRun) : FrameProcessorLabel → Bool
  | .allocFrame u _ _ =>
    decide (u.packet.unitsInFrameTotal < 2 ^ 16) &&
      (decide (u.packet.unitsInFrameTotal < u.packet.unitsInFrameFec) ||
        if allocTooSmall u then sameKinds r.proc u
        else !allocTooMany u || r.proc.unitSlots.all fun size => decide (size = 0))
  | .putUnit u => decide (u.packet.unitIndex < r.proc.unitsSourceExpected + r.proc.unitsFecExpected)
      || putUnitRefused r.proc u
  | .flush _ => !flushDecodes r.proc || !restored
      && decide (r.proc.unitsSourceExpected + r.proc.unitsFecExpected ≤ r.proc.unitSlotsSize)
  | .reportPacketStats => true

/-- The counters are about the units in the slots, the list of the erasures has the size that is
expected, and what is reported as lost is not negative. -/
structure FrameCountersMatch (r : FrameProcessorRun) (restored : Bool) : Prop where
  source : restored = false → r.proc.unitsSourceReceived = r.proc.sourceSlots.card
  fec : restored = false → r.proc.unitsFecReceived = r.proc.fecSlots.card
  erasures : restored = false →
    r.proc.unitsSourceExpected + r.proc.unitsFecExpected ≤ r.proc.unitSlots.length → ErasuresMatch r.proc
  report : (r.proc.unitsSourceReceived + r.proc.unitsFecReceived) % 2 ^ 32
    ≤ (r.proc.unitsSourceExpected + r.proc.unitsFecExpected) % 2 ^ 32
  fault : r.fault ≠ some .assertion

/-- What the calls keep, also after sizes were restored. -/
structure CountersInvariant (r : FrameProcessorRun) (restored : Bool) : Prop where
  slots : r.proc.unitSlots.length = r.proc.unitSlotsSize
  slots_le : r.proc.unitSlots.length ≤ unitSlotsMax
  expected : r.proc.unitsSourceExpected + r.proc.unitsFecExpected ≤ 2 ^ 16
  source_le : r.proc.unitsSourceReceived ≤ r.proc.sourceSlots.card
  source : restored = false → r.proc.unitsSourceReceived = r.proc.sourceSlots.card
  fec : r.proc.unitsFecReceived = r.proc.fecSlots.card
  fault : r.fault ≠ some .assertion

theorem CountersInvariant.report (h : CountersInvariant r restored) :
    r.proc.unitsSourceReceived + r.proc.unitsFecReceived
      ≤ r.proc.unitsSourceExpected + r.proc.unitsFecExpected := by
  have hsource : r.proc.sourceSlots.card ≤ r.proc.unitsSourceExpected :=
    card_occupiedSlots_le fun j hj => ⟨Nat.zero_le j, by rw [Nat.zero_add]; exact hj⟩
  have hfec : r.proc.fecSlots.card ≤ r.proc.unitsFecExpected := card_occupiedSlots_le fun _ hj => hj
  have hle := h.source_le
  rw [h.fec]
  omega

theorem CountersInvariant.erasures (h : CountersInvariant r false)
    (hslots : r.proc.unitsSourceExpected + r.proc.unitsFecExpected ≤ r.proc.unitSlots.length) :
    ErasuresMatch r.proc := by
  have hreport := h.report
  have hexpected := h.expected
  have htotal := card_sourceSlots_add_fecSlots r.proc
  rw [← h.source rfl, ← h.fec] at htotal
  have hempty := length_emptySlots hslots
  rw [← htotal] at hempty
  have hcount : fecErasuresCount r.proc
      = (emptySlots r.proc 0 (r.proc.unitsSourceExpected + r.proc.unitsFecExpected)).length := by
    unfold fecErasuresCount
    omega
  refine ⟨_, frameProcessorErasures_eq _ 0 [] (by omega) ?_, ?_⟩
  · rw [hcount, List.length_nil, Nat.zero_add]
  · rw [hcount, List.nil_append]

theorem CountersInvariant.countersMatch (h : CountersInvariant r restored) :
    FrameCountersMatch r restored where
  source := h.source
  fec := fun _ => h.fec
  erasures := fun hrestored => by
    subst hrestored
    exact h.erasures
  report := by
    have hreport := h.report
    have hexpected := h.expected
    rw [Nat.mod_eq_of_lt (by omega), Nat.mod_eq_of_lt (by omega)]
    exact hreport
  fault := h.fault

/-- After an access outside of an array everything is as before. -/
theorem CountersInvariant.failed (h : CountersInvariant r restored) {f : Fault} (hf : f = .outOfBounds) :
    CountersInvariant { r with fault := some f } restored where
  slots := h.slots
  slots_le := h.slots_le
  expected := h.expected
  source_le := h.source_le
  source := h.source
  fec := h.fec
  fault := by
    subst hf
    exact fun hfault => Fault.noConfusion (Option.some.inj hfault)

/-- Empty slots count nothing. -/
theorem CountersInvariant.of_empty (hfault : r.fault ≠ some .assertion)
    (hslots : r.proc.unitSlots.length = r.proc.unitSlotsSize)
    (hslots_le : r.proc.unitSlots.length ≤ unitSlotsMax)
    (hexpected : r.proc.unitsSourceExpected + r.proc.unitsFecExpected ≤ 2 ^ 16)
    (hempty : ∀ j, j < r.proc.unitSlots.length → r.proc.unitSlots[j]? = some 0)
    (hsource : r.proc.unitsSourceReceived = 0) (hfec : r.proc.unitsFecReceived = 0) :
    CountersInvariant r restored where
  slots := hslots
  slots_le := hslots_le
  expected := hexpected
  source_le := hsource ▸ Nat.zero_le _
  source := fun _ => by
    rw [hsource, FrameProcessor.sourceSlots, occupiedSlots_empty fun j hj _ => hempty j hj, Finset.card_empty]
  fec := by
    rw [hfec, FrameProcessor.fecSlots, occupiedSlots_empty fun j hj _ => hempty j hj, Finset.card_empty]
  fault := hfault

/-- New numbers of units count the same if no unit becomes one of another kind. -/
theorem CountersInvariant.sameKinds {r' : FrameProcessorRun} (h : CountersInvariant r restored)
    (hfault : r'.fault = r.fault) (hslots : r'.proc.unitSlots = r.proc.unitSlots)
    (hsize : r'.proc.unitSlotsSize = r.proc.unitSlotsSize)
    (hsource : r'.proc.unitsSourceReceived = r.proc.unitsSourceReceived)
    (hfec : r'.proc.unitsFecReceived = r.proc.unitsFecReceived)
    (hexpected : r'.proc.unitsSourceExpected + r'.proc.unitsFecExpected ≤ 2 ^ 16)
    (hkinds : ∀ j, j < r.proc.unitSlots.length → r.proc.unitSlots[j]? ≠ some 0 →
      (j < r'.proc.unitsSourceExpected ↔ j < r.proc.unitsSourceExpected) ∧
      (j < r'.proc.unitsSourceExpected + r'.proc.unitsFecExpected ↔
        j < r.proc.unitsSourceExpected + r.proc.unitsFecExpected)) :
    CountersInvariant r' restored := by
  have hsourceSlots : r'.proc.sourceSlots = r.proc.sourceSlots := by
    refine occupiedSlots_congr (by rw [hslots]) fun j hj => ?_
    rw [hslots]
    exact and_congr_right fun hslot => (hkinds j hj hslot).1
  have hfecSlots : r'.proc.fecSlots = r.proc.fecSlots := by
    refine occupiedSlots_congr (by rw [hslots]) fun j hj => ?_
    rw [hslots]
    refine and_congr_right fun hslot => ?_
    obtain ⟨hbelow, hall⟩ := hkinds j hj hslot
    omega
  refine ⟨?_, ?_, hexpected, ?_, fun hrestored => ?_, ?_, hfault ▸ h.fault⟩
  · rw [hslots, hsize]
    exact h.slots
  · rw [hslots]
    exact h.slots_le
  · rw [hsource, hsourceSlots]
    exact h.source_le
  · rw [hsource, hsourceSlots]
    exact h.source hrestored
  · rw [hfec, hfecSlots]
    exact h.fec

theorem countersInvariant_allocFrame (h : CountersInvariant r restored) {slotsMem frameMem usable : Bool}
    (hG : countersKept restored r (.allocFrame u slotsMem frameMem) = true) :
    CountersInvariant (r.after usable ((frameProcessorAllocFrame r.proc u slotsMem frameMem).map Prod.fst))
      (recordRestored jerasure r (.allocFrame u slotsMem frameMem) restored) := by
  simp only [countersKept, Bool.and_eq_true, Bool.or_eq_true, decide_eq_true_eq] at hG
  obtain ⟨htotal, hG⟩ := hG
  cases hrun : frameProcessorAllocFrame r.proc u slotsMem frameMem with
  | error f =>
    simp only [recordRestored, hrun]
    exact h.failed (frameProcessorAllocFrame_outOfBounds _ _ _ _ f hrun)
  | ok x =>
    obtain ⟨s', err⟩ := x
    simp only [recordRestored, hrun, Except.map, FrameProcessorRun.after]
    have houtcome := frameProcessorAllocFrame_outcome hrun
    by_cases hless : u.packet.unitsInFrameTotal < u.packet.unitsInFrameFec
    · have hsame : s' = r.proc := by
        rw [frameProcessorAllocFrame, if_pos hless] at hrun
        cases hrun
        rfl
      rw [hsame, decide_eq_true hless, Bool.true_or, Bool.and_true]
      exact ⟨h.slots, h.slots_le, h.expected, h.source_le, h.source, h.fec, h.fault⟩
    replace hG := hG.resolve_left hless
    have hexpected : ∀ s1, ExpectsFrame u s1 → s1.unitsSourceExpected + s1.unitsFecExpected ≤ 2 ^ 16 := by
      intro s1 h1
      rw [h1.source, h1.fec]
      omega
    rw [decide_eq_false hless, Bool.false_or]
    cases houtcome with
    | refused hrefused => exact absurd hrefused hless
    | small hsmall expects slots size source fec =>
      rw [if_pos hsmall] at hG
      rw [hsmall, Bool.and_true]
      refine h.sameKinds rfl slots size source fec (hexpected _ expects) fun j hj => ?_
      simp only [expects.source, expects.fec]
      exact of_decide_eq_true (List.all_eq_true.mp hG j (List.mem_range.mpr hj))
    | many hsmall hmany expects slots size source fec =>
      rw [if_neg (by rw [hsmall]; exact Bool.false_ne_true), hmany, Bool.not_true, Bool.false_or] at hG
      refine .of_empty h.fault ?_ ?_ (hexpected _ expects) (fun j hj => ?_) source fec
      · rw [slots, size]
        exact h.slots
      · rw [slots]
        exact h.slots_le
      · rw [slots] at hj ⊢
        rw [List.getElem?_eq_getElem hj, of_decide_eq_true (List.all_eq_true.mp hG _ (List.getElem_mem hj))]
    | cleared hsmall hmany expects slots size source fec =>
      have hlen : s'.unitSlots.length = s'.unitSlotsSize := by
        rw [slots, List.length_replicate]
      refine .of_empty h.fault hlen ?_ (hexpected _ expects) (fun j hj => ?_) source fec
      · have hfits : s'.unitsSourceExpected + s'.unitsFecExpected ≤ unitSlotsMax := by
          rw [expects.source, expects.fec]
          exact Nat.not_lt.mp (of_decide_eq_false hmany)
        rw [hlen]
        omega
      · rw [slots, List.length_replicate] at hj
        rw [slots, List.getElem?_replicate, if_pos hj]

theorem countersInvariant_putUnit (h : CountersInvariant r restored) {usable : Bool}
    (hG : countersKept restored r (.putUnit u) = true) :
    CountersInvariant (r.after usable ((frameProcessorPutUnit r.proc u).map Prod.fst)) restored := by
  cases hrun : frameProcessorPutUnit r.proc u with
  | error f => exact h.failed (frameProcessorPutUnit_outOfBounds _ _ f hrun)
  | ok x =>
    obtain ⟨s', err⟩ := x
    simp only [Except.map, FrameProcessorRun.after]
    cases frameProcessorPutUnit_outcome hrun with
    | refused => exact ⟨h.slots, h.slots_le, h.expected, h.source_le, h.source, h.fec, h.fault⟩
    | accepted haccepted hslot =>
      have hlen : (r.proc.unitSlots.set u.packet.unitIndex u.packet.dataSize).length
          = r.proc.unitSlots.length := List.length_set
      have hdata : u.packet.dataSize ≠ 0 := by
        intro hzero
        simp [putUnitRefused, hzero] at haccepted
      have hindex : u.packet.unitIndex < r.proc.unitsSourceExpected + r.proc.unitsFecExpected := by
        simpa only [countersKept, haccepted, Bool.or_false, decide_eq_true_eq] using hG
      have hsource := @occupiedSlots_set r.proc.unitSlots (· < r.proc.unitsSourceExpected) _
        u.packet.unitIndex u.packet.dataSize hslot hdata
      have hfec := @occupiedSlots_set r.proc.unitSlots (fun j => r.proc.unitsSourceExpected ≤ j ∧
        j < r.proc.unitsSourceExpected + r.proc.unitsFecExpected) _ u.packet.unitIndex u.packet.dataSize
        hslot hdata
      have hkind : (if r.proc.unitsSourceExpected ≤ u.packet.unitIndex ∧
          u.packet.unitIndex < r.proc.unitsSourceExpected + r.proc.unitsFecExpected then 1 else 0)
          = if u.packet.unitIndex < r.proc.unitsSourceExpected then 0 else 1 := by
        split <;> split <;> omega
      refine ⟨hlen.trans h.slots, hlen.trans_le h.slots_le, h.expected, ?_, fun hrestored => ?_, ?_, h.fault⟩
      · exact hsource ▸ Nat.add_le_add_right h.source_le _
      · exact hsource ▸ congrArg (· + _) (h.source hrestored)
      · rw [hkind] at hfec
        exact hfec ▸ congrArg (· + _) h.fec

theorem countersInvariant_flush (h : CountersInvariant r restored) {usable mem : Bool}
    (hG : countersKept restored r (.flush mem) = true) :
    CountersInvariant (r.after usable ((frameProcessorFlush jerasure r.proc mem).map Prod.fst))
      (recordRestored jerasure r (.flush mem) restored) := by
  have herasures : flushDecodes r.proc = true → ErasuresMatch r.proc := by
    intro hdecodes
    simp only [countersKept, hdecodes, Bool.not_true, Bool.false_or, Bool.and_eq_true,
      Bool.not_eq_true', decide_eq_true_eq] at hG
    obtain ⟨hrestored, hslots⟩ := hG
    subst hrestored
    exact h.erasures (h.slots.symm ▸ hslots)
  cases hrun : frameProcessorFlush jerasure r.proc mem with
  | error f =>
    simp only [recordRestored, hrun]
    exact h.failed (frameProcessorFlush_outOfBounds herasures f hrun)
  | ok x =>
    obtain ⟨s', result, n⟩ := x
    simp only [recordRestored, hrun, Except.map, FrameProcessorRun.after]
    obtain ⟨buf, stats, slots, rfl, hlen, hslots⟩ := frameProcessorFlush_slots hrun
    refine ⟨hlen.trans h.slots, hlen.trans_le h.slots_le, h.expected, ?_, fun hrestored => ?_, ?_, h.fault⟩
    · exact h.source_le.trans (Finset.card_le_card
        (occupiedSlots_subset hlen fun j => (hslots j).imp_right And.right))
    · -- no slot was empty before and is occupied now
      obtain ⟨hrestored, hsizes⟩ := Bool.or_eq_false_iff.mp hrestored
      refine (h.source hrestored).trans (congrArg Finset.card (Eq.symm ?_))
      refine occupiedSlots_congr hlen fun j hj => and_congr_left fun _ => ?_
      have hj := List.any_eq_false.mp hsizes j (List.mem_range.mpr hj)
      rw [decide_eq_true_eq, not_and, Decidable.not_not] at hj
      rcases hslots j with hsame | ⟨-, hne⟩
      · rw [hsame]
      · exact iff_of_true hne fun hempty => hne (hj hempty)
    · refine h.fec.trans (congrArg Finset.card (Eq.symm ?_))
      refine occupiedSlots_congr hlen fun j hj => and_congr_left fun hp => ?_
      rcases hslots j with hsame | ⟨hsource, -⟩
      · rw [hsame]
      · exact absurd hsource (Nat.not_lt.mpr hp.1)

/-- The frame processor, and whether sizes were restored. -/
def frameCountersLts (jerasure : Jerasure) : Lts (FrameProcessorRun × Bool) FrameProcessorLabel :=
  (frameProcessorLts jerasure).withHistory false (recordRestored jerasure)

theorem countersInvariant_invariant (jerasure : Jerasure) :
    ((frameCountersLts jerasure).restrict fun x l => countersKept x.2 x.1 l = true).Invariant
      fun x => CountersInvariant x.1 x.2 where
  init := by
    rintro ⟨r, restored⟩ ⟨hr, -⟩
    rw [show r = _ from hr]
    exact .of_empty (by simp) rfl (Nat.zero_le _) (Nat.zero_le _) (fun j hj => absurd hj (Nat.not_lt_zero j))
      rfl rfl
  step := by
    rintro ⟨r, restored⟩ l ⟨r', restored'⟩ h ⟨hG, hs, hrecord⟩
    replace hrecord : restored' = recordRestored jerasure r l restored := hrecord
    subst hrecord
    cases (frameProcessorStep_cases hs).2 with
    | allocFrame u slotsMem frameMem =>
      exact @countersInvariant_allocFrame jerasure u _ _ h slotsMem frameMem _ hG
    | putUnit u => exact countersInvariant_putUnit h hG
    | reportPacketStats => exact ⟨h.slots, h.slots_le, h.expected, h.source_le, h.source, h.fec, h.fault⟩
    | flush mem => exact countersInvariant_flush h hG

/-- **The counters are about the units in the slots**, in every sequence of calls in which frames
that cannot be allocated have no units to lose, units belong to their frame and missing units are
decoded once. -/
theorem frameCounters_match (jerasure : Jerasure) {x : FrameProcessorRun × Bool}
    (hr : ((frameCountersLts jerasure).restrict fun x l => countersKept x.2 x.1 l = true).Reachable x) :
    FrameCountersMatch x.1 x.2 :=
  ((countersInvariant_invariant jerasure).reachable hr).countersMatch

/-! ### Runs -/

/-- A frame of two units, one of which is missing. -/
def missingUnit : List FrameProcessorLabel :=
  [.allocFrame (exampleUnit 0 3 1 [0, 0, 7]) true true, .putUnit (exampleUnit 0 3 1 [0, 0, 7]),
    .reportPacketStats, .putUnit (exampleUnit 2 3 1 [0, 1, 8]), .flush true]

/-- A decoder that leaves the units as they are. -/
def sameJerasure : Jerasure where
  decode _ _ _ units := some units
  length_decode := by
    intro _ _ _ _ _ h
    rw [Option.some.inj h]

/-- A new frame processor has restored nothing. -/
theorem frameCounters_init (jerasure : Jerasure) :
    (frameCountersLts jerasure).init (emptyFrameProcessor, false) :=
  And.intro (show emptyFrameProcessor = _ from rfl) rfl

theorem missingUnit_run :
    (Lts.runFun (Lts.guarded (Lts.recordFun (frameProcessorStep noJerasure) (recordRestored noJerasure))
        fun x l => countersKept x.2 x.1 l = true) (emptyFrameProcessor, false) missingUnit).map
        (fun x => (x.2, x.1.proc.unitsSourceReceived, x.1.proc.unitsFecReceived))
      = some (false, 1, 1) := by
  decide +kernel

theorem frameCounters_match_missingUnit : ∃ x : FrameProcessorRun × Bool,
    x.2 = false ∧ x.1.proc.unitsSourceReceived = 1 ∧ FrameCountersMatch x.1 x.2 := by
  obtain ⟨x, hrun, hobs⟩ := Option.map_eq_some_iff.mp missingUnit_run
  simp only [Prod.mk.injEq] at hobs
  have hreach : ((frameCountersLts noJerasure).restrict fun x l => countersKept x.2 x.1 l = true).Reachable x :=
    Lts.Reachable.runRecord (.init (frameCounters_init noJerasure)) hrun
  exact ⟨x, hobs.1, hobs.2.1, frameCounters_match noJerasure hreach⟩

/-- All units of a frame, and then a packet that is too small for a frame. -/
def smallFrame : List FrameProcessorLabel :=
  [.allocFrame (exampleUnit 0 3 1 [0, 0, 7]) true true, .putUnit (exampleUnit 0 3 1 [0, 0, 7]),
    .putUnit (exampleUnit 1 3 1 [0, 1, 8]), .putUnit (exampleUnit 2 3 1 [0, 1, 8]),
    .allocFrame (exampleUnit 0 1 0 [0]) true true]

/-- A unit of a frame, and then a packet of a frame that is too large. -/
def largeFrame : List FrameProcessorLabel :=
  [.allocFrame (exampleUnit 0 3 1 [0, 0, 7]) true true, .putUnit (exampleUnit 0 3 1 [0, 0, 7]),
    .allocFrame (exampleUnit 0 0x800 0 [0, 0, 7]) true true]

/-- A frame with a missing unit is flushed twice. -/
def twoFlushes : List FrameProcessorLabel := missingUnit ++ [.flush true]

/-- What some calls lead to, whether or not the counters are kept. -/
def countersRun (jerasure : Jerasure) (labels : List FrameProcessorLabel) : Option (FrameProcessorRun × Bool) :=
  Lts.runFun (Lts.guarded (Lts.recordFun (frameProcessorStep jerasure) (recordRestored jerasure))
    fun _ _ => True) (emptyFrameProcessor, false) labels

theorem countersRun_reachable {labels : List FrameProcessorLabel} {x : FrameProcessorRun × Bool}
    (h : countersRun jerasure labels = some x) : (frameCountersLts jerasure).Reachable x :=
  (Lts.Reachable.runRecord (.init (frameCounters_init jerasure)) h).of_restrict

/-- **Failed allocations leave the counters or the slots of the frame before**: more units are
received than expected, or there are more than were counted. The second decoding of a frame does not
find the erasures. -/
theorem not_frameCounters_match :
    (∃ x : FrameProcessorRun × Bool, (frameCountersLts noJerasure).Reachable x ∧
      countersRun noJerasure smallFrame = some x ∧ x.2 = false ∧
      x.1.proc.unitsSourceExpected + x.1.proc.unitsFecExpected
        < x.1.proc.unitsSourceReceived + x.1.proc.unitsFecReceived ∧ ¬ FrameCountersMatch x.1 x.2) ∧
    (∃ x : FrameProcessorRun × Bool, (frameCountersLts noJerasure).Reachable x ∧
      countersRun noJerasure largeFrame = some x ∧ x.2 = false ∧
      x.1.proc.unitsSourceReceived < x.1.proc.sourceSlots.card ∧ ¬ FrameCountersMatch x.1 x.2) ∧
    ∃ x : FrameProcessorRun × Bool, (frameCountersLts sameJerasure).Reachable x ∧
      countersRun sameJerasure twoFlushes = some x ∧ x.1.fault = some .assertion ∧
      ¬ FrameCountersMatch x.1 x.2 := by
  refine ⟨?_, ?_, ?_⟩
  · have hobs : (countersRun noJerasure smallFrame).map (fun x => (x.2,
        decide (x.1.proc.unitsSourceExpected + x.1.proc.unitsFecExpected
          < x.1.proc.unitsSourceReceived + x.1.proc.unitsFecReceived),
        decide (x.1.proc.unitsSourceReceived = x.1.proc.sourceSlots.card))) = some (false, true, false) := by
      decide +kernel
    obtain ⟨x, hrun, hx⟩ := Option.map_eq_some_iff.mp hobs
    simp only [Prod.mk.injEq, decide_eq_true_eq, decide_eq_false_iff_not] at hx
    exact ⟨x, countersRun_reachable hrun, hrun, hx.1, hx.2.1, fun hmatch => hx.2.2 (hmatch.source hx.1)⟩
  · have hobs : (countersRun noJerasure largeFrame).map (fun x => (x.2,
        decide (x.1.proc.unitsSourceReceived < x.1.proc.sourceSlots.card))) = some (false, true) := by
      decide +kernel
    obtain ⟨x, hrun, hx⟩ := Option.map_eq_some_iff.mp hobs
    simp only [Prod.mk.injEq, decide_eq_true_eq] at hx
    exact ⟨x, countersRun_reachable hrun, hrun, hx.1, hx.2,
      fun hmatch => Nat.ne_of_lt hx.2 (hmatch.source hx.1)⟩
  · have hobs : (countersRun sameJerasure twoFlushes).map (fun x => x.1.fault) = some (some .assertion) := by
      decide +kernel
    obtain ⟨x, hrun, hx⟩ := Option.map_eq_some_iff.mp hobs
    exact ⟨x, countersRun_reachable hrun, hrun, hx, fun hmatch => hmatch.fault hx⟩

end Chiaki
