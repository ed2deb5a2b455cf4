import Chiaki.FrameProcessor
import Chiaki.Properties.Takion.Packet

/-!
# Memory of the frame processor

No call reads or writes outside of `unit_slots` and of `frame_buf` as long as no unit is put at
index `unit_slots_size` and a frame that could not be allocated is not used
(`frameProcessorInBounds_iff`).

* The check of the index lets one through that is too high, and the frame processor of a frame that
  could not be allocated has fields of two frames (`not_frameProcessorInBounds`).
-/

namespace Chiaki

open Infra

variable {jerasure : Jerasure} {s s' : FrameProcessor} {u : TakionAVUnit} {slotsMem frameMem : Bool}

/-! ## What the fields say about the memory -/

/-- The sizes of the arrays are what the fields say. This is so after a failure, too. -/
structure FrameProcessorAlloc (s : FrameProcessor) : Prop where
  slots : s.unitSlots.length = s.unitSlotsSize
  buf : s.frameBuf.length = s.frameBufSize + videoBufferPaddingSize ∨
    s.frameBuf = [] ∧ s.frameBufSize = 0

/-- The frame fits into the arrays, and every unit into its place. -/
structure FrameProcessorWf (s : FrameProcessor) : Prop extends FrameProcessorAlloc s where
  expected : s.unitsSourceExpected + s.unitsFecExpected ≤ s.unitSlotsSize
  fec : s.unitsSourceExpected ≠ 0 → 1 ≤ s.unitsFecExpected
  stride : s.bufSizePerUnit ≤ s.bufStridePerUnit
  stride_ge : s.unitSlotsSize ≠ 0 → 16 ≤ s.bufStridePerUnit
  fits : s.unitSlotsSize * s.bufStridePerUnit ≤ s.frameBufSize
  sizes : ∀ size ∈ s.unitSlots, size ≤ s.bufSizePerUnit

/-- Unit `i` ends inside of the buffer, and the padding comes behind it. -/
theorem FrameProcessorWf.unit_fits (h : FrameProcessorWf s) {i : Nat} (hi : i < s.unitSlotsSize) :
    i * s.bufStridePerUnit + s.bufStridePerUnit + videoBufferPaddingSize ≤ s.frameBuf.length := by
  have hmul : (i + 1) * s.bufStridePerUnit ≤ s.unitSlotsSize * s.bufStridePerUnit :=
    Nat.mul_le_mul_right _ hi
  have hfits := h.fits
  have hstride := h.stride_ge (by omega)
  rw [Nat.succ_mul] at hmul
  rcases h.buf with hbuf | ⟨-, hzero⟩ <;> omega

/-! ## A new frame -/

theorem frameProcessorAllocBuf_spec (h : FrameProcessorAlloc s)
    (hpos : 0 < s.unitSlotsSize * s.bufStridePerUnit) (mem : Bool) :
    ∃ s' err, frameProcessorAllocBuf s mem = .ok (s', err) ∧ FrameProcessorAlloc s' ∧
      (s.unitSlotsSize ≤ (2 ^ 64 - 1) / s.bufStridePerUnit →
        (mem = true ∨ s.unitSlotsSize * s.bufStridePerUnit ≤ s.frameBufSize) →
        ∃ buf size, s' = { s with frameBuf := buf, frameBufSize := size } ∧
          s.unitSlotsSize * s.bufStridePerUnit ≤ size) := by
  unfold frameProcessorAllocBuf
  split
  · next hover => exact ⟨s, .overflow, rfl, h, fun hle => absurd hle (Nat.not_le.mpr hover)⟩
  · simp only
    split
    · next hsmall =>
      split
      · refine ⟨_, .success, rfl, ⟨h.slots, Or.inl ?_⟩, fun _ _ => ⟨_, _, rfl, Nat.le_refl _⟩⟩
        rw [List.length_replicate]
      · next hmem =>
        refine ⟨_, .memory, rfl, ⟨h.slots, Or.inr ⟨rfl, rfl⟩⟩, fun _ hm => ?_⟩
        rcases hm with hm | hle
        · exact absurd hm hmem
        · exact absurd hle (Nat.not_le.mpr hsmall)
    · next hlarge =>
      have hlen : s.frameBuf.length = s.frameBufSize + videoBufferPaddingSize := by
        rcases h.buf with hbuf | ⟨-, hzero⟩
        · exact hbuf
        · omega
      rw [if_neg (by omega)]
      refine ⟨_, .success, rfl, ⟨h.slots, Or.inl ?_⟩, fun _ _ => ⟨_, _, rfl, by omega⟩⟩
      rw [length_splice]
      · exact hlen
      · rw [List.length_replicate]
        omega

/-- The slots are cleared, so no unit is too large for its place. -/
theorem frameProcessorAllocSlots_spec (h : FrameProcessorAlloc s) (hfec : 1 ≤ s.unitsFecExpected)
    (hstride : 16 ≤ s.bufStridePerUnit) (hsize : s.bufSizePerUnit ≤ s.bufStridePerUnit) :
    ∃ s' err, frameProcessorAllocSlots s slotsMem frameMem = .ok (s', err) ∧ FrameProcessorAlloc s' ∧
      (s.unitsSourceExpected + s.unitsFecExpected ≤ unitSlotsMax →
        s.unitsSourceExpected + s.unitsFecExpected ≤ (2 ^ 64 - 1) / s.bufStridePerUnit →
        (slotsMem = true ∨ s.unitsSourceExpected + s.unitsFecExpected = s.unitSlotsSize) →
        (frameMem = true ∨ (s.unitsSourceExpected + s.unitsFecExpected) * s.bufStridePerUnit
          ≤ s.frameBufSize) → FrameProcessorWf s') := by
  unfold frameProcessorAllocSlots
  simp only
  generalize hrequired : s.unitsSourceExpected + s.unitsFecExpected = required
  -- what is left to do once there are as many cleared slots as required
  have hcleared : ∃ s' err,
      frameProcessorAllocBuf
        { s with unitSlots := List.replicate required 0, unitSlotsSize := required } frameMem
        = .ok (s', err) ∧ FrameProcessorAlloc s' ∧
      (required ≤ (2 ^ 64 - 1) / s.bufStridePerUnit →
        (frameMem = true ∨ required * s.bufStridePerUnit ≤ s.frameBufSize) → FrameProcessorWf s') := by
    have hpos : 0 < required * s.bufStridePerUnit := Nat.mul_pos (by omega) (by omega)
    obtain ⟨s', err, hs', halloc, hfits⟩ := @frameProcessorAllocBuf_spec
      { s with unitSlots := List.replicate required 0, unitSlotsSize := required }
      ⟨List.length_replicate, h.buf⟩ hpos frameMem
    refine ⟨s', err, hs', halloc, fun hover hmem => ?_⟩
    obtain ⟨buf, size, rfl, hle⟩ := hfits hover hmem
    refine ⟨halloc, Nat.le_of_eq hrequired, fun _ => hfec, hsize, fun _ => hstride, hle, fun x hx => ?_⟩
    rw [(List.mem_replicate.mp hx).2]
    exact Nat.zero_le _
  split
  · next hmany => exact ⟨s, .invalidData, rfl, h, fun hle => absurd hle (Nat.not_le.mpr hmany)⟩
  · split
    · next hother =>
      split
      · obtain ⟨s', err, hs', halloc, hwf⟩ := hcleared
        exact ⟨s', err, hs', halloc, fun _ hover _ => hwf hover⟩
      · next hmem =>
        refine ⟨_, .memory, rfl, ⟨rfl, h.buf⟩, fun _ _ hm => ?_⟩
        rcases hm with hm | hsame
        · exact absurd hm hmem
        · exact absurd hsame hother
    · next hsame =>
      replace hsame := Decidable.of_not_not hsame
      rw [if_neg (by rw [h.slots]; exact Nat.lt_irrefl _)]
      obtain ⟨s', err, hs', halloc, hwf⟩ := hcleared
      rw [hsame] at hs'
      exact ⟨s', err, hs', halloc, fun _ hover _ => hwf hover⟩

/-- **Allocating a frame is safe in any state**, and leads to a state that fits if the packet does. -/
theorem frameProcessorAllocFrame_spec (h : FrameProcessorAlloc s) (u : TakionAVUnit)
    (slotsMem frameMem : Bool) :
    ∃ s' err, frameProcessorAllocFrame s u slotsMem frameMem = .ok (s', err) ∧
      FrameProcessorAlloc s' ∧
      (u.packet.unitsInFrameTotal < u.packet.unitsInFrameFec → s' = s) ∧
      (¬ u.packet.unitsInFrameTotal < u.packet.unitsInFrameFec →
        allocFrameFits s u slotsMem frameMem = true → FrameProcessorWf s') := by
  unfold frameProcessorAllocFrame allocFrameFits
  simp only
  split
  · next hless => exact ⟨s, .invalidData, rfl, h, fun _ => rfl, fun hn => absurd hless hn⟩
  · next hless =>
    have hmax : (if u.packet.unitsInFrameFec < 1 then 1 else u.packet.unitsInFrameFec)
        = max u.packet.unitsInFrameFec 1 := by
      split <;> omega
    rw [hmax]
    generalize hsource : u.packet.unitsInFrameTotal - u.packet.unitsInFrameFec = source
    generalize hext : u.hasExtension source = ext
    generalize hfec : max u.packet.unitsInFrameFec 1 = fec
    generalize hbuf : (u.packet.dataSize + if ext then u16At u.bytes 0 else 0) = bufSize
    generalize hstride : (bufSize + 0xf) / 0x10 * 0x10 = stride
    split
    · next hshort =>
      refine ⟨_, .bufTooSmall, rfl, ⟨h.slots, h.buf⟩, fun hl => absurd hl hless, fun _ hfits => ?_⟩
      simp only [Bool.and_eq_true, Bool.or_eq_true, Bool.not_eq_true', decide_eq_true_eq] at hshort hfits
      rcases hfits.1.1.1.1.1 with hno | hsize
      · rw [hno] at hshort
        exact absurd hshort.1 (by simp)
      · omega
    · split
      · next hzero =>
        refine ⟨_, .bufTooSmall, rfl, ⟨h.slots, h.buf⟩, fun hl => absurd hl hless, fun _ hfits => ?_⟩
        simp only [Bool.and_eq_true, decide_eq_true_eq] at hfits
        omega
      · next hzero =>
        have hfec1 : 1 ≤ fec := by omega
        have hstride16 : 16 ≤ stride ∧ bufSize ≤ stride := by omega
        obtain ⟨s', err, hs', halloc, hwf⟩ := @frameProcessorAllocSlots_spec
          { s with
            flushed := false, unitsSourceExpected := source, unitsFecExpected := fec
            bufSizePerUnit := bufSize, bufStridePerUnit := stride
            unitsSourceReceived := 0, unitsFecReceived := 0 } slotsMem frameMem
          ⟨h.slots, h.buf⟩ hfec1 hstride16.1 hstride16.2
        refine ⟨s', err, hs', halloc, fun hl => absurd hl hless, fun _ hfits => ?_⟩
        simp only [Bool.and_eq_true, Bool.or_eq_true, decide_eq_true_eq] at hfits
        exact hwf hfits.1.1.1.2 hfits.1.1.2 hfits.1.2 hfits.2

/-! ## A unit -/

theorem frameProcessorPutUnit_spec (h : FrameProcessorWf s)
    (hindex : u.packet.unitIndex ≠ s.unitSlotsSize ∨ u.packet.dataSize = 0 ∨
      s.bufSizePerUnit < u.packet.dataSize) :
    ∃ s' err, frameProcessorPutUnit s u = .ok (s', err) ∧ FrameProcessorWf s' := by
  unfold frameProcessorPutUnit
  simp only
  split
  · exact ⟨s, .invalidData, rfl, h⟩
  · next hle =>
    split
    · exact ⟨s, .invalidData, rfl, h⟩
    · next hdata =>
      split
      · exact ⟨s, .invalidData, rfl, h⟩
      · next hsize =>
        have hlt : u.packet.unitIndex < s.unitSlotsSize := by omega
        rw [List.getElem?_eq_getElem (by rw [h.slots]; exact hlt)]
        simp only
        split
        · exact ⟨s, .invalidData, rfl, h⟩
        · have hfit := h.unit_fits hlt
          have hstride := h.stride
          rw [if_neg (by omega)]
          have hwf : FrameProcessorWf { s with
              unitSlots := s.unitSlots.set u.packet.unitIndex u.packet.dataSize
              frameBuf := if s.flushed then s.frameBuf
                else splice s.frameBuf (u.packet.unitIndex * s.bufStridePerUnit) u.bytes } := by
            have hbuf : (if s.flushed then s.frameBuf
                else splice s.frameBuf (u.packet.unitIndex * s.bufStridePerUnit) u.bytes).length
                = s.frameBuf.length := by
              split
              · rfl
              · exact length_splice (by rw [u.length_bytes]; omega)
            refine ⟨⟨by rw [List.length_set]; exact h.slots, ?_⟩, h.expected, h.fec, hstride,
              h.stride_ge, h.fits, fun x hx => ?_⟩
            · rcases h.buf with hlen | ⟨hnil, hzero⟩
              · exact Or.inl (by rw [hbuf]; exact hlen)
              · exact Or.inr ⟨List.eq_nil_of_length_eq_zero (by rw [hbuf, hnil]; rfl), hzero⟩
            · rcases List.mem_or_eq_of_mem_set hx with hx | rfl
              · exact h.sizes x hx
              · exact Nat.not_lt.mp hsize
          split
          · exact ⟨_, .success, rfl, ⟨⟨hwf.slots, hwf.buf⟩, hwf.expected, hwf.fec, hwf.stride,
              hwf.stride_ge, hwf.fits, hwf.sizes⟩⟩
          · exact ⟨_, .success, rfl, ⟨⟨hwf.slots, hwf.buf⟩, hwf.expected, hwf.fec, hwf.stride,
              hwf.stride_ge, hwf.fits, hwf.sizes⟩⟩

/-- The index behind the last slot passes the check. -/
theorem frameProcessorPutUnit_behind (h : FrameProcessorAlloc s)
    (hindex : u.packet.unitIndex = s.unitSlotsSize) (hdata : u.packet.dataSize ≠ 0)
    (hsize : u.packet.dataSize ≤ s.bufSizePerUnit) :
    frameProcessorPutUnit s u = .error .outOfBounds := by
  unfold frameProcessorPutUnit
  simp only
  rw [if_neg (by omega), if_neg hdata, if_neg (by omega),
    List.getElem?_eq_none (by rw [h.slots, hindex])]

/-! ## Missing units -/

/-- Only an assertion can fail. -/
def OnlyAsserts {α : Type} (x : Except Fault α) : Prop := ∀ f, x = .error f → f = .assertion

theorem length_foldl_splice {k : Nat} {units : List (Bytes × Nat)} {buf : Bytes}
    (h : ∀ p ∈ units, k * p.2 + p.1.length ≤ buf.length) :
    (units.foldl (fun buf (unit, i) => splice buf (k * i) unit) buf).length = buf.length := by
  induction units generalizing buf with
  | nil => rfl
  | cons p units ih =>
    have hlen := length_splice (h p (List.mem_cons_self ..))
    rw [List.foldl_cons, ih, hlen]
    rw [hlen]
    exact fun q hq => h q (List.mem_cons_of_mem _ hq)

/-- Jerasure gives back as many units of the same sizes. -/
theorem fecDecode_units_fit {buf : Bytes} {unitSize stride k m : Nat} {erasures : List Nat}
    {units : List Bytes} (h : ∀ i, i < k + m → stride * i + unitSize ≤ buf.length)
    (hunits : jerasure.decode k m erasures
      ((List.range (k + m)).map fun i => slice buf (stride * i) unitSize) = some units) :
    ∀ p ∈ units.zipIdx, stride * p.2 + p.1.length ≤ buf.length := by
  intro p hp
  have hshape := jerasure.length_decode _ _ _ _ _ hunits
  obtain ⟨-, hi, hget⟩ := List.mem_zipIdx hp
  have hcount : units.length = k + m := by
    have := congrArg List.length hshape
    simpa using this
  have hik : p.2 < k + m := by omega
  have hsize : p.1.length = unitSize := by
    have hmap : (units.map List.length)[p.2]? = some unitSize := by
      rw [hshape, List.getElem?_map, List.getElem?_map, List.getElem?_range hik]
      simp only [Option.map_some, length_slice (h p.2 hik)]
    rw [List.getElem?_map, List.getElem?_eq_getElem (by omega)] at hmap
    simp only [Option.map_some, Option.some.injEq] at hmap
    rw [hget, ← hmap]
    rfl
  rw [hsize]
  exact h p.2 hik

theorem fecDecode_spec {buf : Bytes} {unitSize stride k m : Nat} {erasures : List Nat}
    (h : ∀ i, i < k + m → stride * i + unitSize ≤ buf.length) :
    ∃ r, fecDecode jerasure buf unitSize stride k m erasures = .ok r ∧
      ∀ buf', r = .ok buf' → buf'.length = buf.length := by
  unfold fecDecode
  split
  · exact ⟨_, rfl, fun _ hr => (by cases hr)⟩
  · have hall : ((List.range (k + m)).all fun i => decide (stride * i + unitSize ≤ buf.length)) = true := by
      refine List.all_eq_true.mpr fun i hi => ?_
      exact decide_eq_true (h i (List.mem_range.mp hi))
    rw [hall]
    simp only [Bool.not_true, Bool.false_eq_true, if_false]
    split
    · exact ⟨_, rfl, fun _ hr => (by cases hr)⟩
    · next units hunits =>
      refine ⟨_, rfl, fun buf' hr => ?_⟩
      cases hr
      exact length_foldl_splice (fecDecode_units_fit h hunits)

theorem frameProcessorErasures_asserts {erasuresCount : Nat} : ∀ (n i : Nat) (erasures : List Nat),
    i + n ≤ s.unitSlots.length → OnlyAsserts (frameProcessorErasures s erasuresCount n i erasures) := by
  intro n
  induction n with
  | zero =>
    intro i erasures _ f hf
    cases hf
  | succ n ih =>
    intro i erasures hle f hf
    unfold frameProcessorErasures at hf
    rw [List.getElem?_eq_getElem (by omega)] at hf
    simp only at hf
    split at hf
    · exact ih (i + 1) erasures (by omega) f hf
    · split at hf
      · cases hf
        rfl
      · exact ih (i + 1) _ (by omega) f hf

/-- The sizes that are restored are those of units in their places. -/
theorem frameProcessorRestore_spec : ∀ (n i : Nat) (slots : List Nat), i + n ≤ slots.length →
    (∀ j, j < i + n → s.bufStridePerUnit * j + 0x50 ≤ s.frameBuf.length) →
    (∀ x ∈ slots, x ≤ s.bufSizePerUnit) →
    ∃ slots', frameProcessorRestore s n i slots = .ok slots' ∧ slots'.length = slots.length ∧
      ∀ x ∈ slots', x ≤ s.bufSizePerUnit := by
  intro n
  induction n with
  | zero => exact fun i slots _ _ hsizes => ⟨slots, rfl, rfl, hsizes⟩
  | succ n ih =>
    intro i slots hle hfit hsizes
    have hin := hfit i (by omega)
    unfold frameProcessorRestore
    simp only
    rw [if_neg (by omega)]
    split
    · rw [if_neg (by omega)]
      exact ih (i + 1) slots (by omega) (fun j hj => hfit j (by omega)) hsizes
    · rw [if_neg (by omega)]
      obtain ⟨slots', hrun, hlen, hsizes'⟩ := ih (i + 1)
        (slots.set i (s.bufSizePerUnit - u16At s.frameBuf (s.bufStridePerUnit * i)))
        (by rw [List.length_set]; omega) (fun j hj => hfit j (by omega)) (fun x hx => by
          rcases List.mem_or_eq_of_mem_set hx with hx | rfl
          · exact hsizes x hx
          · exact Nat.sub_le _ _)
      exact ⟨slots', hrun, by rw [hlen, List.length_set], hsizes'⟩

/-- There is a slot for a coding unit behind every source unit, and the padding behind that. -/
theorem FrameProcessorWf.dump_fits (h : FrameProcessorWf s) {i : Nat} (hi : i < s.unitsSourceExpected) :
    i * s.bufStridePerUnit + 0x60 ≤ s.frameBuf.length := by
  have hexpected := h.expected
  have hfec := h.fec (by omega)
  have hnext := h.unit_fits (show i + 1 < s.unitSlotsSize by omega)
  have hstride := h.stride_ge (by omega)
  rw [Nat.succ_mul] at hnext
  unfold videoBufferPaddingSize at hnext
  omega

theorem frameProcessorFec_spec (h : FrameProcessorWf s) (mem : Bool) :
    OnlyAsserts (frameProcessorFec jerasure s mem) ∧
      ∀ s' err, frameProcessorFec jerasure s mem = .ok (s', err) → FrameProcessorWf s' := by
  have hexpected := h.expected
  have herasures := @frameProcessorErasures_asserts s
    (((s.unitsSourceExpected + s.unitsFecExpected) + 2 ^ 32
      - (s.unitsSourceReceived + s.unitsFecReceived) % 2 ^ 32) % 2 ^ 32)
    (s.unitsSourceExpected + s.unitsFecExpected) 0 [] (by rw [h.slots]; omega)
  unfold frameProcessorFec
  simp only
  generalize ((s.unitsSourceExpected + s.unitsFecExpected) + 2 ^ 32
      - (s.unitsSourceReceived + s.unitsFecReceived) % 2 ^ 32) % 2 ^ 32 = count at herasures ⊢
  cases mem with
  | false => exact ⟨fun _ hf => (by cases hf), fun _ _ hs => by cases hs; exact h⟩
  | true =>
    cases hlist : frameProcessorErasures s count (s.unitsSourceExpected + s.unitsFecExpected) 0 [] with
    | error f =>
      have hf := herasures f hlist
      subst hf
      exact ⟨fun _ hf => by cases hf; rfl, fun _ _ hs => (by cases hs)⟩
    | ok erasures =>
      simp only [Bool.not_true, Bool.false_eq_true, if_false, bind, Except.bind, pure, Except.pure]
      split
      · exact ⟨fun _ hf => by cases hf; rfl, fun _ _ hs => (by cases hs)⟩
      · obtain ⟨r, hdecode, hlen⟩ := @fecDecode_spec jerasure s.frameBuf s.bufSizePerUnit
          s.bufStridePerUnit s.unitsSourceExpected s.unitsFecExpected erasures (fun i hi => by
            have hfit := h.unit_fits (show i < s.unitSlotsSize by omega)
            have hstride := h.stride
            rw [Nat.mul_comm]
            omega)
        rw [hdecode]
        cases r with
        | error err => exact ⟨fun _ hf => (by cases hf), fun _ _ hs => by cases hs; exact h⟩
        | ok buf =>
          have hbuf := hlen buf rfl
          have hwf : FrameProcessorWf { s with frameBuf := buf } := by
            refine ⟨⟨h.slots, ?_⟩, h.expected, h.fec, h.stride, h.stride_ge, h.fits, h.sizes⟩
            rcases h.buf with hl | ⟨hnil, hzero⟩
            · exact Or.inl (by rw [← hl]; exact hbuf)
            · exact Or.inr ⟨List.eq_nil_of_length_eq_zero (by rw [hbuf, hnil]; rfl), hzero⟩
          obtain ⟨slots, hrestore, hslots, hsizes⟩ := @frameProcessorRestore_spec
            { s with frameBuf := buf } s.unitsSourceExpected 0 s.unitSlots
            (by rw [h.slots]; omega) (fun j hj => by
              have hdump := hwf.dump_fits (show j < s.unitsSourceExpected by omega)
              rw [Nat.mul_comm]
              exact Nat.le_trans (Nat.add_le_add_left (by decide) _) hdump) h.sizes
          simp only
          rw [hrestore]
          exact ⟨fun _ hf => (by cases hf), fun _ _ hs => by
            cases hs
            exact ⟨⟨hslots.trans h.slots, hwf.buf⟩, h.expected, h.fec, h.stride, h.stride_ge, h.fits,
              hsizes⟩⟩

/-! ## The whole frame -/

/-- What has been moved ends before the unit that is moved next. -/
theorem frameProcessorCompact_spec (h : FrameProcessorWf s) : ∀ (n i cur : Nat) (buf : Bytes),
    i + n ≤ s.unitsSourceExpected → cur ≤ i * s.bufStridePerUnit → buf.length = s.frameBuf.length →
    ∃ buf' cur', frameProcessorCompact s n i cur buf = .ok (buf', cur') ∧
      buf'.length = s.frameBuf.length := by
  intro n
  induction n with
  | zero => exact fun i cur buf _ _ hlen => ⟨buf, cur, rfl, hlen⟩
  | succ n ih =>
    intro i cur buf hle hcur hlen
    have hexpected := h.expected
    have hdump := h.dump_fits (show i < s.unitsSourceExpected by omega)
    have hfit := h.unit_fits (show i < s.unitSlotsSize by omega)
    have hslot : i < s.unitSlots.length := by rw [h.slots]; omega
    have hsize := h.sizes _ (List.getElem_mem hslot)
    have hstride := h.stride
    have hnext : (i + 1) * s.bufStridePerUnit = i * s.bufStridePerUnit + s.bufStridePerUnit :=
      Nat.succ_mul _ _
    unfold frameProcessorCompact
    rw [List.getElem?_eq_getElem hslot]
    simp only
    split
    · exact ih (i + 1) cur buf (by omega) (by omega) hlen
    · split
      · have hmul : i * s.bufSizePerUnit ≤ i * s.bufStridePerUnit := Nat.mul_le_mul_left i hstride
        rw [if_neg (by omega)]
        exact ih (i + 1) cur buf (by omega) (by omega) hlen
      · next htwo =>
        rw [if_neg (by omega)]
        have hpart : (slice buf (i * s.bufStridePerUnit + 2) (s.unitSlots[i] - 2)).length
            = s.unitSlots[i] - 2 := length_slice (by omega)
        refine ih (i + 1) _ _ (by omega) (by omega) ?_
        rw [length_splice (by rw [hpart]; omega)]
        exact hlen

theorem frameProcessorFlush_spec (h : FrameProcessorWf s) (mem : Bool) :
    OnlyAsserts (frameProcessorFlush jerasure s mem) ∧
      ∀ s' result cur, frameProcessorFlush jerasure s mem = .ok (s', result, cur) →
        FrameProcessorWf s' := by
  -- whatever comes out of decoding is moved together
  have hcompact : ∀ s1 : FrameProcessor, FrameProcessorWf s1 → ∃ buf cur,
      frameProcessorCompact s1 s1.unitsSourceExpected 0 0 s1.frameBuf = .ok (buf, cur) ∧
        ∀ stats, FrameProcessorWf { s1 with frameBuf := buf, streamStats := stats } := by
    intro s1 h1
    obtain ⟨buf, cur, hrun, hlen⟩ := frameProcessorCompact_spec h1 s1.unitsSourceExpected 0 0
      s1.frameBuf (by omega) (Nat.zero_le _) rfl
    refine ⟨buf, cur, hrun, fun stats => ⟨⟨h1.slots, ?_⟩, h1.expected, h1.fec, h1.stride,
      h1.stride_ge, h1.fits, h1.sizes⟩⟩
    rcases h1.buf with hl | ⟨hnil, hzero⟩
    · exact Or.inl (by rw [← hl]; exact hlen)
    · exact Or.inr ⟨List.eq_nil_of_length_eq_zero (by rw [hlen, hnil]; rfl), hzero⟩
  unfold frameProcessorFlush
  split
  · exact ⟨fun _ hf => (by cases hf), fun _ _ _ hs => by cases hs; exact h⟩
  · simp only [bind, Except.bind, pure, Except.pure]
    split
    · obtain ⟨hasserts, hok⟩ := @frameProcessorFec_spec jerasure s h mem
      cases hfec : frameProcessorFec jerasure s mem with
      | error f =>
        have hf := hasserts f hfec
        subst hf
        exact ⟨fun _ hf => by cases hf; rfl, fun _ _ _ hs => (by cases hs)⟩
      | ok r =>
        obtain ⟨s1, err⟩ := r
        obtain ⟨buf, cur, hrun, hwf⟩ := hcompact s1 (hok s1 err hfec)
        cases err with
        | success =>
          simp only
          rw [hrun]
          exact ⟨fun _ hf => (by cases hf), fun _ _ _ hs => by cases hs; exact hwf _⟩
        | _ =>
          simp only
          rw [hrun]
          exact ⟨fun _ hf => (by cases hf), fun _ _ _ hs => by cases hs; exact hwf _⟩
    · obtain ⟨buf, cur, hrun, hwf⟩ := hcompact s h
      rw [hrun]
      exact ⟨fun _ hf => (by cases hf), fun _ _ _ hs => by cases hs; exact hwf _⟩

/-! ## Every sequence of calls -/

variable {r r' : FrameProcessorRun} {l : FrameProcessorLabel}

/-- Every access was inside of the arrays, and the fields say how large these are. -/
structure FrameProcessorInBounds (r : FrameProcessorRun) : Prop where
  alloc : FrameProcessorAlloc r.proc
  fault : ∀ f, r.fault = some f → f = .assertion

/-- What a call does. -/
inductive FrameProcessorCall (jerasure : Jerasure) (r : FrameProcessorRun) :
    FrameProcessorLabel → FrameProcessorRun → Prop
  | allocFrame (u : TakionAVUnit) (slotsMem frameMem : Bool) :
      FrameProcessorCall jerasure r (.allocFrame u slotsMem frameMem)
        (r.after (if u.packet.unitsInFrameTotal < u.packet.unitsInFrameFec then r.usable
            else allocFrameFits r.proc u slotsMem frameMem)
          ((frameProcessorAllocFrame r.proc u slotsMem frameMem).map Prod.fst))
  | putUnit (u : TakionAVUnit) : FrameProcessorCall jerasure r (.putUnit u)
      (r.after r.usable ((frameProcessorPutUnit r.proc u).map Prod.fst))
  | reportPacketStats : FrameProcessorCall jerasure r .reportPacketStats
      { r with stats := frameProcessorReportPacketStats r.proc r.stats }
  | flush (mem : Bool) : FrameProcessorCall jerasure r (.flush mem)
      (r.after r.usable ((frameProcessorFlush jerasure r.proc mem).map Prod.fst))

theorem frameProcessorStep_cases (h : frameProcessorStep jerasure r l = some r') :
    r.fault = none ∧ FrameProcessorCall jerasure r l r' := by
  unfold frameProcessorStep at h
  split at h
  · cases h
  · next hfault =>
    refine ⟨hfault, ?_⟩
    cases l with
    | allocFrame u slotsMem frameMem =>
      cases h
      exact .allocFrame u slotsMem frameMem
    | putUnit u =>
      cases h
      exact .putUnit u
    | reportPacketStats =>
      cases h
      exact .reportPacketStats
    | flush mem =>
      cases h
      exact .flush mem

/-- No unit is put or flushed after a frame could not be allocated, and none behind the last slot. -/
def frameInUse (r : FrameProcessorRun) : FrameProcessorLabel → Bool
  | .putUnit u => r.usable && (decide (u.packet.unitIndex ≠ r.proc.unitSlotsSize)
      || decide (u.packet.dataSize = 0) || decide (r.proc.bufSizePerUnit < u.packet.dataSize))
  | .flush _ => r.usable
  | _ => true

structure FrameProcessorInvariant (r : FrameProcessorRun) : Prop where
  inBounds : FrameProcessorInBounds r
  wf : r.usable = true → FrameProcessorWf r.proc

theorem frameProcessorInvariant_step (h : FrameProcessorInvariant r) (hG : frameInUse r l = true)
    (hs : (frameProcessorLts jerasure).step r l r') : FrameProcessorInvariant r' := by
  obtain ⟨hfault, hcall⟩ := frameProcessorStep_cases hs
  have hnone : ∀ f, r.fault = some f → f = .assertion := fun f hf => by
    rw [hfault] at hf
    cases hf
  cases hcall with
  | allocFrame u slotsMem frameMem =>
    obtain ⟨s', err, hrun, halloc, hsame, hfits⟩ :=
      frameProcessorAllocFrame_spec h.inBounds.alloc u slotsMem frameMem
    rw [hrun]
    refine ⟨⟨halloc, hnone⟩, fun husable => ?_⟩
    by_cases hless : u.packet.unitsInFrameTotal < u.packet.unitsInFrameFec
    · rw [if_pos hless] at husable
      show FrameProcessorWf s'
      rw [hsame hless]
      exact h.wf husable
    · rw [if_neg hless] at husable
      exact hfits hless husable
  | putUnit u =>
    simp only [frameInUse, Bool.and_eq_true, Bool.or_eq_true, decide_eq_true_eq] at hG
    obtain ⟨s', err, hrun, hwf⟩ := frameProcessorPutUnit_spec (h.wf hG.1) (or_assoc.mp hG.2)
    rw [hrun]
    exact ⟨⟨hwf.toFrameProcessorAlloc, hnone⟩, fun _ => hwf⟩
  | reportPacketStats => exact ⟨⟨h.inBounds.alloc, hnone⟩, h.wf⟩
  | flush mem =>
    obtain ⟨hasserts, hok⟩ := @frameProcessorFlush_spec jerasure _ (h.wf hG) mem
    cases hrun : frameProcessorFlush jerasure r.proc mem with
    | error f =>
      refine ⟨⟨h.inBounds.alloc, fun g hg => ?_⟩, h.wf⟩
      cases hg
      exact hasserts f hrun
    | ok x =>
      have hwf := hok x.1 x.2.1 x.2.2 hrun
      exact ⟨⟨hwf.toFrameProcessorAlloc, hnone⟩, fun _ => hwf⟩

theorem frameProcessorInvariant_invariant (jerasure : Jerasure) :
    ((frameProcessorLts jerasure).restrict fun r l => frameInUse r l = true).Invariant
      FrameProcessorInvariant where
  init := fun r hr => by
    rw [show r = _ from hr]
    refine ⟨⟨⟨rfl, Or.inr ⟨rfl, rfl⟩⟩, fun _ hf => (by cases hf)⟩, fun _ => ?_⟩
    exact ⟨⟨rfl, Or.inr ⟨rfl, rfl⟩⟩, Nat.le_refl _, fun hn => absurd rfl hn, Nat.le_refl _,
      fun hn => absurd rfl hn, Nat.le_refl _, fun _ hx => absurd hx List.not_mem_nil⟩
  step := fun _ _ _ h hs => frameProcessorInvariant_step h hs.1 hs.2

/-- **Every access of the frame processor is inside of its arrays**, in every sequence of calls that
uses allocated frames only; and a unit that is put into one is put inside if and only if it does not
go behind the last slot. -/
theorem frameProcessorInBounds_iff (jerasure : Jerasure)
    (hr : ((frameProcessorLts jerasure).restrict fun r l => frameInUse r l = true).Reachable r) :
    FrameProcessorInBounds r ∧ ∀ u r', r.usable = true →
      (frameProcessorLts jerasure).step r (.putUnit u) r' →
      (FrameProcessorInBounds r' ↔ frameInUse r (.putUnit u) = true) := by
  have h := (frameProcessorInvariant_invariant jerasure).reachable hr
  refine ⟨h.inBounds, fun u r' husable hs => ⟨fun hin => ?_, fun hG =>
    (frameProcessorInvariant_step h hG hs).inBounds⟩⟩
  cases hG : frameInUse r (.putUnit u) with
  | true => rfl
  | false =>
    simp only [frameInUse, husable, Bool.true_and, Bool.or_eq_false_iff, decide_eq_false_iff_not,
      Nat.not_lt, not_not] at hG
    have hbehind := frameProcessorPutUnit_behind h.inBounds.alloc hG.1.1 hG.1.2 hG.2
    cases (frameProcessorStep_cases hs).2
    rw [hbehind] at hin
    cases hin.fault _ rfl

/-! ### Runs -/

/-- A decoder that gives up. -/
def noJerasure : Jerasure where
  decode _ _ _ _ := none
  length_decode _ _ _ _ _ h := by cases h

/-- A unit of a video frame. -/
def exampleUnit (unitIndex unitsInFrameTotal unitsInFrameFec : Nat) (bytes : Bytes) : TakionAVUnit where
  packet := ⟨0, 1, false, true, false, unitIndex, unitsInFrameTotal, unitsInFrameFec, 0, 0, 0, 0, 0, 0,
    bytes.length⟩
  bytes := bytes
  length_bytes := rfl

def emptyFrameProcessor : FrameProcessorRun := ⟨frameProcessorInit, ⟨0, 0⟩, true, none⟩

/-- A frame of two units, and one more that comes twice. -/
def twoUnits : List FrameProcessorLabel :=
  [.allocFrame (exampleUnit 0 3 1 [0, 0, 7]) true true, .putUnit (exampleUnit 0 3 1 [0, 0, 7]),
    .putUnit (exampleUnit 1 3 1 [0, 1, 8]), .putUnit (exampleUnit 1 3 1 [0, 1, 8]), .flush true]

theorem twoUnits_run :
    (Lts.runFun (Lts.guarded (frameProcessorStep noJerasure) fun r l => frameInUse r l = true)
        emptyFrameProcessor twoUnits).map
        (fun r => (r.fault, r.usable, r.proc.frameBuf.take 2, r.proc.unitSlotsSize))
      = some (none, true, [7, 8], 3) := by
  decide +kernel

theorem frameProcessorInBounds_twoUnits : ∃ r : FrameProcessorRun,
    r.proc.frameBuf.take 2 = [7, 8] ∧ FrameProcessorInBounds r ∧ ∀ r',
      (frameProcessorLts noJerasure).step r (.putUnit (exampleUnit 2 3 1 [0, 0, 9])) r' →
      (FrameProcessorInBounds r' ↔ frameInUse r (.putUnit (exampleUnit 2 3 1 [0, 0, 9])) = true) := by
  obtain ⟨r, hrun, hobs⟩ := Option.map_eq_some_iff.mp twoUnits_run
  simp only [Prod.mk.injEq] at hobs
  have hr : ((frameProcessorLts noJerasure).restrict fun r l => frameInUse r l = true).Reachable r :=
    Lts.Reachable.runGuarded (.init rfl) hrun
  exact ⟨r, hobs.2.2.1, (frameProcessorInBounds_iff noJerasure hr).1,
    fun r' hs => (frameProcessorInBounds_iff noJerasure hr).2 _ r' hobs.2.1 hs⟩

/-- A unit with an index behind the two slots of its frame. -/
def unitBehind : List FrameProcessorLabel :=
  [.allocFrame (exampleUnit 0 1 0 [0, 0, 7]) true true, .putUnit (exampleUnit 2 1 0 [0, 0, 7])]

/-- A second frame with more units than there can be slots for, and its flush. -/
def unallocatedFlush : List FrameProcessorLabel :=
  [.allocFrame (exampleUnit 0 1 0 [0, 0, 7]) true true,
    .allocFrame (exampleUnit 0 0x800 0 [0, 0, 7]) true true, .flush true]

/-- **Both access memory behind the slots.** -/
theorem not_frameProcessorInBounds :
    (∃ r : FrameProcessorRun, (frameProcessorLts noJerasure).Reachable r ∧
      Lts.runFun (frameProcessorStep noJerasure) emptyFrameProcessor unitBehind = some r ∧
      ¬ FrameProcessorInBounds r) ∧
    (∃ r : FrameProcessorRun, (frameProcessorLts noJerasure).Reachable r ∧
      Lts.runFun (frameProcessorStep noJerasure) emptyFrameProcessor unallocatedFlush = some r ∧
      ¬ FrameProcessorInBounds r) := by
  have hreach : ∀ labels r,
      Lts.runFun (frameProcessorStep noJerasure) emptyFrameProcessor labels = some r →
      (frameProcessorLts noJerasure).Reachable r := fun _ _ hrun => Lts.Reachable.runFun (.init rfl) hrun
  have hfault : ∀ labels, (Lts.runFun (frameProcessorStep noJerasure) emptyFrameProcessor labels).map
      FrameProcessorRun.fault = some (some .outOfBounds) → ∃ r : FrameProcessorRun,
        (frameProcessorLts noJerasure).Reachable r ∧
        Lts.runFun (frameProcessorStep noJerasure) emptyFrameProcessor labels = some r ∧
        ¬ FrameProcessorInBounds r := by
    intro labels hobs
    obtain ⟨r, hrun, hfault⟩ := Option.map_eq_some_iff.mp hobs
    exact ⟨r, hreach labels r hrun, hrun, fun hin => by cases hin.fault _ hfault⟩
  exact ⟨hfault unitBehind (by decide +kernel), hfault unallocatedFlush (by decide +kernel)⟩

end Chiaki
