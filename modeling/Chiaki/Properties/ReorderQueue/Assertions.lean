import Chiaki.Properties.ReorderQueue.Drop

/-!
# When the assertions of the reorder queue hold

`chiaki_reorder_queue_push` has three tests before it looks for room: the number is inside the
window, it is before `begin`, or it is not before the end. The last one is an assertion. Numbers half
the circle apart are neither before nor after each other, and a sum of two 16-bit numbers may have a
carry, so there are numbers that meet none of the three.

* `Unplaced` — these numbers, for queues of any size
* `reorderQueuePush_cases` — push fails on them and on no others
* `reorderQueue_assertions` — without them no assertion fails in any run
-/

namespace Chiaki

open Infra ReorderQueue

variable {α : Type} {bits : Nat} {width : SeqNumWidth} {q : ReorderQueue α}

/-! ## The statement -/

/-- The numbers that no test of push finds a place for. `ahead` is how far the number is ahead of
`begin`, around the circle. -/
def ReorderQueue.Unplaced (width : SeqNumWidth) (q : ReorderQueue α) (seqNum : Nat) : Prop :=
  let half := 2 ^ (width.bits - 1)
  let ahead := (seqNum + 2 ^ width.bits - q.begin % 2 ^ width.bits) % 2 ^ width.bits
  let count := q.count % 2 ^ width.bits
  -- opposite to `begin`, and the queue is empty or the number is inside it
  (ahead = half ∧ (count = 0 ∨ half < count)) ∨
  -- opposite to the end
  (ahead < half ∧ count = ahead + half) ∨
  -- the end, which has a carry
  (width = .bits16 ∧ 0 < ahead ∧ ahead ≤ half ∧ count = ahead ∧
    2 ^ width.bits ≤ q.begin % 2 ^ width.bits + count) ∨
  -- `begin`, which has a carry
  (width = .bits16 ∧ q.begin = 2 ^ width.bits ∧ ahead = 0 ∧ 0 < count ∧ count < half)

instance (width : SeqNumWidth) (q : ReorderQueue α) (seqNum : Nat) :
    Decidable (q.Unplaced width seqNum) :=
  inferInstanceAs (Decidable (_ ∨ _))

/-- The calls with a number of the width that push finds a place for. -/
def PlacedCall (width : SeqNumWidth) : Except Fault (ReorderQueue α) → ReorderQueueCall α → Prop
  | .ok q, .push seqNum _ => seqNum < 2 ^ width.bits ∧ ¬ q.Unplaced width seqNum
  | _, _ => True

instance : (s : Except Fault (ReorderQueue α)) → (call : ReorderQueueCall α) →
    Decidable (PlacedCall width s call)
  | .ok _, .push _ _ => inferInstanceAs (Decidable (_ ∧ _))
  | .ok _, .pull | .ok _, .peek _ | .ok _, .drop _ | .ok _, .setDropStrategy _
  | .ok _, .setDropCb | .error _, _ => instDecidableTrue

/-! ## Queues of any size -/

/-- The function pointers of a queue made by `init`. -/
def SeqNumWidth.ops : SeqNumWidth → SeqNumOps
  | .bits16 => seqNum16Ops
  | .bits32 => seqNum32Ops

theorem SeqNumWidth.narrowOps : (width : SeqNumWidth) → NarrowOps width.bits width.ops
  | .bits16 => narrowOps16
  | .bits32 => narrowOps32

theorem SeqNumWidth.bits_pos (width : SeqNumWidth) : 0 < width.bits := by cases width <;> decide

/-- What every call keeps of a queue. Other than `Wf` it says nothing about the size. -/
structure ReorderQueue.InUse (width : SeqNumWidth) (q : ReorderQueue α) : Prop where
  ops : q.ops = width.ops
  count_le : q.count ≤ q.size
  /-- `begin` has no more than the carry. -/
  begin_le : q.begin < 2 ^ width.bits ∨ width = .bits16 ∧ q.begin = 2 ^ width.bits

theorem ReorderQueue.InUse.narrowOps (h : q.InUse width) : NarrowOps width.bits q.ops := by
  rw [h.ops]
  exact width.narrowOps

theorem SeqNumWidth.add_one_le (width : SeqNumWidth) (x : Nat) :
    width.ops.add x 1 < 2 ^ width.bits ∨ width = .bits16 ∧ width.ops.add x 1 = 2 ^ width.bits := by
  cases width with
  | bits16 =>
    have hsum : SeqNumWidth.bits16.ops.add x 1 = x % 2 ^ 16 + 1 := rfl
    rw [hsum]
    simp only [SeqNumWidth.bits, true_and]
    omega
  | bits32 => exact Or.inl (Nat.mod_lt _ (Nat.two_pow_pos _))

/-! ## The tests -/

/-- One of the tests of push finds a place for the number. -/
def ReorderQueue.placed (q : ReorderQueue α) (seqNum : Nat) : Bool :=
  (q.ge seqNum q.begin && q.ops.lt seqNum (q.ops.add q.begin q.count)) ||
    (q.ops.lt seqNum q.begin || q.ge seqNum (q.ops.add q.begin q.count))

/-- How far `seqNum` is ahead of `b`, around the circle. -/
theorem ahead_eq {bits b seqNum a : Nat} (hs : seqNum < 2 ^ bits)
    (ha : (seqNum + 2 ^ bits - b % 2 ^ bits) % 2 ^ bits = a) :
    a < 2 ^ bits ∧ (seqNum = b % 2 ^ bits + a ∨ seqNum + 2 ^ bits = b % 2 ^ bits + a) := by
  have hb := Nat.mod_lt b (Nat.two_pow_pos bits)
  have hlt := Nat.mod_lt (seqNum + 2 ^ bits - b % 2 ^ bits) (Nat.two_pow_pos bits)
  refine ⟨ha ▸ hlt, ?_⟩
  rcases Nat.lt_or_ge seqNum (b % 2 ^ bits) with hbefore | hafter
  · rw [Nat.mod_eq_of_lt (by omega)] at ha
    omega
  · rw [show seqNum + 2 ^ bits - b % 2 ^ bits = seqNum - b % 2 ^ bits + 2 ^ bits by omega,
      Nat.add_mod_right, Nat.mod_eq_of_lt (by omega)] at ha
    omega

/-- What the tests say about a number `a` ahead of `begin`, where the end is `c` ahead of it. -/
structure ReorderQueue.Tests (width : SeqNumWidth) (q : ReorderQueue α) (seqNum a c : Nat) :
    Prop where
  ltBegin : q.ops.lt seqNum q.begin = true ↔ 2 ^ (width.bits - 1) < a
  gtBegin : q.ops.gt seqNum q.begin = true ↔ 0 < a ∧ a < 2 ^ (width.bits - 1)
  eqBegin : seqNum = q.begin ↔ a = 0 ∧ q.begin < 2 ^ width.bits
  ltEnd : q.ops.lt seqNum (q.ops.add q.begin q.count) = true ↔
    (c ≤ a ∧ c + 2 ^ (width.bits - 1) < a) ∨ (a < c ∧ c < a + 2 ^ (width.bits - 1))
  gtEnd : q.ops.gt seqNum (q.ops.add q.begin q.count) = true ↔
    (c < a ∧ a < c + 2 ^ (width.bits - 1)) ∨ a + 2 ^ (width.bits - 1) < c
  eqEnd : seqNum = q.ops.add q.begin q.count ↔
    a = c ∧ (width = .bits32 ∨ q.begin % 2 ^ width.bits + c < 2 ^ width.bits)

theorem ReorderQueue.InUse.tests (h : q.InUse width) {seqNum a c : Nat}
    (hs : seqNum < 2 ^ width.bits) (hc : q.count % 2 ^ width.bits = c)
    (ha : (seqNum + 2 ^ width.bits - q.begin % 2 ^ width.bits) % 2 ^ width.bits = a) :
    q.Tests width seqNum a c := by
  obtain ⟨halt, ha⟩ := ahead_eq hs ha
  have hclt := hc ▸ Nat.mod_lt q.count (Nat.two_pow_pos width.bits)
  have hblt := Nat.mod_lt q.begin (Nat.two_pow_pos width.bits)
  have hpow : 2 ^ width.bits = 2 * 2 ^ (width.bits - 1) := by
    exact_mod_cast two_pow_half width.bits_pos
  have hops := h.narrowOps
  have hend : q.ops.add q.begin q.count % 2 ^ width.bits = q.begin % 2 ^ width.bits + c ∨
      q.ops.add q.begin q.count % 2 ^ width.bits + 2 ^ width.bits = q.begin % 2 ^ width.bits + c := by
    have hadd : q.ops.add q.begin q.count % 2 ^ width.bits
        = (q.begin % 2 ^ width.bits + c) % 2 ^ width.bits := by
      rw [← hc, ← Nat.add_mod]
      exact hops.add _ _
    rw [hadd]
    rcases Nat.lt_or_ge (q.begin % 2 ^ width.bits + c) (2 ^ width.bits) with hlt | hge
    · rw [Nat.mod_eq_of_lt hlt]
      exact Or.inl rfl
    · rw [Nat.mod_eq_sub_mod hge, Nat.mod_eq_of_lt (by omega)]
      omega
  have helt := Nat.mod_lt (q.ops.add q.begin q.count) (Nat.two_pow_pos width.bits)
  have hbegin := h.begin_le
  refine ⟨?_, ?_, ?_, ?_, ?_, ?_⟩
  · rw [hops.lt, seqNumLt_eq_gt, Nat.mod_eq_of_lt hs, seqNumGt_iff_lt]
    omega
  · rw [hops.gt, Nat.mod_eq_of_lt hs, seqNumGt_iff_lt]
    omega
  · rcases hbegin with hlt | ⟨-, heq⟩
    · rw [Nat.mod_eq_of_lt hlt] at ha
      omega
    · omega
  · rw [hops.lt, seqNumLt_eq_gt, Nat.mod_eq_of_lt hs, seqNumGt_iff_lt]
    omega
  · rw [hops.gt, Nat.mod_eq_of_lt hs, seqNumGt_iff_lt]
    omega
  · cases width with
    | bits16 =>
      have hsum : q.ops.add q.begin q.count = q.begin % 2 ^ 16 + c := by
        rw [h.ops, ← hc]
        rfl
      simp only [SeqNumWidth.bits, reduceCtorEq, false_or] at *
      omega
    | bits32 =>
      have hsum : q.ops.add q.begin q.count % 2 ^ 32 = q.ops.add q.begin q.count := by
        rw [h.ops]
        exact Nat.mod_mod _ _
      simp only [SeqNumWidth.bits, true_or, and_true] at *
      omega

theorem ReorderQueue.placed_iff (h : q.InUse width) {seqNum : Nat} (hs : seqNum < 2 ^ width.bits) :
    q.placed seqNum = true ↔ ¬ q.Unplaced width seqNum := by
  have ht := h.tests hs rfl rfl
  unfold placed ge Unplaced
  simp only [Bool.or_eq_true, Bool.and_eq_true, beq_iff_eq, ht.ltBegin, ht.gtBegin, ht.eqBegin,
    ht.ltEnd, ht.gtEnd, ht.eqEnd]
  have hbegin := h.begin_le
  have hpow : 2 ^ width.bits = 2 * 2 ^ (width.bits - 1) := by
    exact_mod_cast two_pow_half width.bits_pos
  have halt := Nat.mod_lt (seqNum + 2 ^ width.bits - q.begin % 2 ^ width.bits)
    (Nat.two_pow_pos width.bits)
  have hclt := Nat.mod_lt q.count (Nat.two_pow_pos width.bits)
  have hblt := Nat.mod_lt q.begin (Nat.two_pow_pos width.bits)
  have hcarry : q.begin = 2 ^ width.bits → q.begin % 2 ^ width.bits = 0 := by
    intro heq
    rw [heq, Nat.mod_self]
  generalize (seqNum + 2 ^ width.bits - q.begin % 2 ^ width.bits) % 2 ^ width.bits = a at *
  generalize q.count % 2 ^ width.bits = c at *
  generalize q.begin % 2 ^ width.bits = b at *
  cases width with
  | bits16 =>
    simp only [SeqNumWidth.bits, reduceCtorEq, false_or, true_and] at *
    omega
  | bits32 =>
    simp only [SeqNumWidth.bits, reduceCtorEq, true_or, and_true, false_and, or_false] at *
    omega

/-- With fewer than `2 ^ 31` slots, 32-bit numbers have a place unless the queue is empty and the
number is opposite to `begin`. -/
theorem ReorderQueue.unplaced_bits32 (h : q.InUse .bits32) (hexp : q.sizeExp ≤ 30) {seqNum : Nat}
    (hs : seqNum < 2 ^ 32) :
    q.Unplaced .bits32 seqNum ↔ q.count = 0 ∧ seqNum ≡ q.begin + 2 ^ 31 [MOD 2 ^ 32] := by
  have hsize : q.count ≤ 2 ^ 30 := h.count_le.trans (Nat.pow_le_pow_right (by decide) hexp)
  have hbegin := h.begin_le
  unfold Unplaced Nat.ModEq
  simp only [SeqNumWidth.bits, reduceCtorEq, false_and, or_false] at *
  omega

/-! ## Room for the number -/

/-- "move end until new_end" ends before the slots are used up. Where the new end is opposite to the
end, it does not begin. -/
theorem reorderQueueExtend_ok (hbits : 0 < bits) {newEnd : Nat} :
    ∀ (free : Nat) (q : ReorderQueue α) (m : Nat), NarrowOps bits q.ops →
      q.count + free = q.size → newEnd ≡ q.begin + (q.count + m) [MOD 2 ^ bits] →
      (m ≤ free ∧ m < 2 ^ (bits - 1) ∨ m = 2 ^ (bits - 1)) →
      ∃ q', reorderQueueExtend newEnd free q = .ok q' ∧ q'.SameFrame q ∧ q'.count ≤ q'.size := by
  intro free
  induction free with
  | zero =>
    intro q m hops hfree hnew hm
    have hpos := Nat.two_pow_pos (bits - 1)
    have hstop : q.ops.lt (q.ops.add q.begin q.count) newEnd = false := by
      rcases hm with ⟨hm0, -⟩ | rfl
      · rw [hops.lt_eq hbits (hops.add _ _) hnew (by omega) (by omega)]
        exact decide_eq_false (by omega)
      · exact hops.lt_opposite hbits (hops.add _ _) hnew (Or.inr rfl)
    exact ⟨q, by simp [reorderQueueExtend, hstop], .refl q, by omega⟩
  | succ free ih =>
    intro q m hops hfree hnew hm
    have hpos := Nat.two_pow_pos (bits - 1)
    rcases hm with ⟨hle, hlt⟩ | rfl
    · have htest : q.ops.lt (q.ops.add q.begin q.count) newEnd = decide (q.count < q.count + m) :=
        hops.lt_eq hbits (hops.add _ _) hnew (by omega) (by omega)
      rw [reorderQueueExtend, htest]
      rcases Nat.eq_zero_or_pos m with rfl | hmpos
      · exact ⟨q, by simp, .refl q, by omega⟩
      · -- one more slot is taken into use
        let e : ReorderQueueEntry α := { q.entry (q.ops.add q.begin q.count) with set := false }
        let q1 : ReorderQueue α :=
          { q.setEntry (q.ops.add q.begin q.count) e with count := q.count + 1 }
        have hnew1 : newEnd ≡ q1.begin + (q1.count + (m - 1)) [MOD 2 ^ bits] := by
          show newEnd ≡ q.begin + (q.count + 1 + (m - 1)) [MOD 2 ^ bits]
          rwa [show q.count + 1 + (m - 1) = q.count + m by omega]
        obtain ⟨q', hq', hf, hcount⟩ := ih q1 (m - 1) hops
          (show q.count + 1 + free = q.size by omega) hnew1 (Or.inl ⟨by omega, by omega⟩)
        refine ⟨q', ?_, hf.trans ⟨rfl, rfl, rfl, rfl, rfl⟩, hcount⟩
        simp only [show q.count < q.count + m by omega, decide_true, if_true]
        exact hq'
    · have hstop := hops.lt_opposite hbits (hops.add q.begin q.count) hnew (Or.inr rfl)
      refine ⟨q, ?_, .refl q, by omega⟩
      rw [reorderQueueExtend, hstop]
      simp

/-- A number that lies less than half the circle beyond the end can be stored if there is no need to
drop others first. -/
theorem reorderQueueStore_ok (hbits : 0 < bits) (hops : NarrowOps bits q.ops)
    (hle : q.count ≤ q.size) {seqNum u : Nat}
    (hs : seqNum ≡ q.begin + (q.count + u) [MOD 2 ^ bits]) (hu : u < 2 ^ (bits - 1))
    {totalEnd : Nat} (htotal : totalEnd ≡ q.begin + q.size [MOD 2 ^ bits])
    (hroom : q.ops.lt totalEnd (q.ops.add seqNum 1) = false) (user : α) :
    ∃ q', reorderQueueStore q seqNum user = .ok q' ∧ q'.SameFrame q ∧ q'.count ≤ q'.size := by
  have hnew : q.ops.add seqNum 1 ≡ q.begin + (q.count + (u + 1)) [MOD 2 ^ bits] :=
    (hops.add seqNum 1).trans (hs.add_right 1)
  have hm : u + 1 ≤ q.size - q.count ∧ u + 1 < 2 ^ (bits - 1) ∨ u + 1 = 2 ^ (bits - 1) := by
    rcases Nat.lt_or_ge (u + 1) (2 ^ (bits - 1)) with hlt | hge
    · refine Or.inl ⟨?_, hlt⟩
      by_contra hfull
      rw [hops.lt_eq hbits htotal hnew (by omega) (by omega), decide_eq_false_iff_not] at hroom
      omega
    · exact Or.inr (by omega)
  obtain ⟨q', hq', hf, hcount⟩ := reorderQueueExtend_ok hbits (q.size - q.count) q (u + 1) hops
    (Nat.add_sub_of_le hle) hnew hm
  refine ⟨q'.setEntry seqNum ⟨user, true⟩, ?_, ⟨hf.sizeExp, hf.ops, hf.dropStrategy, hf.dropCb,
    hf.begin⟩, hcount⟩
  simp only [reorderQueueStore, hq']
  rfl

/-- What "drop first until empty or enough space" ends with. -/
structure FirstDropped (bits end_ newEnd : Nat) (q r : ReorderQueue α) : Prop where
  frame : r.SameFrame { q with begin := r.begin }
  count_le : r.count ≤ q.size
  end_eq : end_ ≡ r.begin + r.count [MOD 2 ^ bits]
  begin : r.begin = q.begin ∨ ∃ x, r.begin = q.ops.add x 1
  room : r.count = 0 ∨ ∃ totalEnd, totalEnd ≡ end_ + (q.size - r.count) [MOD 2 ^ bits] ∧
    q.ops.lt totalEnd newEnd = false

theorem reorderQueueDropFirst_dropped (end_ newEnd : Nat) :
    ∀ (n : Nat) (q : ReorderQueue α) (totalEnd : Nat), NarrowOps bits q.ops → q.count = n →
      q.count ≤ q.size → end_ ≡ q.begin + q.count [MOD 2 ^ bits] →
      totalEnd ≡ end_ + (q.size - q.count) [MOD 2 ^ bits] →
      FirstDropped bits end_ newEnd q (reorderQueueDropFirst end_ newEnd n q totalEnd).1 := by
  intro n
  induction n with
  | zero =>
    intro q totalEnd hops hn hle hend htotal
    exact ⟨.refl q, hle, hend, Or.inl rfl, Or.inl hn⟩
  | succ n ih =>
    intro q totalEnd hops hn hle hend htotal
    rw [reorderQueueDropFirst]
    cases htest : q.ops.lt totalEnd newEnd with
    | false => exact ⟨.refl q, hle, hend, Or.inl rfl, Or.inr ⟨totalEnd, htotal, htest⟩⟩
    | true =>
      have hend1 : end_ ≡ q.ops.add q.begin 1 + (q.count - 1) [MOD 2 ^ bits] := by
        refine hend.trans ?_
        rw [show q.begin + q.count = q.begin + 1 + (q.count - 1) by omega]
        exact (hops.add q.begin 1).symm.add_right _
      have h := ih { q with begin := q.ops.add q.begin 1, count := q.count - 1 }
        (q.ops.add end_ (q.size - (q.count - 1))) hops (show q.count - 1 = n by omega)
        (show q.count - 1 ≤ q.size by omega) hend1 (hops.add _ _)
      refine ⟨⟨h.frame.sizeExp, h.frame.ops, h.frame.dropStrategy, h.frame.dropCb, rfl⟩,
        h.count_le, h.end_eq, ?_, h.room⟩
      rcases h.begin with hb | hsum
      · exact Or.inr ⟨_, hb⟩
      · exact Or.inr hsum

/-! ## Calls -/

/-- A number that is not before another one is less than half the circle ahead of it. -/
theorem NarrowOps.ahead_of_gt {ops : SeqNumOps} (h : NarrowOps bits ops) (hbits : 0 < bits)
    {x y : Nat} (hgt : ops.gt x y = true) : ∃ u, u < 2 ^ (bits - 1) ∧ x ≡ y + u [MOD 2 ^ bits] := by
  have hpos := Nat.two_pow_pos (bits - 1)
  rcases position_cases hbits y x with hahead | ⟨d, hd, hlt, hy⟩ | hopp
  · exact hahead
  · have hfalse := h.gt_eq hbits (show x ≡ x + 0 [MOD 2 ^ bits] from rfl) hy (by omega) (by omega)
    rw [hgt] at hfalse
    simp at hfalse
  · have hfalse := h.gt_opposite hbits hopp (show y ≡ y + 0 [MOD 2 ^ bits] from rfl) (by omega)
    rw [hgt] at hfalse
    cases hfalse

theorem ReorderQueue.InUse.of_frame {q' : ReorderQueue α} (h : q.InUse width)
    (hf : q'.SameFrame q) (hcount : q'.count ≤ q'.size) : q'.InUse width where
  ops := hf.ops.trans h.ops
  count_le := hcount
  begin_le := by rw [hf.begin]; exact h.begin_le

/-- The queue is made to begin at the number, or it keeps what fits before the number. -/
theorem reorderQueuePush_dropFirst (h : q.InUse width) {seqNum u : Nat}
    (hs : seqNum < 2 ^ width.bits) (hu : u < 2 ^ (width.bits - 1))
    (hpos : seqNum ≡ q.ops.add q.begin q.count + u [MOD 2 ^ width.bits]) {r : ReorderQueue α}
    (hr : FirstDropped width.bits (q.ops.add q.begin q.count) (q.ops.add seqNum 1) q r) (user : α) :
    ∃ q', reorderQueueStore (if r.count = 0 then { r with begin := seqNum } else r) seqNum user
      = .ok q' ∧ q'.InUse width := by
  have hops : NarrowOps width.bits r.ops := by rw [hr.frame.ops]; exact h.narrowOps
  have hsize : r.size = q.size := by rw [size, hr.frame.sizeExp, size]
  have hrcount := hr.count_le
  by_cases hzero : r.count = 0
  · -- the number is the first one, so there is room for it
    have hhalf : 1 < 2 ^ (width.bits - 1) := by cases width <;> decide
    have huse : InUse width { r with begin := seqNum } :=
      ⟨hr.frame.ops.trans h.ops, by rw [hzero]; exact Nat.zero_le _, Or.inl hs⟩
    rw [if_pos hzero]
    have hnew : r.ops.add seqNum 1 ≡ seqNum + (r.count + 1) [MOD 2 ^ width.bits] := by
      rw [hzero, Nat.zero_add]
      exact hops.add _ _
    have hone := Nat.two_pow_pos r.sizeExp
    obtain ⟨q', hq', hf, hcount⟩ := reorderQueueExtend_ok width.bits_pos (r.size - r.count)
      { r with begin := seqNum } 1 hops (Nat.add_sub_of_le (hsize ▸ hrcount)) hnew
      (Or.inl ⟨by rw [hzero]; exact hone, hhalf⟩)
    refine ⟨q'.setEntry seqNum ⟨user, true⟩, ?_, huse.of_frame ⟨hf.sizeExp, hf.ops, hf.dropStrategy,
      hf.dropCb, hf.begin⟩ hcount⟩
    show (reorderQueueExtend (r.ops.add seqNum 1) (r.size - r.count) { r with begin := seqNum } >>=
      fun q => pure (q.setEntry seqNum ⟨user, true⟩)) = _
    rw [hq']
    rfl
  · rw [if_neg hzero]
    obtain ⟨totalEnd, htotal, hroom⟩ := hr.room.resolve_left hzero
    have huse : r.InUse width := by
      refine ⟨hr.frame.ops.trans h.ops, by omega, ?_⟩
      rcases hr.begin with hb | ⟨x, hb⟩
      · rw [hb]
        exact h.begin_le
      · rw [hb, h.ops]
        exact width.add_one_le x
    have hspos : seqNum ≡ r.begin + (r.count + u) [MOD 2 ^ width.bits] := by
      rw [← Nat.add_assoc]
      exact hpos.trans (hr.end_eq.add_right u)
    have htotal' : totalEnd ≡ r.begin + r.size [MOD 2 ^ width.bits] := by
      refine htotal.trans ((hr.end_eq.add_right _).trans ?_)
      rw [Nat.add_assoc, hsize, Nat.add_sub_of_le hrcount]
    obtain ⟨q', hq', hf, hcount⟩ := reorderQueueStore_ok width.bits_pos hops (by omega) hspos hu
      htotal' (by rw [hr.frame.ops]; exact hroom) user
    exact ⟨q', hq', huse.of_frame hf hcount⟩

/-- **Push fails on the numbers that no test finds a place for**, and on no others. -/
theorem reorderQueuePush_cases (h : q.InUse width) {seqNum : Nat} (hs : seqNum < 2 ^ width.bits)
    (user : α) :
    (q.placed seqNum = false ∧ reorderQueuePush q seqNum user = .error .assertion) ∨
      (q.placed seqNum = true ∧ ∃ q' dropped, reorderQueuePush q seqNum user = .ok (q', dropped) ∧
        q'.InUse width) := by
  have hops := h.narrowOps
  have hle := h.count_le
  unfold reorderQueuePush placed
  rw [if_neg (Nat.not_lt_of_le hle)]
  dsimp only
  cases hinside : (q.ge seqNum q.begin && q.ops.lt seqNum (q.ops.add q.begin q.count)) with
  | true =>
    refine Or.inr ⟨by simp, ?_⟩
    simp only [if_true]
    split
    · exact ⟨q, _, rfl, h⟩
    · exact ⟨_, _, rfl, h.of_frame ⟨rfl, rfl, rfl, rfl, rfl⟩ hle⟩
  | false =>
    cases hold : q.ops.lt seqNum q.begin with
    | true => exact Or.inr ⟨by simp, q, _, rfl, h⟩
    | false =>
      cases hge : q.ge seqNum (q.ops.add q.begin q.count) with
      | false => exact Or.inl ⟨by simp, by simp⟩
      | true =>
        refine Or.inr ⟨by simp, ?_⟩
        simp only [Bool.false_eq_true, if_false, Bool.not_true]
        obtain ⟨u, hu, hpos⟩ : ∃ u, u < 2 ^ (width.bits - 1) ∧
            seqNum ≡ q.ops.add q.begin q.count + u [MOD 2 ^ width.bits] := by
          rcases Bool.or_eq_true_iff.mp hge with heq | hgt
          · exact ⟨0, Nat.two_pow_pos _, by rw [eq_of_beq heq]; rfl⟩
          · exact hops.ahead_of_gt width.bits_pos hgt
        have htotal := hops.add (q.ops.add q.begin q.count) (q.size - q.count)
        cases hroom : q.ops.lt (q.ops.add (q.ops.add q.begin q.count) (q.size - q.count))
            (q.ops.add seqNum 1) with
        | true =>
          simp only [if_true]
          cases q.dropStrategy with
          | «end» => exact ⟨q, _, rfl, h⟩
          | begin =>
            have hr := reorderQueueDropFirst_dropped _ (q.ops.add seqNum 1) q.count q _ hops rfl hle
              (hops.add q.begin q.count) htotal
            obtain ⟨q', hq', huse⟩ := reorderQueuePush_dropFirst h hs hu hpos hr user
            simp only [hq']
            exact ⟨q', _, rfl, huse⟩
        | false =>
          have hspos : seqNum ≡ q.begin + (q.count + u) [MOD 2 ^ width.bits] := by
            rw [← Nat.add_assoc]
            exact hpos.trans ((hops.add q.begin q.count).add_right u)
          have htotal' : q.ops.add (q.ops.add q.begin q.count) (q.size - q.count)
              ≡ q.begin + q.size [MOD 2 ^ width.bits] := by
            refine htotal.trans (((hops.add q.begin q.count).add_right _).trans ?_)
            rw [Nat.add_assoc, Nat.add_sub_of_le hle]
          obtain ⟨q', hq', hf, hcount⟩ := reorderQueueStore_ok width.bits_pos hops hle hspos hu
            htotal' hroom user
          simp only [hq', Bool.false_eq_true, if_false]
          exact ⟨q', _, rfl, h.of_frame hf hcount⟩

theorem reorderQueueCall_inUse (h : q.InUse width) {call : ReorderQueueCall α}
    (hplaced : PlacedCall width (.ok q) call) :
    ∃ q' handed, reorderQueueCall q call = .ok (q', handed) ∧ q'.InUse width := by
  cases call with
  | push seqNum user =>
    obtain ⟨hs, hplaced⟩ := hplaced
    rcases reorderQueuePush_cases h hs user with ⟨hnot, -⟩ | ⟨-, q', dropped, hpush, huse⟩
    · rw [← placed_iff h hs, hnot] at hplaced
      cases hplaced
    · exact ⟨q', dropped, hpush, huse⟩
  | pull =>
    unfold reorderQueueCall reorderQueuePull
    by_cases hzero : q.count = 0
    · exact ⟨q, [], by simp [hzero], h⟩
    · cases hset : (q.entry q.begin).set with
      | false => exact ⟨q, [], by simp [hzero, hset], h⟩
      | true =>
        refine ⟨{ q with begin := q.ops.add q.begin 1, count := q.count - 1 }, _,
          by simp [hzero, hset]; rfl, h.ops, ?_, ?_⟩
        · exact Nat.le_trans (Nat.sub_le _ _) h.count_le
        · rw [h.ops]
          exact width.add_one_le _
  | peek index =>
    obtain ⟨e, he⟩ : ∃ e, reorderQueuePeek q index true = .ok e := by
      unfold reorderQueuePeek
      split
      · exact ⟨none, rfl⟩
      · dsimp only
        split <;> exact ⟨_, rfl⟩
    exact ⟨q, e.toList, by simp only [reorderQueueCall, he]; rfl, h⟩
  | drop index =>
    refine ⟨(reorderQueueDrop q index).1, (reorderQueueDrop q index).2, rfl, ?_⟩
    rw [reorderQueueDrop_queue]
    exact h
  | setDropStrategy strategy => exact ⟨_, _, rfl, h.ops, h.count_le, h.begin_le⟩
  | setDropCb => exact ⟨_, _, rfl, h.ops, h.count_le, h.begin_le⟩

/-! ## Runs -/

/-- **The assertions hold as long as every number has its place**, and the next push fails if and only
if its number has none. -/
theorem reorderQueue_assertions [Inhabited α] {sizeExp seqNumStart : Nat}
    (hstart : seqNumStart < 2 ^ width.bits) {s : Except Fault (ReorderQueue α)}
    (hr : ((reorderQueueCallLts width sizeExp seqNumStart).restrict (PlacedCall width)).Reachable s) :
    ∃ q, s = .ok q ∧ ∀ seqNum, seqNum < 2 ^ width.bits → ∀ user,
      ((∃ fault, reorderQueuePush q seqNum user = .error fault) ↔ q.Unplaced width seqNum) := by
  suffices hinv : ((reorderQueueCallLts width sizeExp seqNumStart).restrict
      (PlacedCall width)).Invariant fun s : Except Fault (ReorderQueue α) =>
        ∃ q, s = .ok q ∧ q.InUse width by
    obtain ⟨q, hq, h⟩ := hinv.reachable hr
    refine ⟨q, hq, ?_⟩
    intro seqNum hs user
    rw [← not_not (a := q.Unplaced width seqNum), ← placed_iff h hs]
    rcases reorderQueuePush_cases h hs user with ⟨hnot, hpush⟩ | ⟨hplaced, q', dropped, hpush, -⟩
    · simp [hnot, hpush]
    · simp [hplaced, hpush]
  refine ⟨?_, ?_⟩
  · rintro s rfl
    refine ⟨_, rfl, ?_⟩
    cases width <;> exact ⟨rfl, Nat.zero_le _, Or.inl hstart⟩
  · rintro s call s' ⟨q, rfl, h⟩ ⟨hplaced, hs⟩
    obtain ⟨q', handed, hcall, huse⟩ := reorderQueueCall_inUse h hplaced
    have hstep : reorderQueueCallStep (.ok q) call = some s' := hs
    simp only [reorderQueueCallStep, hcall, Except.map, Option.some_inj] at hstep
    exact ⟨q', hstep.symm, huse⟩

/-- Numbers of 16 bits on both sides of the wrap-around, with some of them out of order. -/
def callsBeforeWrap : List (ReorderQueueCall Nat) :=
  [.setDropCb, .push 65534 1, .push 65533 0, .pull, .peek 0, .drop 0, .setDropStrategy .begin,
    .push 65535 2, .push 2 9, .push 1 8]

theorem callsBeforeWrap_run :
    ((Lts.runFun (Lts.guarded reorderQueueCallStep (PlacedCall .bits16))
      (.ok (reorderQueueInit16 2 65533)) callsBeforeWrap).bind Except.toOption).map
        (fun q => (q.begin, q.count))
      = some (65535, 4) := by
  decide +kernel

theorem reorderQueue_assertions_callsBeforeWrap :
    ∃ q : ReorderQueue Nat, (q.begin, q.count) = (65535, 4) ∧
      ∀ seqNum, seqNum < 2 ^ 16 → ∀ user,
        ((∃ fault, reorderQueuePush q seqNum user = .error fault) ↔ q.Unplaced .bits16 seqNum) := by
  obtain ⟨q, hq, hobs⟩ := Option.map_eq_some_iff.mp callsBeforeWrap_run
  obtain ⟨s, hrun, hs⟩ := Option.bind_eq_some_iff.mp hq
  have hstart : 65533 < 2 ^ SeqNumWidth.bits16.bits := by decide
  have hr : ((reorderQueueCallLts .bits16 2 65533).restrict (PlacedCall .bits16)).Reachable s :=
    .runGuarded (.init rfl) hrun
  obtain ⟨q', rfl, h⟩ := reorderQueue_assertions hstart hr
  cases hs
  exact ⟨q, hobs, h⟩

/-- **The first number that arrives may fail the assertion**, and so may the next number in order
where the 16-bit numbers wrap around. -/
theorem not_reorderQueue_assertions :
    (reorderQueueCallLts .bits32 4 42).Reachable
      (.ok (reorderQueueInit32 4 42 : ReorderQueue Nat)) ∧
    reorderQueuePush (reorderQueueInit32 4 42 : ReorderQueue Nat) (42 + 2 ^ 31) 0
      = .error .assertion ∧
    ∃ q : ReorderQueue Nat, (reorderQueueCallLts .bits16 4 65535).Reachable (.ok q) ∧
      reorderQueuePush q 0 0 = .error .assertion := by
  refine ⟨.init rfl, by rfl, ?_⟩
  have hrun : reorderQueueCallStep (.ok (reorderQueueInit16 4 65535 : ReorderQueue Nat))
      (.push 65535 0) = some ((reorderQueueCall (reorderQueueInit16 4 65535) (.push 65535 0)).map
        Prod.fst) := rfl
  exact ⟨_, .step (.init rfl) hrun, by rfl⟩

end Chiaki
