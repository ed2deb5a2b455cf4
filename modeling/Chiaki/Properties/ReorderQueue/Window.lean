import Chiaki.Infra.Window
import Chiaki.ReorderQueue

/-!
# A reorder queue is a reordering window

`window` reads the ring from `begin` on. Under `Wf` every operation of the queue is the operation
of `Infra.Window` on that list, for numbers of any width:

* `reorderQueuePull_window` — pull is `Window.take`
* `reorderQueuePush_put` — push of a number at or after `begin` is `Window.put`
* `reorderQueuePush_slide` — with `DROP_STRATEGY_BEGIN`, push beyond the capacity moves the window
* `reorderQueuePush_old` — push of a number before `begin` drops the new element

The sum of two 16-bit numbers is not reduced, so numbers are congruent to the positions that they
stand for, and `begin` and the end may be too large by `2 ^ bits`. `ge` compares them as they are:
`Meets` says that this makes no difference for a push.

Nothing outside of this directory looks at the slots again.
-/

namespace Chiaki

open Infra

variable {α : Type} {bits : Nat} {q : ReorderQueue α}

/-- Function pointers that compare and add numbers of `bits` bits. A sum may have a carry. -/
structure NarrowOps (bits : Nat) (ops : SeqNumOps) : Prop where
  gt : ∀ a b, ops.gt a b = seqNumGt bits (a % 2 ^ bits) (b % 2 ^ bits)
  lt : ∀ a b, ops.lt a b = seqNumLt bits (a % 2 ^ bits) (b % 2 ^ bits)
  add : ∀ a b, ops.add a b ≡ a + b [MOD 2 ^ bits]
  add_zero : ∀ a, ops.add a 0 = a % 2 ^ bits

theorem narrowOps16 : NarrowOps 16 seqNum16Ops where
  gt := fun _ _ => rfl
  lt := fun _ _ => rfl
  add := fun a b => (Nat.mod_modEq a _).add (Nat.mod_modEq b _)
  add_zero := fun _ => rfl

theorem narrowOps32 : NarrowOps 32 seqNum32Ops where
  gt := fun _ _ => rfl
  lt := fun _ _ => rfl
  add := fun a b => (Nat.mod_modEq _ _).trans ((Nat.mod_modEq a _).add (Nat.mod_modEq b _))
  add_zero := fun a => Nat.mod_mod a _

theorem NarrowOps.gt_eq {ops : SeqNumOps} (h : NarrowOps bits ops) (hbits : 0 < bits)
    {b m n x y : Nat} (hx : x ≡ b + m [MOD 2 ^ bits]) (hy : y ≡ b + n [MOD 2 ^ bits])
    (h1 : m < n + 2 ^ (bits - 1)) (h2 : n < m + 2 ^ (bits - 1)) :
    ops.gt x y = decide (n < m) := by
  rw [h.gt]
  exact seqNumGt_position hbits (Nat.mod_lt _ (Nat.two_pow_pos _)) (Nat.mod_lt _ (Nat.two_pow_pos _))
    ((Nat.mod_modEq x _).trans hx) ((Nat.mod_modEq y _).trans hy) h1 h2

theorem NarrowOps.lt_eq {ops : SeqNumOps} (h : NarrowOps bits ops) (hbits : 0 < bits)
    {b m n x y : Nat} (hx : x ≡ b + m [MOD 2 ^ bits]) (hy : y ≡ b + n [MOD 2 ^ bits])
    (h1 : m < n + 2 ^ (bits - 1)) (h2 : n < m + 2 ^ (bits - 1)) :
    ops.lt x y = decide (m < n) := by
  rw [h.lt, seqNumLt_eq_gt, ← h.gt]
  exact h.gt_eq hbits hy hx h2 h1

/-- Opposite numbers are not comparable. -/
theorem NarrowOps.gt_opposite {ops : SeqNumOps} (h : NarrowOps bits ops) (hbits : 0 < bits)
    {b m n x y : Nat} (hx : x ≡ b + m [MOD 2 ^ bits]) (hy : y ≡ b + n [MOD 2 ^ bits])
    (hopp : m = n + 2 ^ (bits - 1) ∨ n = m + 2 ^ (bits - 1)) : ops.gt x y = false := by
  rw [h.gt]
  exact seqNumGt_opposite hbits (Nat.mod_lt _ (Nat.two_pow_pos _)) (Nat.mod_lt _ (Nat.two_pow_pos _))
    ((Nat.mod_modEq x _).trans hx) ((Nat.mod_modEq y _).trans hy) hopp

theorem NarrowOps.lt_opposite {ops : SeqNumOps} (h : NarrowOps bits ops) (hbits : 0 < bits)
    {b m n x y : Nat} (hx : x ≡ b + m [MOD 2 ^ bits]) (hy : y ≡ b + n [MOD 2 ^ bits])
    (hopp : m = n + 2 ^ (bits - 1) ∨ n = m + 2 ^ (bits - 1)) : ops.lt x y = false := by
  rw [h.lt, seqNumLt_eq_gt, ← h.gt]
  exact h.gt_opposite hbits hy hx hopp.symm

namespace ReorderQueue

/-- What every operation keeps of a queue for numbers of `bits` bits. -/
structure Wf (bits : Nat) (q : ReorderQueue α) : Prop where
  ops : NarrowOps bits q.ops
  count_le : q.count ≤ q.size
  sizeExp_le : q.sizeExp + 2 ≤ bits

/-- The fields that only `init` and the setters write, and `begin`. -/
structure SameFrame (q' q : ReorderQueue α) : Prop where
  sizeExp : q'.sizeExp = q.sizeExp
  ops : q'.ops = q.ops
  dropStrategy : q'.dropStrategy = q.dropStrategy
  dropCb : q'.dropCb = q.dropCb
  begin : q'.begin = q.begin

theorem SameFrame.refl (q : ReorderQueue α) : q.SameFrame q := ⟨rfl, rfl, rfl, rfl, rfl⟩

theorem SameFrame.trans {q₁ q₂ q₃ : ReorderQueue α} (h : q₃.SameFrame q₂) (h' : q₂.SameFrame q₁) :
    q₃.SameFrame q₁ :=
  ⟨h.sizeExp.trans h'.sizeExp, h.ops.trans h'.ops, h.dropStrategy.trans h'.dropStrategy,
    h.dropCb.trans h'.dropCb, h.begin.trans h'.begin⟩

/-- The element at distance `i` from `begin`. -/
def slotAt (q : ReorderQueue α) (i : Nat) : Option α :=
  if (q.entry (q.ops.add q.begin i)).set then some (q.entry (q.ops.add q.begin i)).user else none

/-- The slots in use, from `begin` on. -/
def window (q : ReorderQueue α) : List (Option α) := (List.range q.count).map q.slotAt

theorem length_window (q : ReorderQueue α) : q.window.length = q.count := by simp [window]

theorem getElem?_window (q : ReorderQueue α) {i : Nat} (h : i < q.count) :
    q.window[i]? = some (q.slotAt i) := by
  simp [window, h]

/-! ## The ring -/

theorem size_pos (q : ReorderQueue α) : 0 < q.size := Nat.two_pow_pos _

/-- The window is at most half of what can be compared. -/
theorem Wf.size_le (h : q.Wf bits) : 2 * q.size ≤ 2 ^ (bits - 1) := by
  have hexp := h.sizeExp_le
  show 2 * 2 ^ q.sizeExp ≤ 2 ^ (bits - 1)
  rw [← Nat.pow_succ']
  exact Nat.pow_le_pow_right (by decide) (by omega)

theorem idx_eq_mod (q : ReorderQueue α) (s : Nat) : q.idx s = s % q.size :=
  Nat.and_two_pow_sub_one_eq_mod s q.sizeExp

/-- A slot is found by the low bits of a number only. -/
theorem Wf.idx_congr (h : q.Wf bits) {x y : Nat} (hxy : x ≡ y [MOD 2 ^ bits]) :
    q.idx x = q.idx y := by
  have hexp := h.sizeExp_le
  rw [idx_eq_mod, idx_eq_mod]
  exact hxy.of_dvd (Nat.pow_dvd_pow 2 (by omega))

/-- Different places of the window lie in different slots. -/
theorem Wf.idx_inj (h : q.Wf bits) {b i j x y : Nat} (hx : x ≡ b + i [MOD 2 ^ bits])
    (hy : y ≡ b + j [MOD 2 ^ bits]) (hi : i < q.size) (hj : j < q.size) (he : q.idx x = q.idx y) :
    i = j := by
  rw [h.idx_congr hx, h.idx_congr hy, idx_eq_mod, idx_eq_mod] at he
  exact Nat.ModEq.eq_of_lt_of_lt (Nat.ModEq.add_left_cancel' b he) hi hj

theorem Wf.slotAt_eq (h : q.Wf bits) {i x : Nat} (hx : x ≡ q.begin + i [MOD 2 ^ bits]) :
    q.slotAt i = if (q.entry x).set then some (q.entry x).user else none := by
  rw [slotAt, entry, entry, h.idx_congr ((h.ops.add q.begin i).trans hx.symm)]

theorem entry_setEntry (q : ReorderQueue α) (x y : Nat) (e : ReorderQueueEntry α) :
    (q.setEntry x e).entry y = if q.idx y = q.idx x then e else q.entry y := rfl

theorem Wf.slotAt_setEntry (h : q.Wf bits) {d i x : Nat} (hx : x ≡ q.begin + d [MOD 2 ^ bits])
    (hd : d < q.size) (hi : i < q.size) (e : ReorderQueueEntry α) :
    (q.setEntry x e).slotAt i = if i = d then (if e.set then some e.user else none) else q.slotAt i := by
  have hadd := h.ops.add q.begin i
  have hentry : (q.setEntry x e).entry (q.ops.add q.begin i)
      = if i = d then e else q.entry (q.ops.add q.begin i) := by
    rw [entry_setEntry]
    by_cases hid : i = d
    · subst hid
      rw [if_pos (h.idx_congr (hadd.trans hx.symm)), if_pos rfl]
    · rw [if_neg fun he => hid (h.idx_inj hadd hx hi hd he), if_neg hid]
  show (if ((q.setEntry x e).entry (q.ops.add q.begin i)).set
    then some ((q.setEntry x e).entry (q.ops.add q.begin i)).user else none) = _
  rw [hentry]
  by_cases hid : i = d
  · rw [if_pos hid, if_pos hid]
  · rw [if_neg hid, if_neg hid]
    rfl

/-- Writing the slot at distance `d` sets that place of the window. -/
theorem Wf.window_setEntry (h : q.Wf bits) {d x : Nat} (hx : x ≡ q.begin + d [MOD 2 ^ bits])
    (hd : d < q.count) (e : ReorderQueueEntry α) :
    (q.setEntry x e).window = q.window.set d (if e.set then some e.user else none) := by
  have hsize := h.count_le
  refine List.ext_getElem? fun i => ?_
  by_cases hi : i < q.count
  · rw [getElem?_window _ (show i < (q.setEntry x e).count from hi),
      h.slotAt_setEntry hx (by omega) (by omega), List.getElem?_set, getElem?_window q hi,
      length_window]
    by_cases hid : i = d
    · subst hid; simp [hi]
    · simp [hid, show ¬ d = i from fun he => hid he.symm]
  · rw [List.getElem?_eq_none (by rw [length_window]; exact Nat.le_of_not_lt hi),
      List.getElem?_eq_none (by rw [List.length_set, length_window]; exact Nat.le_of_not_lt hi)]

/-! ## Comparisons -/

theorem Wf.bits_pos (h : q.Wf bits) : 0 < bits := by
  have := h.sizeExp_le
  omega

theorem Wf.gt_eq (h : q.Wf bits) {b m n x y : Nat} (hx : x ≡ b + m [MOD 2 ^ bits])
    (hy : y ≡ b + n [MOD 2 ^ bits]) (h1 : m < n + 2 ^ (bits - 1)) (h2 : n < m + 2 ^ (bits - 1)) :
    q.ops.gt x y = decide (n < m) :=
  h.ops.gt_eq h.bits_pos hx hy h1 h2

theorem Wf.lt_eq (h : q.Wf bits) {b m n x y : Nat} (hx : x ≡ b + m [MOD 2 ^ bits])
    (hy : y ≡ b + n [MOD 2 ^ bits]) (h1 : m < n + 2 ^ (bits - 1)) (h2 : n < m + 2 ^ (bits - 1)) :
    q.ops.lt x y = decide (m < n) :=
  h.ops.lt_eq h.bits_pos hx hy h1 h2

/-- `ge` looks at equal numbers as they are. -/
theorem Wf.ge_eq (h : q.Wf bits) {b m n x y : Nat} (hx : x ≡ b + m [MOD 2 ^ bits])
    (hy : y ≡ b + n [MOD 2 ^ bits]) (h1 : m < n + 2 ^ (bits - 1)) (h2 : n < m + 2 ^ (bits - 1)) :
    q.ge x y = decide (n < m ∨ x = y) := by
  unfold ge
  rw [h.gt_eq hx hy h1 h2, Bool.eq_iff_iff]
  simp only [Bool.or_eq_true, beq_iff_eq, decide_eq_true_eq]
  exact or_comm

theorem SameFrame.wf {q' : ReorderQueue α} (hf : q'.SameFrame q) (h : q.Wf bits)
    (hc : q'.count ≤ q.size) : q'.Wf bits where
  ops := by rw [hf.ops]; exact h.ops
  count_le := by rw [size, hf.sizeExp]; exact hc
  sizeExp_le := by rw [hf.sizeExp]; exact h.sizeExp_le

end ReorderQueue

open ReorderQueue

/-! ## Pull -/

/-- The queue that begins `k` places later. -/
theorem ReorderQueue.Wf.dropped (h : q.Wf bits) {k b : Nat} (hk : k ≤ q.count)
    (hb : b ≡ q.begin + k [MOD 2 ^ bits]) :
    ReorderQueue.Wf bits { q with begin := b, count := q.count - k } ∧
      window { q with begin := b, count := q.count - k } = q.window.drop k := by
  have hle := h.count_le
  have hwf : ReorderQueue.Wf bits { q with begin := b, count := q.count - k } := by
    refine ⟨h.ops, ?_, h.sizeExp_le⟩
    show q.count - k ≤ q.size
    omega
  refine ⟨hwf, List.ext_getElem? fun i => ?_⟩
  rw [List.getElem?_drop]
  by_cases hi : i < q.count - k
  · rw [getElem?_window _ hi, getElem?_window q (by omega)]
    have hx : q.ops.add q.begin (k + i) ≡ b + i [MOD 2 ^ bits] := by
      refine (h.ops.add _ _).trans ?_
      rw [← Nat.add_assoc]
      exact (hb.symm.add_right i)
    rw [hwf.slotAt_eq hx]
    rfl
  · rw [List.getElem?_eq_none (by rw [length_window]; exact Nat.le_of_not_lt hi),
      List.getElem?_eq_none (by rw [length_window]; omega)]

theorem ReorderQueue.window_eq_cons (hpos : 0 < q.count) :
    q.window = q.slotAt 0 :: q.window.drop 1 := by
  obtain ⟨hlt, h0⟩ := List.getElem?_eq_some_iff.mp (getElem?_window q hpos)
  rw [← h0, ← List.drop_eq_getElem_cons hlt, List.drop_zero]

/-- **Pull takes the head of the window.** -/
theorem reorderQueuePull_window (h : q.Wf bits) :
    match Window.take q.window with
    | none => reorderQueuePull q = none
    | some (x, rest) => ∃ q', reorderQueuePull q = some (q.begin, x, q') ∧ q'.Wf bits ∧
        q'.window = rest ∧ q'.begin = q.ops.add q.begin 1 ∧ q'.sizeExp = q.sizeExp ∧
        q'.ops = q.ops ∧ q'.dropStrategy = q.dropStrategy ∧ q'.dropCb = q.dropCb := by
  have hslot := h.slotAt_eq (show q.begin ≡ q.begin + 0 [MOD 2 ^ bits] from rfl)
  rcases Nat.eq_zero_or_pos q.count with h0 | hpos
  · have hw : q.window = [] := by rw [window, h0]; rfl
    simp [hw, Window.take, reorderQueuePull, h0]
  · obtain ⟨hwf, hdrop⟩ := h.dropped hpos (h.ops.add q.begin 1)
    rw [window_eq_cons hpos, hslot]
    cases hset : (q.entry q.begin).set with
    | false => simp [Window.take, reorderQueuePull, hset]
    | true =>
      simp only [Window.take, if_true]
      refine ⟨_, ?_, hwf, hdrop, rfl, rfl, rfl, rfl, rfl⟩
      simp [reorderQueuePull, hset, show ¬ q.count = 0 by omega]

/-! ## Push -/

/-- "move end until new_end" appends empty places. -/
theorem reorderQueueExtend_window {n newEnd : Nat} : ∀ (free : Nat) (q : ReorderQueue α),
    q.Wf bits → newEnd ≡ q.begin + n [MOD 2 ^ bits] → q.count + free = q.size → q.count ≤ n →
    n ≤ q.size →
    ∃ q', reorderQueueExtend newEnd free q = .ok q' ∧ q'.Wf bits ∧ q'.SameFrame q ∧
      q'.count = n ∧ q'.window = q.window ++ List.replicate (n - q.count) none := by
  intro free
  induction free with
  | zero =>
    intro q h hnew hfree hlo hhi
    have hsize := h.size_le
    have hpos := size_pos q
    have hn : n = q.count := by omega
    subst hn
    have hstop : q.ops.lt (q.ops.add q.begin q.count) newEnd = false := by
      rw [h.lt_eq (h.ops.add _ _) hnew (by omega) (by omega)]
      simp
    exact ⟨q, by simp [reorderQueueExtend, hstop], h, .refl q, rfl, by simp⟩
  | succ free ih =>
    intro q h hnew hfree hlo hhi
    have hsize := h.size_le
    have hadd := h.ops.add q.begin q.count
    have htest : q.ops.lt (q.ops.add q.begin q.count) newEnd = decide (q.count < n) :=
      h.lt_eq hadd hnew (by omega) (by omega)
    by_cases hlt : q.count < n
    · -- one more slot is taken into use, emptied first
      let e : ReorderQueueEntry α := { q.entry (q.ops.add q.begin q.count) with set := false }
      let q1 : ReorderQueue α :=
        { q.setEntry (q.ops.add q.begin q.count) e with count := q.count + 1 }
      have hf1 : q1.SameFrame q := ⟨rfl, rfl, rfl, rfl, rfl⟩
      have hwf1 : q1.Wf bits := hf1.wf h (show q.count + 1 ≤ q.size by omega)
      have hw1 : q1.window = q.window ++ [none] := by
        show (List.range (q.count + 1)).map q1.slotAt = _
        have hset : ∀ i, q1.slotAt i = (q.setEntry (q.ops.add q.begin q.count) e).slotAt i :=
          fun _ => rfl
        rw [List.range_succ, List.map_append, window]
        congr 1
        · refine List.map_congr_left fun i hi => ?_
          have hi' := List.mem_range.mp hi
          rw [hset i, h.slotAt_setEntry hadd (by omega) (by omega)]
          simp [show ¬ i = q.count by omega]
        · rw [List.map_singleton, hset, h.slotAt_setEntry hadd (by omega) (by omega)]
          simp [e]
      obtain ⟨q', hq', hwf', hf', hc', hw'⟩ := ih q1 hwf1 hnew
        (show q.count + 1 + free = q.size by omega) (show q.count + 1 ≤ n by omega) hhi
      refine ⟨q', ?_, hwf', hf'.trans hf1, hc', ?_⟩
      · rw [reorderQueueExtend, htest]
        simp only [hlt, decide_true, if_true]
        exact hq'
      · rw [hw', hw1, List.append_assoc]
        congr 1
        show [none] ++ List.replicate (n - (q.count + 1)) none = List.replicate (n - q.count) none
        rw [show n - q.count = (n - (q.count + 1)) + 1 by omega, List.replicate_succ]
        rfl
    · have hn : n = q.count := by omega
      refine ⟨q, ?_, h, .refl q, hn.symm, by simp [hn]⟩
      rw [reorderQueueExtend, htest]
      simp [hlt]

theorem reorderQueueStore_window (h : q.Wf bits) {s d : Nat} (hs : s ≡ q.begin + d [MOD 2 ^ bits])
    (hlo : q.count ≤ d) (hhi : d < q.size) (user : α) :
    ∃ q', reorderQueueStore q s user = .ok q' ∧ q'.Wf bits ∧ q'.SameFrame q ∧
      q'.window = q.window ++ List.replicate (d - q.count) none ++ [some user] := by
  have hnew : q.ops.add s 1 ≡ q.begin + (d + 1) [MOD 2 ^ bits] :=
    (h.ops.add s 1).trans (hs.add_right 1)
  obtain ⟨q1, hq1, hwf1, hf1, hc1, hw1⟩ := reorderQueueExtend_window (q.size - q.count) q h hnew
    (Nat.add_sub_of_le h.count_le) (by omega) (by omega)
  have hs1 : s ≡ q1.begin + d [MOD 2 ^ bits] := by rwa [hf1.begin]
  refine ⟨q1.setEntry s { user := user, set := true }, ?_, ?_, ?_, ?_⟩
  · simp only [reorderQueueStore, hq1]
    rfl
  · exact ⟨hwf1.ops, hwf1.count_le, hwf1.sizeExp_le⟩
  · exact ⟨hf1.sizeExp, hf1.ops, hf1.dropStrategy, hf1.dropCb, hf1.begin⟩
  · rw [hwf1.window_setEntry hs1 (by omega), hw1]
    have hlen : (q.window ++ List.replicate (d - q.count) none).length = d := by
      rw [List.length_append, length_window, List.length_replicate]
      omega
    rw [show d + 1 - q.count = (d - q.count) + 1 by omega, List.replicate_succ', ← List.append_assoc,
      List.set_append_right _ _ (by omega), hlen]
    simp

/-- What is missing from `b` to a multiple of `2 ^ bits`. -/
theorem add_complement (bits b : Nat) : b + (2 ^ bits - b % 2 ^ bits) ≡ 0 [MOD 2 ^ bits] := by
  have hlt := Nat.mod_lt b (Nat.two_pow_pos bits)
  have hdiv := Nat.div_add_mod b (2 ^ bits)
  refine Nat.modEq_zero_iff_dvd.mpr ⟨b / 2 ^ bits + 1, ?_⟩
  rw [Nat.mul_add]
  omega

/-- Every number is ahead of `b`, behind it, or opposite to it. -/
theorem position_cases (hbits : 0 < bits) (b s : Nat) :
    (∃ d, d < 2 ^ (bits - 1) ∧ s ≡ b + d [MOD 2 ^ bits]) ∨
      (∃ d, 0 < d ∧ d < 2 ^ (bits - 1) ∧ b ≡ s + d [MOD 2 ^ bits]) ∨
      s ≡ b + 2 ^ (bits - 1) [MOD 2 ^ bits] := by
  have hpow : 2 ^ bits = 2 * 2 ^ (bits - 1) := by exact_mod_cast two_pow_half hbits
  have hs : s ≡ b + (s + (2 ^ bits - b % 2 ^ bits)) % 2 ^ bits [MOD 2 ^ bits] := by
    refine Nat.ModEq.trans ?_ ((Nat.mod_modEq _ _).symm.add_left b)
    have := (add_complement bits b).symm.add_left s
    rwa [show s + (b + (2 ^ bits - b % 2 ^ bits)) = b + (s + (2 ^ bits - b % 2 ^ bits)) by omega]
      at this
  have hlt := Nat.mod_lt (s + (2 ^ bits - b % 2 ^ bits)) (Nat.two_pow_pos bits)
  generalize (s + (2 ^ bits - b % 2 ^ bits)) % 2 ^ bits = e at hs hlt
  rcases Nat.lt_trichotomy e (2 ^ (bits - 1)) with hahead | rfl | hbehind
  · exact Or.inl ⟨e, hahead, hs⟩
  · exact Or.inr (Or.inr hs)
  · refine Or.inr (Or.inl ⟨2 ^ bits - e, by omega, by omega, ?_⟩)
    have hround := hs.add_right (2 ^ bits - e)
    rw [show b + e + (2 ^ bits - e) = b + 2 ^ bits by omega] at hround
    exact (hround.trans (Nat.add_modEq_right)).symm

/-- Where a number is `begin` or the end, it is equal to it: the queue does not hold it with a carry.
An empty queue does not ask. -/
def ReorderQueue.Meets (bits : Nat) (q : ReorderQueue α) (s : Nat) : Prop :=
  q.count = 0 ∨ (s ≡ q.begin [MOD 2 ^ bits] → s = q.begin) ∧
    (s ≡ q.ops.add q.begin q.count [MOD 2 ^ bits] → s = q.ops.add q.begin q.count)

/-- `total_end` and `new_end` as positions. -/
theorem ReorderQueue.Wf.totalEnd (h : q.Wf bits) :
    q.ops.add (q.ops.add q.begin q.count) (q.size - q.count) ≡ q.begin + q.size [MOD 2 ^ bits] := by
  refine (h.ops.add _ _).trans (((h.ops.add q.begin q.count).add_right _).trans ?_)
  rw [Nat.add_assoc, Nat.add_sub_of_le h.count_le]

theorem ReorderQueue.Wf.newEnd (h : q.Wf bits) {s d : Nat} (hs : s ≡ q.begin + d [MOD 2 ^ bits]) :
    q.ops.add s 1 ≡ q.begin + (d + 1) [MOD 2 ^ bits] :=
  (h.ops.add s 1).trans (hs.add_right 1)

/-- What the tests of `chiaki_reorder_queue_push` say about a number at distance `d`. -/
structure ReorderQueue.Ahead (q : ReorderQueue α) (s d : Nat) : Prop where
  assert : ¬ q.size < q.count
  inside : (q.ge s q.begin && q.ops.lt s (q.ops.add q.begin q.count)) = decide (d < q.count)
  notOld : q.ops.lt s q.begin = false
  atEnd : q.count ≤ d → q.ge s (q.ops.add q.begin q.count) = true
  room : q.ops.lt (q.ops.add (q.ops.add q.begin q.count) (q.size - q.count)) (q.ops.add s 1)
    = decide (q.size ≤ d)

theorem ReorderQueue.Wf.ahead (h : q.Wf bits) {s d : Nat} (hlt : s < 2 ^ bits)
    (hs : s ≡ q.begin + d [MOD 2 ^ bits]) (hd : d < 2 ^ (bits - 1)) (hm : q.Meets bits s) :
    q.Ahead s d := by
  have hsize := h.size_le
  have hpos := size_pos q
  have hcount := h.count_le
  have hbegin : q.begin ≡ q.begin + 0 [MOD 2 ^ bits] := rfl
  have hend := h.ops.add q.begin q.count
  refine ⟨by omega, ?_, ?_, ?_, ?_⟩
  · rw [h.ge_eq hs hbegin (by omega) (by omega), h.lt_eq hs hend (by omega) (by omega)]
    by_cases hin : d < q.count
    · have hge : 0 < d ∨ s = q.begin := by
        rcases Nat.eq_zero_or_pos d with rfl | hpos
        · rcases hm with h0 | ⟨hmb, _⟩
          · omega
          · exact Or.inr (hmb hs)
        · exact Or.inl hpos
      simp [hin, hge]
    · simp [hin]
  · rw [h.lt_eq hs hbegin (by omega) (by omega)]
    simp
  · intro hle
    rw [h.ge_eq hs hend (by omega) (by omega), decide_eq_true_iff]
    rcases Nat.lt_or_eq_of_le hle with hgt | rfl
    · exact Or.inl hgt
    · refine Or.inr ?_
      rcases hm with h0 | ⟨_, hme⟩
      · rw [h0] at hs ⊢
        rw [h.ops.add_zero]
        exact (Nat.mod_eq_of_lt hlt).symm.trans hs
      · exact hme (hs.trans hend.symm)
  · rw [h.lt_eq h.totalEnd (h.newEnd hs) (by omega) (by omega), decide_eq_decide]
    omega

/-- **Push of a number at or after `begin` is `Window.put`**, unless the window has to move. -/
theorem reorderQueuePush_put (h : q.Wf bits) {s d : Nat} (ha : q.Ahead s d)
    (hs : s ≡ q.begin + d [MOD 2 ^ bits]) (hput : q.dropStrategy = .end ∨ d < q.size) (user : α) :
    ∃ q', reorderQueuePush q s user
        = .ok (q', if (Window.put q.size q.window d user).2 then [] else q.callDropCb s user) ∧
      q'.Wf bits ∧ q'.SameFrame q ∧ q'.window = (Window.put q.size q.window d user).1 := by
  have hcount := h.count_le
  unfold reorderQueuePush
  simp only [ha.assert, if_false, ha.inside, ha.notOld, ha.room, Bool.false_eq_true]
  by_cases hin : d < q.count
  · -- inside the window: stored unless the place is taken
    have hget := getElem?_window q hin
    rw [h.slotAt_eq hs] at hget
    simp only [hin, decide_true, if_true]
    cases hset : (q.entry s).set with
    | true =>
      rw [hset, if_pos rfl] at hget
      have hput : Window.put q.size q.window d user = (q.window, false) := by
        unfold Window.put
        rw [hget]
      exact ⟨q, by simp [hput], h, .refl q, by rw [hput]⟩
    | false =>
      rw [hset, if_neg (by simp)] at hget
      have hput : Window.put q.size q.window d user = (q.window.set d (some user), true) := by
        unfold Window.put
        rw [hget]
      refine ⟨q.setEntry s { user := user, set := true }, by simp [hput],
        ⟨h.ops, h.count_le, h.sizeExp_le⟩, ⟨rfl, rfl, rfl, rfl, rfl⟩, ?_⟩
      rw [h.window_setEntry hs hin, hput]
      simp
  · -- past the window: stored if there is room up to it
    have hbeyond : q.window.length ≤ d := by
      rw [length_window]
      omega
    simp only [hin, decide_false, Bool.false_eq_true, if_false, ha.atEnd (by omega), Bool.not_true]
    by_cases hfit : d < q.size
    · have hput := @Window.put_of_beyond _ _ _ _ user hbeyond hfit
      rw [length_window] at hput
      obtain ⟨q', hq', hwf', hf', hw'⟩ := reorderQueueStore_window h hs (by omega) hfit user
      refine ⟨q', ?_, hwf', hf', by rw [hw', hput]⟩
      simp [show ¬ q.size ≤ d by omega, hq', hput]
    · have hend : q.dropStrategy = .end := hput.resolve_right hfit
      have hput : Window.put q.size q.window d user = (q.window, false) :=
        Window.put_of_full hbeyond (by omega)
      refine ⟨q, ?_, h, .refl q, by rw [hput]⟩
      simp [show q.size ≤ d by omega, hput, hend]

/-- **Push of a number before `begin` drops the new element.** -/
theorem reorderQueuePush_old (h : q.Wf bits) {s d : Nat} (hb : q.begin ≡ s + d [MOD 2 ^ bits])
    (hpos : 0 < d) (hd : d < 2 ^ (bits - 1)) (user : α) :
    reorderQueuePush q s user = .ok (q, q.callDropCb s user) := by
  have hs : s ≡ s + 0 [MOD 2 ^ bits] := rfl
  have hge : q.ge s q.begin = false := by
    rw [h.ge_eq hs hb (by omega) (by omega), decide_eq_false_iff_not]
    rintro (hlt | rfl)
    · omega
    · have := Nat.ModEq.add_left_cancel' q.begin (show q.begin + 0 ≡ q.begin + d [MOD 2 ^ bits] from hb)
      have hlt : d < 2 ^ bits := Nat.lt_of_lt_of_le hd (Nat.pow_le_pow_right (by decide) (by omega))
      exact absurd (this.eq_of_lt_of_lt (Nat.two_pow_pos _) hlt) (by omega)
  have hlt : q.ops.lt s q.begin = true := by
    rw [h.lt_eq hs hb (by omega) (by omega), decide_eq_true_iff]
    exact hpos
  have hle := h.count_le
  unfold reorderQueuePush
  simp [show ¬ q.size < q.count by omega, hge, hlt]

/--
The number exactly opposite to `begin` is neither before nor after it. An empty queue fails the
assertion on it, any other one drops it.
-/
theorem reorderQueuePush_opposite (h : q.Wf bits) (hstrat : q.dropStrategy = .end)
    (htwo : 1 < q.size) {s d : Nat} (hs : s ≡ q.begin + d [MOD 2 ^ bits])
    (hd : d = 2 ^ (bits - 1)) (user : α) :
    reorderQueuePush q s user
      = if q.count = 0 then .error .assertion else .ok (q, q.callDropCb s user) := by
  have hsize := h.size_le
  have hcount := h.count_le
  have hbegin : q.begin ≡ q.begin + 0 [MOD 2 ^ bits] := rfl
  have hend := h.ops.add q.begin q.count
  have hgt : ∀ {x}, x ≡ q.begin + 0 [MOD 2 ^ bits] → q.ops.gt s x = false ∧ q.ops.lt s x = false := by
    intro x hx
    have hlt : ∀ {y}, y % 2 ^ bits < 2 ^ bits := Nat.mod_lt _ (Nat.two_pow_pos _)
    have hmod : ∀ {y k}, y ≡ q.begin + k [MOD 2 ^ bits] →
        y % 2 ^ bits ≡ q.begin + k [MOD 2 ^ bits] := fun hy => (Nat.mod_modEq _ _).trans hy
    rw [h.ops.gt, h.ops.lt, seqNumLt_eq_gt]
    exact ⟨seqNumGt_opposite h.bits_pos hlt hlt (hmod hs) (hmod hx) (by omega),
      seqNumGt_opposite h.bits_pos hlt hlt (hmod hx) (hmod hs) (by omega)⟩
  have hge : ∀ {x}, x ≡ q.begin + 0 [MOD 2 ^ bits] → q.ge s x = false := by
    intro x hx
    have hne : s ≠ x := by
      rintro rfl
      have hpow : 2 ^ (bits - 1) < 2 ^ bits :=
        Nat.pow_lt_pow_right (by decide) (by have := h.bits_pos; omega)
      have := (Nat.ModEq.add_left_cancel' q.begin (hx.symm.trans hs)).eq_of_lt_of_lt
        (Nat.two_pow_pos _) (by omega)
      omega
    simp [ge, hne, (hgt hx).1]
  unfold reorderQueuePush
  simp only [show ¬ q.size < q.count by omega, if_false, hge hbegin, Bool.false_and,
    (hgt hbegin).2, Bool.false_eq_true]
  rcases Nat.eq_zero_or_pos q.count with h0 | hpos
  · rw [h0] at hend ⊢
    simp [hge hend]
  · have hgeEnd : q.ge s (q.ops.add q.begin q.count) = true := by
      rw [h.ge_eq hs hend (by omega) (by omega), decide_eq_true_iff]
      omega
    have hroom : q.ops.lt (q.ops.add (q.ops.add q.begin q.count) (q.size - q.count))
        (q.ops.add s 1) = true := by
      rw [h.lt_eq h.totalEnd (h.newEnd hs) (by omega) (by omega), decide_eq_true_iff]
      omega
    simp only [hgeEnd, hroom, hstrat, Bool.not_true, Bool.false_eq_true, if_false, if_true,
      show ¬ q.count = 0 by omega]

/-! ## Push with `DROP_STRATEGY_BEGIN` -/

/-- A number as it was before the carry of a sum. -/
def narrow (bits : Nat) (d : Nat × α) : Nat × α := (d.1 % 2 ^ bits, d.2)

/-- The elements in the slots in use, with their numbers. -/
def ReorderQueue.stored (bits : Nat) (q : ReorderQueue α) : List (Nat × α) :=
  Window.labelled (fun i => (q.begin + i) % 2 ^ bits) q.window

/-- "drop first until empty or enough space" takes away the front of the window. `m` numbers are
beyond the end. -/
theorem reorderQueueDropFirst_window {end_ newEnd : Nat} : ∀ (n : Nat) (q : ReorderQueue α)
    (m totalEnd : Nat), q.Wf bits → q.count = n → q.dropCb = true →
    end_ ≡ q.begin + q.count [MOD 2 ^ bits] → totalEnd ≡ q.begin + q.size [MOD 2 ^ bits] →
    newEnd ≡ q.begin + (q.size + m) [MOD 2 ^ bits] → m < 2 ^ (bits - 1) →
    ∃ b dropped, reorderQueueDropFirst end_ newEnd n q totalEnd
        = ({ q with begin := b, count := q.count - min n m }, dropped) ∧
      b ≡ q.begin + min n m [MOD 2 ^ bits] ∧ (b = q.begin ∨ ∃ x, b = q.ops.add x 1) ∧
      dropped.map (narrow bits)
        = Window.labelled (fun i => (q.begin + i) % 2 ^ bits) (q.window.take (min n m)) := by
  intro n
  induction n with
  | zero =>
    intro q m totalEnd h hn _ _ _ _ _
    rw [Nat.zero_min, List.take_zero]
    exact ⟨q.begin, [], rfl, rfl, Or.inl rfl, rfl⟩
  | succ n ih =>
    intro q m totalEnd h hn hcb hend htotal hnew hm
    have hsize := h.size_le
    have htest : q.ops.lt totalEnd newEnd = decide (q.size < q.size + m) :=
      h.lt_eq htotal hnew (by omega) (by omega)
    rw [reorderQueueDropFirst, htest]
    rcases Nat.eq_zero_or_pos m with rfl | hpos
    · rw [Nat.min_zero, List.take_zero]
      exact ⟨q.begin, [], by simp, rfl, Or.inl rfl, rfl⟩
    · -- the first place leaves, and one number less is beyond the end
      have hadd := h.ops.add q.begin 1
      have hshift : ∀ {x k j : Nat}, x ≡ q.begin + j [MOD 2 ^ bits] → j = 1 + k →
          x ≡ q.ops.add q.begin 1 + k [MOD 2 ^ bits] := by
        rintro x k j hx rfl
        rw [← Nat.add_assoc] at hx
        exact hx.trans (hadd.add_right k).symm
      obtain ⟨hwf, hdrop⟩ := h.dropped (show 1 ≤ q.count by omega) hadd
      have hcount : q.count - 1 = n := by omega
      have hle := h.count_le
      have htotal' : q.ops.add end_ (q.size - (q.count - 1))
          ≡ q.begin + (q.count + (q.size - (q.count - 1))) [MOD 2 ^ bits] := by
        rw [← Nat.add_assoc]
        exact (h.ops.add _ _).trans (hend.add_right _)
      obtain ⟨b, dropped, heq, hb, hraw, hdropped⟩ := ih _ (m - 1) _ hwf hcount hcb
        (hshift hend (show q.count = 1 + (q.count - 1) by omega))
        (hshift htotal' (show q.count + (q.size - (q.count - 1)) = 1 + q.size by omega))
        (hshift hnew (show q.size + m = 1 + (q.size + (m - 1)) by omega)) (by omega)
      have hmin : min (n + 1) m = 1 + min n (m - 1) := by omega
      rw [hmin]
      refine ⟨b, (if (q.entry q.begin).set then q.callDropCb q.begin (q.entry q.begin).user else [])
        ++ dropped, ?_, ?_, ?_, ?_⟩
      · simp only [show q.size < q.size + m by omega, decide_true, if_true]
        rw [Nat.sub_add_eq]
        exact congrArg (fun r => (r.1, _ ++ r.2)) heq
      · refine hb.trans ?_
        rw [← Nat.add_assoc]
        exact hadd.add_right _
      · rcases hraw with rfl | hsum
        · exact Or.inr ⟨_, rfl⟩
        · exact Or.inr hsum
      · have hfirst : ((if (q.entry q.begin).set then q.callDropCb q.begin (q.entry q.begin).user
            else []).map (narrow bits))
            = Window.labelled (fun i => (q.begin + i) % 2 ^ bits) (q.window.take 1) := by
          rw [window_eq_cons (show 0 < q.count by omega),
            h.slotAt_eq (show q.begin ≡ q.begin + 0 [MOD 2 ^ bits] from rfl)]
          cases hset : (q.entry q.begin).set with
          | false => rfl
          | true => simp [callDropCb, hcb, narrow, Window.labelled]
        have hlen : (q.window.take 1).length = 1 := by
          rw [List.length_take, length_window]
          omega
        have hlabel : (fun i => (q.ops.add q.begin 1 + i) % 2 ^ bits)
            = fun i => (q.begin + (1 + i)) % 2 ^ bits := by
          funext i
          rw [← Nat.add_assoc]
          exact hadd.add_right i
        rw [List.map_append, hfirst, hdropped, hdrop, List.take_add, Window.labelled_append, hlen,
          ← hlabel]

/-- The queue after "drop first" and "empty, just shift to the seq_num". -/
theorem ReorderQueue.Wf.shifted (h : q.Wf bits) {s d b : Nat} (hs : s ≡ q.begin + d [MOD 2 ^ bits])
    (hfull : q.size ≤ d) (hb : b ≡ q.begin + min q.count (d + 1 - q.size) [MOD 2 ^ bits]) :
    ∃ q', (if q.count - min q.count (d + 1 - q.size) = 0
        then { q with begin := s, count := q.count - min q.count (d + 1 - q.size) }
        else { q with begin := b, count := q.count - min q.count (d + 1 - q.size) }) = q' ∧
      q'.Wf bits ∧ q'.SameFrame { q with begin := q'.begin } ∧
      q'.begin ≡ q.begin + Window.slideBy q.size q.window d [MOD 2 ^ bits] ∧
      (q'.begin = s ∨ q'.begin = b) ∧
      q'.window = q.window.drop (Window.slideBy q.size q.window d) := by
  have hcount := h.count_le
  have hpos := size_pos q
  obtain ⟨hwf, hdrop⟩ := h.dropped (Nat.min_le_left _ _) hb
  refine ⟨_, rfl, ?_⟩
  unfold Window.slideBy
  rw [length_window]
  by_cases hall : q.count ≤ d + 1 - q.size
  · have hzero : q.count - min q.count (d + 1 - q.size) = 0 := by omega
    rw [if_pos hzero, if_pos hall]
    refine ⟨⟨h.ops, ?_, h.sizeExp_le⟩, ⟨rfl, rfl, rfl, rfl, rfl⟩, hs, Or.inl rfl, ?_⟩
    · show q.count - min q.count (d + 1 - q.size) ≤ q.size
      omega
    · rw [List.drop_of_length_le (by rw [length_window]; omega)]
      refine List.eq_nil_of_length_eq_zero ?_
      rw [length_window]
      exact hzero
  · have hmin : min q.count (d + 1 - q.size) = d + 1 - q.size := Nat.min_eq_right (by omega)
    rw [hmin] at hwf hdrop hb ⊢
    rw [if_neg (by omega), if_neg hall]
    exact ⟨hwf, ⟨rfl, rfl, rfl, rfl, rfl⟩, hb, Or.inr rfl, hdrop⟩

/-- **Push beyond the capacity moves the window**, and what leaves it is dropped. -/
theorem reorderQueuePush_slide (h : q.Wf bits) {s d : Nat} (ha : q.Ahead s d)
    (hs : s ≡ q.begin + d [MOD 2 ^ bits]) (hd : d < 2 ^ (bits - 1))
    (hstrat : q.dropStrategy = .begin) (hfull : q.size ≤ d) (hcb : q.dropCb = true) (user : α) :
    ∃ q' dropped, reorderQueuePush q s user = .ok (q', dropped) ∧ q'.Wf bits ∧
      q'.SameFrame { q with begin := q'.begin } ∧
      q'.begin ≡ q.begin + Window.slideBy q.size q.window d [MOD 2 ^ bits] ∧
      (q'.begin = s ∨ q'.begin = q.begin ∨ ∃ x, q'.begin = q.ops.add x 1) ∧
      q'.window = (Window.put q.size (q.window.drop (Window.slideBy q.size q.window d))
        (d - Window.slideBy q.size q.window d) user).1 ∧
      dropped.map (narrow bits) = Window.labelled (fun i => (q.begin + i) % 2 ^ bits)
        (q.window.take (Window.slideBy q.size q.window d)) := by
  have hcount := h.count_le
  have hpos := size_pos q
  have hnew : q.ops.add s 1 ≡ q.begin + (q.size + (d + 1 - q.size)) [MOD 2 ^ bits] := by
    rw [show q.size + (d + 1 - q.size) = d + 1 by omega]
    exact h.newEnd hs
  obtain ⟨b, dropped, hfirst, hb, hraw, hdropped⟩ := reorderQueueDropFirst_window q.count q _ _ h rfl hcb
    (h.ops.add q.begin q.count) h.totalEnd hnew (by omega)
  obtain ⟨q1, hq1, hwf1, hf1, hb1, hraw1, hw1⟩ := h.shifted hs hfull hb
  have hroom := @Window.slideBy_room _ q.window q.size d (by rw [length_window]; exact hcount)
    hfull hpos
  have hle := @Window.slideBy_le _ q.window q.size d hfull hpos
  have hs1 : s ≡ q1.begin + (d - Window.slideBy q.size q.window d) [MOD 2 ^ bits] := by
    have hsum : q.begin + d = q.begin + Window.slideBy q.size q.window d
        + (d - Window.slideBy q.size q.window d) := by omega
    rw [hsum] at hs
    exact hs.trans (hb1.symm.add_right _)
  have hsize1 : q1.size = q.size := by rw [size, hf1.sizeExp, size]
  obtain ⟨q2, hq2, hwf2, hf2, hw2⟩ := reorderQueueStore_window hwf1 hs1
    (by rw [← length_window, hw1]; exact hroom.1) (by rw [hsize1]; exact hroom.2) user
  refine ⟨q2, dropped, ?_, hwf2, ?_, ?_, ?_, ?_, ?_⟩
  · unfold reorderQueuePush
    simp only [ha.assert, if_false, ha.inside, ha.notOld, ha.room, Bool.false_eq_true,
      show ¬ d < q.count by omega, decide_false, ha.atEnd (by omega), Bool.not_true, hfull,
      decide_true, if_true, hstrat, hfirst]
    simp only [hstrat] at hq1
    simp only [hq1, hq2]
    rfl
  · rw [hf2.begin]
    exact ⟨hf2.sizeExp.trans hf1.sizeExp, hf2.ops.trans hf1.ops,
      hf2.dropStrategy.trans hf1.dropStrategy, hf2.dropCb.trans hf1.dropCb, hf2.begin⟩
  · rw [hf2.begin]
    exact hb1
  · rw [hf2.begin]
    rcases hraw1 with hb1 | hb1
    · exact Or.inl hb1
    · exact Or.inr (by rw [hb1]; exact hraw)
  · rw [Window.put_of_beyond hroom.1 hroom.2, hw2, ← hw1, length_window]
  · rw [hdropped]
    unfold Window.slideBy
    rw [length_window]
    by_cases hall : q.count ≤ d + 1 - q.size
    · rw [if_pos hall, Nat.min_eq_left hall, List.take_of_length_le (length_window q).le,
        List.take_of_length_le (by rw [length_window]; omega)]
    · rw [if_neg hall, Nat.min_eq_right (by omega)]

end Chiaki
