import Chiaki.Properties.ReorderQueue.Window

/-!
# The 32-bit reorder queue

`Wf32` is what every operation keeps of a queue made by `reorderQueueInit32`, and there no sum has a
carry. So the positions of its numbers are the ones of `seqAt`, and every push is one of

* `reorderQueuePush_ahead` — of a number at or after `begin`: `Window.put`
* `reorderQueuePush_behind` — of a number before `begin`: the new element is dropped
* `reorderQueuePush_half` — of the number exactly opposite to `begin`
-/

namespace Chiaki

open Infra

variable {α : Type} {q : ReorderQueue α}

namespace ReorderQueue

/-- What every operation keeps of a queue made by `reorderQueueInit32`. -/
structure Wf32 (q : ReorderQueue α) : Prop where
  ops : q.ops = seqNum32Ops
  begin_lt : q.begin < 2 ^ 32
  count_le : q.count ≤ q.size
  sizeExp_le : q.sizeExp ≤ 30

theorem Wf32.wf (h : q.Wf32) : q.Wf 32 where
  ops := by rw [h.ops]; exact narrowOps32
  count_le := h.count_le
  sizeExp_le := Nat.add_le_add_right h.sizeExp_le 2

theorem SameFrame.wf32 {q' : ReorderQueue α} (hf : q'.SameFrame q) (h : q.Wf32)
    (hwf : q'.Wf 32) : q'.Wf32 where
  ops := by rw [hf.ops, h.ops]
  begin_lt := by rw [hf.begin]; exact h.begin_lt
  count_le := hwf.count_le
  sizeExp_le := by rw [hf.sizeExp]; exact h.sizeExp_le

/-- Numbers without a carry are equal where they are congruent. -/
theorem Wf32.meets (h : q.Wf32) {s : Nat} (hs : s < 2 ^ 32) : q.Meets 32 s := by
  have hend : q.ops.add q.begin q.count < 2 ^ 32 := by
    rw [h.ops]
    exact Nat.mod_lt _ (Nat.two_pow_pos _)
  exact Or.inr ⟨fun hb => hb.eq_of_lt_of_lt hs h.begin_lt, fun he => he.eq_of_lt_of_lt hs hend⟩

theorem seqAt_zero {b : Nat} (h : b < 2 ^ 32) : seqAt b 0 = b := Nat.mod_eq_of_lt h

end ReorderQueue

open ReorderQueue

/-! ## Init -/

theorem reorderQueueInit32_wf32 [Inhabited α] {sizeExp start : Nat} (hexp : sizeExp ≤ 30)
    (hstart : start < 2 ^ 32) : (reorderQueueInit32 sizeExp start : ReorderQueue α).Wf32 where
  ops := rfl
  begin_lt := hstart
  count_le := Nat.zero_le _
  sizeExp_le := hexp

/-! ## Pull -/

/-- **Pull takes the head of the window.** -/
theorem reorderQueuePull_eq (h : q.Wf32) :
    match Window.take q.window with
    | none => reorderQueuePull q = none
    | some (x, rest) => ∃ q', reorderQueuePull q = some (q.begin, x, q') ∧ q'.Wf32 ∧
        q'.window = rest ∧ q'.begin = seqAt q.begin 1 ∧ q'.size = q.size ∧
        q'.dropStrategy = q.dropStrategy ∧ q'.dropCb = q.dropCb := by
  have hpull := reorderQueuePull_window h.wf
  cases htake : Window.take q.window with
  | none =>
    rw [htake] at hpull
    exact hpull
  | some p =>
    rw [htake] at hpull
    obtain ⟨q', hq', hwf, hw, hb, hexp, hops, hstrat, hcb⟩ := hpull
    have hbegin : q'.begin = seqAt q.begin 1 := by
      rw [hb, h.ops]
      show (q.begin % 2 ^ 32 + 1 % 2 ^ 32) % 2 ^ 32 = seqAt q.begin 1
      unfold seqAt
      omega
    refine ⟨q', hq', ⟨hops.trans h.ops, ?_, hwf.count_le, ?_⟩, hw, hbegin, ?_, hstrat, hcb⟩
    · rw [hbegin]
      exact seqAt_lt _ _
    · rw [hexp]
      exact h.sizeExp_le
    · rw [size, hexp, size]

/-! ## Push -/

/-- **Push of a number at or after `begin` is `Window.put`.** -/
theorem reorderQueuePush_ahead (h : q.Wf32) (hstrat : q.dropStrategy = .end) {d : Nat}
    (hd : d < 2 ^ 31) (user : α) :
    ∃ q', reorderQueuePush q (seqAt q.begin d) user
        = .ok (q', if (Window.put q.size q.window d user).2 then []
            else q.callDropCb (seqAt q.begin d) user) ∧
      q'.Wf32 ∧ q'.SameFrame q ∧ q'.window = (Window.put q.size q.window d user).1 := by
  have hs := seqAt_modEq q.begin d
  have hlt := seqAt_lt q.begin d
  obtain ⟨q', hq', hwf, hf, hw⟩ := reorderQueuePush_put h.wf (h.wf.ahead hlt hs hd (h.meets hlt)) hs
    (Or.inl hstrat) user
  exact ⟨q', hq', hf.wf32 h hwf, hf, hw⟩

/-- **Push of a number before `begin` drops the new element.** -/
theorem reorderQueuePush_behind (h : q.Wf32) {s d : Nat} (hb : q.begin = seqAt s d) (hpos : 0 < d)
    (hd : d < 2 ^ 31) (user : α) :
    reorderQueuePush q s user = .ok (q, q.callDropCb s user) :=
  reorderQueuePush_old h.wf (by rw [hb]; exact seqAt_modEq s d) hpos hd user

/--
The number exactly opposite to `begin` is neither before nor after it. An empty queue fails
the assertion on it, any other one drops it.
-/
theorem reorderQueuePush_half (h : q.Wf32) (hstrat : q.dropStrategy = .end) (htwo : 1 < q.size)
    {d : Nat} (hd : d = 2 ^ 31) (user : α) :
    reorderQueuePush q (seqAt q.begin d) user
      = if q.count = 0 then .error .assertion
        else .ok (q, q.callDropCb (seqAt q.begin d) user) :=
  reorderQueuePush_opposite h.wf hstrat htwo (seqAt_modEq q.begin d) hd user

/-- Every number is ahead of `begin`, behind it, or opposite to it. -/
theorem seqNum_cases {b s : Nat} (hb : b < 2 ^ 32) (hs : s < 2 ^ 32) :
    (∃ d, d < 2 ^ 31 ∧ s = seqAt b d) ∨ (∃ d, 0 < d ∧ d < 2 ^ 31 ∧ b = seqAt s d) ∨
      ∃ d, d = 2 ^ 31 ∧ s = seqAt b d := by
  have heq : ∀ {x y d : Nat}, x < 2 ^ 32 → x ≡ y + d [MOD 2 ^ 32] → x = seqAt y d :=
    fun hx h => (Nat.mod_eq_of_lt hx).symm.trans h
  rcases position_cases (show 0 < 32 by decide) b s with ⟨d, hd, h⟩ | ⟨d, hpos, hd, h⟩ | h
  · exact Or.inl ⟨d, hd, heq hs h⟩
  · exact Or.inr (Or.inl ⟨d, hpos, hd, heq hb h⟩)
  · exact Or.inr (Or.inr ⟨_, rfl, heq hs h⟩)

/-- A number serially before `b` is behind it. -/
theorem seqNum_behind {b s : Nat} (hb : b < 2 ^ 32) (hs : s < 2 ^ 32) (h : seqNum32Lt s b = true) :
    ∃ d, 0 < d ∧ d < 2 ^ 31 ∧ b = seqAt s d := by
  have hgt : seqNum32Gt b s = true := (seqNumLt_eq_gt 32 s b).symm.trans h
  have hzero := seqAt_zero hb
  rcases seqNum_cases hb hs with ⟨d, hd, rfl⟩ | hbehind | ⟨d, hd, rfl⟩
  · have := @seqNum32Gt_seqAt b 0 d (by omega) (by omega)
    rw [hzero, hgt] at this
    simp at this
  · exact hbehind
  · have := @seqNum32Gt_opposite b 0 d (by omega)
    rw [hzero, hgt] at this
    cases this

/--
**Push in general.** Whatever the number is, the new element joins the ones in the window, or
it is dropped and the window stays; or the assertion fails.
-/
theorem reorderQueuePush_result (h : q.Wf32) (hstrat : q.dropStrategy = .end) (htwo : 1 < q.size)
    {s : Nat} (hs : s < 2 ^ 32) (user : α) :
    reorderQueuePush q s user = .error .assertion ∨
      ∃ q' dropped, reorderQueuePush q s user = .ok (q', dropped) ∧ q'.Wf32 ∧ q'.SameFrame q ∧
        ((dropped = [] ∧ (Window.elems q'.window).Perm (user :: Window.elems q.window)) ∨
          (dropped = q.callDropCb s user ∧ q'.window = q.window)) := by
  have hsame : q.SameFrame q := ⟨rfl, rfl, rfl, rfl, rfl⟩
  rcases seqNum_cases h.begin_lt hs with ⟨d, hd, rfl⟩ | ⟨d, hpos, hd, hb⟩ | ⟨d, hd, rfl⟩
  · obtain ⟨q', hpush, hwf, hframe, hw⟩ := reorderQueuePush_ahead h hstrat hd user
    refine Or.inr ⟨q', _, hpush, hwf, hframe, ?_⟩
    rw [hw]
    cases hkept : (Window.put q.size q.window d user).2 with
    | true => exact Or.inl ⟨rfl, Window.elems_put hkept⟩
    | false => exact Or.inr ⟨rfl, Window.put_of_not_kept hkept⟩
  · exact Or.inr ⟨q, _, reorderQueuePush_behind h hb hpos hd user, h, hsame, Or.inr ⟨rfl, rfl⟩⟩
  · rw [reorderQueuePush_half h hstrat htwo hd user]
    split
    · exact Or.inl rfl
    · exact Or.inr ⟨q, _, rfl, h, hsame, Or.inr ⟨rfl, rfl⟩⟩

/-- `peek` without a place for the number: an element that is there cannot be reported. -/
theorem reorderQueuePeek_false (q : ReorderQueue α) (index : Nat) :
    (reorderQueuePeek q index false = .ok none ∧ ∀ x, ¬ Window.Stored q.window index x) ∨
      (reorderQueuePeek q index false = .error .nullPointer ∧ ∃ x, Window.Stored q.window index x) := by
  unfold reorderQueuePeek Window.Stored
  rcases Nat.lt_or_ge index q.count with hlt | hge
  · rw [if_neg (by omega), getElem?_window q hlt, slotAt]
    cases hset : (q.entry (q.ops.add q.begin index)).set with
    | false => simp [hset]
    | true => simp [hset]
  · rw [if_pos hge]
    refine Or.inl ⟨rfl, fun x hx => ?_⟩
    rw [List.getElem?_eq_none (by rw [length_window]; exact hge)] at hx
    cases hx

/-- `fini` hands out elements of the window only. -/
theorem mem_reorderQueueFini {d : Nat × α} (hd : d ∈ reorderQueueFini q) :
    d.2 ∈ Window.elems q.window := by
  unfold reorderQueueFini at hd
  obtain ⟨i, hi, hmem⟩ := List.mem_flatMap.mp hd
  have hlt := List.mem_range.mp hi
  simp only at hmem
  split at hmem
  · next hset =>
    unfold callDropCb at hmem
    split at hmem
    · rw [List.mem_singleton] at hmem
      refine Window.mem_elems.mpr ⟨i, ?_⟩
      unfold Window.Stored
      rw [getElem?_window q hlt, slotAt, if_pos hset, hmem]
    · cases hmem
  · cases hmem

end Chiaki
