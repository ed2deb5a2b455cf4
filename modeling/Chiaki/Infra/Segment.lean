import Mathlib.Data.List.Basic

/-!
# Segments of an array

An array of unbounded length is a function of the index. `segment a start n` lists `n`
cells, and `memmove` is the C function on it: source and destination may overlap.
-/

namespace Infra.Segment

variable {α : Type*}

/-- The cells `start`, …, `start + n - 1`. -/
def segment (a : Nat → α) (start n : Nat) : List α := (List.range n).map fun i => a (start + i)

/-- Copy `n` cells from `src` on to `dst` on, as if through a temporary array. -/
def memmove (a : Nat → α) (dst src n : Nat) : Nat → α :=
  fun i => if dst ≤ i ∧ i < dst + n then a (i - dst + src) else a i

variable {a b : Nat → α} {start dst src n m : Nat}

@[simp] theorem length_segment (a : Nat → α) (start n : Nat) : (segment a start n).length = n := by
  simp [segment]

@[simp] theorem segment_zero (a : Nat → α) (start : Nat) : segment a start 0 = [] := rfl

theorem segment_congr (h : ∀ i, start ≤ i → i < start + n → a i = b i) :
    segment a start n = segment b start n := by
  refine List.map_congr_left fun i hi => ?_
  have hlt := List.mem_range.mp hi
  exact h _ (by omega) (by omega)

theorem segment_succ (a : Nat → α) (start n : Nat) :
    segment a start (n + 1) = segment a start n ++ [a (start + n)] := by
  rw [segment, List.range_succ, List.map_append]
  rfl

theorem segment_append (a : Nat → α) (start n m : Nat) :
    segment a start n ++ segment a (start + n) m = segment a start (n + m) := by
  induction m with
  | zero => simp
  | succ m ih => rw [segment_succ, ← List.append_assoc, ih, ← Nat.add_assoc, segment_succ,
      Nat.add_assoc start]

theorem segment_cons (a : Nat → α) (start n : Nat) :
    segment a start (n + 1) = a start :: segment a (start + 1) n := by
  rw [Nat.add_comm n, ← segment_append]
  rfl

/-! ## Moving -/

theorem memmove_of_lt {i : Nat} (h : i < dst) : memmove a dst src n i = a i :=
  if_neg fun hc => by omega

theorem memmove_of_ge {i : Nat} (h : dst + n ≤ i) : memmove a dst src n i = a i :=
  if_neg fun hc => by omega

theorem segment_memmove (a : Nat → α) (dst src n : Nat) :
    segment (memmove a dst src n) dst n = segment a src n := by
  refine List.map_congr_left fun i hi => ?_
  have hlt := List.mem_range.mp hi
  have hin : dst ≤ dst + i ∧ dst + i < dst + n := by omega
  rw [memmove, if_pos hin]
  congr 1
  omega

theorem segment_memmove_before (h : start + m ≤ dst) :
    segment (memmove a dst src n) start m = segment a start m :=
  segment_congr fun i _ hi => memmove_of_lt (by omega)

/-- Closing the gap `[dst, src)` in front of `n` cells. -/
theorem segment_close_gap (a : Nat → α) (dst src n : Nat) :
    segment (memmove a dst src n) 0 (dst + n) = segment a 0 dst ++ segment a src n := by
  rw [← segment_append, segment_memmove_before (by omega), Nat.zero_add, segment_memmove]

end Infra.Segment
