import Mathlib.Order.Lattice

/-!
# A memo that only moves forward

The value of a function for one argument is kept. A larger argument replaces it, a smaller one
is computed and forgotten.

* `Memo` — the argument and the value, which is right by construction
* `Memo.lookup` — the value for an argument, and the memo afterwards
-/

namespace Infra

variable {κ α : Type*} {f : κ → α}

/-- An argument of `f` with its value. -/
structure Memo (f : κ → α) where
  key : κ
  value : α
  right : value = f key

namespace Memo

variable [LinearOrder κ]

/-- The value for `k`. It is kept if `k` is larger than the argument so far. -/
def lookup (m : Memo f) (k : κ) : α × Memo f :=
  if m.key < k then (f k, ⟨k, f k, rfl⟩)
  else if k < m.key then (f k, m)
  else (m.value, m)

theorem lookup_of_lt {m : Memo f} {k : κ} (h : m.key < k) : m.lookup k = (f k, ⟨k, f k, rfl⟩) :=
  if_pos h

theorem lookup_of_gt {m : Memo f} {k : κ} (h : k < m.key) : m.lookup k = (f k, m) := by
  rw [lookup, if_neg (not_lt.mpr (le_of_lt h)), if_pos h]

theorem lookup_of_not_lt {m : Memo f} {k : κ} (h : ¬m.key < k) (h' : ¬k < m.key) :
    m.lookup k = (m.value, m) := by
  rw [lookup, if_neg h, if_neg h']

/-- **What was asked before makes no difference.** -/
@[simp] theorem lookup_fst (m : Memo f) (k : κ) : (m.lookup k).1 = f k := by
  rcases lt_trichotomy m.key k with hlt | heq | hgt
  · rw [lookup_of_lt hlt]
  · rw [lookup_of_not_lt (not_lt.mpr heq.ge) (not_lt.mpr heq.le), m.right, heq]
  · rw [lookup_of_gt hgt]

/-- The argument is the larger one of the two. -/
@[simp] theorem lookup_snd_key (m : Memo f) (k : κ) : (m.lookup k).2.key = max m.key k := by
  rcases lt_trichotomy m.key k with hlt | heq | hgt
  · rw [lookup_of_lt hlt, max_eq_right (le_of_lt hlt)]
  · rw [lookup_of_not_lt (not_lt.mpr heq.ge) (not_lt.mpr heq.le), heq, max_self]
  · rw [lookup_of_gt hgt, max_eq_left (le_of_lt hgt)]

end Memo

end Infra
