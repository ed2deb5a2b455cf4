import Mathlib.Algebra.Order.BigOperators.Group.List
import Mathlib.Algebra.Order.Group.Multiset
import Mathlib.Algebra.Order.Ring.Nat

/-!
# Opening and closing

A stream opens and closes things that have a name, and a name may be open more than once. A replay of the
stream keeps what is open and fails when something is closed that is not.

Parts that are each right on their own are right one after another (`replay_parts`), and if no part can open
more than it should, the whole is right only if every part is (`parts_exact`).
-/

namespace Infra

inductive Bracket (α : Type*)
  | opening (a : α)
  | closing (a : α)
  deriving DecidableEq

namespace Bracket

variable {α ι : Type*}

/-- How many are opened. -/
def opens : List (Bracket α) → Nat
  | [] => 0
  | opening _ :: l => opens l + 1
  | closing _ :: l => opens l

/-- How many are closed. -/
def closes : List (Bracket α) → Nat
  | [] => 0
  | opening _ :: l => closes l
  | closing _ :: l => closes l + 1

theorem opens_append (l m : List (Bracket α)) : opens (l ++ m) = opens l + opens m := by
  induction l with
  | nil => simp [opens]
  | cons b l ih => cases b <;> simp [opens, ih, Nat.add_right_comm]

theorem closes_append (l m : List (Bracket α)) : closes (l ++ m) = closes l + closes m := by
  induction l with
  | nil => simp [closes]
  | cons b l ih => cases b <;> simp [closes, ih, Nat.add_right_comm]

theorem card_sum_map (held : ι → Multiset α) (parts : List ι) :
    (parts.map held).sum.card = (parts.map fun i => (held i).card).sum := by
  induction parts with
  | nil => rfl
  | cons i parts ih => simp [ih]

theorem mem_sum_map {a : α} (held : ι → Multiset α) (parts : List ι) :
    a ∈ (parts.map held).sum ↔ ∃ i ∈ parts, a ∈ held i := by
  induction parts with
  | nil => simp
  | cons i parts ih => simp [ih]

theorem opens_flatMap (events : ι → List (Bracket α)) (parts : List ι) :
    opens (parts.flatMap events) = (parts.map fun i => opens (events i)).sum := by
  induction parts with
  | nil => rfl
  | cons i parts ih => simp [opens_append, ih]

theorem closes_flatMap (events : ι → List (Bracket α)) (parts : List ι) :
    closes (parts.flatMap events) = (parts.map fun i => closes (events i)).sum := by
  induction parts with
  | nil => rfl
  | cons i parts ih => simp [closes_append, ih]

variable [DecidableEq α] {s t : Multiset α} {l : List (Bracket α)}

/-- What is open behind the stream, if everything that it closes was open. -/
def replay (s : Multiset α) : List (Bracket α) → Option (Multiset α)
  | [] => some s
  | opening a :: l => replay (a ::ₘ s) l
  | closing a :: l => if a ∈ s then replay (s.erase a) l else none

theorem replay_append (s : Multiset α) (l m : List (Bracket α)) :
    replay s (l ++ m) = (replay s l).bind fun t => replay t m := by
  induction l generalizing s with
  | nil => rfl
  | cons b l ih =>
    cases b with
    | opening a => exact ih (a ::ₘ s)
    | closing a =>
      simp only [List.cons_append, replay]
      split
      · exact ih (s.erase a)
      · rfl

/-- What else is open does not disturb. -/
theorem replay_add (h : replay s l = some t) (u : Multiset α) : replay (s + u) l = some (t + u) := by
  induction l generalizing s with
  | nil =>
    cases h
    rfl
  | cons b l ih =>
    cases b with
    | opening a =>
      rw [replay, ← Multiset.cons_add]
      exact ih h
    | closing a =>
      rw [replay] at h ⊢
      split at h
      · next hmem =>
        rw [if_pos (Multiset.mem_add.mpr (Or.inl hmem)), Multiset.erase_add_left_pos u hmem]
        exact ih h
      · cases h

theorem card_replay (h : replay s l = some t) : s.card + opens l = t.card + closes l := by
  induction l generalizing s with
  | nil =>
    cases h
    rfl
  | cons b l ih =>
    cases b with
    | opening a =>
      have hcard := ih h
      rw [Multiset.card_cons] at hcard
      rw [opens, closes]
      omega
    | closing a =>
      rw [replay] at h
      split at h
      · next hmem =>
        have hcard := ih h
        have herase := Multiset.card_erase_add_one hmem
        rw [opens, closes]
        omega
      · cases h

/-! ## Parts -/

section Parts

variable {parts : List ι} {held held' : ι → Multiset α} {events : ι → List (Bracket α)}

/-- **Parts that are right are right together**: each finds open what it held. -/
theorem replay_parts (h : ∀ i ∈ parts, replay (held i) (events i) = some (held' i)) :
    replay (parts.map held).sum (parts.flatMap events) = some (parts.map held').sum := by
  induction parts with
  | nil => rfl
  | cons i parts ih =>
    have hhead := replay_add (h i List.mem_cons_self) (parts.map held).sum
    have htail := replay_add (ih fun j hj => h j (List.mem_cons_of_mem i hj)) (held' i)
    rw [List.map_cons, List.map_cons, List.sum_cons, List.sum_cons, List.flatMap_cons, replay_append, hhead,
      Option.bind_some, Multiset.add_comm (held' i), htail, Multiset.add_comm]

/-- Parts that can only open too little are all right, if the whole is. -/
theorem parts_exact (h : replay (parts.map held).sum (parts.flatMap events) = some (parts.map held').sum)
    (hle : ∀ i ∈ parts, (held i).card + opens (events i) ≤ (held' i).card + closes (events i)) :
    ∀ i ∈ parts, (held i).card + opens (events i) = (held' i).card + closes (events i) := by
  have hcard := card_replay h
  rw [card_sum_map, card_sum_map, opens_flatMap, closes_flatMap, ← List.sum_map_add, ← List.sum_map_add] at hcard
  intro i hi
  by_contra hne
  exact (List.sum_lt_sum _ _ hle ⟨i, hi, lt_of_le_of_ne (hle i hi) hne⟩).ne hcard

end Parts

end Bracket

end Infra
