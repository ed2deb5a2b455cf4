import Mathlib.Data.List.Basic

/-!
# Stream ciphers

A text is combined element by element with a stream of keys, from a position of the stream on.

* `apply_append` — a text can be combined in pieces
* `apply_apply` — combining twice at the same position gives the text back
* `zipWith_segment` — keys behind the end of the text do not matter
-/

namespace Infra.StreamCipher

variable {α κ : Type*} {op : α → κ → α} {stream : Nat → κ} {pos m n : Nat} {text : List α}

/-- The keys from a position on. -/
def segment (stream : Nat → κ) (pos n : Nat) : List κ := (List.range n).map fun i => stream (pos + i)

def apply (op : α → κ → α) (stream : Nat → κ) (pos : Nat) (text : List α) : List α :=
  List.zipWith op text (segment stream pos text.length)

@[simp] theorem length_segment : (segment stream pos n).length = n := by simp [segment]

@[simp] theorem length_apply : (apply op stream pos text).length = text.length := by simp [apply]

theorem segment_add (stream : Nat → κ) (pos m n : Nat) :
    segment stream pos (m + n) = segment stream pos m ++ segment stream (pos + m) n := by
  rw [segment, List.range_add, List.map_append, List.map_map]
  refine congrArg _ (List.map_congr_left fun i _ => ?_)
  rw [Function.comp, Nat.add_assoc]

theorem drop_segment (h : m ≤ n) : (segment stream pos n).drop m = segment stream (pos + m) (n - m) := by
  obtain ⟨k, rfl⟩ := Nat.exists_eq_add_of_le h
  rw [segment_add, List.drop_left' length_segment, Nat.add_sub_cancel_left]

theorem zipWith_take {β γ : Type*} (f : α → β → γ) (as : List α) (bs : List β) :
    List.zipWith f as (bs.take as.length) = List.zipWith f as bs := by
  induction as generalizing bs with
  | nil => simp
  | cons a as ih =>
    cases bs with
    | nil => simp
    | cons b bs => simp [ih]

/-- Keys behind the end of the text do not matter. -/
theorem zipWith_segment (h : text.length ≤ n) :
    List.zipWith op text (segment stream pos n) = apply op stream pos text := by
  obtain ⟨k, rfl⟩ := Nat.exists_eq_add_of_le h
  rw [segment_add, ← zipWith_take, List.take_left' length_segment]
  rfl

/-- A text can be combined in pieces. -/
theorem apply_append (op : α → κ → α) (stream : Nat → κ) (pos : Nat) (a b : List α) :
    apply op stream pos (a ++ b) = apply op stream pos a ++ apply op stream (pos + a.length) b := by
  rw [apply, List.length_append, segment_add, List.zipWith_append (by simp)]
  rfl

/-- Combining twice at the same position gives the text back. -/
theorem apply_apply (hop : ∀ a k, op (op a k) k = a) (pos : Nat) (text : List α) :
    apply op stream pos (apply op stream pos text) = text := by
  rw [apply, length_apply, apply]
  have hlen : text.length = (segment stream pos text.length).length := length_segment.symm
  generalize segment stream pos text.length = keys at hlen
  induction text generalizing keys with
  | nil => rfl
  | cons a text ih =>
    cases keys with
    | nil => cases hlen
    | cons k keys =>
      simp only [List.zipWith_cons_cons, hop]
      rw [ih keys (by simpa using hlen)]

end Infra.StreamCipher
