import Mathlib.Data.List.Nodup

/-!
# Tables with keys

A table is a list the entries of which have different keys.

* `Table.replace` — the entry for a key is replaced where it stands
* `Table.sweep` — the entries to go are removed one by one while the table is gone through
-/

namespace Infra

namespace Table

variable {κ α : Type*} {key : α → κ} {t : List α} {x e : α} {i n : Nat}

/-- No two entries have the same key. -/
def Distinct (key : α → κ) (t : List α) : Prop := (t.map key).Nodup

theorem distinct_nil : Distinct key [] := List.nodup_nil

theorem Distinct.filter (h : Distinct key t) (keep : α → Bool) : Distinct key (t.filter keep) :=
  h.sublist (List.filter_sublist.map key)

theorem Distinct.append (h : Distinct key t) (hx : key x ∉ t.map key) : Distinct key (t ++ [x]) := by
  rw [Distinct, List.map_append, List.map_singleton]
  exact List.nodup_append.mpr ⟨h, List.nodup_singleton _, fun k hk _ hk' => by
    rw [List.mem_singleton.mp hk']
    exact ne_of_mem_of_not_mem hk hx⟩

/-- Entries with the same key are at the same place. -/
theorem Distinct.index_eq {j : Nat} {e' : α} (h : Distinct key t) (hi : t[i]? = some e) (hj : t[j]? = some e')
    (hkey : key e = key e') : i = j := by
  have hlt : i < (t.map key).length := by
    rw [List.length_map]
    exact (List.getElem?_eq_some_iff.mp hi).1
  have hne := List.nodup_iff_getElem?_ne_getElem?.mp h
  by_contra hij
  rcases Nat.lt_or_gt_of_ne hij with hlt' | hgt
  · refine hne i j hlt' ?_ ?_
    · rw [List.length_map]
      exact (List.getElem?_eq_some_iff.mp hj).1
    · rw [List.getElem?_map, List.getElem?_map, hi, hj, Option.map_some, Option.map_some, hkey]
  · refine hne j i hgt hlt ?_
    rw [List.getElem?_map, List.getElem?_map, hi, hj, Option.map_some, Option.map_some, hkey]

/-! ## Replacing -/

section Replace

variable [DecidableEq κ]

/-- The entry with the key of `x` becomes `x`. -/
def replace (key : α → κ) (x : α) (t : List α) : List α := t.map fun e => if key e = key x then x else e

theorem map_key_replace : (replace key x t).map key = t.map key := by
  rw [replace, List.map_map]
  refine List.map_congr_left fun e _ => ?_
  by_cases hkey : key e = key x
  · rw [Function.comp_apply, if_pos hkey, hkey]
  · rw [Function.comp_apply, if_neg hkey]

theorem Distinct.replace (h : Distinct key t) : Distinct key (replace key x t) := by
  rw [Distinct, map_key_replace]
  exact h

theorem mem_replace (he : e ∈ replace key x t) : e = x ∨ e ∈ t ∧ key e ≠ key x := by
  obtain ⟨e', he', rfl⟩ := List.mem_map.mp he
  by_cases hkey : key e' = key x
  · exact .inl (if_pos hkey)
  · rw [if_neg hkey]
    exact .inr ⟨he', hkey⟩

/-- Where the entry stands, `x` is put. -/
theorem set_eq_replace (h : Distinct key t) (hi : t[i]? = some e) (hkey : key e = key x) :
    t.set i x = replace key x t := by
  refine List.ext_getElem? fun j => ?_
  rw [replace, List.getElem?_map, List.getElem?_set]
  rcases eq_or_ne i j with rfl | hne
  · rw [if_pos rfl, if_pos (List.getElem?_eq_some_iff.mp hi).1, hi, Option.map_some, if_pos hkey]
  · rw [if_neg hne]
    cases hj : t[j]? with
    | none => rfl
    | some e' =>
      rw [Option.map_some, if_neg fun hkey' => hne (h.index_eq hi hj (hkey.trans hkey'.symm))]

end Replace

/-! ## Removing in place -/

/-- The next `n` entries from `i` on are gone through. Behind a removed one, the next one is at its place. -/
def sweep (keep : α → Bool) : Nat → Nat → List α → List α
  | 0, _, t => t
  | n + 1, i, t =>
    match t[i]? with
    | none => t
    | some e => if keep e then sweep keep n (i + 1) t else sweep keep n i (t.eraseIdx i)

/-- **What is left are the entries to keep, in their order.** -/
theorem sweep_eq {keep : α → Bool} (hn : i + n = t.length) :
    sweep keep n i t = t.take i ++ (t.drop i).filter keep := by
  induction n generalizing i t with
  | zero =>
    rw [sweep, List.take_of_length_le (by omega), List.drop_of_length_le (by omega), List.filter_nil,
      List.append_nil]
  | succ n ih =>
    have hlt : i < t.length := by omega
    rw [sweep, List.getElem?_eq_getElem hlt, List.drop_eq_getElem_cons hlt]
    by_cases hkeep : keep t[i] = true
    · simp only [if_pos hkeep, List.filter_cons_of_pos hkeep]
      rw [ih (by omega), List.take_succ_eq_append_getElem hlt, List.append_assoc, List.singleton_append]
    · simp only [if_neg hkeep, List.filter_cons_of_neg hkeep]
      rw [ih (by rw [List.length_eraseIdx_of_lt hlt]; omega), List.eraseIdx_eq_take_drop_succ]
      have htake : (t.take i).length = i := by
        rw [List.length_take]
        omega
      rw [List.take_left' htake, List.drop_left' htake]

/-- The whole table is gone through. -/
theorem sweep_all (keep : α → Bool) (t : List α) : sweep keep t.length 0 t = t.filter keep :=
  sweep_eq (Nat.zero_add _)

end Table

end Infra
