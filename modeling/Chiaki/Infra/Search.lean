import Mathlib.Data.List.Infix
import Mathlib.Data.Nat.Find

/-!
# Searching for a pattern

How far a word has come in matching a pattern, and where the pattern occurs first.

* `border` — the longest prefix of the pattern that a word ends with
* `border_append_singleton` — the next border needs the last one and the next symbol only, which is
  what a matching automaton stores in its table
* `FirstEnd` — where the first occurrence of a pattern ends
-/

namespace Infra.Search

variable {α : Type*}

/-! ## Borders -/

section Border

variable [DecidableEq α] {pat w : List α} {c : α} {k : Nat}

/-- The length of the longest prefix of `pat` that `w` ends with. -/
def border (pat w : List α) : Nat := Nat.findGreatest (fun k => pat.take k <:+ w) pat.length

theorem border_le (pat w : List α) : border pat w ≤ pat.length := Nat.findGreatest_le _

theorem take_border_suffix (pat w : List α) : pat.take (border pat w) <:+ w := by
  have h0 : pat.take 0 <:+ w := by simp
  exact @Nat.findGreatest_spec 0 (fun k => pat.take k <:+ w) _ pat.length (Nat.zero_le _) h0

theorem le_border (hk : k ≤ pat.length) (h : pat.take k <:+ w) : k ≤ border pat w :=
  Nat.le_findGreatest hk h

theorem border_eq_length_iff : border pat w = pat.length ↔ pat <:+ w := by
  constructor
  · intro h
    have hs := take_border_suffix pat w
    rwa [h, List.take_length] at hs
  · intro h
    exact Nat.le_antisymm (border_le pat w) (le_border (Nat.le_refl _) (by rwa [List.take_length]))

omit [DecidableEq α] in
/-- A suffix of a word with one more symbol ends with that symbol. -/
theorem take_succ_suffix_iff (hk : k < pat.length) :
    pat.take (k + 1) <:+ w ++ [c] ↔ pat.take k <:+ w ∧ pat[k]? = some c := by
  rw [List.take_add_one, List.getElem?_eq_getElem hk, Option.toList_some]
  constructor
  · rintro ⟨t, ht⟩
    rw [← List.append_assoc] at ht
    obtain ⟨hw, hc⟩ := List.append_inj' ht rfl
    exact ⟨⟨t, hw⟩, by rw [List.singleton_inj.mp hc]⟩
  · rintro ⟨⟨t, ht⟩, hc⟩
    rw [Option.some.inj hc]
    exact ⟨t, by rw [← List.append_assoc, ht]⟩

/-- **The next border depends on the last one and the next symbol only.** -/
theorem border_append_singleton (pat w : List α) (c : α) :
    border pat (w ++ [c]) = border pat (pat.take (border pat w) ++ [c]) := by
  have hsuf := take_border_suffix pat w
  refine Nat.le_antisymm ?_ ?_
  · refine le_border (border_le _ _) ?_
    have hk := take_border_suffix pat (w ++ [c])
    have hle := border_le pat (w ++ [c])
    cases hb : border pat (w ++ [c]) with
    | zero => simp
    | succ k =>
      rw [hb] at hk hle
      obtain ⟨hkw, hc⟩ := (take_succ_suffix_iff (by omega)).mp hk
      have hkb : k ≤ border pat w := le_border (by omega) hkw
      refine (take_succ_suffix_iff (by omega)).mpr ⟨?_, hc⟩
      refine List.suffix_of_suffix_length_le hkw hsuf ?_
      simp only [List.length_take]
      omega
  · refine le_border (border_le _ _) ?_
    refine (take_border_suffix pat _).trans ?_
    obtain ⟨t, ht⟩ := hsuf
    exact ⟨t, by rw [← List.append_assoc, ht]⟩

/-- A symbol that the pattern does not have leaves nothing to go on with. -/
theorem border_append_of_not_mem (hc : c ∉ pat) : border pat (w ++ [c]) = 0 := by
  have hk := take_border_suffix pat (w ++ [c])
  have hle := border_le pat (w ++ [c])
  cases hb : border pat (w ++ [c]) with
  | zero => rfl
  | succ k =>
    rw [hb] at hk hle
    have hget := ((take_succ_suffix_iff (by omega)).mp hk).2
    exact absurd (List.mem_of_getElem? hget) hc

end Border

/-! ## The first occurrence -/

variable {pat s t w : List α} {h k : Nat}

/-- The pattern occurs nowhere. -/
def Absent (pat s : List α) : Prop := ∀ k ≤ s.length, ¬ pat <:+ s.take k

/-- The first occurrence of the pattern ends at `h`. -/
structure FirstEnd (pat s : List α) (h : Nat) : Prop where
  le_length : h ≤ s.length
  found : pat <:+ s.take h
  first : ∀ k < h, ¬ pat <:+ s.take k

instance [DecidableEq α] : Decidable (FirstEnd pat s h) :=
  decidable_of_iff (h ≤ s.length ∧ pat <:+ s.take h ∧ ∀ k < h, ¬ pat <:+ s.take k)
    ⟨fun ⟨hle, hfound, hfirst⟩ => ⟨hle, hfound, hfirst⟩, fun hend => ⟨hend.le_length, hend.found, hend.first⟩⟩

theorem absent_iff : Absent pat s ↔ ¬ pat <:+: s := by
  unfold Absent
  rw [List.infix_iff_suffix_prefix]
  constructor
  · rintro h ⟨t, hsuf, hpre⟩
    refine h t.length hpre.length_le ?_
    rwa [← List.prefix_iff_eq_take.mp hpre]
  · intro h k hk hsuf
    exact h ⟨s.take k, hsuf, List.take_prefix k s⟩

theorem absent_nil (hp : pat ≠ []) : Absent pat [] := by
  intro k _ h
  rw [List.take_nil, List.suffix_nil] at h
  exact hp h

theorem FirstEnd.not_absent (hf : FirstEnd pat s h) : ¬ Absent pat s :=
  fun ha => ha h hf.le_length hf.found

theorem FirstEnd.unique (hf : FirstEnd pat s h) (hk : FirstEnd pat s k) : h = k := by
  rcases Nat.lt_trichotomy h k with hlt | heq | hgt
  · exact absurd hf.found (hk.first h hlt)
  · exact heq
  · exact absurd hk.found (hf.first k hgt)

/-- What comes later does not change where the pattern occurred first. -/
theorem FirstEnd.of_prefix (hf : FirstEnd pat s h) (hp : s <+: t) : FirstEnd pat t h := by
  obtain ⟨r, rfl⟩ := hp
  have hle := hf.le_length
  refine ⟨by rw [List.length_append]; omega, ?_, fun k hk => ?_⟩
  · rw [List.take_append_of_le_length hle]
    exact hf.found
  · rw [List.take_append_of_le_length (by omega)]
    exact hf.first k hk

theorem Absent.of_prefix (ha : Absent pat t) (hp : s <+: t) : Absent pat s := by
  obtain ⟨r, rfl⟩ := hp
  intro k hk
  have hr := ha k (by rw [List.length_append]; omega)
  rwa [List.take_append_of_le_length hk] at hr

/-- One more symbol, and the pattern is still absent. -/
theorem Absent.append_singleton {c : α} (ha : Absent pat s) (hn : ¬ pat <:+ s ++ [c]) :
    Absent pat (s ++ [c]) := by
  intro k hk
  rw [List.length_append, List.length_singleton] at hk
  rcases Nat.lt_or_ge s.length k with hlt | hle
  · rwa [List.take_of_length_le (by rw [List.length_append, List.length_singleton]; omega)]
  · rw [List.take_append_of_le_length hle]
    exact ha k hle

/-- One more symbol, and the pattern has occurred. -/
theorem Absent.firstEnd {c : α} (ha : Absent pat s) (hf : pat <:+ s ++ [c]) :
    FirstEnd pat (s ++ [c]) (s.length + 1) := by
  have hlen : (s ++ [c]).length = s.length + 1 := by simp
  refine ⟨by rw [hlen], ?_, fun k hk => ?_⟩
  · rwa [List.take_of_length_le (by rw [hlen])]
  · rw [List.take_append_of_le_length (by omega)]
    exact ha k (by omega)

/-- A symbol that is not in the pattern keeps it from going on. -/
theorem Absent.append_cons {a b : List α} {c : α} (ha : Absent pat a) (hb : Absent pat b) (hc : c ∉ pat) :
    Absent pat (a ++ c :: b) := by
  rw [absent_iff] at ha hb ⊢
  rintro ⟨front, back, h⟩
  rw [List.append_assoc, List.append_eq_append_iff] at h
  rcases h with ⟨rest, rfl, h⟩ | ⟨rest, rfl, h⟩
  · rw [List.append_eq_append_iff] at h
    rcases h with ⟨more, rfl, h⟩ | ⟨more, hpat, h⟩
    · exact ha ⟨front, more, by rw [List.append_assoc]⟩
    · cases more with
      | nil =>
        rw [List.append_nil] at hpat
        exact ha ⟨front, [], by rw [hpat, List.append_nil]⟩
      | cons x more =>
        obtain ⟨rfl, -⟩ := List.cons.inj h
        exact hc (hpat ▸ List.mem_append_right _ (List.mem_cons_self ..))
  · cases rest with
    | nil =>
      cases pat with
      | nil => exact ha List.nil_infix
      | cons x pat =>
        rw [List.nil_append, List.cons_append] at h
        obtain ⟨rfl, -⟩ := List.cons.inj h
        exact hc (List.mem_cons_self ..)
    | cons x rest =>
      rw [List.cons_append] at h
      obtain ⟨-, rfl⟩ := List.cons.inj h
      exact hb ⟨rest, back, by rw [List.append_assoc]⟩

/-- Symbols that are not in the pattern. -/
theorem Absent.append_free {a b free : List α} (ha : Absent pat a) (hb : Absent pat b) (hne : free ≠ [])
    (hfree : ∀ c ∈ free, c ∉ pat) : Absent pat (a ++ (free ++ b)) := by
  induction free generalizing a with
  | nil => exact absurd rfl hne
  | cons c free ih =>
    obtain ⟨hc, hrest⟩ := List.forall_mem_cons.mp hfree
    cases free with
    | nil => exact ha.append_cons hb hc
    | cons d free =>
      have hnil : Absent pat [] := ha.of_prefix List.nil_prefix
      exact ha.append_cons (ih hnil (List.cons_ne_nil _ _) hrest) hc

end Infra.Search
