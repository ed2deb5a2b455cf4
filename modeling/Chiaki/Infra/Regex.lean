import Mathlib.Data.List.TakeWhile

/-!
# Regular expressions that are searched by backtracking

What can be left of a text behind an expression is a list, in the order in which a search tries it: a repetition takes
as much as it can first, and an alternative its first branch.

* `mem_rests_iff` — what is left is behind a text of the language
* `Pattern.search_sound` — what a search finds
* `Pattern.search_eq` — what is found when each part takes its text first
-/

namespace Infra

/-- An expression over bytes. `rep p min max` is a character of a class, repeated. -/
inductive Regex
  | text (s : List UInt8)
  | rep (p : UInt8 → Bool) (min : Nat) (max : Option Nat)
  | seq (r r' : Regex)
  | alt (r r' : Regex)

namespace Regex

variable {s t t' rest : List UInt8} {r r' : Regex} {p : UInt8 → Bool} {min : Nat} {max : Option Nat}

/-- How often a class is repeated at most. -/
def most (p : UInt8 → Bool) (max : Option Nat) (s : List UInt8) : Nat :=
  max.elim (s.takeWhile p).length (Nat.min (s.takeWhile p).length)

/-- What can be left behind an expression at the beginning of a text. -/
def rests : Regex → List UInt8 → List (List UInt8)
  | text t, s => if t.isPrefixOf s then [s.drop t.length] else []
  | rep p min max, s => (List.range' min (most p max s + 1 - min)).reverse.map s.drop
  | seq r r', s => (r.rests s).flatMap r'.rests
  | alt r r', s => r.rests s ++ r'.rests s

/-- The texts of an expression. -/
inductive Matches : Regex → List UInt8 → Prop
  | text (t : List UInt8) : Matches (text t) t
  | rep (p : UInt8 → Bool) (min : Nat) (max : Option Nat) (t : List UInt8) (hall : ∀ c ∈ t, p c = true)
      (hmin : min ≤ t.length) (hmax : ∀ m, max = some m → t.length ≤ m) : Matches (rep p min max) t
  | seq (r r' : Regex) (t t' : List UInt8) (h : Matches r t) (h' : Matches r' t') : Matches (seq r r') (t ++ t')
  | left (r r' : Regex) (t : List UInt8) (h : Matches r t) : Matches (alt r r') t
  | right (r r' : Regex) (t : List UInt8) (h : Matches r' t) : Matches (alt r r') t

theorem matches_text_iff : Matches (.text t) s ↔ s = t :=
  ⟨fun h => by cases h; rfl, fun h => h ▸ .text t⟩

theorem matches_rep_iff : Matches (.rep p min max) s ↔
    (∀ c ∈ s, p c = true) ∧ min ≤ s.length ∧ ∀ m, max = some m → s.length ≤ m :=
  ⟨fun h => by cases h with | rep _ _ _ _ hall hmin hmax => exact ⟨hall, hmin, hmax⟩,
    fun ⟨hall, hmin, hmax⟩ => .rep p min max s hall hmin hmax⟩

theorem matches_seq_iff : Matches (.seq r r') s ↔ ∃ t t', s = t ++ t' ∧ Matches r t ∧ Matches r' t' :=
  ⟨fun h => by cases h with | seq _ _ t t' h h' => exact ⟨t, t', rfl, h, h'⟩,
    fun ⟨t, t', hs, h, h'⟩ => hs ▸ .seq r r' t t' h h'⟩

theorem matches_alt_iff : Matches (.alt r r') s ↔ Matches r s ∨ Matches r' s :=
  ⟨fun h => by cases h with | left _ _ _ h => exact .inl h | right _ _ _ h => exact .inr h,
    fun h => h.elim (.left r r' s) (.right r r' s)⟩

/-! ## What is left -/

theorem takeWhile_length_ge {n : Nat} (hn : n ≤ s.length) : n ≤ (s.takeWhile p).length ↔ ∀ c ∈ s.take n, p c = true := by
  constructor
  · intro h c hc
    obtain ⟨rest, hrest⟩ := @List.takeWhile_prefix _ s p
    have htake : (s.takeWhile p ++ rest).take n = (s.takeWhile p).take n := List.take_append_of_le_length h
    rw [hrest] at htake
    rw [htake] at hc
    exact List.mem_takeWhile_imp (List.mem_of_mem_take hc)
  · intro h
    have hsplit : (s.take n ++ s.drop n).takeWhile p = s.take n ++ (s.drop n).takeWhile p :=
      List.takeWhile_append_of_pos h
    rw [List.take_append_drop] at hsplit
    rw [hsplit, List.length_append, List.length_take, Nat.min_eq_left hn]
    omega

theorem le_most_iff {n : Nat} (hn : n ≤ s.length) :
    n ≤ most p max s ↔ (∀ c ∈ s.take n, p c = true) ∧ ∀ m, max = some m → n ≤ m := by
  unfold most
  cases max with
  | none => simp [takeWhile_length_ge hn]
  | some m =>
    have hmin : n ≤ Nat.min (s.takeWhile p).length m ↔ n ≤ (s.takeWhile p).length ∧ n ≤ m := Nat.le_min
    simp [hmin, takeWhile_length_ge hn]

theorem most_le : most p max s ≤ s.length := by
  have hlen := (@List.takeWhile_prefix _ s p).length_le
  unfold most
  cases max with
  | none => exact hlen
  | some m => exact Nat.le_trans (Nat.min_le_left _ _) hlen

/-- **What is left is behind a text of the expression.** -/
theorem mem_rests_iff : rest ∈ r.rests s ↔ ∃ t, s = t ++ rest ∧ Matches r t := by
  induction r generalizing s rest with
  | text t =>
    simp only [rests, matches_text_iff]
    constructor
    · intro h
      split at h
      · next hprefix =>
        obtain ⟨more, rfl⟩ := List.isPrefixOf_iff_prefix.mp hprefix
        rw [List.mem_singleton] at h
        exact ⟨t, by rw [h, List.drop_left], rfl⟩
      · cases h
    · rintro ⟨_, rfl, rfl⟩
      rw [if_pos (List.isPrefixOf_iff_prefix.mpr (List.prefix_append _ _)), List.drop_left]
      exact List.mem_singleton_self _
  | rep p min max =>
    simp only [rests, matches_rep_iff, List.mem_map, List.mem_reverse, List.mem_range'_1]
    constructor
    · rintro ⟨n, ⟨hmin, hlt⟩, rfl⟩
      have hle : n ≤ most p max s := by omega
      have hn := Nat.le_trans hle most_le
      obtain ⟨hall, hmax⟩ := (le_most_iff hn).mp hle
      refine ⟨s.take n, (List.take_append_drop n s).symm, hall, ?_, ?_⟩
      · rwa [List.length_take, Nat.min_eq_left hn]
      · rwa [List.length_take, Nat.min_eq_left hn]
    · rintro ⟨t, rfl, hall, hmin, hmax⟩
      have hle : t.length ≤ most p max (t ++ rest) :=
        (le_most_iff (by simp)).mpr ⟨by rwa [List.take_left], hmax⟩
      exact ⟨t.length, ⟨hmin, by omega⟩, List.drop_left⟩
  | seq r r' ih ih' =>
    simp only [rests, matches_seq_iff, List.mem_flatMap, ih, ih']
    constructor
    · rintro ⟨_, ⟨t, rfl, h⟩, t', rfl, h'⟩
      exact ⟨t ++ t', by rw [List.append_assoc], t, t', rfl, h, h'⟩
    · rintro ⟨_, rfl, t, t', rfl, h, h'⟩
      exact ⟨t' ++ rest, ⟨t, by rw [List.append_assoc], h⟩, t', rfl, h'⟩
  | alt r r' ih ih' =>
    simp only [rests, matches_alt_iff, List.mem_append, ih, ih']
    constructor
    · rintro (⟨t, hs, h⟩ | ⟨t, hs, h⟩)
      · exact ⟨t, hs, .inl h⟩
      · exact ⟨t, hs, .inr h⟩
    · rintro ⟨t, hs, h | h⟩
      · exact .inl ⟨t, hs, h⟩
      · exact .inr ⟨t, hs, h⟩

/-! ## What is tried first -/

/-- What is left first is behind the first expression and then behind the second one. -/
theorem head?_flatMap {α β : Type} {l : List α} {f : α → List β} {a : α} {b : β} (ha : l.head? = some a)
    (hb : (f a).head? = some b) : (l.flatMap f).head? = some b := by
  cases l with
  | nil => cases ha
  | cons _ l =>
    cases ha
    rw [List.flatMap_cons, List.head?_append, hb]
    rfl

/-- An expression takes a text in front of another one before anything else. -/
def Takes (r : Regex) (t rest : List UInt8) : Prop := (r.rests (t ++ rest)).head? = some rest

theorem takes_text (t rest : List UInt8) : Takes (.text t) t rest := by
  rw [Takes, rests, if_pos (List.isPrefixOf_iff_prefix.mpr (List.prefix_append _ _)), List.drop_left]
  rfl

theorem Takes.seq (h : Takes r t (t' ++ rest)) (h' : Takes r' t' rest) : Takes (.seq r r') (t ++ t') rest := by
  rw [Takes, rests, List.append_assoc]
  exact head?_flatMap h h'

theorem Takes.left (h : Takes r t rest) : Takes (.alt r r') t rest := by
  rw [Takes, rests, List.head?_append, h]
  rfl

theorem Takes.right (hnone : r.rests (t ++ rest) = []) (h : Takes r' t rest) : Takes (.alt r r') t rest := by
  rw [Takes, rests, hnone, List.nil_append, h]

/-- A repetition takes all that it can. -/
theorem head?_rep (hmin : min ≤ most p max s) : ((Regex.rep p min max).rests s).head? = some (s.drop (most p max s)) := by
  rw [rests, show most p max s + 1 - min = most p max s - min + 1 by omega, List.range'_concat, List.reverse_append]
  simp only [List.reverse_singleton, List.singleton_append, List.map_cons, List.head?_cons]
  rw [show min + 1 * (most p max s - min) = most p max s by omega]

/-- What is left first behind a repetition and something else: with no more characters there is nothing. -/
theorem head?_rep_flatMap {α : Type} {f : List UInt8 → List α} {a : α}
    (h : (((Regex.rep p min max).rests s).flatMap f).head? = some a) :
    ∃ n, min ≤ n ∧ n ≤ most p max s ∧ (f (s.drop n)).head? = some a ∧
      ∀ m, n < m → m ≤ most p max s → f (s.drop m) = [] := by
  suffices hrange : ∀ k, (((List.range' min k).reverse.map s.drop).flatMap f).head? = some a →
      ∃ n, min ≤ n ∧ n < min + k ∧ (f (s.drop n)).head? = some a ∧
        ∀ m, n < m → m < min + k → f (s.drop m) = [] by
    obtain ⟨n, hmin, hn, ha, hmore⟩ := hrange _ h
    exact ⟨n, hmin, by omega, ha, fun m hm hle => hmore m hm (by omega)⟩
  intro k hk
  -- with `k + 1` tries the longest one comes first
  induction k with
  | zero => cases hk
  | succ k ih =>
    rw [List.range'_concat, List.reverse_append, List.reverse_singleton, List.singleton_append, List.map_cons,
      List.flatMap_cons, Nat.one_mul] at hk
    cases hlast : f (s.drop (min + k)) with
    | nil =>
      rw [hlast, List.nil_append] at hk
      obtain ⟨n, hmin, hn, ha, hmore⟩ := ih hk
      refine ⟨n, hmin, by omega, ha, ?_⟩
      intro m hm hlt
      rcases Nat.lt_or_eq_of_le (Nat.le_of_lt_succ hlt) with hlt | rfl
      · exact hmore m hm hlt
      · exact hlast
    | cons b more =>
      rw [hlast] at hk
      exact ⟨min + k, by omega, by omega, hlast ▸ hk, fun m hm hlt => by omega⟩

/-- It stops in front of a character that is not of its class. -/
theorem takes_rep (hall : ∀ c ∈ t, p c = true) (hmin : min ≤ t.length) (hmax : ∀ m, max = some m → t.length ≤ m)
    (hstop : ∀ c ∈ rest.head?, p c = false) : Takes (.rep p min max) t rest := by
  have hrest : rest.takeWhile p = [] := by
    cases rest with
    | nil => rfl
    | cons c rest => exact List.takeWhile_cons_of_neg (by simp [hstop c rfl])
  have hmost : most p max (t ++ rest) = t.length := by
    rw [most, List.takeWhile_append_of_pos hall, hrest, List.append_nil]
    cases max with
    | none => rfl
    | some m => exact Nat.min_eq_left (hmax m rfl)
  rw [Takes, head?_rep (by rwa [hmost]), hmost, List.drop_left]

/-- Nothing is left if no text of the expression is in front. -/
theorem rests_eq_nil (h : ∀ t rest, s = t ++ rest → ¬ Matches r t) : r.rests s = [] := by
  refine List.eq_nil_iff_forall_not_mem.mpr fun rest hrest => ?_
  obtain ⟨t, hs, ht⟩ := mem_rests_iff.mp hrest
  exact h t rest hs ht

end Regex

/-! ## Patterns -/

/-- An expression with a group in it, which is searched for at the beginning of a text. -/
structure Pattern where
  before : Regex
  group : Regex
  after : Regex

namespace Pattern

variable {pattern : Pattern} {s value : List UInt8}

/-- The group as it is found first. -/
def search (pattern : Pattern) (s : List UInt8) : Option (List UInt8) :=
  ((pattern.before.rests s).flatMap fun t => (pattern.group.rests t).flatMap fun rest =>
    (pattern.after.rests rest).map fun _ => t.take (t.length - rest.length)).head?

/-- What is found behind a text that is tried. -/
theorem mem_found {group after : Regex} {t : List UInt8} :
    value ∈ ((group.rests t).flatMap fun rest => (after.rests rest).map fun _ => t.take (t.length - rest.length)) ↔
      ∃ v rest, t = value ++ (v ++ rest) ∧ group.Matches value ∧ after.Matches v := by
  simp only [List.mem_flatMap, List.mem_map, Regex.mem_rests_iff]
  have htake : ∀ a b : List UInt8, (a ++ b).take ((a ++ b).length - b.length) = a := by
    intro a b
    rw [List.length_append, Nat.add_sub_cancel, List.take_left]
  constructor
  · rintro ⟨_, ⟨u, rfl, hu⟩, rest, ⟨v, rfl, hv⟩, rfl⟩
    rw [htake]
    exact ⟨v, rest, rfl, hu, hv⟩
  · rintro ⟨v, rest, rfl, hu, hv⟩
    exact ⟨v ++ rest, ⟨value, rfl, hu⟩, rest, ⟨v, rfl, hv⟩, htake _ _⟩

/-- **What a search finds is a text of the group**, between texts of the other two. -/
theorem search_sound (h : pattern.search s = some value) : ∃ u v rest, s = u ++ (value ++ (v ++ rest)) ∧
    pattern.before.Matches u ∧ pattern.group.Matches value ∧ pattern.after.Matches v := by
  obtain ⟨t, ht, hvalue⟩ := List.mem_flatMap.mp (List.mem_of_mem_head? h)
  obtain ⟨u, rfl, hu⟩ := Regex.mem_rests_iff.mp ht
  obtain ⟨v, rest, rfl, hgroup, hv⟩ := mem_found.mp hvalue
  exact ⟨u, v, rest, rfl, hu, hgroup, hv⟩

/-- Nothing is found if nothing of the text is what comes before the group. -/
theorem search_eq_none_of_before (h : ∀ u rest, s = u ++ rest → ¬ pattern.before.Matches u) :
    pattern.search s = none := by
  refine Option.eq_none_iff_forall_ne_some.mpr fun value hvalue => ?_
  obtain ⟨u, v, rest, hs, hu, -⟩ := search_sound hvalue
  exact h u _ hs hu

/-- The text of each part that is taken first is what is found. -/
theorem search_eq {u v rest : List UInt8} (hbefore : pattern.before.Takes u (value ++ (v ++ rest)))
    (hgroup : pattern.group.Takes value (v ++ rest)) (hafter : pattern.after.Takes v rest) :
    pattern.search (u ++ (value ++ (v ++ rest))) = some value := by
  refine Regex.head?_flatMap hbefore (Regex.head?_flatMap hgroup ?_)
  rw [List.head?_map, hafter, Option.map_some, List.length_append, Nat.add_sub_cancel, List.take_left]

end Pattern

end Infra
