import Mathlib.Order.Basic

/-!
# Bisection

A search for the greatest size that passes a test. The first size is given, every other one is in
the middle of the bounds. A test may change a state, may be given up with an error, and may answer what it
likes.

* `search_isSome` — the search ends
* `mem_tests` — it tests only sizes inside of its bounds
* `search_of_lt`, `search_of_le`, `search_at_max` — what it finds if the answers have a threshold
-/

namespace Infra

/-- The bounds, and the size that is tested next. -/
structure Bisection where
  min : Nat
  max : Nat
  cur : Nat
  deriving DecidableEq

namespace Bisection

/-- The bounds after a test. -/
def next (b : Bisection) (success : Bool) : Bisection :=
  let min := if success then b.cur else b.min
  let max := if success then b.max else b.cur
  ⟨min, max, min + (max - min) / 2⟩

/-- What a search has come to: the tests in their order, and the last bounds if no test was given up. -/
structure Found (σ ε : Type*) where
  state : σ
  tests : List (Nat × Except ε Bool)
  outcome : Except ε Bisection

variable {σ ε : Type*}

/-- The search goes on while there is a size between the bounds. -/
def search (test : σ → Nat → σ × Except ε Bool) : Nat → Bisection → σ → Option (Found σ ε)
  | 0, _, _ => none
  | fuel + 1, b, s =>
    if b.max - b.min > 1 then
      match test s b.cur with
      | (s', .error e) => some ⟨s', [(b.cur, .error e)], .error e⟩
      | (s', .ok success) =>
        (search test fuel (b.next success) s').map fun r =>
          { r with tests := (b.cur, .ok success) :: r.tests }
    else some ⟨s, [], .ok b⟩

/-! ## Bounds -/

variable {test : σ → Nat → σ × Except ε Bool} {fuel t : Nat} {b b' : Bisection} {s : σ} {r : Found σ ε}

/-- What is tested next is inside of the bounds. -/
structure Valid (b : Bisection) : Prop where
  min_le : b.min ≤ b.cur
  le_max : b.cur ≤ b.max

/-- How many tests there may be at most. The first size may be a bound itself. -/
def size (b : Bisection) : Nat := 2 * (b.max - b.min) + if b.min < b.cur ∧ b.cur < b.max then 0 else 1

theorem size_le (b : Bisection) : b.size ≤ 2 * (b.max - b.min) + 1 := by
  unfold size
  split <;> omega

theorem Valid.next (h : b.Valid) (success : Bool) :
    (b.next success).Valid ∧ b.min ≤ (b.next success).min ∧ (b.next success).max ≤ b.max := by
  obtain ⟨hmin, hmax⟩ := h
  cases success with
  | true => exact ⟨⟨Nat.le_add_right _ _, by simp only [Bisection.next, if_pos]; omega⟩, hmin, Nat.le_refl _⟩
  | false => exact ⟨⟨Nat.le_add_right _ _, by simp [Bisection.next]; omega⟩, Nat.le_refl _, hmax⟩

theorem size_next (h : b.Valid) (hgap : b.max - b.min > 1) (success : Bool) : (b.next success).size < b.size := by
  obtain ⟨hmin, hmax⟩ := h
  unfold size
  cases success with
  | true =>
    simp only [Bisection.next, if_pos]
    split <;> split <;> omega
  | false =>
    simp only [Bisection.next, Bool.false_eq_true, if_false]
    split <;> split <;> omega

/-! ## The search -/

theorem search_done (hgap : ¬ b.max - b.min > 1) : search test (fuel + 1) b s = some ⟨s, [], .ok b⟩ := by
  rw [search, if_neg hgap]

/-- One test of the search. -/
theorem search_cases (hgap : b.max - b.min > 1) (h : search test (fuel + 1) b s = some r) :
    (∃ e, (test s b.cur).2 = .error e ∧ r = ⟨(test s b.cur).1, [(b.cur, .error e)], .error e⟩) ∨
    ∃ success r', (test s b.cur).2 = .ok success ∧
      search test fuel (b.next success) (test s b.cur).1 = some r' ∧
      r = { r' with tests := (b.cur, .ok success) :: r'.tests } := by
  rw [search, if_pos hgap] at h
  rcases hs : test s b.cur with ⟨s', e | success⟩
  · rw [hs] at h
    exact .inl ⟨e, rfl, (Option.some.inj h).symm⟩
  · rw [hs] at h
    obtain ⟨r', hr', hr⟩ := Option.map_eq_some_iff.mp h
    exact .inr ⟨success, r', rfl, hr', hr.symm⟩

/-- **The search ends.** -/
theorem search_isSome (h : b.Valid) (hfuel : b.size < fuel) : (search test fuel b s).isSome := by
  induction fuel generalizing b s with
  | zero => omega
  | succ fuel ih =>
    by_cases hgap : b.max - b.min > 1
    · rw [search, if_pos hgap]
      obtain ⟨s', e | success⟩ := test s b.cur
      · rfl
      · rw [Option.isSome_map]
        have hlt := size_next h hgap success
        exact ih (h.next success).1 (by omega)
    · rw [search_done hgap]
      rfl

/-- More fuel changes nothing. -/
theorem search_mono {fuel' : Nat} (hr : search test fuel b s = some r) (hle : fuel ≤ fuel') :
    search test fuel' b s = some r := by
  induction fuel generalizing fuel' b s r with
  | zero => cases hr
  | succ fuel ih =>
    obtain ⟨fuel', rfl⟩ : ∃ n, fuel' = n + 1 := ⟨fuel' - 1, by omega⟩
    by_cases hgap : b.max - b.min > 1
    · rw [search, if_pos hgap]
      obtain ⟨e, he, rfl⟩ | ⟨success, r', hok, hr', rfl⟩ := search_cases hgap hr
      · rcases htest : test s b.cur with ⟨s', answer⟩
        rw [htest] at he
        cases he
        rfl
      · have hrest := ih hr' (show fuel ≤ fuel' by omega)
        rcases htest : test s b.cur with ⟨s', answer⟩
        rw [htest] at hok hrest
        cases hok
        simp only [hrest, Option.map_some]
    · rw [search_done hgap] at hr ⊢
      exact hr

/-- **Only sizes inside of the bounds are tested.** -/
theorem mem_tests (h : b.Valid) (hr : search test fuel b s = some r) {n : Nat} {answer : Except ε Bool}
    (hn : (n, answer) ∈ r.tests) : b.min ≤ n ∧ n ≤ b.max := by
  induction fuel generalizing b s r with
  | zero => cases hr
  | succ fuel ih =>
    by_cases hgap : b.max - b.min > 1
    · obtain ⟨e, -, rfl⟩ | ⟨success, r', -, hr', rfl⟩ := search_cases hgap hr
      · obtain ⟨rfl, -⟩ := Prod.mk.inj (List.mem_singleton.mp hn)
        exact ⟨h.min_le, h.le_max⟩
      · rcases List.mem_cons.mp hn with heq | hn
        · obtain ⟨rfl, -⟩ := Prod.mk.inj heq
          exact ⟨h.min_le, h.le_max⟩
        · obtain ⟨hvalid, hmin, hmax⟩ := h.next success
          obtain ⟨hle, hge⟩ := ih hvalid hr' hn
          exact ⟨by omega, by omega⟩
    · rw [search_done hgap] at hr
      cases hr
      cases hn

/-- A search that gives up no test ends with bounds. -/
theorem search_ok {I : σ → Prop} (htest : ∀ s n, I s → b.min ≤ n → n ≤ b.max →
      I (test s n).1 ∧ ∃ success, (test s n).2 = .ok success)
    (h : b.Valid) (hs : I s) (hr : search test fuel b s = some r) : I r.state ∧ ∃ b', r.outcome = .ok b' := by
  induction fuel generalizing b s r with
  | zero => cases hr
  | succ fuel ih =>
    by_cases hgap : b.max - b.min > 1
    · obtain ⟨hI, success', hok'⟩ := htest s b.cur hs h.min_le h.le_max
      obtain ⟨e, he, rfl⟩ | ⟨success, r', -, hr', rfl⟩ := search_cases hgap hr
      · rw [he] at hok'
        cases hok'
      · obtain ⟨hvalid, hmin, hmax⟩ := h.next success
        exact ih (r := r') (fun s n hs hle hge => htest s n hs (by omega) (by omega)) hvalid hI hr'
    · rw [search_done hgap] at hr
      cases hr
      exact ⟨hs, b, rfl⟩

/-! ## Answers with a threshold -/

/-- The sizes up to `t` pass. -/
def Threshold (t : Nat) (tests : List (Nat × Except ε Bool)) : Prop :=
  ∀ n success, (n, .ok success) ∈ tests → (success = true ↔ n ≤ t)

theorem Threshold.cons {n : Nat} {success : Bool} {tests : List (Nat × Except ε Bool)}
    (h : Threshold t ((n, .ok success) :: tests)) : (success = true ↔ n ≤ t) ∧ Threshold t tests :=
  ⟨h n success List.mem_cons_self, fun m b hm => h m b (List.mem_cons_of_mem _ hm)⟩

theorem Threshold.map (t : Nat) (sizes : List Nat) :
    Threshold (ε := ε) t (sizes.map fun n => (n, .ok (decide (n ≤ t)))) := by
  intro n success hn
  obtain ⟨m, -, heq⟩ := List.mem_map.mp hn
  cases heq
  exact decide_eq_true_iff

/-- **A threshold between the bounds is found.** -/
theorem search_of_lt (h : b.Valid) (hr : search test fuel b s = some r) (hok : r.outcome = .ok b')
    (ht : Threshold t r.tests) (hmin : b.min ≤ t) (hmax : t < b.max) : b'.min = t := by
  induction fuel generalizing b s r with
  | zero => cases hr
  | succ fuel ih =>
    by_cases hgap : b.max - b.min > 1
    · obtain ⟨e, -, rfl⟩ | ⟨success, r', -, hr', rfl⟩ := search_cases hgap hr
      · cases hok
      · obtain ⟨hanswer, ht'⟩ := ht.cons
        have hvalid := (h.next success).1
        cases success with
        | true => exact ih hvalid hr' hok ht' (hanswer.mp rfl) hmax
        | false =>
          have hlt : t < b.cur := Nat.not_le.mp fun hle => nomatch hanswer.mpr hle
          exact ih hvalid hr' hok ht' hmin hlt
    · rw [search_done hgap] at hr
      cases hr
      cases hok
      omega

/-- **If every size passes, the upper bound is not tested** unless it is the first size. -/
theorem search_of_le (h : b.Valid) (hr : search test fuel b s = some r) (hok : r.outcome = .ok b')
    (ht : Threshold t r.tests) (hcur : b.cur < b.max) (hmax : b.max ≤ t) : b'.min + 1 = b.max := by
  induction fuel generalizing b s r with
  | zero => cases hr
  | succ fuel ih =>
    by_cases hgap : b.max - b.min > 1
    · obtain ⟨e, -, rfl⟩ | ⟨success, r', -, hr', rfl⟩ := search_cases hgap hr
      · cases hok
      · obtain ⟨hanswer, ht'⟩ := ht.cons
        obtain rfl : success = true := hanswer.mpr (by omega)
        refine ih (b := b.next true) (h.next true).1 hr' hok ht' ?_ hmax
        simp only [next, if_pos]
        omega
    · have hle := h.min_le
      rw [search_done hgap] at hr
      cases hr
      cases hok
      omega

/-- The upper bound is found if it is the first size, and passes. -/
theorem search_at_max (hgap : b.max - b.min > 1) (hr : search test fuel b s = some r)
    (hok : r.outcome = .ok b') (ht : Threshold t r.tests) (hcur : b.cur = b.max) (hmax : b.max ≤ t) :
    b'.min = b.max := by
  obtain ⟨fuel, rfl⟩ : ∃ n, fuel = n + 1 := by
    cases fuel with
    | zero => cases hr
    | succ fuel => exact ⟨fuel, rfl⟩
  obtain ⟨e, -, rfl⟩ | ⟨success, r', -, hr', rfl⟩ := search_cases hgap hr
  · cases hok
  · obtain ⟨hanswer, -⟩ := ht.cons
    obtain rfl : success = true := hanswer.mpr (by omega)
    have hend : ¬ (b.next true).max - (b.next true).min > 1 := by
      simp only [next, if_pos]
      omega
    cases fuel with
    | zero => cases hr'
    | succ fuel =>
      rw [search_done hend] at hr'
      cases hr'
      cases hok
      exact hcur

end Bisection

end Infra
