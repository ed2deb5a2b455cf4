import Mathlib.Logic.Relation

/-!
# Transition systems

A labelled transition system, the states its runs reach, and the rules that carry
a property along every run.

* `Lts.Reachable` — the states of all runs from an initial state
* `Lts.Invariant` — holds initially and is kept by every step, hence everywhere
* `Lts.restrict` — the runs whose steps all meet a condition on the state before
  the step and on its label
* `Lts.withHistory` — the system together with a record of its runs
-/

namespace Infra

variable {σ ℓ : Type*}

/-- A labelled transition system. -/
structure Lts (σ ℓ : Type*) where
  init : σ → Prop
  step : σ → ℓ → σ → Prop

namespace Lts

/-- The states in which some run ends. -/
inductive Reachable (M : Lts σ ℓ) : σ → Prop
  | init {s : σ} : M.init s → Reachable M s
  | step {s s' : σ} {l : ℓ} : Reachable M s → M.step s l s' → Reachable M s'

/-- The system that takes only the steps meeting `G`. -/
def restrict (M : Lts σ ℓ) (G : σ → ℓ → Prop) : Lts σ ℓ where
  init := M.init
  step := fun s l s' => G s l ∧ M.step s l s'

/-- A deterministic system: every label has at most one outcome. -/
def ofFun (init : σ → Prop) (f : σ → ℓ → Option σ) : Lts σ ℓ where
  init := init
  step := fun s l s' => f s l = some s'

/-- A run of a deterministic system along a list of labels. -/
def runFun (f : σ → ℓ → Option σ) : σ → List ℓ → Option σ
  | s, [] => some s
  | s, l :: ls => (f s l).bind fun s' => runFun f s' ls

/-- A deterministic system that refuses the steps not meeting `G`. -/
def guarded (f : σ → ℓ → Option σ) (G : σ → ℓ → Prop) [∀ s l, Decidable (G s l)] :
    σ → ℓ → Option σ :=
  fun s l => if G s l then f s l else none

/-- The system together with what `record` keeps of its runs. -/
def withHistory {α : Type*} (M : Lts σ ℓ) (start : α) (record : σ → ℓ → α → α) : Lts (σ × α) ℓ where
  init := fun s => M.init s.1 ∧ s.2 = start
  step := fun s l s' => M.step s.1 l s'.1 ∧ s'.2 = record s.1 l s.2

/-- A deterministic system with its record. -/
def recordFun {α : Type*} (f : σ → ℓ → Option σ) (record : σ → ℓ → α → α) :
    σ × α → ℓ → Option (σ × α) :=
  fun s l => (f s.1 l).map fun s' => (s', record s.1 l s.2)

/-- What every run keeps. -/
structure Invariant (M : Lts σ ℓ) (I : σ → Prop) : Prop where
  init : ∀ s, M.init s → I s
  step : ∀ s l s', I s → M.step s l s' → I s'

variable {M : Lts σ ℓ} {G : σ → ℓ → Prop} {I J : σ → Prop} {s s' : σ}

theorem Invariant.reachable (h : M.Invariant I) (hr : M.Reachable s) : I s := by
  induction hr with
  | init hi => exact h.init _ hi
  | step _ hs ih => exact h.step _ _ _ ih hs

theorem Reachable.of_restrict (hr : (M.restrict G).Reachable s) : M.Reachable s := by
  induction hr with
  | init hi => exact .init hi
  | step _ hs ih => exact .step ih hs.2

/-- A condition that every step meets leaves all runs. -/
theorem Reachable.to_restrict (hr : M.Reachable s) (hG : ∀ s l, G s l) :
    (M.restrict G).Reachable s := by
  induction hr with
  | init hi => exact .init hi
  | step _ hs ih => exact .step ih ⟨hG _ _, hs⟩

/-- A weaker condition leaves more runs. -/
theorem Reachable.mono {G' : σ → ℓ → Prop} (hr : (M.restrict G).Reachable s)
    (hG : ∀ s l, G s l → G' s l) : (M.restrict G').Reachable s := by
  induction hr with
  | init hi => exact .init hi
  | step _ hs ih => exact .step ih ⟨hG _ _ hs.1, hs.2⟩

/-- A record does not change what a run can do. -/
theorem Reachable.of_withHistory {α : Type*} {start : α} {record : σ → ℓ → α → α} {s : σ × α}
    (hr : ((M.withHistory start record).restrict fun s l => G s.1 l).Reachable s) :
    (M.restrict G).Reachable s.1 := by
  induction hr with
  | init hi => exact .init hi.1
  | step _ hs ih => exact .step ih ⟨hs.1, hs.2.1⟩

theorem Reachable.runFun {init : σ → Prop} {f : σ → ℓ → Option σ} {ls : List ℓ}
    (hr : (ofFun init f).Reachable s) (h : Lts.runFun f s ls = some s') :
    (ofFun init f).Reachable s' := by
  induction ls generalizing s with
  | nil =>
    cases h
    exact hr
  | cons l ls ih =>
    obtain ⟨t, hst, hrest⟩ := Option.bind_eq_some_iff.mp h
    exact ih (.step hr hst) hrest

theorem Reachable.runGuarded {init : σ → Prop} {f : σ → ℓ → Option σ}
    [∀ s l, Decidable (G s l)] {ls : List ℓ} (hr : ((ofFun init f).restrict G).Reachable s)
    (h : Lts.runFun (guarded f G) s ls = some s') :
    ((ofFun init f).restrict G).Reachable s' := by
  induction ls generalizing s with
  | nil =>
    cases h
    exact hr
  | cons l ls ih =>
    obtain ⟨t, hst, hrest⟩ := Option.bind_eq_some_iff.mp h
    unfold guarded at hst
    split at hst
    · next hG => exact ih (.step hr ⟨hG, hst⟩) hrest
    · cases hst

theorem Reachable.runRecord {α : Type*} {init : σ → Prop} {f : σ → ℓ → Option σ} {start : α}
    {record : σ → ℓ → α → α} {H : σ × α → ℓ → Prop} [∀ s l, Decidable (H s l)] {s s' : σ × α}
    {ls : List ℓ} (hr : (((ofFun init f).withHistory start record).restrict H).Reachable s)
    (h : Lts.runFun (guarded (recordFun f record) H) s ls = some s') :
    (((ofFun init f).withHistory start record).restrict H).Reachable s' := by
  induction ls generalizing s with
  | nil =>
    cases h
    exact hr
  | cons l ls ih =>
    obtain ⟨t, hst, hrest⟩ := Option.bind_eq_some_iff.mp h
    unfold guarded at hst
    split at hst
    · next hH =>
      obtain ⟨t1, hf, rfl⟩ := Option.map_eq_some_iff.mp hst
      have hstep : ((ofFun init f).withHistory start record).step s l (t1, record s.1 l s.2) :=
        ⟨hf, rfl⟩
      exact ih (.step hr ⟨hH, hstep⟩) hrest
    · cases hst

/-- An invariant may be proved with the help of one that is known already. -/
theorem Invariant.and_of (hJ : M.Invariant J) (hi : ∀ s, M.init s → I s)
    (hs : ∀ s l s', J s → I s → M.step s l s' → I s') : M.Invariant fun s => J s ∧ I s where
  init := fun s h => ⟨hJ.init s h, hi s h⟩
  step := fun s l s' h hst => ⟨hJ.step s l s' h.1 hst, hs s l s' h.1 h.2 hst⟩

/-- An invariant of the whole system is one of every restriction of it. -/
theorem Invariant.restrict (h : M.Invariant I) : (M.restrict G).Invariant I where
  init := h.init
  step := fun s l s' hi hst => h.step s l s' hi hst.2

end Lts

end Infra
