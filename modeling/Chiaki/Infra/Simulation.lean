import Chiaki.Infra.Transition

/-!
# Simulations between transition systems

What a run shows is the sequence of the observations of its labels. If each step of one system is matched by steps of
another one that show the same, all that the first one can show, the second one can show as well.

* `Lts.Run` — a run from an initial state, with what it shows
* `Lts.Steps` — some steps, with what they show
* `Lts.Run.runGuarded` — the runs of a deterministic system along its labels
* `Lts.Simulates` — a relation that matches every step
* `Lts.Simulates.run` — it matches every run
-/

namespace Infra.Lts

variable {σ ℓ τ κ ε : Type*}

/-- A run that has shown `trace`. -/
inductive Run (M : Lts σ ℓ) (obs : ℓ → Option ε) : List ε → σ → Prop
  | init {s : σ} : M.init s → Run M obs [] s
  | step {s s' : σ} {l : ℓ} {trace : List ε} :
    Run M obs trace s → M.step s l s' → Run M obs (trace ++ (obs l).toList) s'

/-- Steps from one state to another that show `trace`. -/
inductive Steps (M : Lts σ ℓ) (obs : ℓ → Option ε) (s : σ) : List ε → σ → Prop
  | refl : Steps M obs s [] s
  | tail {t s' : σ} {l : ℓ} {trace : List ε} :
    Steps M obs s trace t → M.step t l s' → Steps M obs s (trace ++ (obs l).toList) s'

/-- Every step of `C` is matched by steps of `A` that show the same. -/
structure Simulates (C : Lts σ ℓ) (A : Lts τ κ) (obsC : ℓ → Option ε) (obsA : κ → Option ε)
    (R : σ → τ → Prop) : Prop where
  init : ∀ s, C.init s → ∃ a, A.init a ∧ R s a
  step : ∀ s a l s', R s a → C.step s l s' → ∃ a', A.Steps obsA a (obsC l).toList a' ∧ R s' a'

variable {M : Lts σ ℓ} {C : Lts σ ℓ} {A : Lts τ κ} {obs : ℓ → Option ε} {obsC : ℓ → Option ε}
  {obsA : κ → Option ε} {R : σ → τ → Prop} {s s' : σ} {l : ℓ} {trace trace' : List ε}

theorem Steps.single (h : M.step s l s') : M.Steps obs s (obs l).toList s' := by
  have hnone : M.Steps obs s [] s := .refl
  have hsteps := Steps.tail hnone h
  rwa [List.nil_append] at hsteps

/-- One step is enough to match a step that shows what it shows. -/
theorem Steps.of_step {shown : List ε} (h : M.step s l s') (hobs : (obs l).toList = shown) :
    M.Steps obs s shown s' := hobs ▸ Steps.single h

theorem Run.steps (hrun : M.Run obs trace s) (hsteps : M.Steps obs s trace' s') :
    M.Run obs (trace ++ trace') s' := by
  induction hsteps with
  | refl => rwa [List.append_nil]
  | tail _ hstep ih =>
    rw [← List.append_assoc]
    exact .step ih hstep

theorem Run.reachable (hrun : M.Run obs trace s) : M.Reachable s := by
  induction hrun with
  | init hinit => exact .init hinit
  | step _ hstep ih => exact .step ih hstep

theorem Run.runGuarded {init : σ → Prop} {f : σ → ℓ → Option σ} {G : σ → ℓ → Prop} [∀ s l, Decidable (G s l)]
    {ls : List ℓ} (hrun : ((ofFun init f).restrict G).Run obs trace s)
    (h : Lts.runFun (guarded f G) s ls = some s') :
    ((ofFun init f).restrict G).Run obs (trace ++ ls.filterMap obs) s' := by
  induction ls generalizing s trace with
  | nil =>
    cases h
    rwa [List.filterMap_nil, List.append_nil]
  | cons l ls ih =>
    obtain ⟨t, hstep, hrest⟩ := Option.bind_eq_some_iff.mp h
    unfold guarded at hstep
    split at hstep
    · next hG =>
      have hshown : (l :: ls).filterMap obs = (obs l).toList ++ ls.filterMap obs := by
        cases hobs : obs l with
        | none => exact List.filterMap_cons_none hobs
        | some e => exact List.filterMap_cons_some hobs
      rw [hshown, ← List.append_assoc]
      exact ih (.step hrun ⟨hG, hstep⟩) hrest
    · cases hstep

/-- **What a run shows, a run of the other system shows.** -/
theorem Simulates.run (h : Simulates C A obsC obsA R) (hrun : C.Run obsC trace s) :
    ∃ a, A.Run obsA trace a ∧ R s a := by
  induction hrun with
  | init hinit =>
    obtain ⟨a, ha, hR⟩ := h.init _ hinit
    exact ⟨a, .init ha, hR⟩
  | step _ hstep ih =>
    obtain ⟨a, ha, hR⟩ := ih
    obtain ⟨a', hsteps, hR'⟩ := h.step _ a _ _ hR hstep
    exact ⟨a', ha.steps hsteps, hR'⟩

end Infra.Lts
