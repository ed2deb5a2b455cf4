import Mathlib.Data.List.Basic

/-!
# Histories

The events of a run, newest first.

* `Occurs h e later earlier` — one occurrence of `e`, with what came after it and before it
* `Always Q h` — every event met a history for which it is allowed by `Q`
-/

namespace Infra.History

variable {ε : Type*} {h later earlier mid : List ε} {e x : ε}

/-- The event `e` happened, with `earlier` before it and `later` after it. -/
def Occurs (h : List ε) (e : ε) (later earlier : List ε) : Prop := h = later ++ e :: earlier

theorem Occurs.mem (ho : Occurs h e later earlier) : e ∈ h := by
  rw [ho]
  exact List.mem_append_right _ (List.mem_cons_self ..)

/-- **One more event**: the occurrence is that event, or one from before it happened. -/
theorem occurs_cons : Occurs (x :: h) e later earlier ↔
    (later = [] ∧ e = x ∧ earlier = h) ∨ ∃ l, later = x :: l ∧ Occurs h e l earlier := by
  unfold Occurs
  cases later with
  | nil => simp [eq_comm]
  | cons y l => simp [eq_comm]

/-- An event that is not `e` adds no occurrence of `e`. -/
theorem occurs_cons_of_ne (hne : e ≠ x) :
    Occurs (x :: h) e later earlier ↔ ∃ l, later = x :: l ∧ Occurs h e l earlier := by
  rw [occurs_cons]
  constructor
  · rintro (⟨-, he, -⟩ | hl)
    · exact absurd he hne
    · exact hl
  · exact Or.inr

/-- Every event is allowed by the history before it. -/
def Always (Q : ε → List ε → Prop) (h : List ε) : Prop :=
  ∀ later earlier e, Occurs h e later earlier → Q e earlier

variable {Q : ε → List ε → Prop} {events : List ε}

theorem always_nil : Always Q [] := by
  intro later earlier e ho
  exact absurd ho.mem (List.not_mem_nil)

theorem always_cons : Always Q (x :: h) ↔ Q x h ∧ Always Q h := by
  constructor
  · intro ha
    exact ⟨ha [] h x rfl, fun later earlier e ho => ha (x :: later) earlier e
      (occurs_cons.mpr (Or.inr ⟨later, rfl, ho⟩))⟩
  · rintro ⟨hx, ha⟩ later earlier e ho
    rcases occurs_cons.mp ho with ⟨-, rfl, rfl⟩ | ⟨l, -, ho⟩
    · exact hx
    · exact ha l earlier e ho

/-- What happened before an event was allowed too. -/
theorem Always.before (ha : Always Q h) (ho : Occurs h e later earlier) : Always Q earlier := by
  intro l r x hx
  refine ha (later ++ e :: l) r x ?_
  rw [Occurs, ho, hx, List.append_assoc, List.cons_append]

/-- Events that are allowed whatever happened before may be added. -/
theorem Always.append (ha : Always Q h) (hq : ∀ e ∈ events, ∀ earlier, Q e earlier) :
    Always Q (events ++ h) := by
  induction events with
  | nil => exact ha
  | cons e events ih =>
    exact always_cons.mpr ⟨hq e (List.mem_cons_self ..) _,
      ih fun e' he' => hq e' (List.mem_cons_of_mem _ he')⟩

end Infra.History
