import Mathlib.Logic.Basic

/-!
# A recursive mutex

A mutex that its owner may lock again.

* `RecMutex.depth` — how many times a thread has it locked
* `RecMutex.owner_unique` — two threads never have it at once
-/

namespace Infra

variable {τ : Type*} [DecidableEq τ]

/-- The owner, and how many times it has locked the mutex beyond the first time. -/
abbrev RecMutex (τ : Type*) := Option (τ × Nat)

namespace RecMutex

variable {m m' : RecMutex τ} {t u : τ}

/-- The owner is not blocked. -/
def lock (m : RecMutex τ) (t : τ) : Option (RecMutex τ) :=
  match m with
  | none => some (some (t, 0))
  | some (u, d) => if u = t then some (some (t, d + 1)) else none

def unlock (m : RecMutex τ) : RecMutex τ :=
  match m with
  | some (u, d + 1) => some (u, d)
  | _ => none

def depth (m : RecMutex τ) (t : τ) : Nat :=
  match m with
  | none => 0
  | some (u, d) => if u = t then d + 1 else 0

@[simp] theorem depth_none (t : τ) : depth (none : RecMutex τ) t = 0 := rfl

theorem depth_lock (h : m.lock t = some m') (u : τ) :
    m'.depth u = if u = t then m.depth u + 1 else m.depth u := by
  cases m with
  | none =>
    cases h
    by_cases hu : u = t
    · simp [depth, hu]
    · simp [depth, hu, Ne.symm hu]
  | some p =>
    obtain ⟨v, d⟩ := p
    unfold lock at h
    simp only at h
    split at h
    · next hv =>
      cases h
      by_cases hu : u = t
      · simp [depth, hv, hu]
      · simp [depth, hv, hu, Ne.symm hu]
    · cases h

theorem depth_unlock (h : 0 < m.depth t) (u : τ) :
    m.unlock.depth u = if u = t then m.depth u - 1 else m.depth u := by
  cases m with
  | none => exact absurd h (Nat.lt_irrefl 0)
  | some p =>
    obtain ⟨v, d⟩ := p
    have hv : v = t := by
      by_cases hv : v = t
      · exact hv
      · simp [depth, hv] at h
    subst hv
    cases d with
    | zero =>
      by_cases hu : u = v
      · simp [depth, unlock, hu]
      · simp [depth, unlock, hu, Ne.symm hu]
    | succ d =>
      by_cases hu : u = v
      · simp [depth, unlock, hu]
      · simp [depth, unlock, hu, Ne.symm hu]

/-- **Only one thread has it.** -/
theorem owner_unique (ht : 0 < m.depth t) (hu : 0 < m.depth u) : t = u := by
  cases m with
  | none => exact absurd ht (Nat.lt_irrefl 0)
  | some p =>
    obtain ⟨v, d⟩ := p
    have howner : ∀ w, 0 < depth (some (v, d)) w → v = w := by
      intro w hw
      by_cases hv : v = w
      · exact hv
      · simp [depth, hv] at hw
    rw [← howner t ht, ← howner u hu]

end RecMutex

end Infra
