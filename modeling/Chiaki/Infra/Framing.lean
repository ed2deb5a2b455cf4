import Mathlib.Data.List.Infix

/-!
# Framing

A stream as a list of frames, in a code in which the beginning of a stream says which frame it is.

* `PrefixFree enc` — a stream begins with one frame at most
* `Whole enc stream` — it does begin with one
* `Splits enc stream frames rest` — the stream is those frames, and a rest without a whole one
-/

namespace Infra.Framing

variable {α β : Type*} {enc : α → List β} {stream rest rest' : List β} {frames frames' : List α}

def PrefixFree (enc : α → List β) : Prop :=
  ∀ a b r r', enc a ++ r = enc b ++ r' → a = b

/-- A whole frame is in front. -/
def Whole (enc : α → List β) (stream : List β) : Prop := ∃ a r, stream = enc a ++ r

structure Splits (enc : α → List β) (stream : List β) (frames : List α) (rest : List β) : Prop where
  eq : stream = frames.flatMap enc ++ rest
  last : ¬ Whole enc rest

/-- Frames that have been taken off a stream are the first ones of it. -/
theorem Splits.of_taken (hfree : PrefixFree enc) (h : Splits enc stream frames rest)
    (htaken : stream = frames'.flatMap enc ++ rest') :
    ∃ later, frames = frames' ++ later ∧ rest' = later.flatMap enc ++ rest := by
  induction frames' generalizing stream frames with
  | nil =>
    refine ⟨frames, rfl, ?_⟩
    rw [← h.eq, htaken]
    rfl
  | cons a as ih =>
    rw [List.flatMap_cons, List.append_assoc] at htaken
    cases frames with
    | nil =>
      have heq := h.eq
      rw [htaken] at heq
      exact absurd ⟨a, _, heq.symm⟩ h.last
    | cons b bs =>
      have heq := h.eq
      rw [List.flatMap_cons, List.append_assoc, htaken] at heq
      have hab := hfree a b _ _ heq
      subst hab
      obtain ⟨later, hlater, hrest⟩ := ih ⟨rfl, h.last⟩ (List.append_cancel_left heq).symm
      exact ⟨later, by rw [hlater, List.cons_append], hrest⟩

/-- **There is only one way to split a stream into frames.** -/
theorem Splits.unique (hfree : PrefixFree enc) (h : Splits enc stream frames rest)
    (h' : Splits enc stream frames' rest') : frames = frames' ∧ rest = rest' := by
  obtain ⟨later, hframes, hrest⟩ := h.of_taken hfree h'.eq
  cases later with
  | nil =>
    rw [List.append_nil] at hframes
    exact ⟨hframes, hrest.symm⟩
  | cons a as =>
    rw [List.flatMap_cons, List.append_assoc] at hrest
    exact absurd ⟨a, _, hrest⟩ h'.last

/-- Every stream can be split, if no frame is empty. -/
theorem exists_splits (hpos : ∀ a, enc a ≠ []) (stream : List β) :
    ∃ frames rest, Splits enc stream frames rest := by
  by_cases hwhole : Whole enc stream
  · obtain ⟨a, r, rfl⟩ := hwhole
    have hshort : r.length < (enc a ++ r).length := by
      have := List.length_pos_iff.mpr (hpos a)
      rw [List.length_append]
      omega
    obtain ⟨frames, rest, hsplit⟩ := exists_splits hpos r
    refine ⟨a :: frames, rest, ?_, hsplit.last⟩
    rw [List.flatMap_cons, List.append_assoc, ← hsplit.eq]
  · exact ⟨[], stream, rfl, hwhole⟩
termination_by stream.length

end Infra.Framing
