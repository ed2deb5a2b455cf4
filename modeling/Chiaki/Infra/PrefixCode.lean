import Mathlib.InformationTheory.Coding.UniquelyDecodable

/-!
# Codes without prefixes

Words of which none begins with another one can be written one after the other: where one ends is seen
when it is read.

* `uniquelyDecodable_of_prefixFree` — such a set of words is uniquely decodable
* `map_eq_of_flatMap_eq` — the same for what the words stand for
-/

namespace Infra.PrefixCode

open InformationTheory

variable {α ε : Type*} {S : Set (List α)} {code : ε → List α}

/-- No word begins with another one. -/
def PrefixFree (S : Set (List α)) : Prop := ∀ v ∈ S, ∀ w ∈ S, v <+: w → v = w

/-- One of two words that begin the same text begins with the other. -/
theorem PrefixFree.append_inj (h : PrefixFree S) {v w s t : List α} (hv : v ∈ S) (hw : w ∈ S)
    (heq : v ++ s = w ++ t) : v = w ∧ s = t := by
  have hvw : v = w := by
    have hpre : w <+: v ++ s := heq ▸ List.prefix_append w t
    rcases List.prefix_or_prefix_of_prefix (List.prefix_append v s) hpre with hle | hle
    · exact h v hv w hw hle
    · exact (h w hw v hv hle).symm
  subst hvw
  exact ⟨rfl, List.append_cancel_left heq⟩

theorem uniquelyDecodable_of_prefixFree (h : PrefixFree S) (hnil : [] ∉ S) : UniquelyDecodable S := by
  have hne : ∀ v ∈ S, v ≠ [] := fun v hv he => hnil (he ▸ hv)
  intro vs
  induction vs with
  | nil =>
    intro ws _ hws heq
    cases ws with
    | nil => rfl
    | cons w ws =>
      have hw := (List.append_eq_nil_iff.mp (heq.symm.trans List.flatten_nil)).1
      exact absurd hw (hne w (hws w (List.mem_cons_self ..)))
  | cons v vs ih =>
    intro ws hvs hws heq
    have hv := hvs v (List.mem_cons_self ..)
    cases ws with
    | nil => exact absurd (List.append_eq_nil_iff.mp heq).1 (hne v hv)
    | cons w ws =>
      obtain ⟨rfl, hrest⟩ := h.append_inj hv (hws w (List.mem_cons_self ..)) heq
      rw [ih ws (fun x hx => hvs x (List.mem_cons_of_mem _ hx))
        (fun x hx => hws x (List.mem_cons_of_mem _ hx)) hrest]

/-- **Texts that are the same were written with the same words.** -/
theorem map_eq_of_flatMap_eq {as bs : List ε} (h : UniquelyDecodable S) (has : ∀ a ∈ as, code a ∈ S)
    (hbs : ∀ b ∈ bs, code b ∈ S) (heq : as.flatMap code = bs.flatMap code) : as.map code = bs.map code := by
  refine h _ _ ?_ ?_ ?_
  · simpa using has
  · simpa using hbs
  · rwa [← List.flatMap_def, ← List.flatMap_def]

end Infra.PrefixCode
