import Mathlib.Data.List.Nodup
import Mathlib.Logic.Function.Basic

/-!
# Differences of slot tables

A table has a fixed number of slots, and a slot may hold a value under a key. Two tables are
compared slot by slot, with at most one event for each; an observer of the events knows the values
by their keys only.

`replay_diff_iff` says when the observer of a difference ends up with the second table: a slot holds
either the key it held before, or it was free and no slot behind it held that key.
-/

namespace Infra.SlotDiff

variable {κ ν : Type*}

abbrev Slot (κ ν : Type*) := Option (κ × ν)

inductive Event (κ ν : Type*)
  | release (k : κ)
  | place (k : κ) (v : ν)
  deriving DecidableEq

def keys (slots : List (Slot κ ν)) : List κ := slots.filterMap fun s => s.map Prod.fst

@[simp] theorem keys_nil : keys ([] : List (Slot κ ν)) = [] := rfl

@[simp] theorem keys_cons_none (slots : List (Slot κ ν)) : keys (none :: slots) = keys slots := rfl

@[simp] theorem keys_cons_some (k : κ) (v : ν) (slots : List (Slot κ ν)) :
    keys (some (k, v) :: slots) = k :: keys slots := rfl

theorem keys_cons (s : Slot κ ν) (slots : List (Slot κ ν)) : keys (s :: slots) = keys [s] ++ keys slots := by
  cases s <;> rfl

theorem mem_keys {slots : List (Slot κ ν)} {k : κ} : k ∈ keys slots ↔ ∃ v, some (k, v) ∈ slots := by
  simp [keys]

theorem mem_keys_of_pair {pairs : List (Slot κ ν × Slot κ ν)} {k : κ} {v w : ν}
    (h : (some (k, v), some (k, w)) ∈ pairs) :
    k ∈ keys (pairs.map Prod.fst) ∧ k ∈ keys (pairs.map Prod.snd) :=
  ⟨mem_keys.mpr ⟨v, List.mem_map_of_mem h⟩, mem_keys.mpr ⟨w, List.mem_map_of_mem h⟩⟩

/-- Every slot of the second table holds what it held before, or was free and its key is in no later
slot of the first. -/
def Follows : List (Slot κ ν × Slot κ ν) → Prop
  | [] => True
  | (p, n) :: pairs =>
    (∀ k ∈ keys [n], k ∈ keys [p] ∨ p = none ∧ k ∉ keys (pairs.map Prod.fst)) ∧ Follows pairs

/-! ## Tables as maps -/

section Maps

variable [DecidableEq κ]

/-- What the observer knows after an event. -/
def Event.apply (m : κ → Option ν) : Event κ ν → κ → Option ν
  | .release k => Function.update m k none
  | .place k v => Function.update m k (some v)

def replay (m : κ → Option ν) (events : List (Event κ ν)) : κ → Option ν := events.foldl Event.apply m

theorem replay_append (m : κ → Option ν) (es es' : List (Event κ ν)) :
    replay m (es ++ es') = replay (replay m es) es' := List.foldl_append ..

/-- The table as a map. -/
def content : List (Slot κ ν) → κ → Option ν
  | [] => fun _ => none
  | none :: slots => content slots
  | some (k, v) :: slots => Function.update (content slots) k (some v)

theorem content_of_not_mem {slots : List (Slot κ ν)} {k : κ} (h : k ∉ keys slots) :
    content slots k = none := by
  induction slots with
  | nil => rfl
  | cons s slots ih =>
    cases s with
    | none => exact ih h
    | some e =>
      rw [keys_cons_some, List.mem_cons, not_or] at h
      rw [content, Function.update_of_ne h.1]
      exact ih h.2

theorem content_of_mem {slots : List (Slot κ ν)} {k : κ} {v : ν} (hnodup : (keys slots).Nodup)
    (h : some (k, v) ∈ slots) : content slots k = some v := by
  induction slots with
  | nil => cases h
  | cons s slots ih =>
    cases s with
    | none => exact ih hnodup ((List.mem_cons.mp h).resolve_left (Option.some_ne_none _))
    | some e =>
      obtain ⟨k', v'⟩ := e
      rw [keys_cons_some, List.nodup_cons] at hnodup
      rcases List.mem_cons.mp h with heq | hmem
      · cases heq
        exact Function.update_self ..
      · have hne : k ≠ k' := fun he => hnodup.1 (he ▸ mem_keys.mpr ⟨v, hmem⟩)
        rw [content, Function.update_of_ne hne]
        exact ih hnodup.2 hmem

@[simp] theorem content_cons_self (k : κ) (v : ν) (slots : List (Slot κ ν)) :
    content (some (k, v) :: slots) k = some v := Function.update_self ..

theorem content_cons_of_mem {slots : List (Slot κ ν)} {k a : κ} {v : ν} (hk : k ∉ keys slots)
    (ha : a ∈ keys slots) : content (some (k, v) :: slots) a = content slots a :=
  Function.update_of_ne (show a ≠ k from fun he => hk (he ▸ ha)) _ _

/-! ## What the observer knows -/

variable {pairs : List (Slot κ ν × Slot κ ν)} {m m' : κ → Option ν}

/-- What the observer has to know beforehand: the keys that stay in their slots, and nothing of the
new ones. -/
structure Ready (m : κ → Option ν) (pairs : List (Slot κ ν × Slot κ ν)) : Prop where
  kept : ∀ k v w, (some (k, v), some (k, w)) ∈ pairs → m k = some v
  fresh : ∀ k ∈ keys (pairs.map Prod.snd), k ∉ keys (pairs.map Prod.fst) → m k = none

/-- An observer that learns about the first slot only is ready for the others. -/
theorem Ready.next {p n : Slot κ ν} {m₁ : κ → Option ν} (h : Ready m ((p, n) :: pairs))
    (hother : ∀ a ∈ keys (pairs.map Prod.snd), a ∈ keys (pairs.map Prod.fst) ∨ a ∉ keys [p] → m₁ a = m a)
    (hlost : ∀ a ∈ keys [p], a ∈ keys (pairs.map Prod.snd) → m₁ a = none) : Ready m₁ pairs where
  kept := by
    intro a v w hmem
    obtain ⟨hap, han⟩ := mem_keys_of_pair hmem
    rw [hother a han (Or.inl hap)]
    exact h.kept a v w (List.mem_cons_of_mem _ hmem)
  fresh := by
    intro a han hap
    by_cases hself : a ∈ keys [p]
    · exact hlost a hself han
    · rw [hother a han (Or.inr hself)]
      refine h.fresh a ?_ fun hmem => ?_
      · rw [List.map_cons, keys_cons, List.mem_append]
        exact Or.inr han
      · rw [List.map_cons, keys_cons, List.mem_append] at hmem
        exact hmem.elim hself hap

/-- What the observer knows afterwards. -/
structure Replayed (m m' : κ → Option ν) (pairs : List (Slot κ ν × Slot κ ν)) : Prop where
  other : ∀ k, k ∉ keys (pairs.map Prod.fst) → k ∉ keys (pairs.map Prod.snd) → m' k = m k
  gone : ∀ k ∈ keys (pairs.map Prod.fst), k ∉ keys (pairs.map Prod.snd) → m' k = none
  here : (∀ k ∈ keys (pairs.map Prod.snd), m' k = content (pairs.map Prod.snd) k) ↔ Follows pairs

variable {k k' : κ} {v v' : ν}

theorem Replayed.empty (h : Replayed m m' pairs) : Replayed m m' ((none, none) :: pairs) :=
  ⟨h.other, h.gone, h.here.trans ⟨fun hf => ⟨fun _ hk => absurd hk List.not_mem_nil, hf⟩, And.right⟩⟩

/-- A key that is placed into a free slot stays known unless a later slot releases it. -/
theorem Replayed.placed (hk : k ∉ keys (pairs.map Prod.snd))
    (h : Replayed (Function.update m k (some v)) m' pairs) :
    Replayed m m' ((none, some (k, v)) :: pairs) where
  other := by
    intro a hap han
    simp only [List.map_cons, keys_cons_none, keys_cons_some, List.mem_cons, not_or] at hap han
    rw [h.other a hap han.2, Function.update_of_ne han.1]
  gone := by
    intro a hap han
    simp only [List.map_cons, keys_cons_none, keys_cons_some, List.mem_cons, not_or] at hap han
    exact h.gone a hap han.2
  here := by
    have hself : m' k = some v ↔ k ∉ keys (pairs.map Prod.fst) := by
      by_cases hkp : k ∈ keys (pairs.map Prod.fst)
      · simp [h.gone k hkp hk, hkp]
      · simp [h.other k hkp hk, hkp]
    simp only [List.map_cons, keys_cons_some, List.forall_mem_cons, Follows, keys_nil]
    rw [← h.here, content_cons_self, hself]
    simp only [List.not_mem_nil, keys_cons_none, keys_nil, false_or, true_and, false_implies,
      implies_true, and_true]
    exact and_congr_right fun _ => forall₂_congr fun a ha => by rw [content_cons_of_mem hk ha]

theorem Replayed.released (hk : k ∉ keys (pairs.map Prod.fst))
    (h : Replayed (Function.update m k none) m' pairs) :
    Replayed m m' ((some (k, v), none) :: pairs) where
  other := by
    intro a hap han
    simp only [List.map_cons, keys_cons_none, keys_cons_some, List.mem_cons, not_or] at hap han
    rw [h.other a hap.2 han, Function.update_of_ne hap.1]
  gone := by
    intro a hap han
    simp only [List.map_cons, keys_cons_none, keys_cons_some, List.mem_cons] at hap han
    rcases hap with rfl | hap
    · rw [h.other a hk han, Function.update_self]
    · exact h.gone a hap han
  here := by
    simp only [List.map_cons, keys_cons_none, Follows, keys_nil, List.not_mem_nil, false_implies,
      implies_true, true_and]
    exact h.here

/-- The second key of a slot that is only released is not known. -/
theorem Replayed.replaced (hne : k ≠ k') (hk : k ∉ keys (pairs.map Prod.fst))
    (hk' : k' ∉ keys (pairs.map Prod.snd)) (hfresh : k' ∉ keys (pairs.map Prod.fst) → m k' = none)
    (h : Replayed (Function.update m k none) m' pairs) :
    Replayed m m' ((some (k, v), some (k', v')) :: pairs) where
  other := by
    intro a hap han
    simp only [List.map_cons, keys_cons_some, List.mem_cons, not_or] at hap han
    rw [h.other a hap.2 han.2, Function.update_of_ne hap.1]
  gone := by
    intro a hap han
    simp only [List.map_cons, keys_cons_some, List.mem_cons, not_or] at hap han
    rcases hap with rfl | hap
    · rw [h.other a hk han.2, Function.update_self]
    · exact h.gone a hap han.2
  here := by
    have hlost : m' k' = none := by
      by_cases hkp : k' ∈ keys (pairs.map Prod.fst)
      · exact h.gone k' hkp hk'
      · rw [h.other k' hkp hk', Function.update_of_ne hne.symm, hfresh hkp]
    simp only [List.map_cons, keys_cons_some, List.forall_mem_cons, Follows, keys_nil]
    constructor
    · rintro ⟨hself, -⟩
      rw [hlost, content, Function.update_self] at hself
      cases hself
    · rintro ⟨⟨hself, -⟩, -⟩
      simp [hne.symm] at hself

theorem Replayed.stayed {m₁ : κ → Option ν} (hk : k ∉ keys (pairs.map Prod.fst))
    (hk' : k ∉ keys (pairs.map Prod.snd)) (hself : m₁ k = some v') (hother : ∀ a, a ≠ k → m₁ a = m a)
    (h : Replayed m₁ m' pairs) : Replayed m m' ((some (k, v), some (k, v')) :: pairs) where
  other := by
    intro a hap han
    simp only [List.map_cons, keys_cons_some, List.mem_cons, not_or] at hap han
    rw [h.other a hap.2 han.2, hother a hap.1]
  gone := by
    intro a hap han
    simp only [List.map_cons, keys_cons_some, List.mem_cons, not_or] at hap han
    exact h.gone a (hap.resolve_left han.1) han.2
  here := by
    simp only [List.map_cons, keys_cons_some, List.forall_mem_cons, Follows, keys_nil]
    rw [← h.here, content_cons_self, h.other k hk hk', hself]
    simp only [List.mem_cons, List.not_mem_nil, or_false, true_or, false_implies, implies_true, and_true,
      true_and]
    exact forall₂_congr fun a ha => by rw [content_cons_of_mem hk' ha]

end Maps

/-! ## The difference of two tables -/

variable [DecidableEq κ] [DecidableEq ν]

instance decidableFollows : ∀ pairs : List (Slot κ ν × Slot κ ν), Decidable (Follows pairs)
  | [] => isTrue trivial
  | (p, n) :: pairs =>
    have : Decidable (Follows pairs) := decidableFollows pairs
    inferInstanceAs (Decidable ((∀ k ∈ keys [n], k ∈ keys [p] ∨ p = none ∧
      k ∉ keys (pairs.map Prod.fst)) ∧ Follows pairs))

/-- The event for one slot. A slot whose key is replaced is only released. -/
def slotEvents : Slot κ ν → Slot κ ν → List (Event κ ν)
  | some (k, v), some (k', v') => if k ≠ k' then [.release k] else if v ≠ v' then [.place k v'] else []
  | some (k, _), none => [.release k]
  | none, some (k', v') => [.place k' v']
  | none, none => []

def diff (pairs : List (Slot κ ν × Slot κ ν)) : List (Event κ ν) :=
  pairs.flatMap fun p => slotEvents p.1 p.2

variable {pairs : List (Slot κ ν × Slot κ ν)} {m : κ → Option ν}

/-- A key that stays in its slot is known with its new value, and nothing else changes. -/
theorem replay_slotEvents_same (k : κ) (v v' : ν) (hk : m k = some v) :
    replay m (slotEvents (some (k, v)) (some (k, v'))) k = some v' ∧
      ∀ a, a ≠ k → replay m (slotEvents (some (k, v)) (some (k, v'))) a = m a := by
  by_cases hv : v = v'
  · subst hv
    simp [slotEvents, replay, hk]
  · refine ⟨by simp [slotEvents, hv, replay, Event.apply], fun a ha => ?_⟩
    simp [slotEvents, hv, replay, Event.apply, ha]

/-- **The observer of a difference**, slot by slot. -/
theorem replayed_diff (hp : (keys (pairs.map Prod.fst)).Nodup) (hn : (keys (pairs.map Prod.snd)).Nodup)
    (hready : Ready m pairs) : Replayed m (replay m (diff pairs)) pairs := by
  induction pairs generalizing m with
  | nil => exact ⟨fun _ _ _ => rfl, fun k hk => absurd hk List.not_mem_nil,
      ⟨fun _ => trivial, fun _ k hk => absurd hk List.not_mem_nil⟩⟩
  | cons pair pairs ih =>
    obtain ⟨p, n⟩ := pair
    have hdiff : replay m (diff ((p, n) :: pairs))
        = replay (replay m (slotEvents p n)) (diff pairs) := replay_append m _ _
    rw [hdiff]
    cases p with
    | none =>
      cases n with
      | none =>
        have hnext := hready.next (fun _ _ _ => rfl) fun _ ha => absurd ha List.not_mem_nil
        exact (ih hp hn hnext).empty
      | some e =>
        obtain ⟨k, v⟩ := e
        simp only [List.map_cons, keys_cons_none, keys_cons_some, List.nodup_cons] at hp hn
        refine (ih hp hn.2 (hready.next (fun a han _ => ?_) fun a ha => ?_)).placed hn.1
        · exact Function.update_of_ne (show a ≠ k from fun he => hn.1 (he ▸ han)) _ _
        · exact absurd ha List.not_mem_nil
    | some e =>
      obtain ⟨k, v⟩ := e
      simp only [List.map_cons, keys_cons_some, List.nodup_cons] at hp
      -- releasing a key leaves the observer ready for the other slots
      have hreleased : Ready (Function.update m k none) pairs := by
        refine hready.next (fun a _ ha => ?_) fun a ha _ => ?_
        · refine Function.update_of_ne (fun he => ?_) _ _
          subst he
          exact ha.elim hp.1 fun hself => hself (List.mem_cons_self ..)
        · rw [List.mem_singleton.mp ha, Function.update_self]
      cases n with
      | none => exact (ih hp.2 hn hreleased).released hp.1
      | some e' =>
        obtain ⟨k', v'⟩ := e'
        simp only [List.map_cons, keys_cons_some, List.nodup_cons] at hn
        by_cases hkk : k = k'
        · subst hkk
          obtain ⟨hself, hother⟩ := replay_slotEvents_same k v v' (hready.kept k v v' (List.mem_cons_self ..))
          refine (ih hp.2 hn.2 (hready.next (fun a han _ => ?_) fun a ha han => ?_)).stayed hp.1 hn.1
            hself hother
          · exact hother a fun he => hn.1 (he ▸ han)
          · have hak : a = k := List.mem_singleton.mp ha
            exact absurd (hak ▸ han) hn.1
        · have hevents : replay m (slotEvents (some (k, v)) (some (k', v')))
              = Function.update m k none := by
            simp [slotEvents, hkk, replay, Event.apply]
          rw [hevents]
          refine (ih hp.2 hn.2 hreleased).replaced hkk hp.1 hn.1 fun hap => ?_
          refine hready.fresh k' (List.mem_cons_self ..) fun hmem => ?_
          exact (List.mem_cons.mp hmem).elim (Ne.symm hkk) hap

/-- **The observer of a difference has the second table if and only if every slot follows.** -/
theorem replay_diff_iff (hp : (keys (pairs.map Prod.fst)).Nodup)
    (hn : (keys (pairs.map Prod.snd)).Nodup) :
    replay (content (pairs.map Prod.fst)) (diff pairs) = content (pairs.map Prod.snd) ↔
      Follows pairs := by
  have hready : Ready (content (pairs.map Prod.fst)) pairs :=
    ⟨fun k v w hmem => content_of_mem hp (List.mem_map_of_mem hmem),
      fun k _ hk => content_of_not_mem hk⟩
  have h := replayed_diff hp hn hready
  refine Iff.trans ⟨fun heq k _ => congrFun heq k, fun hhere => funext fun k => ?_⟩ h.here
  by_cases hkn : k ∈ keys (pairs.map Prod.snd)
  · exact hhere k hkn
  · rw [content_of_not_mem hkn]
    by_cases hkp : k ∈ keys (pairs.map Prod.fst)
    · exact h.gone k hkp hkn
    · rw [h.other k hkp hkn, content_of_not_mem hkp]

end Infra.SlotDiff
