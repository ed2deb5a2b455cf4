import Chiaki.Controller
import Chiaki.Properties.FeedbackSender

/-!
# Touch ids are unique until the counter comes round

* `touchIds_unique` — while the counter does not reach the id of an active touch, an id stands for one
  touch; the first time it does, two touches have the same id
-/

namespace Chiaki

open Infra

variable {s : ControllerTouches} {p : ControllerTouch → Bool} {i j id : Nat} {t u : ControllerTouch}

/-- No two touches have the same id. -/
def DistinctIds (s : ControllerTouches) : Prop :=
  ∀ (i j : Nat) (t u : ControllerTouch), s.touches[i]? = some t → s.touches[j]? = some u →
    0 ≤ t.id → t.id = u.id → i = j

/-- An id that was returned and not stopped yet stands for the touch that it was returned for: it ends
when the id is stopped, it moves when the id is moved, and the other slots stay as they are. -/
def StandsFor (s : ControllerTouches) (id i : Nat) : Prop :=
  ∃ t : ControllerTouch, s.touches[i]? = some t ∧ t.id = id ∧
    controllerStateStopTouch s id = s.set i { t with id := -1 } ∧
    ∀ x y, controllerStateSetTouchPos s id x y = s.set i { t with x := x, y := y }

structure TouchIdsUnique (s : ControllerTouches × LiveTouches) : Prop where
  distinct : DistinctIds s.1
  live : ∀ id i, (id, i) ∈ s.2 → StandsFor s.1 id i

/-- A touch that gets a slot does not get the id of an active touch. -/
def TouchIdFree (s : ControllerTouches × LiveTouches) : TouchLabel → Prop
  | .startTouch _ _ => (∃ t ∈ s.1.touches, t.id < 0) → ∀ t ∈ s.1.touches, t.id ≠ s.1.touchIdNext
  | _ => True

/-! ## Slots -/

theorem find?_eq_some (h : s.find? p = some (i, t)) : s.touches[i]? = some t ∧ p t = true := by
  obtain ⟨k, hk, hget⟩ := Option.bind_eq_some_iff.mp h
  obtain ⟨u, hu, heq⟩ := Option.map_eq_some_iff.mp hget
  obtain ⟨rfl, rfl⟩ := Prod.mk.inj heq
  obtain ⟨hlt, hp, -⟩ := List.findIdx?_eq_some_iff_getElem.mp hk
  rw [List.getElem?_eq_getElem hlt] at hu
  cases hu
  exact ⟨List.getElem?_eq_getElem hlt, hp⟩

theorem find?_eq_none (h : s.find? p = none) : ∀ t ∈ s.touches, p t = false := by
  cases hidx : s.touches.findIdx? p with
  | none => exact List.findIdx?_eq_none_iff.mp hidx
  | some k =>
    obtain ⟨hlt, -, -⟩ := List.findIdx?_eq_some_iff_getElem.mp hidx
    rw [ControllerTouches.find?, hidx, Option.bind_some, List.getElem?_eq_getElem hlt] at h
    cases h

/-- The only slot like this is found. -/
theorem find?_of_unique (hget : s.touches[i]? = some t) (hp : p t = true)
    (huniq : ∀ j u, s.touches[j]? = some u → p u = true → j = i) : s.find? p = some (i, t) := by
  cases hfind : s.find? p with
  | none =>
    have hfalse := find?_eq_none hfind t (List.mem_of_getElem? hget)
    rw [hp] at hfalse
    cases hfalse
  | some found =>
    obtain ⟨j, u⟩ := found
    obtain ⟨hj, hpu⟩ := find?_eq_some hfind
    obtain rfl := huniq j u hj hpu
    cases hget.symm.trans hj
    rfl

theorem getElem?_set_cases (h : (s.set i t).touches[j]? = some u) :
    j = i ∧ u = t ∨ j ≠ i ∧ s.touches[j]? = some u := by
  by_cases hj : j = i
  · subst hj
    refine .inl ⟨rfl, ?_⟩
    rw [ControllerTouches.set, List.getElem?_set, if_pos rfl] at h
    split at h
    · exact (Option.some.inj h).symm
    · cases h
  · rw [ControllerTouches.set, List.getElem?_set_ne (Ne.symm hj)] at h
    exact .inr ⟨hj, h⟩

theorem getElem?_set_self (h : s.touches[i]? = some u) : (s.set i t).touches[i]? = some t := by
  rw [ControllerTouches.set, List.getElem?_set_self (List.getElem?_eq_some_iff.mp h).1]

theorem getElem?_set_ne (h : j ≠ i) : (s.set i t).touches[j]? = s.touches[j]? :=
  List.getElem?_set_ne h.symm

/-! ## The invariant -/

/-- The counter and the ids have 7 bits, and the slots of the live ids have them. -/
structure TouchesRight (s : ControllerTouches × LiveTouches) : Prop where
  next : s.1.touchIdNext < 2 ^ 7
  ids : ∀ t ∈ s.1.touches, t.id < 2 ^ 7
  distinct : DistinctIds s.1
  live : ∀ id i, (id, i) ∈ s.2 → ∃ t : ControllerTouch, s.1.touches[i]? = some t ∧ t.id = id

variable {r r' : ControllerTouches × LiveTouches} {l : TouchLabel}

theorem touchIdMask_eq (n : Nat) : n &&& touchIdMask = n % 2 ^ 7 := Nat.and_two_pow_sub_one_eq_mod n 7

theorem TouchesRight.unique (h : TouchesRight r) : TouchIdsUnique r := by
  refine ⟨h.distinct, fun id i hlive => ?_⟩
  obtain ⟨t, hget, hid⟩ := h.live id i hlive
  have hlt := h.ids t (List.mem_of_getElem? hget)
  have hfind : r.1.find? (fun touch => decide (touch.id = id)) = some (i, t) := by
    refine find?_of_unique hget (decide_eq_true hid) fun j u hu hp => ?_
    have hsame := hid.trans (of_decide_eq_true hp).symm
    exact (h.distinct i j t u hget hu (by omega) hsame).symm
  refine ⟨t, hget, hid, ?_, fun x y => ?_⟩
  · rw [controllerStateStopTouch, hfind]
  · rw [controllerStateSetTouchPos, touchIdMask_eq, Nat.mod_eq_of_lt (by omega), hfind]

theorem touchesRight_idle : TouchesRight (controllerTouchesIdle, []) where
  next := by decide
  ids := by decide
  distinct := by
    intro i j t u ht _ hid _
    have hidle : ∀ t ∈ controllerTouchesIdle.touches, t.id < 0 := by decide
    exact absurd (hidle t (List.mem_of_getElem? ht)) (Int.not_lt.mpr hid)
  live := fun _ _ h => absurd h List.not_mem_nil

/-- What a touch that starts in slot `i` leaves. -/
theorem controllerStateStartTouch_some (hnext : s.touchIdNext < 2 ^ 7) (x y : Nat)
    (hfind : s.find? (fun touch => decide (touch.id < 0)) = some (i, t)) :
    controllerStateStartTouch s x y = ({ s.set i ⟨x, y, s.touchIdNext⟩ with
      touchIdNext := (s.touchIdNext + 1) % 2 ^ 7 }, (s.touchIdNext : Int)) := by
  have hid : (s.touchIdNext : Int).bmod (2 ^ 8) = s.touchIdNext := by
    rw [Int.bmod_eq_of_le] <;> omega
  rw [controllerStateStartTouch, hfind]
  simp only [hid, touchIdMask_eq]

theorem touchesRight_start (h : TouchesRight r) {x y : Nat}
    (hG : TouchIdFree r (.startTouch x y)) :
    TouchesRight (touchStep r.1 (.startTouch x y), recordTouch r.1 (.startTouch x y) r.2) := by
  cases hfind : r.1.find? fun touch => decide (touch.id < 0) with
  | none =>
    rw [touchStep, recordTouch, controllerStateStartTouch, hfind]
    exact h
  | some found =>
    obtain ⟨i, t⟩ := found
    obtain ⟨hget, hneg⟩ := find?_eq_some hfind
    have hfree := hG ⟨t, List.mem_of_getElem? hget, of_decide_eq_true hneg⟩
    rw [touchStep, recordTouch, hfind]
    simp only [controllerStateStartTouch_some h.next x y hfind]
    refine ⟨Nat.mod_lt _ (by decide), fun u hu => ?_, fun j k u v hj hk hpos hsame => ?_,
      fun id j hlive => ?_⟩
    · obtain ⟨j, hj⟩ := List.getElem?_of_mem hu
      rcases getElem?_set_cases hj with ⟨-, rfl⟩ | ⟨-, hj⟩
      · have hnext := h.next
        simp only
        omega
      · exact h.ids u (List.mem_of_getElem? hj)
    · rcases getElem?_set_cases hj with ⟨hji, hu⟩ | ⟨-, hj'⟩
      · rcases getElem?_set_cases hk with ⟨hki, -⟩ | ⟨-, hk'⟩
        · exact hji.trans hki.symm
        · rw [hu] at hsame
          exact absurd hsame.symm (hfree v (List.mem_of_getElem? hk'))
      · rcases getElem?_set_cases hk with ⟨-, hv⟩ | ⟨-, hk'⟩
        · rw [hv] at hsame
          exact absurd hsame (hfree u (List.mem_of_getElem? hj'))
        · exact h.distinct j k u v hj' hk' hpos hsame
    · rcases List.mem_cons.mp hlive with heq | hlive
      · obtain ⟨rfl, rfl⟩ := Prod.mk.inj heq
        exact ⟨_, getElem?_set_self hget, (Int.toNat_natCast _).symm ▸ rfl⟩
      · -- the slot of another live id is not free
        obtain ⟨u, hu, hid⟩ := h.live id j hlive
        have hji : j ≠ i := by
          rintro rfl
          cases hget.symm.trans hu
          have := of_decide_eq_true hneg
          omega
        exact ⟨u, (getElem?_set_ne hji).trans hu, hid⟩

theorem touchesRight_stop (h : TouchesRight r) (id : Nat) :
    TouchesRight (touchStep r.1 (.stopTouch id), recordTouch r.1 (.stopTouch id) r.2) := by
  rw [touchStep, recordTouch, controllerStateStopTouch]
  cases hfind : r.1.find? fun touch => decide (touch.id = id) with
  | none =>
    exact ⟨h.next, h.ids, h.distinct, fun id' i hlive => h.live id' i (List.mem_filter.mp hlive).1⟩
  | some found =>
    obtain ⟨i, t⟩ := found
    obtain ⟨hget, hid⟩ := find?_eq_some hfind
    refine ⟨h.next, fun u hu => ?_, fun j k u v hj hk hpos hsame => ?_, fun id' j hlive => ?_⟩
    · obtain ⟨j, hj⟩ := List.getElem?_of_mem hu
      rcases getElem?_set_cases hj with ⟨-, rfl⟩ | ⟨-, hj⟩
      · exact (show (-1 : Int) < 2 ^ 7 by decide)
      · exact h.ids u (List.mem_of_getElem? hj)
    · rcases getElem?_set_cases hj with ⟨-, hu⟩ | ⟨-, hj'⟩
      · rw [hu] at hpos
        exact absurd hpos (show ¬ (0 : Int) ≤ -1 by decide)
      · rcases getElem?_set_cases hk with ⟨-, hv⟩ | ⟨-, hk'⟩
        · rw [hsame, hv] at hpos
          exact absurd hpos (show ¬ (0 : Int) ≤ -1 by decide)
        · exact h.distinct j k u v hj' hk' hpos hsame
    · -- another id stands for another slot
      obtain ⟨hmem, hne⟩ := List.mem_filter.mp hlive
      obtain ⟨u, hu, hid'⟩ := h.live id' j hmem
      have hji : j ≠ i := by
        rintro rfl
        cases hget.symm.trans hu
        have hsame := of_decide_eq_true hid
        rw [hid'] at hsame
        exact of_decide_eq_true hne (Int.ofNat_inj.mp hsame)
      exact ⟨u, (getElem?_set_ne hji).trans hu, hid'⟩

theorem touchesRight_setPos (h : TouchesRight r) (id x y : Nat) :
    TouchesRight (touchStep r.1 (.setTouchPos id x y), recordTouch r.1 (.setTouchPos id x y) r.2) := by
  rw [touchStep, recordTouch, controllerStateSetTouchPos]
  cases hfind : r.1.find? fun touch => decide (touch.id = (id &&& touchIdMask : Nat)) with
  | none => exact h
  | some found =>
    obtain ⟨i, t⟩ := found
    obtain ⟨hget, -⟩ := find?_eq_some hfind
    have hsameIds : ∀ (j : Nat) (u : ControllerTouch),
        (r.1.set i { t with x := x, y := y }).touches[j]? = some u →
        ∃ v, r.1.touches[j]? = some v ∧ v.id = u.id := by
      intro j u hu
      rcases getElem?_set_cases hu with ⟨rfl, rfl⟩ | ⟨-, hj⟩
      · exact ⟨t, hget, rfl⟩
      · exact ⟨u, hj, rfl⟩
    refine ⟨h.next, fun u hu => ?_, fun j k u v hj hk hpos hsame => ?_, fun id' j hlive => ?_⟩
    · obtain ⟨j, hj⟩ := List.getElem?_of_mem hu
      obtain ⟨v, hv, hid⟩ := hsameIds j u hj
      rw [← hid]
      exact h.ids v (List.mem_of_getElem? hv)
    · obtain ⟨u', hu', hid⟩ := hsameIds j u hj
      obtain ⟨v', hv', hid'⟩ := hsameIds k v hk
      exact h.distinct j k u' v' hu' hv' (hid ▸ hpos) (hid.trans (hsame.trans hid'.symm))
    · obtain ⟨u, hu, hid⟩ := h.live id' j hlive
      by_cases hji : j = i
      · subst hji
        cases hget.symm.trans hu
        exact ⟨_, getElem?_set_self hget, hid⟩
      · exact ⟨u, (getElem?_set_ne hji).trans hu, hid⟩

theorem touchesRight_invariant : (touchRuns.restrict TouchIdFree).Invariant TouchesRight where
  init := by
    rintro ⟨s, live⟩ ⟨hidle, hlive⟩
    cases hidle
    cases hlive
    exact touchesRight_idle
  step := by
    rintro ⟨s, live⟩ label ⟨s', live'⟩ h ⟨hG, hstep, hlive⟩
    cases hstep
    cases hlive
    cases label with
    | startTouch x y => exact touchesRight_start h hG
    | stopTouch id => exact touchesRight_stop h id
    | setTouchPos id x y => exact touchesRight_setPos h id x y

/-! ## The counter comes round -/

/-- A touch that gets the id of an active one. -/
theorem not_distinctIds_start (h : TouchesRight r) (hG : ¬ TouchIdFree r l) :
    ¬ DistinctIds (touchStep r.1 l) := by
  cases l with
  | stopTouch id => exact absurd trivial hG
  | setTouchPos id x y => exact absurd trivial hG
  | startTouch x y =>
    obtain ⟨⟨t, ht, hneg⟩, hused⟩ := Classical.not_imp.mp hG
    obtain ⟨u, hu, hid⟩ : ∃ u ∈ r.1.touches, u.id = (r.1.touchIdNext : Int) := by
      by_contra hfree
      exact hused fun u hu hid => hfree ⟨u, hu, hid⟩
    cases hfind : r.1.find? fun touch => decide (touch.id < 0) with
    | none =>
      have hfull := find?_eq_none hfind t ht
      exact absurd hneg (of_decide_eq_false hfull)
    | some found =>
      obtain ⟨i, v⟩ := found
      obtain ⟨hget, hfree⟩ := find?_eq_some hfind
      rw [touchStep, controllerStateStartTouch_some h.next x y hfind]
      intro hdistinct
      obtain ⟨j, hj⟩ := List.getElem?_of_mem hu
      have hji : j ≠ i := by
        rintro rfl
        cases hget.symm.trans hj
        have hneg' := of_decide_eq_true hfree
        omega
      exact hji (hdistinct j i u _ ((getElem?_set_ne hji).trans hj) (getElem?_set_self hget)
        (hid ▸ Int.natCast_nonneg _) hid)

/-- **An id stands for one touch as long as the counter does not reach the id of an active touch**, in
every run, and the first touch that gets such an id breaks it. -/
theorem touchIds_unique {s : ControllerTouches × LiveTouches}
    (hr : (touchRuns.restrict TouchIdFree).Reachable s) :
    TouchIdsUnique s ∧ ∀ l s', touchRuns.step s l s' → (TouchIdsUnique s' ↔ TouchIdFree s l) := by
  have h := touchesRight_invariant.reachable hr
  refine ⟨h.unique, fun l s' hstep => ⟨fun hunique => ?_, fun hG => ?_⟩⟩
  · by_contra hG
    refine not_distinctIds_start h hG ?_
    rw [Option.some.inj hstep.1]
    exact hunique.distinct
  · exact (touchesRight_invariant.reachable (hr.step ⟨hG, hstep⟩)).unique

/-- One touch is held while 127 others come and go. -/
def heldTouch : List TouchLabel :=
  .startTouch 1 2 :: (List.range 127).flatMap fun i => [.startTouch 3 4, .stopTouch (i + 1)]

/-- The next touch has the id of the one that is held, and what ends with this id is not the touch that
it was returned for. -/
theorem not_touchIds_unique : ∃ s, touchRuns.Reachable s ∧ ¬ TouchIdsUnique s ∧
    s.1.touches = [⟨1, 2, 0⟩, ⟨5, 6, 0⟩] ∧ (0, 1) ∈ s.2 ∧
    (controllerStateStopTouch s.1 0).touches = [⟨1, 2, -1⟩, ⟨5, 6, 0⟩] := by
  have hrun : (Lts.runFun (Lts.guarded (Lts.recordFun (fun s label => some (touchStep s label))
      recordTouch) fun _ _ => True) (controllerTouchesIdle, [])
      (heldTouch ++ [.startTouch 5 6])).map (fun s => (s.1.touches, s.2))
        = some ([⟨1, 2, 0⟩, ⟨5, 6, 0⟩], [(0, 1), (0, 0)]) := by
    decide +kernel
  obtain ⟨s, hs, hend⟩ := Option.map_eq_some_iff.mp hrun
  obtain ⟨htouches, hlive⟩ := Prod.mk.inj hend
  have hidle : (touchRuns.restrict fun _ _ => True).Reachable (controllerTouchesIdle, []) := .init ⟨rfl, rfl⟩
  have hr : touchRuns.Reachable s := (Lts.Reachable.runRecord hidle hs).of_restrict
  refine ⟨s, hr, fun hunique => ?_, htouches, hlive ▸ List.mem_cons_self .., ?_⟩
  · have hsame := hunique.distinct 0 1 ⟨1, 2, 0⟩ ⟨5, 6, 0⟩ (by rw [htouches]; rfl) (by rw [htouches]; rfl)
      (Int.le_refl 0) rfl
    exact absurd hsame (by decide)
  · have hstop : ∀ r : ControllerTouches, r.touches = [⟨1, 2, 0⟩, ⟨5, 6, 0⟩] →
        (controllerStateStopTouch r 0).touches = [⟨1, 2, -1⟩, ⟨5, 6, 0⟩] := by
      rintro ⟨next, _, hlen⟩ rfl
      rfl
    exact hstop s.1 htouches

theorem reachable_touchStep (hr : (touchRuns.restrict TouchIdFree).Reachable r) (hG : TouchIdFree r l) :
    (touchRuns.restrict TouchIdFree).Reachable (touchStep r.1 l, recordTouch r.1 l r.2) :=
  hr.step ⟨hG, rfl, rfl⟩

theorem touchIds_unique_two : ∃ s, (touchRuns.restrict TouchIdFree).Reachable s ∧ TouchIdsUnique s ∧
    s.2 = [(1, 1), (0, 0)] := by
  have hidle : (touchRuns.restrict TouchIdFree).Reachable (controllerTouchesIdle, []) := .init ⟨rfl, rfl⟩
  have hone := reachable_touchStep hidle (l := .startTouch 1 2) (fun _ => by decide)
  have htwo := reachable_touchStep hone (l := .startTouch 3 4) (fun _ => by decide)
  exact ⟨_, htwo, (touchIds_unique htwo).1, rfl⟩

/-! ## What the sender needs -/

/-- **The touches of such a controller are valid for the history** if their positions have 12 bits. -/
theorem validTouches_withTouches {μ : Type} (state : ControllerState μ)
    (hr : (touchRuns.restrict TouchIdFree).Reachable r)
    (hpos : ∀ t ∈ r.1.touches, t.x < 2 ^ 12 ∧ t.y < 2 ^ 12) : ValidTouches (state.withTouches r.1) := by
  have h := touchesRight_invariant.reachable hr
  refine ⟨fun t ht => ⟨h.ids t ht, hpos t ht⟩, ?_⟩
  have hdistinct : r.1.touches.Pairwise fun t u => 0 ≤ t.id → t.id ≠ u.id := by
    refine List.pairwise_iff_getElem.mpr fun i j hi hj hlt hneg hsame => ?_
    exact absurd (h.distinct i j _ _ (List.getElem?_eq_getElem hi) (List.getElem?_eq_getElem hj) hneg hsame)
      (Nat.ne_of_lt hlt)
  rw [SlotDiff.keys, ControllerState.slots, List.filterMap_map]
  have hslot : ∀ {t : ControllerTouch} {k : Int}, (touchSlot t).map Prod.fst = some k → 0 ≤ t.id ∧ t.id = k := by
    intro t k hk
    by_cases hneg : t.id < 0
    · rw [touchSlot_up hneg] at hk
      cases hk
    · rw [touchSlot_down hneg] at hk
      exact ⟨Int.not_lt.mp hneg, Option.some.inj hk⟩
  refine List.pairwise_filterMap.mpr (hdistinct.imp fun {t u} hne a ha b hb => ?_)
  obtain ⟨hnonneg, rfl⟩ := hslot ha
  obtain ⟨-, rfl⟩ := hslot hb
  exact hne hnonneg

end Chiaki
