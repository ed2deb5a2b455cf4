import Chiaki.Properties.ReorderQueue.Window
import Mathlib.Data.List.Chain

/-!
# Nothing is lost in a reorder queue

Runs of a queue of either width, under any sequence of pushes, pulls and changes of the strategy.

* `ReorderQueueRun.Conserved` — where the pushed elements are, and in which order they are pulled
* `reorderQueuePush_places`, `reorderQueuePull_places` — what a call does to the places of elements
* `reorderQueue_conserved` — it holds of every run

A number that is pulled is serially greater than the one before it only if `begin` has moved less
than half around the circle in between. With `DROP_STRATEGY_BEGIN` it may move further
(`not_reorderQueue_pulled_gt`). A queue for 16-bit numbers is looked at as long as no call meets a
carry (`NoCarry`).
-/

namespace Chiaki

open Infra ReorderQueue

variable {α : Type} {bits : Nat} {q : ReorderQueue α}

/-! ## The statement -/

/-- The calls with a number of the width that is not opposite to `begin` or to the end. -/
def ProperCall (width : SeqNumWidth) (q : ReorderQueue α) : ReorderQueueLabel α → Prop
  | .push seqNum _ => seqNum < 2 ^ width.bits ∧
      ¬ seqNum ≡ q.begin + 2 ^ (width.bits - 1) [MOD 2 ^ width.bits] ∧
      ¬ seqNum ≡ q.ops.add q.begin q.count + 2 ^ (width.bits - 1) [MOD 2 ^ width.bits]
  | .pull => True
  | .setDropStrategy _ => True

/-- No call meets a sum with a carry: neither the number that is pushed nor the one that is pulled
is compared or returned as a number of 17 bits. -/
def NoCarry : SeqNumWidth → ReorderQueue α → ReorderQueueLabel α → Prop
  | .bits32, _, _ => True
  | .bits16, q, .push seqNum _ => q.Meets 16 seqNum
  | .bits16, q, .pull => q.begin < 2 ^ 16 ∨ reorderQueuePull q = none
  | .bits16, _, .setDropStrategy _ => True

instance (width : SeqNumWidth) (q : ReorderQueue α) :
    (l : ReorderQueueLabel α) → Decidable (ProperCall width q l)
  | .push _ _ => inferInstanceAs (Decidable (_ ∧ _))
  | .pull => instDecidableTrue
  | .setDropStrategy _ => instDecidableTrue

instance (q : ReorderQueue α) (seqNum : Nat) : Decidable (q.Meets bits seqNum) :=
  inferInstanceAs (Decidable (_ ∨ _))

instance : (width : SeqNumWidth) → (q : ReorderQueue α) → (l : ReorderQueueLabel α) →
    Decidable (NoCarry width q l)
  | .bits32, _, _ => instDecidableTrue
  | .bits16, _, .push _ _ => inferInstanceAs (Decidable (ReorderQueue.Meets _ _ _))
  | .bits16, _, .pull => inferInstanceAs (Decidable (_ ∨ _))
  | .bits16, _, .setDropStrategy _ => instDecidableTrue

def PulledElement.pair (p : PulledElement α) : Nat × α := (p.seqNum, p.user)

/-- Where the elements are, and in which order they leave. -/
structure ReorderQueueRun.Conserved (width : SeqNumWidth) (seqNumStart : Nat)
    (s : ReorderQueueRun α) : Prop where
  fault : s.fault = none
  count_le : s.queue.count ≤ s.queue.size
  /-- Each pushed element is pulled once, dropped once, or in the slot of its number. -/
  places : s.pushed.Perm (s.pulled.map PulledElement.pair ++ s.dropped.map (narrow width.bits)
    ++ s.queue.stored width.bits)
  lt : ∀ p ∈ s.pulled, p.seqNum < 2 ^ width.bits
  gt : s.pulled.IsChain fun p p' =>
    p'.moved < 2 ^ (width.bits - 1) → seqNumGt width.bits p'.seqNum p.seqNum = true
  consecutive : s.alwaysEnd = true →
    s.pulled.map PulledElement.seqNum
      = (List.range s.pulled.length).map fun i => (seqNumStart + i) % 2 ^ width.bits

/-- What `stored` says about the slots. -/
theorem mem_stored {p : Nat × α} (h : q.Wf bits) :
    p ∈ q.stored bits ↔ ∃ i < q.count, p.1 = (q.begin + i) % 2 ^ bits ∧
      (q.entry p.1).set = true ∧ (q.entry p.1).user = p.2 := by
  unfold stored
  rw [Window.mem_labelled]
  unfold Window.Stored
  constructor
  · rintro ⟨i, hi, hp⟩
    have hlt : i < q.count := by
      by_contra hge
      rw [List.getElem?_eq_none (by rw [length_window]; omega)] at hi
      cases hi
    have hx : p.1 ≡ q.begin + i [MOD 2 ^ bits] := by rw [hp]; exact Nat.mod_modEq _ _
    rw [getElem?_window q hlt, h.slotAt_eq hx, Option.some_inj] at hi
    refine ⟨i, hlt, hp, ?_⟩
    split at hi
    · next hset => exact ⟨hset, Option.some.inj hi⟩
    · cases hi
  · rintro ⟨i, hlt, hp, hset, huser⟩
    have hx : p.1 ≡ q.begin + i [MOD 2 ^ bits] := by rw [hp]; exact Nat.mod_modEq _ _
    refine ⟨i, ?_, hp⟩
    rw [getElem?_window q hlt, h.slotAt_eq hx, if_pos hset, huser]

/-! ## The places of the elements after a call -/

/-- What a push does: the new element and the ones stored before are the ones dropped now and the
ones stored then. -/
structure PushPlaces (bits : Nat) (q q' : ReorderQueue α) (dropped : List (Nat × α)) (moved : Nat)
    (seqNum : Nat) (user : α) : Prop where
  wf : q'.Wf bits
  frame : q'.SameFrame { q with begin := q'.begin }
  begin : q'.begin ≡ q.begin + moved [MOD 2 ^ bits]
  moved_lt : moved < 2 ^ bits
  still : q.dropStrategy = .end → moved = 0
  raw : q'.begin = seqNum ∨ q'.begin = q.begin ∨ ∃ x, q'.begin = q.ops.add x 1
  places : ((seqNum, user) :: q.stored bits).Perm (dropped.map (narrow bits) ++ q'.stored bits)

theorem PushPlaces.dropped {s : Nat} (h : q.Wf bits) (hs : s < 2 ^ bits) (hcb : q.dropCb = true)
    (user : α) : PushPlaces bits q q (q.callDropCb s user) 0 s user where
  wf := h
  frame := .refl q
  begin := rfl
  moved_lt := Nat.two_pow_pos _
  still := fun _ => rfl
  raw := Or.inr (Or.inl rfl)
  places := by simp [callDropCb, hcb, narrow, Nat.mod_eq_of_lt hs]

theorem PushPlaces.put {q' : ReorderQueue α} {s d : Nat} (hlt : s < 2 ^ bits)
    (hs : s ≡ q.begin + d [MOD 2 ^ bits]) (hcb : q.dropCb = true) {user : α} (hwf : q'.Wf bits)
    (hf : q'.SameFrame q) (hw : q'.window = (Window.put q.size q.window d user).1) :
    PushPlaces bits q q'
      (if (Window.put q.size q.window d user).2 then [] else q.callDropCb s user) 0 s user where
  wf := hwf
  frame := ⟨hf.sizeExp, hf.ops, hf.dropStrategy, hf.dropCb, rfl⟩
  begin := by rw [hf.begin]; rfl
  moved_lt := Nat.two_pow_pos _
  still := fun _ => rfl
  raw := Or.inr (Or.inl hf.begin)
  places := by
    unfold stored
    rw [hw, hf.begin]
    cases hkept : (Window.put q.size q.window d user).2 with
    | true =>
      have hnum : (q.begin + d) % 2 ^ bits = s := (Eq.symm hs).trans (Nat.mod_eq_of_lt hlt)
      have hput := Window.labelled_put (f := fun i => (q.begin + i) % 2 ^ bits) hkept
      rw [hnum] at hput
      exact hput.symm
    | false =>
      rw [Window.put_of_not_kept hkept]
      simp [callDropCb, hcb, narrow, Nat.mod_eq_of_lt hlt]

theorem PushPlaces.slide {q' : ReorderQueue α} {s d : Nat} {dropped : List (Nat × α)} {user : α}
    (h : q.Wf bits) (hlt : s < 2 ^ bits) (hs : s ≡ q.begin + d [MOD 2 ^ bits])
    (hd : d < 2 ^ (bits - 1)) (hstrat : q.dropStrategy = .begin) (hfull : q.size ≤ d)
    (hwf : q'.Wf bits) (hf : q'.SameFrame { q with begin := q'.begin })
    (hb : q'.begin ≡ q.begin + Window.slideBy q.size q.window d [MOD 2 ^ bits])
    (hraw : q'.begin = s ∨ q'.begin = q.begin ∨ ∃ x, q'.begin = q.ops.add x 1)
    (hw : q'.window = (Window.put q.size (q.window.drop (Window.slideBy q.size q.window d))
      (d - Window.slideBy q.size q.window d) user).1)
    (hdropped : dropped.map (narrow bits) = Window.labelled (fun i => (q.begin + i) % 2 ^ bits)
      (q.window.take (Window.slideBy q.size q.window d))) :
    PushPlaces bits q q' dropped (Window.slideBy q.size q.window d) s user := by
  have hle := @Window.slideBy_le _ q.window q.size d hfull (size_pos q)
  have hroom := @Window.slideBy_room _ q.window q.size d (by rw [length_window]; exact h.count_le)
    hfull (size_pos q)
  have hhalf : 2 ^ (bits - 1) ≤ 2 ^ bits := Nat.pow_le_pow_right (by decide) (by omega)
  refine ⟨hwf, hf, hb, by omega, ?_, hraw, ?_⟩
  · rw [hstrat]
    intro hne
    cases hne
  · generalize Window.slideBy q.size q.window d = k at *
    have hlabel : (fun i => (q'.begin + i) % 2 ^ bits) = fun i => (q.begin + (k + i)) % 2 ^ bits := by
      funext i
      rw [← Nat.add_assoc]
      exact hb.add_right i
    have hkept : (Window.put q.size (q.window.drop k) (d - k) user).2 = true := by
      rw [Window.put_of_beyond hroom.1 hroom.2]
    have hnum : (q.begin + (k + (d - k))) % 2 ^ bits = s := by
      rw [Nat.add_sub_of_le hle]
      exact (Eq.symm hs).trans (Nat.mod_eq_of_lt hlt)
    have hput := Window.labelled_put (f := fun i => (q.begin + (k + i)) % 2 ^ bits) hkept
    rw [hnum] at hput
    unfold stored
    rw [hw, hlabel, hdropped, ← Window.labelled_take_append_drop _ q.window k]
    exact (List.perm_middle.symm).trans (hput.symm.append_left _)

/-- **Push, for every number that can be compared with `begin`.** -/
theorem reorderQueuePush_places (h : q.Wf bits) (hcb : q.dropCb = true) {s : Nat}
    (hlt : s < 2 ^ bits) (hne : ¬ s ≡ q.begin + 2 ^ (bits - 1) [MOD 2 ^ bits])
    (hm : q.Meets bits s) (user : α) :
    ∃ q' dropped moved, reorderQueuePush q s user = .ok (q', dropped) ∧
      PushPlaces bits q q' dropped moved s user := by
  rcases position_cases h.bits_pos q.begin s with ⟨d, hd, hs⟩ | ⟨d, hpos, hd, hb⟩ | hopp
  · have ha := h.ahead hlt hs hd hm
    by_cases hput : q.dropStrategy = .end ∨ d < q.size
    · obtain ⟨q', hpush, hwf, hf, hw⟩ := reorderQueuePush_put h ha hs hput user
      exact ⟨q', _, 0, hpush, .put hlt hs hcb hwf hf hw⟩
    · rw [not_or] at hput
      have hstrat : q.dropStrategy = .begin := by
        cases hstrat : q.dropStrategy with
        | begin => rfl
        | «end» => exact absurd hstrat hput.1
      have hfull := Nat.le_of_not_lt hput.2
      obtain ⟨q', dropped, hpush, hwf, hf, hb, hraw, hw, hdropped⟩ :=
        reorderQueuePush_slide h ha hs hd hstrat hfull hcb user
      exact ⟨q', dropped, _, hpush,
        .slide h hlt hs hd hstrat hfull hwf hf hb hraw hw hdropped⟩
  · exact ⟨q, _, 0, reorderQueuePush_old h hb hpos hd user, .dropped h hlt hcb user⟩
  · exact absurd hopp hne

/-- **Pull takes the element of `begin` out of the places.** -/
theorem reorderQueuePull_places (h : q.Wf bits) {n : Nat} {x : α} {q' : ReorderQueue α}
    (hpull : reorderQueuePull q = some (n, x, q')) :
    n = q.begin ∧ q'.Wf bits ∧ q'.begin = q.ops.add q.begin 1 ∧
      q'.SameFrame { q with begin := q'.begin } ∧
      q.stored bits = (n % 2 ^ bits, x) :: q'.stored bits := by
  have hres := reorderQueuePull_window h
  cases htake : Window.take q.window with
  | none =>
    rw [htake] at hres
    rw [hres] at hpull
    cases hpull
  | some p =>
    obtain ⟨y, rest⟩ := p
    rw [htake] at hres
    obtain ⟨q1, hq1, hwf, hw, hb, hexp, hops, hstrat, hcb⟩ := hres
    rw [hq1] at hpull
    cases hpull
    refine ⟨rfl, hwf, hb, ⟨hexp, hops, hstrat, hcb, rfl⟩, ?_⟩
    have hlabel : (fun i => (q'.begin + i) % 2 ^ bits) = fun i => (q.begin + (i + 1)) % 2 ^ bits := by
      funext i
      rw [hb, show q.begin + (i + 1) = q.begin + 1 + i by omega]
      exact (h.ops.add q.begin 1).add_right i
    unfold stored
    rw [hw, hlabel, (Window.take_stored htake).2]
    rfl

/-! ## Runs -/

/-- What every run keeps, besides what it is about. -/
structure ReorderQueueRun.Kept (width : SeqNumWidth) (seqNumStart : Nat)
    (s : ReorderQueueRun α) : Prop extends s.Conserved width seqNumStart where
  wf : s.queue.Wf width.bits
  dropCb : s.queue.dropCb = true
  bits32 : width = .bits32 → s.queue.begin < 2 ^ 32 ∧ s.queue.ops = seqNum32Ops
  last : ∀ p, s.pulled.getLast? = some p →
    s.queue.begin ≡ p.seqNum + s.moved [MOD 2 ^ width.bits] ∧ 0 < s.moved
  atEnd : s.alwaysEnd = true → s.queue.dropStrategy = .end ∧
    s.queue.begin ≡ seqNumStart + s.pulled.length [MOD 2 ^ width.bits]

variable {width : SeqNumWidth} {seqNumStart : Nat} {s s' : ReorderQueueRun α}

theorem beginMoved_eq {b b' moved : Nat} (h : b' ≡ b + moved [MOD 2 ^ width.bits])
    (hlt : moved < 2 ^ width.bits) : beginMoved width b b' = moved := by
  have hpow := Nat.mod_lt b (Nat.two_pow_pos width.bits)
  have hmod : b' + 2 ^ width.bits - b % 2 ^ width.bits ≡ moved [MOD 2 ^ width.bits] := by
    have hround := (add_complement width.bits b).add_left moved
    rw [Nat.add_sub_assoc (by omega)]
    refine (h.add_right _).trans ?_
    rwa [show b + moved + (2 ^ width.bits - b % 2 ^ width.bits)
      = moved + (b + (2 ^ width.bits - b % 2 ^ width.bits)) by omega]
  exact Eq.trans hmod (Nat.mod_eq_of_lt hlt)

theorem ReorderQueueRun.Kept.meets (h : s.Kept width seqNumStart) {seqNum : Nat} {user : α}
    (hlt : seqNum < 2 ^ width.bits) (hcarry : NoCarry width s.queue (.push seqNum user)) :
    s.queue.Meets width.bits seqNum := by
  cases width with
  | bits16 => exact hcarry
  | bits32 =>
    obtain ⟨hbegin, hops⟩ := h.bits32 rfl
    have hend : s.queue.ops.add s.queue.begin s.queue.count < 2 ^ 32 := by
      rw [hops]
      exact Nat.mod_lt _ (Nat.two_pow_pos _)
    exact Or.inr ⟨fun hb => hb.eq_of_lt_of_lt hlt hbegin, fun he => he.eq_of_lt_of_lt hlt hend⟩

theorem kept_start [Inhabited α] {sizeExp : Nat} (hexp : sizeExp + 2 ≤ width.bits)
    (hstart : seqNumStart < 2 ^ width.bits) :
    (reorderQueueStart width sizeExp seqNumStart : ReorderQueueRun α).Kept width seqNumStart where
  fault := rfl
  count_le := by cases width <;> exact Nat.zero_le _
  places := by cases width <;> exact .nil
  lt := fun p hp => by cases hp
  gt := .nil
  consecutive := fun _ => rfl
  wf := by
    cases width with
    | bits16 => exact ⟨narrowOps16, Nat.zero_le _, hexp⟩
    | bits32 => exact ⟨narrowOps32, Nat.zero_le _, hexp⟩
  dropCb := rfl
  bits32 := by
    rintro rfl
    exact ⟨hstart, rfl⟩
  last := fun p hp => by cases hp
  atEnd := fun _ => by cases width <;> exact ⟨rfl, rfl⟩

theorem ReorderQueueRun.Kept.push (h : s.Kept width seqNumStart) {seqNum : Nat} {user : α}
    (hproper : ProperCall width s.queue (.push seqNum user))
    (hcarry : NoCarry width s.queue (.push seqNum user))
    (hs : reorderQueueStep width s (.push seqNum user) = some s') :
    s'.Kept width seqNumStart := by
  obtain ⟨hlt, hne, -⟩ := hproper
  obtain ⟨q, dropped, moved, hpush, hp⟩ :=
    reorderQueuePush_places h.wf h.dropCb hlt hne (h.meets hlt hcarry) user
  simp only [reorderQueueStep, h.fault, hpush, Option.some.injEq] at hs
  subst hs
  have hmoved := beginMoved_eq hp.begin hp.moved_lt
  refine ⟨⟨rfl, hp.wf.count_le, ?_, h.lt, h.gt, h.consecutive⟩, hp.wf, ?_, ?_, ?_, ?_⟩
  · -- the new element joins the ones pushed, and takes its place among the others
    have hpush : (s.pushed ++ [(seqNum, user)]).Perm
        (s.pulled.map PulledElement.pair ++ s.dropped.map (narrow width.bits)
          ++ ((seqNum, user) :: s.queue.stored width.bits)) :=
      (List.perm_append_singleton _ _).trans ((h.places.cons _).trans List.perm_middle.symm)
    refine hpush.trans ?_
    rw [List.map_append, ← List.append_assoc, List.append_assoc _ (dropped.map _)]
    exact hp.places.append_left _
  · exact hp.frame.dropCb.trans h.dropCb
  · intro hw
    obtain ⟨hbegin, hops⟩ := h.bits32 hw
    refine ⟨?_, hp.frame.ops.trans hops⟩
    rcases hp.raw with hb | hb | ⟨x, hb⟩
    · subst hw
      rw [hb]
      exact hlt
    · rw [hb]
      exact hbegin
    · rw [hb, hops]
      exact Nat.mod_lt _ (Nat.two_pow_pos _)
  · intro p hp'
    obtain ⟨hlast, hpos⟩ := h.last p hp'
    refine ⟨?_, Nat.lt_of_lt_of_le hpos (Nat.le_add_right _ _)⟩
    show q.begin ≡ p.seqNum + (s.moved + beginMoved width s.queue.begin q.begin) [MOD _]
    rw [hmoved, ← Nat.add_assoc]
    exact hp.begin.trans (hlast.add_right moved)
  · intro hend
    obtain ⟨hstrat, hbegin⟩ := h.atEnd hend
    refine ⟨hp.frame.dropStrategy.trans hstrat, hp.begin.trans ?_⟩
    rw [hp.still hstrat]
    exact hbegin

theorem ReorderQueueRun.Kept.pull (h : s.Kept width seqNumStart)
    (hcarry : NoCarry width s.queue .pull) (hs : reorderQueueStep width s .pull = some s') :
    s'.Kept width seqNumStart := by
  simp only [reorderQueueStep, h.fault] at hs
  cases hpull : reorderQueuePull s.queue with
  | none =>
    rw [hpull] at hs
    cases hs
    exact h
  | some r =>
    obtain ⟨n, x, q⟩ := r
    obtain ⟨rfl, hwf, hb, hf, hstored⟩ := reorderQueuePull_places h.wf hpull
    rw [hpull] at hs
    cases hs
    have hlt : s.queue.begin < 2 ^ width.bits := by
      cases width with
      | bits16 => exact hcarry.resolve_right (by rw [hpull]; exact fun hn => by cases hn)
      | bits32 => exact (h.bits32 rfl).1
    have hadd := h.wf.ops.add s.queue.begin 1
    refine ⟨⟨rfl, hwf.count_le, ?_, ?_, ?_, ?_⟩, hwf, hf.dropCb.trans h.dropCb, ?_, ?_, ?_⟩
    · have hplaces := h.places
      rw [hstored, Nat.mod_eq_of_lt hlt] at hplaces
      refine hplaces.trans ?_
      rw [List.map_append, List.append_assoc, List.append_assoc, List.append_assoc]
      exact List.Perm.append_left _ List.perm_middle
    · intro p hp
      rcases List.mem_append.mp hp with hp | hp
      · exact h.lt p hp
      · rw [List.mem_singleton.mp hp]
        exact hlt
    · refine List.isChain_append.mpr ⟨h.gt, .singleton _, ?_⟩
      rintro p hp p' hp' hmoved
      simp only [List.head?_cons, Option.mem_def, Option.some.injEq] at hp'
      subst hp'
      obtain ⟨hlast, hpos⟩ := h.last p hp
      have hplt := h.lt p (List.mem_of_getLast? hp)
      rw [seqNumGt_position h.wf.bits_pos hlt hplt hlast (n := 0) rfl (by simpa using hmoved)
        (by omega)]
      simpa using hpos
    · intro hend
      obtain ⟨-, hbegin⟩ := h.atEnd hend
      have hnum : (seqNumStart + s.pulled.length) % 2 ^ width.bits = s.queue.begin :=
        (Eq.symm hbegin).trans (Nat.mod_eq_of_lt hlt)
      rw [List.map_append, h.consecutive hend, List.length_append, List.length_singleton,
        List.range_succ, List.map_append]
      simp only [List.map_cons, List.map_nil, hnum]
    · intro hw
      obtain ⟨-, hops⟩ := h.bits32 hw
      refine ⟨?_, hf.ops.trans hops⟩
      rw [hb, hops]
      exact Nat.mod_lt _ (Nat.two_pow_pos _)
    · intro p hp
      rw [List.getLast?_concat, Option.some_inj] at hp
      subst hp
      rw [hb]
      exact ⟨hadd, Nat.one_pos⟩
    · intro hend
      obtain ⟨hstrat, hbegin⟩ := h.atEnd hend
      refine ⟨hf.dropStrategy.trans hstrat, ?_⟩
      rw [hb, List.length_append, List.length_singleton, ← Nat.add_assoc]
      exact hadd.trans (hbegin.add_right 1)

theorem ReorderQueueRun.Kept.setDropStrategy (h : s.Kept width seqNumStart)
    {strategy : ReorderQueueDropStrategy}
    (hs : reorderQueueStep width s (.setDropStrategy strategy) = some s') :
    s'.Kept width seqNumStart := by
  simp only [reorderQueueStep, h.fault, Option.some.injEq] at hs
  subst hs
  refine ⟨⟨rfl, h.count_le, h.places, h.lt, h.gt, fun hend => ?_⟩, ⟨h.wf.ops, h.wf.count_le,
    h.wf.sizeExp_le⟩, h.dropCb, h.bits32, h.last, fun hend => ?_⟩
  · rw [Bool.and_eq_true] at hend
    exact h.consecutive hend.1
  · rw [Bool.and_eq_true, decide_eq_true_eq] at hend
    exact ⟨hend.2, (h.atEnd hend.1).2⟩

/-- **Nothing is lost, and elements leave in order**, in every run of a queue of either width with
any drop strategies. -/
theorem reorderQueue_conserved [Inhabited α] {sizeExp : Nat} (hexp : sizeExp + 2 ≤ width.bits)
    (hstart : seqNumStart < 2 ^ width.bits)
    (hr : ((reorderQueueLts width sizeExp seqNumStart).restrict fun s l =>
      ProperCall width s.queue l ∧ NoCarry width s.queue l).Reachable s) :
    s.Conserved width seqNumStart := by
  suffices hinv : ((reorderQueueLts width sizeExp seqNumStart).restrict fun s l =>
      ProperCall width s.queue l ∧ NoCarry width s.queue l).Invariant
        fun s : ReorderQueueRun α => s.Kept width seqNumStart from (hinv.reachable hr).toConserved
  refine ⟨?_, ?_⟩
  · rintro s rfl
    exact kept_start hexp hstart
  · rintro s l s' h ⟨⟨hproper, hcarry⟩, hs⟩
    cases l with
    | push seqNum user => exact h.push hproper hcarry hs
    | pull => exact h.pull hcarry hs
    | setDropStrategy strategy => exact h.setDropStrategy hs

/-- Elements arrive out of order shortly before the numbers wrap around. -/
def pushesBeforeWrap : List (ReorderQueueLabel Nat) :=
  [.push 65534 1, .push 65533 0, .pull, .pull, .push 65535 2, .pull]

theorem pushesBeforeWrap_run :
    (Lts.runFun (Lts.guarded (reorderQueueStep .bits16) fun s l =>
        ProperCall .bits16 s.queue l ∧ NoCarry .bits16 s.queue l)
      (reorderQueueStart .bits16 2 65533) pushesBeforeWrap).map
        (fun s => s.pulled.map PulledElement.pair)
      = some [(65533, 0), (65534, 1), (65535, 2)] := by
  decide +kernel

theorem reorderQueue_conserved_pushesBeforeWrap :
    ∃ s : ReorderQueueRun Nat, s.pulled.map PulledElement.pair = [(65533, 0), (65534, 1), (65535, 2)] ∧
      s.Conserved .bits16 65533 := by
  obtain ⟨s, hrun, hobs⟩ := Option.map_eq_some_iff.mp pushesBeforeWrap_run
  have hexp : 2 + 2 ≤ SeqNumWidth.bits16.bits := by decide
  exact ⟨s, hobs, reorderQueue_conserved hexp (by decide) (Lts.Reachable.runGuarded (.init rfl) hrun)⟩

/-- The window moves twice before an element is pulled again. -/
def pushesFarAhead : List (ReorderQueueLabel Nat) :=
  [.push 0 0, .pull, .setDropStrategy .begin, .push 0x60000000 1, .push 0xc0000000 2, .pull]

theorem pushesFarAhead_run :
    (Lts.runFun (Lts.guarded (reorderQueueStep .bits32) fun s l => ProperCall .bits32 s.queue l)
      (reorderQueueStart .bits32 2 0) pushesFarAhead).map
        (fun s => (s.fault, s.pulled.map PulledElement.seqNum))
      = some (none, [0, 0xc0000000]) := by
  decide +kernel

/-- **An element may be pulled whose number is serially less than the one before.** -/
theorem not_reorderQueue_pulled_gt :
    ∃ s : ReorderQueueRun Nat,
      ((reorderQueueLts .bits32 2 0).restrict fun s l => ProperCall .bits32 s.queue l).Reachable s ∧
      s.fault = none ∧
      ¬ (s.pulled.map PulledElement.seqNum).IsChain fun n n' => seqNum32Gt n' n = true := by
  obtain ⟨s, hrun, hobs⟩ := Option.map_eq_some_iff.mp pushesFarAhead_run
  simp only [Prod.mk.injEq] at hobs
  refine ⟨s, Lts.Reachable.runGuarded (.init rfl) hrun, hobs.1, ?_⟩
  rw [hobs.2]
  decide

end Chiaki
