import Chiaki.Infra.Brackets
import Chiaki.Setsu

/-!
# What a slot tells of a report

A slot keeps one touch that was lifted and one that is new. This is enough if a touch is not both new and
lifted in one report: what an empty slot was given and lost before the report is sent as an up without a down,
and the flag of a down stays when there is no touch any more.

`SlotOk` says in terms of the events which reports about it a slot can tell; `slotOk_iff` that it has kept then
what is true.
-/

namespace Chiaki

open Infra

/-! ## What is sent -/

/-- The touches that a slot holds. -/
def slotTouch (id : TrackingId) : Multiset TrackingId := if id = noTrackingId then 0 else {id}

def Touchpad.held (dev : Touchpad) : Multiset TrackingId :=
  ((List.finRange slotsCount).map fun i => slotTouch (dev.slot i).trackingId).sum

/-- The id that an event carries. -/
def SetsuEvent.trackingId? : SetsuEvent → Option TrackingId
  | touchDown id => some id
  | touchUp id => some id
  | touchPosition id _ _ => some id
  | buttonDown _ => none
  | buttonUp _ => none

/-- A touch is open from its down to its up. -/
def SetsuEvent.bracket : SetsuEvent → Option (Bracket TrackingId)
  | touchDown id => some (.opening id)
  | touchUp id => some (.closing id)
  | touchPosition _ _ _ => none
  | buttonDown _ => none
  | buttonUp _ => none

/-- The touches that are open after the events, if no touch is lifted that is not. -/
def openTouches (es : List SetsuEvent) : Option (Multiset TrackingId) :=
  Bracket.replay 0 (es.filterMap SetsuEvent.bracket)

/-- No event is without a touch. -/
def TouchEventsValid (es : List SetsuEvent) : Prop := ∀ e ∈ es, e.trackingId? ≠ some noTrackingId

/-- What was sent is what the slots of `dev` hold. -/
structure TouchEventsRight (dev : Touchpad) (sent : List SetsuEvent) : Prop where
  valid : TouchEventsValid sent
  held : openTouches sent = some dev.held

/-! ## What a report says about a slot -/

inductive Axis
  | x
  | y
  deriving DecidableEq

inductive SlotEvent
  | trackingId (id : TrackingId)
  | position (axis : Axis) (value : BitVec 32)
  deriving DecidableEq

def SlotEvent.trackingId? : SlotEvent → Option TrackingId
  | trackingId id => some id
  | position _ _ => none

def SlotEvent.isPosition : SlotEvent → Bool
  | trackingId _ => false
  | position _ _ => true

/-- What an event says about the current slot. -/
def InputEvent.slotEvent? (ev : InputEvent) : Option SlotEvent :=
  match ev.code with
  | .absMtTrackingId => some (.trackingId ev.value)
  | .absMtPositionX => some (.position .x ev.value)
  | .absMtPositionY => some (.position .y ev.value)
  | _ => none

/-- The current slot after an event. -/
def InputEvent.slotAfter (cur : Fin slotsCount) (ev : InputEvent) : Fin slotsCount :=
  if h : ev.code = .absMtSlot ∧ ev.value.toNat < slotsCount then ⟨ev.value.toNat, h.2⟩ else cur

/-- What the events say about slot `i`. -/
def slotEvents (i : Fin slotsCount) : Fin slotsCount → List InputEvent → List SlotEvent
  | _, [] => []
  | cur, ev :: evs =>
    (if cur = i then ev.slotEvent?.toList else []) ++ slotEvents i (ev.slotAfter cur) evs

/-- The ids that a slot is given, `-1` among them. -/
def slotIds (es : List SlotEvent) : List TrackingId := es.filterMap SlotEvent.trackingId?

/-- An empty slot is given a touch at most once and keeps it, and has a position only with a touch. -/
def EmptySlotOk (es : List SlotEvent) : Prop :=
  (∀ id ∈ (slotIds es).dropLast, id = noTrackingId) ∧
    ((slotIds es).getLastD noTrackingId = noTrackingId → ∀ e ∈ es, e.isPosition = false)

/-- A slot that loses its touch is given no other one, and has no position afterwards. -/
def HeldSlotOk (id : TrackingId) (es : List SlotEvent) : Prop :=
  (slotIds es).getLastD id = noTrackingId →
    (∀ id ∈ slotIds es, id = noTrackingId) ∧ ∀ e ∈ es.dropWhile SlotEvent.isPosition, e.isPosition = false

def SlotOk (id : TrackingId) (es : List SlotEvent) : Prop :=
  if id = noTrackingId then EmptySlotOk es else HeldSlotOk id es

/-- A report that the slots can tell. -/
def ReportOk (dev : Touchpad) (report : List InputEvent) : Prop :=
  ∀ i : Fin slotsCount, SlotOk (dev.slot i).trackingId (slotEvents i dev.slotCur report)

/-! ## One slot -/

/-- The cases on `S` in `device_event`. -/
def SetsuSlot.event (s : SetsuSlot) : SlotEvent → SetsuSlot
  | .trackingId id => s.setTrackingId id
  | .position .x value => s.setX value
  | .position .y value => s.setY value

/-- There is nothing to send. -/
structure SetsuSlot.Clean (s : SetsuSlot) : Prop where
  prev : s.trackingIdPrev = noTrackingId
  downed : s.downed = false
  posDirty : s.posDirty = false

/-- What a slot that held `id` at the last report has kept since. -/
inductive SetsuSlot.Since (id : TrackingId) (s : SetsuSlot) : Prop
  | kept (hprev : s.trackingIdPrev = noTrackingId) (hid : s.trackingId = id) (hdowned : s.downed = false)
  | lifted (hid : id ≠ noTrackingId) (hprev : s.trackingIdPrev = id)
      (hdowned : s.trackingId ≠ noTrackingId → s.downed = true)
  | given (hid : id = noTrackingId) (hprev : s.trackingIdPrev = noTrackingId)
      (hcur : s.trackingId ≠ noTrackingId) (hdowned : s.downed = true)
  | lost (hid : id = noTrackingId) (hprev : s.trackingIdPrev ≠ noTrackingId) (hdowned : s.downed = true)

/-- A slot that sends what is true. -/
structure SetsuSlot.Tells (id : TrackingId) (s : SetsuSlot) : Prop where
  down : s.downed = true → s.trackingId ≠ noTrackingId
  position : s.posDirty = true → s.trackingId ≠ noTrackingId
  up : id = noTrackingId → s.trackingIdPrev = noTrackingId

section Slot

variable {id : TrackingId} {s : SetsuSlot} {es : List SlotEvent} {minX minY : BitVec 32}

theorem slotTouch_none : slotTouch noTrackingId = 0 := if_pos rfl

theorem slotTouch_of_ne (hid : id ≠ noTrackingId) : slotTouch id = {id} := if_neg hid

namespace SetsuSlot

theorem setTrackingId_trackingId (s : SetsuSlot) (v : TrackingId) : (s.setTrackingId v).trackingId = v := by
  unfold setTrackingId
  by_cases hv : v = noTrackingId <;> simp [hv]

theorem setTrackingId_downed (s : SetsuSlot) (v : TrackingId) :
    (s.setTrackingId v).downed = (s.downed || decide (v ≠ noTrackingId)) := by
  unfold setTrackingId
  by_cases hv : v = noTrackingId <;> split <;> simp [hv]

theorem setTrackingId_prev (s : SetsuSlot) (v : TrackingId) : (s.setTrackingId v).trackingIdPrev =
    if s.trackingId ≠ noTrackingId ∧ s.trackingIdPrev = noTrackingId then s.trackingId else s.trackingIdPrev := by
  unfold setTrackingId
  by_cases hv : v = noTrackingId <;> split <;> simp [hv]

theorem setTrackingId_posDirty (s : SetsuSlot) (v : TrackingId) : (s.setTrackingId v).posDirty =
    if s.trackingId ≠ noTrackingId ∧ s.trackingIdPrev = noTrackingId then false else s.posDirty := by
  unfold setTrackingId
  by_cases hv : v = noTrackingId <;> split <;> simp [hv]

theorem event_trackingId (s : SetsuSlot) (v : TrackingId) : s.event (.trackingId v) = s.setTrackingId v := rfl

/-- A position sets only its flag. -/
theorem event_position (s : SetsuSlot) (axis : Axis) (v : BitVec 32) :
    (s.event (.position axis v)).trackingIdPrev = s.trackingIdPrev ∧
      (s.event (.position axis v)).trackingId = s.trackingId ∧
      (s.event (.position axis v)).downed = s.downed ∧ (s.event (.position axis v)).posDirty = true := by
  cases axis <;> exact ⟨rfl, rfl, rfl, rfl⟩

/-- What a slot has kept is one of the four, whatever comes. -/
theorem Since.event (h : s.Since id) (e : SlotEvent) : (s.event e).Since id := by
  cases e with
  | position axis v =>
    obtain ⟨hprev', hid', hdowned', -⟩ := event_position s axis v
    cases h with
    | kept hprev hid hdowned => exact .kept (hprev'.trans hprev) (hid'.trans hid) (hdowned'.trans hdowned)
    | lifted hid hprev hdowned =>
      rw [← hid', ← hdowned'] at hdowned
      exact .lifted hid (hprev'.trans hprev) hdowned
    | given hid hprev hcur hdowned =>
      exact .given hid (hprev'.trans hprev) (hid' ▸ hcur) (hdowned'.trans hdowned)
    | lost hid hprev hdowned => exact .lost hid (hprev' ▸ hprev) (hdowned'.trans hdowned)
  | trackingId v =>
    have hid' := setTrackingId_trackingId s v
    have hdowned' := setTrackingId_downed s v
    have hprev' := setTrackingId_prev s v
    rw [event_trackingId]
    cases h with
    | kept hprev hid hdowned =>
      rw [hdowned, Bool.false_or] at hdowned'
      by_cases hempty : id = noTrackingId
      · rw [hid, if_neg (fun h => h.1 hempty), hprev] at hprev'
        by_cases hv : v = noTrackingId
        · exact .kept hprev' (by rw [hid', hv, hempty]) (by rw [hdowned', hv]; rfl)
        · exact .given hempty hprev' (fun h => hv (hid'.symm.trans h)) (hdowned'.trans (decide_eq_true hv))
      · rw [hid, if_pos ⟨hempty, hprev⟩] at hprev'
        refine .lifted hempty hprev' fun hv => ?_
        rw [hid'] at hv
        exact hdowned'.trans (decide_eq_true hv)
    | lifted hid hprev hdowned =>
      rw [if_neg (fun h => hid (hprev ▸ h.2)), hprev] at hprev'
      refine .lifted hid hprev' fun hv => ?_
      rw [hid'] at hv
      rw [hdowned', decide_eq_true hv, Bool.or_true]
    | given hid hprev hcur hdowned =>
      rw [if_pos ⟨hcur, hprev⟩] at hprev'
      exact .lost hid (hprev' ▸ hcur) (by rw [hdowned', hdowned, Bool.true_or])
    | lost hid hprev hdowned =>
      rw [if_neg (fun h => hprev h.2)] at hprev'
      exact .lost hid (hprev' ▸ hprev) (by rw [hdowned', hdowned, Bool.true_or])

theorem Clean.since (h : s.Clean) : s.Since s.trackingId := .kept h.prev rfl h.downed

theorem Since.events (h : s.Since id) (es : List SlotEvent) : (es.foldl SetsuSlot.event s).Since id := by
  induction es generalizing s with
  | nil => exact h
  | cons e es ih => exact ih (h.event e)

/-! ### What it sends -/

theorem filterMap_drain (minX minY : BitVec 32) (s : SetsuSlot) : (s.drain minX minY).filterMap SetsuEvent.bracket =
    (if s.trackingIdPrev ≠ noTrackingId then [.closing s.trackingIdPrev] else [])
      ++ (if s.downed then [.opening s.trackingId] else []) := by
  unfold drain SetsuSlot.touchUp SetsuSlot.touchDown SetsuSlot.touchPosition
  by_cases hprev : s.trackingIdPrev = noTrackingId <;> cases s.downed <;> cases s.posDirty <;>
    simp [hprev, SetsuEvent.bracket]

theorem touchEventsValid_drain : TouchEventsValid (s.drain minX minY) ↔
    (s.downed = true → s.trackingId ≠ noTrackingId) ∧ (s.posDirty = true → s.trackingId ≠ noTrackingId) := by
  unfold TouchEventsValid drain SetsuSlot.touchUp SetsuSlot.touchDown SetsuSlot.touchPosition
  by_cases hprev : s.trackingIdPrev = noTrackingId <;> cases s.downed <;> cases s.posDirty <;>
    simp [hprev, SetsuEvent.trackingId?]

/-- A slot that tells the truth closes the touch that it held and opens the one that it holds. -/
theorem Since.replay_drain (h : s.Since id) (htells : s.Tells id) :
    Bracket.replay (slotTouch id) ((s.drain minX minY).filterMap SetsuEvent.bracket)
      = some (slotTouch s.trackingId) := by
  rw [filterMap_drain]
  cases h with
  | kept hprev hid hdowned => rw [hprev, hdowned, hid, if_neg (fun h => h rfl)]; rfl
  | lifted hid hprev hdowned =>
    rw [hprev, if_pos hid, slotTouch_of_ne hid, List.singleton_append, Bracket.replay,
      if_pos (Multiset.mem_singleton_self id), Multiset.erase_singleton]
    by_cases hcur : s.trackingId = noTrackingId
    · have hdowned' : s.downed = false := by
        rw [← Bool.not_eq_true]
        exact fun h => htells.down h hcur
      rw [hdowned', hcur, slotTouch_none]
      rfl
    · rw [hdowned hcur, slotTouch_of_ne hcur]
      rfl
  | given hid hprev hcur hdowned =>
    rw [hid, hprev, hdowned, slotTouch_none, slotTouch_of_ne hcur, if_neg (fun h => h rfl)]
    rfl
  | lost hid hprev hdowned => exact absurd (htells.up hid) hprev

/-- A slot that does not tell the truth sends an up too many. -/
theorem Since.card_drain (h : s.Since id) (hvalid : TouchEventsValid (s.drain minX minY)) :
    (s.Tells id ∧ (slotTouch id).card + Bracket.opens ((s.drain minX minY).filterMap SetsuEvent.bracket)
        = (slotTouch s.trackingId).card + Bracket.closes ((s.drain minX minY).filterMap SetsuEvent.bracket)) ∨
      (slotTouch id).card + Bracket.opens ((s.drain minX minY).filterMap SetsuEvent.bracket)
        < (slotTouch s.trackingId).card + Bracket.closes ((s.drain minX minY).filterMap SetsuEvent.bracket) := by
  obtain ⟨hdown, hposition⟩ := touchEventsValid_drain.mp hvalid
  by_cases hup : id = noTrackingId → s.trackingIdPrev = noTrackingId
  · have htells : s.Tells id := ⟨hdown, hposition, hup⟩
    exact Or.inl ⟨htells, Bracket.card_replay (h.replay_drain htells)⟩
  · obtain ⟨hid, hprev⟩ := Classical.not_imp.mp hup
    right
    rw [filterMap_drain, if_pos hprev]
    cases h with
    | kept hprev' _ _ => exact absurd hprev' hprev
    | lifted hid' _ _ => exact absurd hid hid'
    | given _ hprev' _ _ => exact absurd hprev' hprev
    | lost _ _ hdowned =>
      rw [hid, hdowned, slotTouch_none, slotTouch_of_ne (hdown hdowned)]
      exact Nat.one_lt_two

/-! ### What a report may say -/

theorem foldl_event_prev (hprev : s.trackingIdPrev ≠ noTrackingId) (es : List SlotEvent) :
    (es.foldl event s).trackingIdPrev = s.trackingIdPrev := by
  induction es generalizing s with
  | nil => rfl
  | cons e es ih =>
    have hstep : (s.event e).trackingIdPrev = s.trackingIdPrev := by
      cases e with
      | trackingId v => rw [event_trackingId, setTrackingId_prev, if_neg (fun h => hprev h.2)]
      | position axis v => exact (event_position s axis v).1
    rw [List.foldl_cons, ih (hstep ▸ hprev), hstep]

@[simp] theorem slotIds_trackingId (v : TrackingId) (es : List SlotEvent) :
    slotIds (.trackingId v :: es) = v :: slotIds es := rfl

@[simp] theorem slotIds_position (axis : Axis) (v : BitVec 32) (es : List SlotEvent) :
    slotIds (.position axis v :: es) = slotIds es := rfl

/-- A slot that has lifted its touch has another one in the end, or it was given none and is nowhere. -/
theorem tells_of_lifted (hid : id ≠ noTrackingId) (hprev : s.trackingIdPrev ≠ noTrackingId) (es : List SlotEvent) :
    (es.foldl event s).Tells id ↔ ((slotIds es).getLastD s.trackingId = noTrackingId →
      s.downed = false ∧ s.posDirty = false ∧ (∀ v ∈ slotIds es, v = noTrackingId) ∧
        ∀ e ∈ es, e.isPosition = false) := by
  induction es generalizing s with
  | nil =>
    constructor
    · intro htells hcur
      refine ⟨?_, ?_, ?_, ?_⟩
      · rw [← Bool.not_eq_true]
        exact fun h => htells.down h hcur
      · rw [← Bool.not_eq_true]
        exact fun h => htells.position h hcur
      · exact fun v hv => absurd hv List.not_mem_nil
      · exact fun e he => absurd he List.not_mem_nil
    · intro h
      refine ⟨fun hdowned hcur => ?_, fun hpos hcur => ?_, fun h => absurd h hid⟩
      · exact Bool.noConfusion ((h hcur).1.symm.trans hdowned)
      · exact Bool.noConfusion ((h hcur).2.1.symm.trans hpos)
  | cons e es ih =>
    have hprev' : (s.event e).trackingIdPrev ≠ noTrackingId := foldl_event_prev hprev [e] ▸ hprev
    rw [List.foldl_cons, ih hprev']
    cases e with
    | position axis v =>
      obtain ⟨-, hcur', hdowned', hpos'⟩ := event_position s axis v
      rw [hcur', hdowned', hpos', slotIds_position, List.forall_mem_cons]
      refine imp_congr_right fun _ => ⟨fun h => ?_, fun h => ?_⟩
      · exact Bool.noConfusion h.2.1
      · exact Bool.noConfusion h.2.2.2.1
    | trackingId v =>
      rw [event_trackingId, setTrackingId_trackingId, setTrackingId_downed, setTrackingId_posDirty,
        if_neg (fun h => hprev h.2), slotIds_trackingId, List.getLastD_cons, List.forall_mem_cons,
        List.forall_mem_cons, Bool.or_eq_false_iff, decide_eq_false_iff_not, not_not]
      refine imp_congr_right fun _ => ⟨?_, ?_⟩
      · rintro ⟨⟨hdowned, hv⟩, hpos, hids, hes⟩
        exact ⟨hdowned, hpos, ⟨hv, hids⟩, rfl, hes⟩
      · rintro ⟨hdowned, hpos, ⟨hv, hids⟩, -, hes⟩
        exact ⟨⟨hdowned, hv⟩, hpos, hids, hes⟩

/-- A touch that is new in a report must stay. -/
theorem tells_of_given (hprev : s.trackingIdPrev = noTrackingId) (hcur : s.trackingId ≠ noTrackingId)
    (es : List SlotEvent) : (es.foldl event s).Tells noTrackingId ↔ slotIds es = [] := by
  induction es generalizing s with
  | nil => exact ⟨fun _ => rfl, fun _ => ⟨fun _ => hcur, fun _ => hcur, fun _ => hprev⟩⟩
  | cons e es ih =>
    cases e with
    | position axis v =>
      obtain ⟨hprev', hcur', -, -⟩ := event_position s axis v
      exact ih (hprev'.trans hprev) (hcur' ▸ hcur)
    | trackingId v =>
      have hlost : (s.setTrackingId v).trackingIdPrev = s.trackingId := by
        rw [setTrackingId_prev, if_pos ⟨hcur, hprev⟩]
      have hprev' := foldl_event_prev (hlost ▸ hcur) es
      constructor
      · intro htells
        exact absurd ((hprev'.trans hlost).symm.trans (htells.up rfl)) hcur
      · intro h
        exact absurd h (List.cons_ne_nil _ _)

/-- The first of the ids in front of the last one, if it is not that one. -/
theorem forall_mem_dropLast_cons {p : TrackingId → Prop} (v : TrackingId) (ids : List TrackingId) :
    (∀ w ∈ (v :: ids).dropLast, p w) ↔ ids = [] ∨ p v ∧ ∀ w ∈ ids.dropLast, p w := by
  cases ids with
  | nil => exact ⟨fun _ => Or.inl rfl, fun _ w hw => absurd hw List.not_mem_nil⟩
  | cons w ids =>
    rw [List.dropLast_cons_cons, List.forall_mem_cons]
    exact ⟨Or.inr, fun h => h.resolve_left (List.cons_ne_nil _ _)⟩

theorem tells_of_empty (hprev : s.trackingIdPrev = noTrackingId) (hcur : s.trackingId = noTrackingId)
    (hdowned : s.downed = false) (es : List SlotEvent) : (es.foldl event s).Tells noTrackingId ↔
      (∀ v ∈ (slotIds es).dropLast, v = noTrackingId) ∧ ((slotIds es).getLastD noTrackingId = noTrackingId →
        s.posDirty = false ∧ ∀ e ∈ es, e.isPosition = false) := by
  induction es generalizing s with
  | nil =>
    constructor
    · intro htells
      refine ⟨fun v hv => absurd hv List.not_mem_nil, fun _ => ⟨?_, fun e he => absurd he List.not_mem_nil⟩⟩
      rw [← Bool.not_eq_true]
      exact fun h => htells.position h hcur
    · rintro ⟨-, hpos⟩
      refine ⟨fun h => Bool.noConfusion (hdowned.symm.trans h), fun h => ?_, fun _ => hprev⟩
      exact Bool.noConfusion ((hpos rfl).1.symm.trans h)
  | cons e es ih =>
    cases e with
    | position axis v =>
      obtain ⟨hprev', hcur', hdowned', hpos'⟩ := event_position s axis v
      rw [List.foldl_cons, ih (hprev'.trans hprev) (hcur'.trans hcur) (hdowned'.trans hdowned), hpos',
        slotIds_position, List.forall_mem_cons]
      refine and_congr_right fun _ => imp_congr_right fun _ => ⟨fun h => ?_, fun h => ?_⟩
      · exact Bool.noConfusion h.1
      · exact Bool.noConfusion h.2.1
    | trackingId v =>
      have hprev' : (s.setTrackingId v).trackingIdPrev = noTrackingId := by
        rw [setTrackingId_prev, if_neg (fun h => h.1 hcur), hprev]
      have hcur' := setTrackingId_trackingId s v
      rw [List.foldl_cons, event_trackingId, slotIds_trackingId, List.getLastD_cons]
      by_cases hv : v = noTrackingId
      · have hdowned' : (s.setTrackingId v).downed = false := by
          rw [setTrackingId_downed, hdowned, hv]
          rfl
        have hpos' : (s.setTrackingId v).posDirty = s.posDirty := by
          rw [setTrackingId_posDirty, if_neg (fun h => h.1 hcur)]
        rw [ih hprev' (hcur'.trans hv) hdowned', hpos', hv, List.forall_mem_cons, forall_mem_dropLast_cons]
        refine and_congr ⟨fun h => Or.inr ⟨rfl, h⟩, ?_⟩ (imp_congr_right fun _ => and_congr_right fun _ => ?_)
        · rintro (hids | ⟨-, h⟩)
          · rw [hids]
            exact fun w hw => absurd hw List.not_mem_nil
          · exact h
        · exact ⟨fun h => ⟨rfl, h⟩, fun h => h.2⟩
      · rw [tells_of_given hprev' (fun h => hv (hcur'.symm.trans h))]
        constructor
        · intro hids
          rw [hids]
          exact ⟨fun w hw => absurd hw List.not_mem_nil, fun h => absurd h hv⟩
        · rintro ⟨hdrop, -⟩
          exact ((forall_mem_dropLast_cons v _).mp hdrop).resolve_right fun h => hv h.1

theorem tells_of_kept (hid : id ≠ noTrackingId) (hprev : s.trackingIdPrev = noTrackingId) (hcur : s.trackingId = id)
    (hdowned : s.downed = false) (es : List SlotEvent) : (es.foldl event s).Tells id ↔ HeldSlotOk id es := by
  induction es generalizing s with
  | nil =>
    refine ⟨fun _ h => absurd h hid, fun _ => ⟨fun _ => hcur ▸ hid, fun _ => hcur ▸ hid, fun h => absurd h hid⟩⟩
  | cons e es ih =>
    cases e with
    | position axis v =>
      obtain ⟨hprev', hcur', hdowned', -⟩ := event_position s axis v
      exact ih (hprev'.trans hprev) (hcur'.trans hcur) (hdowned'.trans hdowned)
    | trackingId v =>
      have hmoved : s.trackingId ≠ noTrackingId ∧ s.trackingIdPrev = noTrackingId := ⟨hcur ▸ hid, hprev⟩
      have hprev' : (s.setTrackingId v).trackingIdPrev ≠ noTrackingId := by
        rw [setTrackingId_prev, if_pos hmoved, hcur]
        exact hid
      rw [List.foldl_cons, event_trackingId, tells_of_lifted hid hprev', setTrackingId_trackingId,
        setTrackingId_downed, setTrackingId_posDirty, if_pos hmoved, hdowned, Bool.false_or, decide_eq_false_iff_not, not_not, HeldSlotOk,
        slotIds_trackingId, List.getLastD_cons, List.forall_mem_cons]
      refine imp_congr_right fun _ => ⟨?_, ?_⟩
      · rintro ⟨hv, -, hids, hes⟩
        exact ⟨⟨hv, hids⟩, List.forall_mem_cons.mpr ⟨rfl, hes⟩⟩
      · rintro ⟨⟨hv, hids⟩, hes⟩
        exact ⟨hv, rfl, hids, (List.forall_mem_cons.mp hes).2⟩

/-- The reports about one slot that it can tell. -/
theorem slotOk_iff (hclean : s.Clean) (es : List SlotEvent) :
    SlotOk s.trackingId es ↔ (es.foldl event s).Tells s.trackingId := by
  unfold SlotOk
  split
  · next hcur =>
    rw [hcur, tells_of_empty hclean.prev hcur hclean.downed, hclean.posDirty]
    unfold EmptySlotOk
    refine and_congr_right fun _ => imp_congr_right fun _ => ⟨fun h => ⟨rfl, h⟩, fun h => h.2⟩
  · next hcur => exact (tells_of_kept hcur hclean.prev rfl hclean.downed es).symm

end SetsuSlot

end Slot

end Chiaki
