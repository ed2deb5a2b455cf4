import Chiaki.Infra.Table
import Chiaki.Properties.Controller
import Chiaki.Properties.Setsu.Report
import Chiaki.Setsu.Session

/-!
# No touch stays behind

* `StreamSessionSetsu.IdsRight` — the map of the session has the ids of the touches that are active, each as often
* `replay_events` — a position is only sent for a touch that is down
* `setsuSession_right` — whatever devices come and go, an active touch is one that a connected touchpad holds
-/

namespace Chiaki

open Infra

/-! ## The touches of a controller -/

section Touches

variable {s : ControllerTouches} {i : Nat} {t : ControllerTouch}

/-- The id of a touch that is active. -/
def ControllerTouch.active (t : ControllerTouch) : Multiset Int := if t.id < 0 then 0 else {t.id}

/-- The ids of the touches that are active. -/
def ControllerTouches.active (s : ControllerTouches) : Multiset Int := (s.touches.map ControllerTouch.active).sum

theorem active_idle : controllerTouchesIdle.active = 0 := rfl

/-- One slot is set, and the others stay as they are. -/
theorem active_set (h : s.touches[i]? = some t) (u : ControllerTouch) :
    (s.set i u).active + t.active = s.active + u.active := by
  obtain ⟨hlt, hget⟩ := List.getElem?_eq_some_iff.mp h
  have hsplit : s.touches = s.touches.take i ++ t :: s.touches.drop (i + 1) := by
    rw [← hget, List.getElem_cons_drop, List.take_append_drop]
  have hset : (s.set i u).touches = s.touches.take i ++ u :: s.touches.drop (i + 1) := by
    show s.touches.set i u = _
    rw [List.set_eq_take_append_cons_drop, if_pos hlt]
  rw [ControllerTouches.active, ControllerTouches.active, hset]
  conv_rhs => rw [hsplit]
  simp only [List.map_append, List.map_cons, List.sum_append, List.sum_cons]
  ac_rfl

theorem mem_active {id : Int} : id ∈ s.active ↔ 0 ≤ id ∧ ∃ t ∈ s.touches, t.id = id := by
  rw [ControllerTouches.active, Bracket.mem_sum_map]
  constructor
  · rintro ⟨t, ht, hid⟩
    rw [ControllerTouch.active] at hid
    split at hid
    · exact absurd hid (Multiset.notMem_zero id)
    · next hpos =>
      cases Multiset.mem_singleton.mp hid
      exact ⟨Int.not_lt.mp hpos, t, ht, rfl⟩
  · rintro ⟨hpos, t, ht, rfl⟩
    refine ⟨t, ht, ?_⟩
    rw [ControllerTouch.active, if_neg (Int.not_lt.mpr hpos)]
    exact Multiset.mem_singleton_self _

/-- One touch with this id ends, if there is one. -/
theorem active_stopTouch (s : ControllerTouches) (id : Nat) :
    (controllerStateStopTouch s id).active = s.active.erase id := by
  unfold controllerStateStopTouch
  split
  · next hfind =>
    rw [Multiset.erase_of_notMem]
    intro hmem
    obtain ⟨-, t, ht, hid⟩ := mem_active.mp hmem
    exact absurd hid (of_decide_eq_false (find?_eq_none hfind t ht))
  · next i t hfind =>
    obtain ⟨hget, hid⟩ := find?_eq_some hfind
    have hset := active_set hget { t with id := -1 }
    have ht : t.active = {(id : Int)} := by
      have hid := of_decide_eq_true hid
      rw [ControllerTouch.active, if_neg (by omega), hid]
    have hgone : ({ t with id := -1 } : ControllerTouch).active = 0 := rfl
    rw [ht, hgone, add_zero] at hset
    rw [← hset, add_comm, Multiset.singleton_add, Multiset.erase_cons_head]

theorem active_setTouchPos (s : ControllerTouches) (id x y : Nat) :
    (controllerStateSetTouchPos s id x y).active = s.active := by
  unfold controllerStateSetTouchPos
  split
  · rfl
  · next i t hfind => exact add_right_cancel (active_set (find?_eq_some hfind).1 { t with x := x, y := y })

/-- A touch has started, or all slots are taken. -/
theorem active_startTouch (hnext : s.touchIdNext < 2 ^ 7) (x y : Nat) :
    controllerStateStartTouch s x y = (s, -1) ∨
      (controllerStateStartTouch s x y).2 = s.touchIdNext ∧
        (controllerStateStartTouch s x y).1.touchIdNext < 2 ^ 7 ∧
        (controllerStateStartTouch s x y).1.active = (s.touchIdNext : Int) ::ₘ s.active := by
  cases hfind : s.find? fun touch => decide (touch.id < 0) with
  | none =>
    left
    rw [controllerStateStartTouch, hfind]
  | some found =>
    obtain ⟨i, t⟩ := found
    obtain ⟨hget, hfree⟩ := find?_eq_some hfind
    right
    rw [controllerStateStartTouch_some hnext x y hfind]
    refine ⟨rfl, Nat.mod_lt _ (Nat.two_pow_pos 7), ?_⟩
    have hset := active_set hget ⟨x, y, s.touchIdNext⟩
    have ht : t.active = 0 := if_pos (of_decide_eq_true hfree)
    have hnew : (⟨x, y, s.touchIdNext⟩ : ControllerTouch).active = {(s.touchIdNext : Int)} :=
      if_neg (Int.not_lt.mpr (Int.natCast_nonneg _))
    rw [ht, hnew, add_zero, add_comm, Multiset.singleton_add] at hset
    exact hset

theorem touchIdNext_stopTouch (s : ControllerTouches) (id : Nat) :
    (controllerStateStopTouch s id).touchIdNext = s.touchIdNext := by
  unfold controllerStateStopTouch
  split <;> rfl

theorem touchIdNext_setTouchPos (s : ControllerTouches) (id x y : Nat) :
    (controllerStateSetTouchPos s id x y).touchIdNext = s.touchIdNext := by
  unfold controllerStateSetTouchPos
  split <;> rfl

end Touches

/-! ## The map of the session -/

section Session

variable {Path : Type} {ids ids' : List (SetsuId Path)} {e : SetsuId Path} {touches : ControllerTouches}
  {s : StreamSessionSetsu Path} {path : Path} {key : Path × TrackingId}

/-- The ids of these entries. -/
def touchIds (ids : List (SetsuId Path)) : Multiset Int := (ids.map fun e => (e.id : Int) : List Int)

theorem touchIds_cons (e : SetsuId Path) (ids : List (SetsuId Path)) :
    touchIds (e :: ids) = (e.id : Int) ::ₘ touchIds ids := by
  rw [touchIds, List.map_cons, ← Multiset.cons_coe]
  rfl

theorem touchIds_perm (h : ids.Perm ids') : touchIds ids = touchIds ids' := Multiset.coe_eq_coe.mpr (h.map _)

/-- The map has the ids of the touches that are active, and they were sent. -/
structure StreamSessionSetsu.IdsRight (s : StreamSessionSetsu Path) : Prop where
  keys : Table.Distinct SetsuId.key s.setsuIds
  active : touchIds s.setsuIds = s.touches.active
  next : s.touches.touchIdNext < 2 ^ 7
  sent : s.sent = s.touches.touches

theorem idsRight_init : (streamSessionSetsuInit : StreamSessionSetsu Path).IdsRight where
  keys := Table.distinct_nil
  active := active_idle.symm
  next := Nat.two_pow_pos 7
  sent := rfl

/-- The touches of some entries are stopped, and the others stay in the map. -/
theorem StreamSessionSetsu.IdsRight.stop {gone kept : List (SetsuId Path)} (h : s.IdsRight)
    (hperm : s.setsuIds.Perm (gone ++ kept)) (hkept : kept.Sublist s.setsuIds) :
    StreamSessionSetsu.IdsRight
      { s with touches := stopTouches gone s.touches, setsuIds := kept }.sendFeedbackState := by
  have hstop (gone : List (SetsuId Path)) (touches : ControllerTouches)
      (hactive : touchIds (gone ++ kept) = touches.active) :
      touchIds kept = (stopTouches gone touches).active ∧
        (stopTouches gone touches).touchIdNext = touches.touchIdNext := by
    induction gone generalizing touches with
    | nil => exact ⟨hactive, rfl⟩
    | cons e gone ih =>
      rw [List.cons_append, touchIds_cons] at hactive
      have hone := active_stopTouch touches e.id
      rw [← hactive, Multiset.erase_cons_head] at hone
      obtain ⟨hrest, hnext⟩ := ih (controllerStateStopTouch touches e.id) hone.symm
      exact ⟨hrest, hnext.trans (touchIdNext_stopTouch touches e.id)⟩
  obtain ⟨hactive, hnext⟩ := hstop gone s.touches ((touchIds_perm hperm).symm.trans h.active)
  refine ⟨h.keys.sublist (hkept.map _), hactive, ?_, rfl⟩
  show (stopTouches gone s.touches).touchIdNext < 2 ^ 7
  rw [hnext]
  exact h.next

variable {lt : Path × TrackingId → Path × TrackingId → Bool}

theorem insertSetsuId_perm (e : SetsuId Path) (ids : List (SetsuId Path)) :
    (insertSetsuId lt e ids).Perm (e :: ids) := by
  induction ids with
  | nil => exact .refl _
  | cons e' ids ih =>
    rw [insertSetsuId]
    split
    · exact (ih.cons e').trans (.swap e e' ids)
    · exact .refl _

theorem mem_insertSetsuId {e' : SetsuId Path} : e' ∈ insertSetsuId lt e ids ↔ e' = e ∨ e' ∈ ids :=
  (insertSetsuId_perm e ids).mem_iff.trans List.mem_cons

/-- What a session does for one path: the entries for it are touches in `told`, and the others were there before. -/
structure HandledFor (path : Path) (told : Multiset TrackingId) (s s' : StreamSessionSetsu Path) : Prop where
  ids : s'.IdsRight
  told : ∀ e ∈ s'.setsuIds, e.key.1 = path → e.key.2 ∈ told
  others : ∀ e ∈ s'.setsuIds, e.key.1 ≠ path → e ∈ s.setsuIds
  motion : s'.setsuMotionDevice = s.setsuMotionDevice

variable [DecidableEq Path]

/-- The one entry with a key. -/
theorem find?_setsuIds (h : s.IdsRight) (hfind : s.find? key = some e) :
    e.key = key ∧ s.setsuIds.Perm (e :: s.setsuIds.eraseP fun e => e.key = key) ∧
      ∀ e' ∈ s.setsuIds.eraseP (fun e => e.key = key), e' ∈ s.setsuIds ∧ e'.key ≠ key := by
  obtain ⟨hkey, front, back, hids, hfront⟩ := List.find?_eq_some_iff_append.mp hfind
  have hkey := of_decide_eq_true hkey
  have herase : s.setsuIds.eraseP (fun e => e.key = key) = front ++ back := by
    rw [hids, List.eraseP_append_right _ fun e' he' => by
      have hne := hfront e' he'
      rw [Bool.not_eq_true'] at hne
      exact ne_true_of_eq_false hne]
    exact congrArg (front ++ ·) (List.eraseP_cons_of_pos (decide_eq_true hkey))
  have hkeys := h.keys
  rw [hids, Table.Distinct, List.map_append, List.map_cons, List.nodup_middle, List.nodup_cons,
    ← List.map_append] at hkeys
  rw [herase, hids]
  refine ⟨hkey, List.perm_middle, fun e' he' => ⟨?_, fun hsame => ?_⟩⟩
  · rcases List.mem_append.mp he' with he' | he'
    · exact List.mem_append_left _ he'
    · exact List.mem_append_right _ (List.mem_cons_of_mem _ he')
  · exact hkeys.1 (List.mem_map.mpr ⟨e', he', hsame.trans hkey.symm⟩)

theorem handleTouchUp_handled (h : s.IdsRight) {told : Multiset TrackingId} {id : TrackingId}
    (htold : ∀ e ∈ s.setsuIds, e.key.1 = path → e.key.2 ∈ told) :
    HandledFor path (told.erase id) s (handleTouchUp s (path, id)) := by
  unfold handleTouchUp
  split
  · next hfind =>
    refine ⟨⟨h.keys, h.active, h.next, rfl⟩, fun e he hpath => ?_, fun e he _ => he, rfl⟩
    have hne : e.key.2 ≠ id := fun hid =>
      of_decide_eq_false (Bool.eq_false_of_not_eq_true (List.find?_eq_none.mp hfind e he)) (Prod.ext hpath hid)
    exact (Multiset.mem_erase_of_ne hne).mpr (htold e he hpath)
  · next e hfind =>
    obtain ⟨-, hperm, hrest⟩ := find?_setsuIds h hfind
    refine ⟨@StreamSessionSetsu.IdsRight.stop _ s [e] _ h hperm List.eraseP_sublist, fun e' he' hpath => ?_,
      fun e' he' _ => (hrest e' he').1, rfl⟩
    have hne : e'.key.2 ≠ id := fun hid => (hrest e' he').2 (Prod.ext hpath hid)
    exact (Multiset.mem_erase_of_ne hne).mpr (htold e' (hrest e' he').1 hpath)

theorem handleTouchPosition_handled (h : s.IdsRight) {told : Multiset TrackingId} {id : TrackingId}
    (htold : ∀ e ∈ s.setsuIds, e.key.1 = path → e.key.2 ∈ told) (hid : id ∈ told) (x y : BitVec 32) :
    HandledFor path told s (handleTouchPosition lt s (path, id) x y) := by
  unfold handleTouchPosition
  simp only
  split
  · next hfind =>
    rcases active_startTouch h.next (x.toNat % 2 ^ 16) (y.toNat % 2 ^ 16) with hfull | ⟨hcid, hnext, hactive⟩
    · rw [hfull, if_neg (show ¬ (-1 : Int) ≥ 0 by decide)]
      exact ⟨h, htold, fun e he _ => he, rfl⟩
    · rw [hcid, if_pos (Int.natCast_nonneg _), Int.toNat_natCast]
      have hfree : ∀ e ∈ s.setsuIds, e.key ≠ (path, id) := fun e he =>
        of_decide_eq_false (Bool.eq_false_of_not_eq_true (List.find?_eq_none.mp hfind e he))
      refine ⟨⟨?_, ?_, hnext, rfl⟩, fun e he hpath => ?_, fun e he hpath => ?_, rfl⟩
      · refine ((insertSetsuId_perm _ _).map _).nodup_iff.mpr (List.nodup_cons.mpr ⟨fun hmem => ?_, h.keys⟩)
        obtain ⟨e, he, hkey⟩ := List.mem_map.mp hmem
        exact hfree e he hkey
      · show touchIds (insertSetsuId lt _ _) = ControllerTouches.active _
        rw [touchIds_perm (insertSetsuId_perm _ _), touchIds_cons, h.active]
        exact hactive.symm
      · rcases mem_insertSetsuId.mp he with rfl | he
        · exact hid
        · exact htold e he hpath
      · rcases mem_insertSetsuId.mp he with rfl | he
        · exact absurd rfl hpath
        · exact he
  · next e hfind =>
    refine ⟨⟨h.keys, ?_, ?_, rfl⟩, htold, fun e he _ => he, rfl⟩
    · exact h.active.trans (active_setTouchPos _ _ _ _).symm
    · exact lt_of_eq_of_lt (touchIdNext_setTouchPos _ _ _ _) h.next

/-- The entries of a device that is removed go with it. -/
theorem handleDeviceRemoved_touchpad (h : s.IdsRight) (path : Path) :
    HandledFor path 0 s (handleDeviceRemoved s path .touchpad) := by
  have hperm : s.setsuIds.Perm ((s.setsuIds.filter fun e => e.key.1 = path) ++ s.setsuIds.filter fun e => e.key.1 ≠ path) := by
    simpa using (List.filter_append_perm (fun e => decide (e.key.1 = path)) s.setsuIds).symm
  refine ⟨h.stop hperm List.filter_sublist, fun e he hpath => ?_, fun e he _ => ?_, rfl⟩
  · exact absurd hpath (of_decide_eq_true (List.mem_filter.mp he).2)
  · exact (List.mem_filter.mp he).1

end Session

/-! ## What a touchpad sends -/

section Device

variable {dev : Touchpad} {ev : InputEvent} {evs evs' report : List InputEvent} {id : TrackingId}

/-- A touch is open from its down to its up, and a position finds it open. -/
def SetsuEvent.brackets : SetsuEvent → List (Bracket TrackingId)
  | .touchDown id => [.opening id]
  | .touchUp id => [.closing id]
  | .touchPosition id _ _ => [.closing id, .opening id]
  | .buttonDown _ => []
  | .buttonUp _ => []

theorem flatMap_brackets_nil {es : List SetsuEvent} (h : ∀ e ∈ es, e.trackingId? = none) :
    es.flatMap SetsuEvent.brackets = [] := by
  refine List.flatMap_eq_nil_iff.mpr fun e he => ?_
  have hnone := h e he
  cases e with
  | touchDown id | touchUp id | touchPosition id x y => cases hnone
  | buttonDown button | buttonUp button => rfl

theorem replay_position {t : Multiset TrackingId} (hid : id ∈ t) :
    Bracket.replay t [.closing id, .opening id] = some t := by
  rw [Bracket.replay, if_pos hid, Bracket.replay, Bracket.replay, Multiset.cons_erase hid]

/-- A slot that tells the truth sends a position only for the touch that it holds. -/
theorem SetsuSlot.Since.replay_brackets {s : SetsuSlot} {minX minY : BitVec 32} (h : s.Since id) (htells : s.Tells id) :
    Bracket.replay (slotTouch id) ((s.drain minX minY).flatMap SetsuEvent.brackets) = some (slotTouch s.trackingId) := by
  have htouches : (s.touchUp ++ s.touchDown).flatMap SetsuEvent.brackets
      = (s.drain minX minY).filterMap SetsuEvent.bracket := by
    rw [SetsuSlot.filterMap_drain, List.flatMap_append]
    unfold SetsuSlot.touchUp SetsuSlot.touchDown
    split <;> split <;> rfl
  rw [SetsuSlot.drain, List.flatMap_append, Bracket.replay_append, htouches, h.replay_drain htells, Option.bind_some]
  unfold SetsuSlot.touchPosition
  split
  · next hdirty =>
    have hcur := htells.position hdirty
    exact replay_position (mem_slotTouch.mpr ⟨hcur, rfl⟩)
  · rfl

/-- One report. -/
theorem replay_report (hclean : dev.Clean) (hreport : ∀ ev ∈ report, ev.code ≠ .synReport) (hev : ev.code = .synReport)
    (hok : ReportOk dev report) :
    Bracket.replay dev.held ((deviceEvents dev (report ++ [ev])).2.flatMap SetsuEvent.brackets)
      = some (deviceEvents dev (report ++ [ev])).1.held := by
  obtain ⟨buttons, hbuttons, hevents⟩ := report_events dev hreport hev
  obtain ⟨-, hslots⟩ := deviceEvents_slots dev hreport
  rw [hevents]
  generalize (deviceEvents dev report).1 = dev' at hslots ⊢
  rw [List.flatMap_append, flatMap_brackets_nil hbuttons, List.append_nil, held_drained, List.flatMap_assoc]
  refine Bracket.replay_parts fun i _ => ?_
  have hsince : (dev'.slot i).Since (dev.slot i).trackingId := by
    rw [hslots i]
    exact (hclean i).since.events _
  have htells : (dev'.slot i).Tells (dev.slot i).trackingId := by
    rw [hslots i]
    exact (SetsuSlot.slotOk_iff (hclean i) _).mp (hok i)
  exact hsince.replay_brackets htells

/-- The touches that `dev` has told of when it has read these events: those that it held at the last report. -/
def Touchpad.toldAfter (dev : Touchpad) (evs : List InputEvent) : Multiset TrackingId :=
  (deviceEvents dev (lastReport evs)).1.held

theorem ReportsOk.prefix (hok : ReportsOk dev (evs ++ evs')) : ReportsOk dev evs :=
  fun pre ev hpre => hok pre ev (hpre.trans (List.prefix_append _ _))

/-- One event. Nothing is sent for it if it is not a report. -/
theorem replay_event (hclean : dev.Clean) (hok : ReportsOk dev (evs ++ [ev])) :
    Bracket.replay (dev.toldAfter evs) ((deviceEvent (deviceEvents dev evs).1 ev).2.flatMap SetsuEvent.brackets)
      = some (dev.toldAfter (evs ++ [ev])) := by
  by_cases hev : ev.code = .synReport
  · -- what is sent is sent for all that was read since the last report
    have hsent : deviceEvent (deviceEvents dev evs).1 ev
        = deviceEvents (deviceEvents dev (lastReport evs)).1 (sinceReport evs ++ [ev]) := by
      have hquiet := (deviceEvents_slots (deviceEvents dev (lastReport evs)).1 fun ev =>
        @ne_synReport_of_mem_sinceReport ev evs).1
      have hsplit := deviceEvents_append dev (lastReport evs) (sinceReport evs)
      rw [lastReport_append_sinceReport] at hsplit
      rw [deviceEvents_append, hquiet, hsplit, List.nil_append]
      exact Prod.ext rfl (List.append_nil _).symm
    have hlast : lastReport (evs ++ [ev]) = lastReport evs ++ (sinceReport evs ++ [ev]) := by
      rw [← List.append_assoc, lastReport_append_sinceReport]
      exact List.rdropWhile_concat_neg _ _ _ (by rw [decide_eq_true_eq]; exact not_not.mpr hev)
    rw [hsent, Touchpad.toldAfter, Touchpad.toldAfter, hlast, deviceEvents_append dev (lastReport evs)]
    exact replay_report (clean_lastReport hclean evs) (fun ev => ne_synReport_of_mem_sinceReport) hev
      (hok evs ev (List.prefix_refl _) hev)
  · have hquiet := (deviceEvent_slots (deviceEvents dev evs).1 hev).1
    have hlast : lastReport (evs ++ [ev]) = lastReport evs :=
      List.rdropWhile_concat_pos _ _ _ (decide_eq_true hev)
    rw [hquiet, Touchpad.toldAfter, Touchpad.toldAfter, hlast]
    rfl

/-- **Positions are only sent for touches that are down**, and what is down behind some events is what the slots held
at the last report. -/
theorem replay_events (hclean : dev.Clean) (hok : ReportsOk dev (evs ++ evs')) :
    Bracket.replay (dev.toldAfter evs) ((deviceEvents (deviceEvents dev evs).1 evs').2.flatMap SetsuEvent.brackets)
      = some (dev.toldAfter (evs ++ evs')) := by
  induction evs' generalizing evs with
  | nil =>
    rw [List.append_nil]
    rfl
  | cons ev evs' ih =>
    rw [List.append_cons] at hok ⊢
    have hone := replay_event hclean hok.prefix
    have hrest := ih hok
    rw [deviceEvents_append] at hrest
    rw [deviceEvents, List.flatMap_append, Bracket.replay_append, hone, Option.bind_some]
    exact hrest

theorem minima_deviceEvent (dev : Touchpad) (ev : InputEvent) :
    (deviceEvent dev ev).1.minX = dev.minX ∧ (deviceEvent dev ev).1.minY = dev.minY := by
  unfold deviceEvent
  split
  · exact ⟨rfl, rfl⟩
  · split <;> exact ⟨rfl, rfl⟩
  · exact ⟨rfl, rfl⟩
  · exact ⟨rfl, rfl⟩
  · exact ⟨rfl, rfl⟩
  · simp only
    split
    · exact ⟨rfl, rfl⟩
    · split <;> exact ⟨rfl, rfl⟩
  · exact ⟨rfl, rfl⟩

theorem minima_deviceEvents (dev : Touchpad) (evs : List InputEvent) :
    (deviceEvents dev evs).1.minX = dev.minX ∧ (deviceEvents dev evs).1.minY = dev.minY := by
  induction evs generalizing dev with
  | nil => exact ⟨rfl, rfl⟩
  | cons ev evs ih =>
    obtain ⟨hx, hy⟩ := minima_deviceEvent dev ev
    obtain ⟨hx', hy'⟩ := ih (deviceEvent dev ev).1
    exact ⟨hx'.trans hx, hy'.trans hy⟩

end Device

/-! ## What the session makes of it -/

section Handling

variable {Path : Type} {lt : Path × TrackingId → Path × TrackingId → Bool} {s : StreamSessionSetsu Path} {path : Path}
  {told told' : Multiset TrackingId}

theorem HandledFor.refl (h : s.IdsRight) (htold : ∀ e ∈ s.setsuIds, e.key.1 = path → e.key.2 ∈ told) :
    HandledFor path told s s := ⟨h, htold, fun _ he _ => he, rfl⟩

variable [DecidableEq Path]

/-- One event. -/
theorem handleSetsuEvent_handled (h : s.IdsRight) (htold : ∀ e ∈ s.setsuIds, e.key.1 = path → e.key.2 ∈ told)
    {e : SetsuEvent} (hreplay : Bracket.replay told e.brackets = some told') :
    HandledFor path told' s (handleSetsuEvent lt path s e) := by
  cases e with
  | touchDown id =>
    cases hreplay
    exact .refl h fun e he hpath => Multiset.mem_cons_of_mem (htold e he hpath)
  | touchUp id =>
    simp only [SetsuEvent.brackets, Bracket.replay] at hreplay
    split at hreplay
    · cases hreplay
      exact handleTouchUp_handled h htold
    · cases hreplay
  | touchPosition id x y =>
    simp only [SetsuEvent.brackets, Bracket.replay] at hreplay
    split at hreplay
    · next hid =>
      cases hreplay
      rw [Multiset.cons_erase hid]
      exact handleTouchPosition_handled h htold hid x y
    · cases hreplay
  | buttonDown button | buttonUp button =>
    cases hreplay
    exact ⟨⟨h.keys, h.active, h.next, h.sent⟩, htold, fun e he _ => he, rfl⟩

/-- All the events of a device, one after another. -/
theorem handleSetsuEvents_handled {es : List SetsuEvent} (h : s.IdsRight)
    (htold : ∀ e ∈ s.setsuIds, e.key.1 = path → e.key.2 ∈ told)
    (hreplay : Bracket.replay told (es.flatMap SetsuEvent.brackets) = some told') :
    HandledFor path told' s (es.foldl (handleSetsuEvent lt path) s) := by
  induction es generalizing s told with
  | nil =>
    cases hreplay
    exact .refl h htold
  | cons e es ih =>
    rw [List.flatMap_cons, Bracket.replay_append] at hreplay
    obtain ⟨between, hone, hrest⟩ := Option.bind_eq_some_iff.mp hreplay
    have hhandled : HandledFor path between s (handleSetsuEvent lt path s e) := handleSetsuEvent_handled h htold hone
    have hmore := ih hhandled.ids hhandled.told hrest
    exact ⟨hmore.ids, hmore.told, fun e he hpath => hhandled.others e (hmore.others e he hpath) hpath,
      hmore.motion.trans hhandled.motion⟩

end Handling

/-! ## Devices that come and go -/

section System

variable {Path : Type} {lt : Path × TrackingId → Path × TrackingId → Bool}
  {availDev done rest : List (SetsuAvailDevice Path)} {adev : SetsuAvailDevice Path} {dev devs : List (SetsuDevice Path)}
  {d : SetsuDevice Path} {session : StreamSessionSetsu Path} {s : SetsuSystem Path} {input : SetsuPollInput Path}

/-- The touches that a device has told of. -/
def SetsuDevice.told (d : SetsuDevice Path) : Multiset TrackingId :=
  match d.touchpad with
  | none => 0
  | some touchpad => (setsuConnect touchpad.minX touchpad.minY).toldAfter d.read

/-- The reports of a device are such that its slots can tell them. -/
def SetsuDevice.ReportsOk (d : SetsuDevice Path) (evs : List InputEvent) : Prop :=
  ∀ touchpad, d.touchpad = some touchpad → Chiaki.ReportsOk (setsuConnect touchpad.minX touchpad.minY) (d.read ++ evs)

/-- The state of a touchpad is what it has read. -/
def SetsuDevice.Right (d : SetsuDevice Path) : Prop :=
  ∀ touchpad, d.touchpad = some touchpad →
    touchpad = (deviceEvents (setsuConnect touchpad.minX touchpad.minY) d.read).1

/-- What holds of the devices and the session whenever `setsu_poll` is called. -/
structure SetsuSystem.Right (s : SetsuSystem Path) : Prop where
  availDev : Table.Distinct SetsuAvailDevice.path s.availDev
  dev : Table.Distinct SetsuDevice.path s.dev
  known : ∀ d ∈ s.dev, ∃ adev ∈ s.availDev, adev.path = d.path ∧ adev.connectDirty = false ∧
    (adev.type = .touchpad ↔ d.touchpad.isSome)
  right : ∀ d ∈ s.dev, d.Right
  ids : s.session.IdsRight
  told : ∀ e ∈ s.session.setsuIds, ∃ d ∈ s.dev, d.path = e.key.1 ∧ e.key.2 ∈ d.told
  motion : ∀ path, s.session.setsuMotionDevice = some path → ∃ d ∈ s.dev, d.path = path ∧ d.touchpad = none

/-! ### Devices that are connected and removed -/

/-- A device that is to be connected is not connected yet. -/
theorem SetsuSystem.Right.fresh (h : SetsuSystem.Right ⟨done ++ adev :: rest, dev, session⟩)
    (hdirty : adev.connectDirty = true) : ∀ d ∈ dev, d.path ≠ adev.path := by
  intro d hd hsame
  obtain ⟨adev', hadev', hpath', hclean, -⟩ := h.known d hd
  have heq : adev' = adev :=
    List.inj_on_of_nodup_map h.availDev hadev' (List.mem_append_right _ List.mem_cons_self) (hpath'.trans hsame)
  rw [heq, hdirty] at hclean
  cases hclean

/-- `connect_dirty` is cleared. -/
theorem SetsuSystem.Right.cleared (h : SetsuSystem.Right ⟨done ++ adev :: rest, dev, session⟩) :
    SetsuSystem.Right ⟨done ++ { adev with connectDirty := false } :: rest, dev, session⟩ := by
  refine { h with availDev := ?_, known := fun d hd => ?_ }
  · have hpaths := h.availDev
    simp only [Table.Distinct, List.map_append, List.map_cons] at hpaths ⊢
    exact hpaths
  · obtain ⟨adev', hadev', hpath, hclean, htype⟩ := h.known d hd
    rcases List.mem_append.mp hadev' with hmem | hmem
    · exact ⟨adev', List.mem_append_left _ hmem, hpath, hclean, htype⟩
    · rcases List.mem_cons.mp hmem with rfl | hmem
      · exact ⟨_, List.mem_append_right _ List.mem_cons_self, hpath, rfl, htype⟩
      · exact ⟨adev', List.mem_append_right _ (List.mem_cons_of_mem _ hmem), hpath, hclean, htype⟩

/-- A device is connected that is known and not connected yet. -/
theorem SetsuSystem.Right.connect (h : SetsuSystem.Right ⟨availDev, dev, session⟩) (hadev : adev ∈ availDev)
    (hclean : adev.connectDirty = false) (hnew : ∀ d' ∈ dev, d'.path ≠ d.path) (hright : d.Right)
    (hpath : adev.path = d.path) (htype : adev.type = .touchpad ↔ d.touchpad.isSome) :
    SetsuSystem.Right ⟨availDev, d :: dev, session⟩ where
  availDev := h.availDev
  dev := List.nodup_cons.mpr ⟨fun hmem => by
    obtain ⟨d', hd', hsame⟩ := List.mem_map.mp hmem
    exact hnew d' hd' hsame, h.dev⟩
  known := List.forall_mem_cons.mpr ⟨⟨adev, hadev, hpath, hclean, htype⟩, h.known⟩
  right := List.forall_mem_cons.mpr ⟨hright, h.right⟩
  ids := h.ids
  told := fun e he => by
    obtain ⟨d', hd', htold⟩ := h.told e he
    exact ⟨d', List.mem_cons_of_mem _ hd', htold⟩
  motion := fun path hmotion => by
    obtain ⟨d', hd', hnone⟩ := h.motion path hmotion
    exact ⟨d', List.mem_cons_of_mem _ hd', hnone⟩

theorem SetsuSystem.Right.added (h : SetsuSystem.Right ⟨availDev, dev, session⟩)
    (adev : SetsuAvailDevice Path) (hadev : adev ∈ availDev) (hclean : adev.connectDirty = false) (hnew : ∀ d ∈ dev, d.path ≠ adev.path)
    (connect : Path → Option (BitVec 32 × BitVec 32)) :
    SetsuSystem.Right ⟨availDev, (handleDeviceAdded connect dev session adev.path adev.type).1,
      (handleDeviceAdded connect dev session adev.path adev.type).2⟩ := by
  unfold handleDeviceAdded
  split
  · next htype =>
    split
    · exact h
    · next minX minY _ =>
      refine h.connect hadev hclean hnew (fun touchpad htouchpad => ?_) rfl (by simp [htype])
      cases htouchpad
      rfl
  · next htype =>
    split
    · exact h
    · split
      · exact h
      · refine { h.connect (d := ⟨adev.path, none, []⟩) hadev hclean hnew (fun touchpad htouchpad => by cases htouchpad)
          rfl (by simp [htype]) with ids := ⟨h.ids.keys, h.ids.active, h.ids.next, h.ids.sent⟩, motion := ?_ }
        intro path hpath
        cases hpath
        exact ⟨_, List.mem_cons_self, rfl, rfl⟩

/-- A device that has told of a touch is a touchpad. -/
theorem isSome_of_mem_told {id : TrackingId} (hid : id ∈ d.told) : d.touchpad.isSome := by
  unfold SetsuDevice.told at hid
  split at hid
  · exact absurd hid (Multiset.notMem_zero id)
  · next touchpad htouchpad => rw [htouchpad, Option.isSome_some]

/-- What is removed is known by its type. -/
theorem SetsuSystem.Right.type_iff (h : SetsuSystem.Right ⟨done ++ adev :: rest, dev, session⟩) (hd : d ∈ dev)
    (hpath : d.path = adev.path) : adev.type = .touchpad ↔ d.touchpad.isSome := by
  obtain ⟨adev', hadev', hpath', -, htype⟩ := h.known d hd
  have heq : adev' = adev :=
    List.inj_on_of_nodup_map h.availDev hadev' (List.mem_append_right _ List.mem_cons_self) (hpath'.trans hpath)
  rw [← heq]
  exact htype

variable [DecidableEq Path]

theorem SetsuSystem.Right.removed (h : SetsuSystem.Right ⟨done ++ adev :: rest, dev, session⟩) :
    SetsuSystem.Right ⟨done ++ rest, dev.filter fun d => d.path ≠ adev.path,
      handleDeviceRemoved session adev.path adev.type⟩ := by
  have hsub : (done ++ rest).Sublist (done ++ adev :: rest) := (List.sublist_cons_self adev rest).append_left done
  have hstays {d : SetsuDevice Path} (hd : d ∈ dev) (hne : d.path ≠ adev.path) :
      d ∈ dev.filter fun d => d.path ≠ adev.path := List.mem_filter.mpr ⟨hd, decide_eq_true hne⟩
  -- of what the session has for a path that stays, the device stays
  have htold (e : SetsuId Path) (he : e ∈ session.setsuIds) (hne : e.key.1 ≠ adev.path) :
      ∃ d ∈ dev.filter fun d => d.path ≠ adev.path, d.path = e.key.1 ∧ e.key.2 ∈ d.told := by
    obtain ⟨d, hd, hpath, htold⟩ := h.told e he
    exact ⟨d, hstays hd (hpath ▸ hne), hpath, htold⟩
  have hmotion (path : Path) (hsome : session.setsuMotionDevice = some path) (hne : path ≠ adev.path) :
      ∃ d ∈ dev.filter fun d => d.path ≠ adev.path, d.path = path ∧ d.touchpad = none := by
    obtain ⟨d, hd, hpath, hnone⟩ := h.motion path hsome
    exact ⟨d, hstays hd (hpath ▸ hne), hpath, hnone⟩
  have hkept : Table.Distinct SetsuAvailDevice.path (done ++ rest) ∧
      Table.Distinct SetsuDevice.path (dev.filter fun d => d.path ≠ adev.path) :=
    ⟨h.availDev.sublist (hsub.map _), h.dev.filter _⟩
  have hknown : ∀ d ∈ dev.filter fun d => d.path ≠ adev.path, ∃ adev' ∈ done ++ rest, adev'.path = d.path ∧
      adev'.connectDirty = false ∧ (adev'.type = .touchpad ↔ d.touchpad.isSome) := by
    intro d hd
    obtain ⟨hd, hne⟩ := List.mem_filter.mp hd
    obtain ⟨adev', hadev', hpath, hright⟩ := h.known d hd
    refine ⟨adev', ?_, hpath, hright⟩
    rcases List.mem_append.mp hadev' with hmem | hmem
    · exact List.mem_append_left _ hmem
    · rcases List.mem_cons.mp hmem with rfl | hmem
      · exact absurd hpath.symm (of_decide_eq_true hne)
      · exact List.mem_append_right _ hmem
  have hright : ∀ d ∈ dev.filter fun d => d.path ≠ adev.path, d.Right := fun d hd => h.right d (List.mem_filter.mp hd).1
  cases htype : adev.type with
  | touchpad =>
    have hhandled := handleDeviceRemoved_touchpad h.ids adev.path
    refine ⟨hkept.1, hkept.2, hknown, hright, hhandled.ids, fun e he => ?_, fun path hsome => ?_⟩
    · by_cases hpath : e.key.1 = adev.path
      · exact absurd (hhandled.told e he hpath) (Multiset.notMem_zero _)
      · exact htold e (hhandled.others e he hpath) hpath
    · refine hmotion path hsome ?_
      rintro rfl
      obtain ⟨d, hd, hpath, hnone⟩ := h.motion _ hsome
      have hsome := (h.type_iff hd hpath).mp htype
      rw [hnone] at hsome
      cases hsome
  | motion =>
    have hids : ∀ e ∈ session.setsuIds, e.key.1 ≠ adev.path := fun e he hsame => by
      obtain ⟨d, hd, hpath, hid⟩ := h.told e he
      have htouchpad := (h.type_iff hd (hpath.trans hsame)).mpr (isSome_of_mem_told hid)
      rw [htype] at htouchpad
      cases htouchpad
    rw [handleDeviceRemoved]
    split
    · exact ⟨hkept.1, hkept.2, hknown, hright, ⟨h.ids.keys, h.ids.active, h.ids.next, h.ids.sent⟩,
        fun e he => htold e he (hids e he), fun path hsome => by cases hsome⟩
    · next hne =>
      refine ⟨hkept.1, hkept.2, hknown, hright, h.ids, fun e he => htold e he (hids e he), fun path hsome => ?_⟩
      refine hmotion path hsome ?_
      rintro rfl
      exact hne hsome

/-! ### udev -/

theorem mem_modify {α : Type} {l : List α} {i : Nat} {f : α → α} {a : α} (ha : a ∈ l) : a ∈ l.modify i f ∨ f a ∈ l.modify i f := by
  obtain ⟨j, hj⟩ := List.getElem?_of_mem ha
  have hget := List.getElem?_modify f i l j
  simp only [hj, Option.map_eq_map, Option.map_some] at hget
  by_cases hij : i = j
  · rw [if_pos hij] at hget
    exact .inr (List.mem_of_getElem? hget)
  · rw [if_neg hij] at hget
    exact .inl (List.mem_of_getElem? hget)

theorem SetsuSystem.Right.updateUdevDevice (h : SetsuSystem.Right ⟨availDev, dev, session⟩) (udev : UdevDevice Path) :
    SetsuSystem.Right ⟨updateUdevDevice availDev udev, dev, session⟩ := by
  unfold Chiaki.updateUdevDevice
  split
  · next i hi =>
    split
    · exact h
    · refine { h with availDev := ?_, known := fun d hd => ?_ }
      · have hpaths : (availDev.modify i fun adev => { adev with disconnectDirty := true }).map SetsuAvailDevice.path
            = availDev.map SetsuAvailDevice.path := by
          refine List.ext_getElem? fun j => ?_
          rw [List.getElem?_map, List.getElem?_modify, List.getElem?_map]
          cases availDev[j]? with
          | none => rfl
          | some adev => by_cases hij : i = j <;> simp [hij]
        exact (congrArg List.Nodup hpaths).mpr h.availDev
      · obtain ⟨adev, hadev, hpath, hclean, htype⟩ := h.known d hd
        rcases mem_modify (i := i) (f := fun adev => { adev with disconnectDirty := true }) hadev with hmem | hmem
        · exact ⟨adev, hmem, hpath, hclean, htype⟩
        · exact ⟨_, hmem, hpath, hclean, htype⟩
  · next hnone =>
    split
    · exact h
    · next type htype =>
      refine { h with availDev := ?_, known := fun d hd => ?_ }
      · refine List.nodup_cons.mpr ⟨fun hmem => ?_, h.availDev⟩
        obtain ⟨adev, hadev, hpath⟩ := List.mem_map.mp hmem
        exact of_decide_eq_false (List.findIdx?_eq_none_iff.mp hnone adev hadev) hpath
      · obtain ⟨adev, hadev, hright⟩ := h.known d hd
        exact ⟨adev, List.mem_cons_of_mem _ hadev, hright⟩

theorem SetsuSystem.Right.udev (h : SetsuSystem.Right ⟨availDev, dev, session⟩) (udev : List (UdevDevice Path)) :
    SetsuSystem.Right ⟨udev.foldl Chiaki.updateUdevDevice availDev, dev, session⟩ := by
  induction udev generalizing availDev with
  | nil => exact h
  | cons u udev ih => exact ih (h.updateUdevDevice u)

/-! ### Devices that are polled -/

/-- The whole loop over the devices that there are. -/
theorem SetsuSystem.Right.pollAvailDevices {connect : Path → Option (BitVec 32 × BitVec 32)}
    (h : SetsuSystem.Right ⟨done ++ availDev, dev, session⟩) :
    SetsuSystem.Right ⟨done ++ (Chiaki.pollAvailDevices connect availDev dev session).availDev,
      (Chiaki.pollAvailDevices connect availDev dev session).dev,
      (Chiaki.pollAvailDevices connect availDev dev session).session⟩ := by
  induction availDev generalizing done dev session with
  | nil => exact h
  | cons adev availDev ih =>
    -- what has been connected, with `connect_dirty` already cleared
    have hadded : SetsuSystem.Right ⟨done ++ { adev with connectDirty := false } :: availDev,
        (if adev.connectDirty then handleDeviceAdded connect dev session adev.path adev.type else (dev, session)).1,
        (if adev.connectDirty then handleDeviceAdded connect dev session adev.path adev.type else (dev, session)).2⟩ := by
      split
      · next hdirty =>
        exact h.cleared.added { adev with connectDirty := false } (List.mem_append_right _ List.mem_cons_self) rfl
          (h.fresh hdirty) connect
      · exact h.cleared
    rw [Chiaki.pollAvailDevices]
    generalize (if adev.connectDirty then handleDeviceAdded connect dev session adev.path adev.type else (dev, session))
      = added at hadded ⊢
    obtain ⟨dev', session'⟩ := added
    simp only
    split
    · exact ih hadded.removed
    · rw [List.append_cons] at hadded
      have hrest := ih hadded
      rw [← List.append_cons] at hrest
      exact hrest

theorem SetsuSystem.Right.pollDevice (h : SetsuSystem.Right ⟨availDev, devs ++ d :: dev, session⟩)
    {evs : List InputEvent} (hok : d.ReportsOk evs) :
    SetsuSystem.Right ⟨availDev, devs ++ (Chiaki.pollDevice lt evs d session).1 :: dev,
      (Chiaki.pollDevice lt evs d session).2⟩ := by
  unfold Chiaki.pollDevice
  split
  · exact h
  · next touchpad htouchpad =>
    have hmem : d ∈ devs ++ d :: dev := List.mem_append_right _ List.mem_cons_self
    have hone (d' : SetsuDevice Path) (hd' : d' ∈ devs ++ d :: dev) (hpath : d'.path = d.path) : d' = d :=
      List.inj_on_of_nodup_map h.dev hd' hmem hpath
    have hother (d' : SetsuDevice Path) (hd' : d' ∈ devs ++ d :: dev) (hne : d' ≠ d) (new : SetsuDevice Path) :
        d' ∈ devs ++ new :: dev := by
      simp only [List.mem_append, List.mem_cons] at hd' ⊢
      rcases hd' with hd' | rfl | hd'
      · exact .inl hd'
      · exact absurd rfl hne
      · exact .inr (.inr hd')
    have hstate := h.right d hmem touchpad htouchpad
    obtain ⟨hminX, hminY⟩ := minima_deviceEvents touchpad evs
    have hnew : (deviceEvents touchpad evs).1
        = (deviceEvents (setsuConnect touchpad.minX touchpad.minY) (d.read ++ evs)).1 := by
      rw [deviceEvents_append, ← hstate]
    have htold : d.told = (setsuConnect touchpad.minX touchpad.minY).toldAfter d.read := by
      rw [SetsuDevice.told, htouchpad]
    have htold' : SetsuDevice.told ⟨d.path, some (deviceEvents touchpad evs).1, d.read ++ evs⟩
        = (setsuConnect touchpad.minX touchpad.minY).toldAfter (d.read ++ evs) := by
      simp only [SetsuDevice.told, hminX, hminY]
    have hreplay := replay_events (clean_connect touchpad.minX touchpad.minY) (hok touchpad htouchpad)
    rw [← hstate, ← htold, ← htold'] at hreplay
    have hhandled : HandledFor d.path _ session
        ((deviceEvents touchpad evs).2.foldl (handleSetsuEvent lt d.path) session) :=
      handleSetsuEvents_handled h.ids (fun e he hpath => by
        obtain ⟨d', hd', hpath', hid⟩ := h.told e he
        rw [hone d' hd' (hpath'.trans hpath)] at hid
        exact hid) hreplay
    refine ⟨h.availDev, ?_, fun d' hd' => ?_, fun d' hd' => ?_, hhandled.ids, fun e he => ?_, fun path hsome => ?_⟩
    · have hpaths := h.dev
      simp only [Table.Distinct, List.map_append, List.map_cons] at hpaths ⊢
      exact hpaths
    · rcases List.mem_append.mp hd' with hd' | hd'
      · exact h.known d' (List.mem_append_left _ hd')
      · rcases List.mem_cons.mp hd' with rfl | hd'
        · obtain ⟨adev, hadev, hpath, hclean, htype⟩ := h.known d hmem
          rw [htouchpad] at htype
          exact ⟨adev, hadev, hpath, hclean, htype⟩
        · exact h.known d' (List.mem_append_right _ (List.mem_cons_of_mem _ hd'))
    · rcases List.mem_append.mp hd' with hd' | hd'
      · exact h.right d' (List.mem_append_left _ hd')
      · rcases List.mem_cons.mp hd' with rfl | hd'
        · intro touchpad' htouchpad'
          cases htouchpad'
          rw [hminX, hminY]
          exact hnew
        · exact h.right d' (List.mem_append_right _ (List.mem_cons_of_mem _ hd'))
    · by_cases hpath : e.key.1 = d.path
      · exact ⟨_, List.mem_append_right _ List.mem_cons_self, hpath.symm, hhandled.told e he hpath⟩
      · obtain ⟨d', hd', hpath', hid⟩ := h.told e (hhandled.others e he hpath)
        refine ⟨d', hother d' hd' ?_ _, hpath', hid⟩
        rintro rfl
        exact hpath hpath'.symm
    · rw [hhandled.motion] at hsome
      obtain ⟨d', hd', hpath, hnone⟩ := h.motion path hsome
      refine ⟨d', hother d' hd' ?_ _, hpath, hnone⟩
      rintro rfl
      rw [htouchpad] at hnone
      cases hnone

theorem SetsuSystem.Right.pollDevices {events : Path → List InputEvent}
    (h : SetsuSystem.Right ⟨availDev, devs ++ dev, session⟩) (hok : ∀ d ∈ dev, d.ReportsOk (events d.path)) :
    SetsuSystem.Right ⟨availDev, devs ++ (Chiaki.pollDevices lt events dev session).1,
      (Chiaki.pollDevices lt events dev session).2⟩ := by
  induction dev generalizing devs session with
  | nil => exact h
  | cons d dev ih =>
    obtain ⟨hd, hdev⟩ := List.forall_mem_cons.mp hok
    have hone : SetsuSystem.Right ⟨availDev, devs ++ (Chiaki.pollDevice lt (events d.path) d session).1 :: dev,
      (Chiaki.pollDevice lt (events d.path) d session).2⟩ := h.pollDevice hd
    rw [List.append_cons] at hone
    have hrest := ih hone hdev
    rw [← List.append_cons] at hrest
    exact hrest

/-! ## Runs -/

/-- The reports that the touchpads send during a call of `setsu_poll` are such that their slots can tell them. -/
def ReportsTold (s : SetsuSystem Path) (input : SetsuPollInput Path) : Prop :=
  ∀ d ∈ (setsuPollAvail input s).dev, d.ReportsOk (input.events d.path)

theorem setsuRuns_invariant : ((setsuRuns lt).restrict ReportsTold).Invariant SetsuSystem.Right where
  init := by
    rintro s ⟨scanned, rfl⟩
    have hempty : SetsuSystem.Right ⟨[], [], (streamSessionSetsuInit : StreamSessionSetsu Path)⟩ :=
      ⟨Table.distinct_nil, Table.distinct_nil, fun d hd => absurd hd List.not_mem_nil,
        fun d hd => absurd hd List.not_mem_nil, idsRight_init, fun e he => absurd he List.not_mem_nil,
        fun path hsome => by cases hsome⟩
    exact hempty.udev scanned
  step := by
    rintro ⟨availDev, dev, session⟩ input s' h ⟨hG, hstep⟩
    cases hstep
    have hudev : SetsuSystem.Right ⟨[] ++ input.udev.foldl updateUdevDevice availDev, dev, session⟩ := h.udev input.udev
    have havail : SetsuSystem.Right ⟨(setsuPollAvail input ⟨availDev, dev, session⟩).availDev,
      [] ++ (setsuPollAvail input ⟨availDev, dev, session⟩).dev,
      (setsuPollAvail input ⟨availDev, dev, session⟩).session⟩ := hudev.pollAvailDevices
    exact havail.pollDevices hG

/-- A state of a controller that has no touches takes away none. -/
theorem active_controllerStateOr {μ : Type} (out a b : ControllerState μ) (hb : ∀ t ∈ b.touches, t.id < 0) :
    ((controllerStateOr out a b).touches.map ControllerTouch.active).sum
      = (a.touches.map ControllerTouch.active).sum := by
  have hzip (l l' : List ControllerTouch) (hlen : l.length = l'.length) (hl' : ∀ t ∈ l', t.id < 0) :
      ((List.zipWith controllerTouchOr l l').map ControllerTouch.active).sum = (l.map ControllerTouch.active).sum := by
    induction l generalizing l' with
    | nil => rfl
    | cons t l ih =>
      cases l' with
      | nil => cases hlen
      | cons t' l' =>
        obtain ⟨ht', hl'⟩ := List.forall_mem_cons.mp hl'
        have hone : (controllerTouchOr t t').active = t.active := by
          unfold controllerTouchOr
          split
          · rfl
          · next hid =>
            rw [if_neg (Int.not_le.mpr ht'), ControllerTouch.active, ControllerTouch.active,
              if_pos (Int.not_le.mp hid)]
            rfl
        simp only [List.zipWith_cons_cons, List.map_cons, List.sum_cons, hone, ih l' (Nat.succ.inj hlen) hl']
  exact hzip a.touches b.touches (a.length_touches.trans b.length_touches.symm) hb

end System

/-- The paths are numbers. -/
def exampleKeyLt (a b : Nat × TrackingId) : Bool := decide (a.1 < b.1) || (decide (a.1 = b.1) && a.2.slt b.2)

/-- A touchpad is plugged in, and a finger comes down on it. -/
def examplePollInput : SetsuPollInput Nat where
  udev := [⟨1, true, some .touchpad⟩]
  connect _ := some (0, 0)
  events _ := [⟨.absMtTrackingId, 5⟩, ⟨.absMtPositionX, 100⟩, ⟨.absMtPositionY, 200⟩, ⟨.synReport, 0⟩]

/-- What the slots have behind the events in front of the report. -/
def exampleSlot (i : Fin slotsCount) : SetsuSlot :=
  (slotEvents i (setsuConnect 0 0).slotCur [⟨.absMtTrackingId, 5⟩, ⟨.absMtPositionX, 100⟩, ⟨.absMtPositionY, 200⟩]).foldl
    SetsuSlot.event ((setsuConnect 0 0).slot i)

theorem exampleReport_ok :
    ReportOk (setsuConnect 0 0) [⟨.absMtTrackingId, 5⟩, ⟨.absMtPositionX, 100⟩, ⟨.absMtPositionY, 200⟩] := by
  have htells : ∀ i : Fin slotsCount, ((exampleSlot i).downed = true → (exampleSlot i).trackingId ≠ noTrackingId) ∧
      ((exampleSlot i).posDirty = true → (exampleSlot i).trackingId ≠ noTrackingId) ∧
      (((setsuConnect 0 0).slot i).trackingId = noTrackingId → (exampleSlot i).trackingIdPrev = noTrackingId) := by
    decide +kernel
  intro i
  obtain ⟨hdown, hposition, hup⟩ := htells i
  exact (SetsuSlot.slotOk_iff (clean_connect 0 0 i) _).mpr ⟨hdown, hposition, hup⟩

theorem examplePollInput_ok : ReportsOk (setsuConnect 0 0) (examplePollInput.events 1) := by
  intro pre ev hpre hev
  -- the report is the last of the events
  have hcut : pre ++ [ev] <+: [⟨.absMtTrackingId, 5⟩, ⟨.absMtPositionX, 100⟩, ⟨.absMtPositionY, 200⟩]
      ++ [⟨.synReport, 0⟩] := hpre
  rcases List.prefix_concat_iff.mp hcut with heq | hpre
  · obtain ⟨rfl, -⟩ := List.append_inj' heq rfl
    exact exampleReport_ok
  · have hmem := hpre.subset (List.mem_append_right _ List.mem_cons_self)
    simp only [List.mem_cons, List.not_mem_nil, or_false] at hmem
    rcases hmem with rfl | rfl | rfl <;> cases hev

end Chiaki
