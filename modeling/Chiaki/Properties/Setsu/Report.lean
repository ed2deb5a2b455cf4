import Chiaki.Properties.Setsu.Slot
import Mathlib.Data.List.DropRight

/-!
# Touch events and slots

Between two reports each slot sees its own events, and the report drains one slot after another. Every slot
closes the touch that it held and opens the one that it holds, if it tells the truth, and sends an up too many
otherwise; so a report is right if and only if every slot is (`report_right_iff`), and a run if and only if
every report is (`touches_right_iff`).
-/

namespace Chiaki

open Infra

/-! ## The device -/

section Device

variable {dev : Touchpad} {ev : InputEvent} {evs report : List InputEvent} {sent : List SetsuEvent}

/-- There is nothing to send for any slot. -/
def Touchpad.Clean (dev : Touchpad) : Prop := ∀ i : Fin slotsCount, (dev.slot i).Clean

theorem update_slots (dev : Touchpad) (f : SetsuSlot → SetsuSlot) (i : Fin slotsCount) :
    (dev.update f).slot i = if dev.slotCur = i then f (dev.slot i) else dev.slot i := by
  unfold Touchpad.update
  by_cases h : dev.slotCur = i
  · subst h
    rw [if_pos rfl]
    exact Vector.getElem_set_self _
  · rw [if_neg h]
    exact Vector.getElem_set_ne dev.slotCur.isLt i.isLt fun hval => h (Fin.ext hval)

theorem update_event (dev : Touchpad) (e : SlotEvent) (i : Fin slotsCount) :
    (dev.update fun s => s.event e).slot i
      = (if dev.slotCur = i then [e] else []).foldl SetsuSlot.event (dev.slot i) := by
  rw [update_slots]
  split <;> rfl

/-- A key changes the buttons only. -/
theorem deviceEvent_key (dev : Touchpad) (key : Key) (value : BitVec 32) :
    ∃ buttonsCur, deviceEvent dev ⟨.key key, value⟩ = ({ dev with buttonsCur := buttonsCur }, []) := by
  unfold deviceEvent
  dsimp only
  split
  · exact ⟨dev.buttonsCur, rfl⟩
  · split
    · exact ⟨_, rfl⟩
    · exact ⟨_, rfl⟩

/-- An event in front of the report is one of the current slot or of none. -/
theorem deviceEvent_slots (dev : Touchpad) (hev : ev.code ≠ .synReport) :
    (deviceEvent dev ev).2 = [] ∧ (deviceEvent dev ev).1.slotCur = ev.slotAfter dev.slotCur ∧
      ∀ i : Fin slotsCount, (deviceEvent dev ev).1.slot i
        = (if dev.slotCur = i then ev.slotEvent?.toList else []).foldl SetsuSlot.event (dev.slot i) := by
  obtain ⟨code, value⟩ := ev
  cases code with
  | synReport => exact absurd rfl hev
  | absMtSlot =>
    unfold deviceEvent InputEvent.slotAfter InputEvent.slotEvent?
    by_cases h : slotsCount ≤ value.toNat
    · rw [dif_pos h, dif_neg (fun h' => Nat.not_lt.mpr h h'.2)]
      refine ⟨rfl, rfl, fun i => ?_⟩
      rw [Option.toList_none, ite_self]
      rfl
    · rw [dif_neg h, dif_pos ⟨rfl, Nat.not_le.mp h⟩]
      refine ⟨rfl, rfl, fun i => ?_⟩
      rw [Option.toList_none, ite_self]
      rfl
  | absMtTrackingId => exact ⟨rfl, rfl, update_event dev (.trackingId value)⟩
  | absMtPositionX => exact ⟨rfl, rfl, update_event dev (.position .x value)⟩
  | absMtPositionY => exact ⟨rfl, rfl, update_event dev (.position .y value)⟩
  | key key =>
    obtain ⟨buttonsCur, hkey⟩ := deviceEvent_key dev key value
    rw [hkey]
    refine ⟨rfl, rfl, fun i => ?_⟩
    unfold InputEvent.slotEvent?
    rw [Option.toList_none, ite_self]
    rfl
  | other =>
    refine ⟨rfl, rfl, fun i => ?_⟩
    unfold InputEvent.slotEvent?
    rw [Option.toList_none, ite_self]
    rfl

theorem deviceEvents_append (dev : Touchpad) (evs evs' : List InputEvent) :
    deviceEvents dev (evs ++ evs') = ((deviceEvents (deviceEvents dev evs).1 evs').1,
      (deviceEvents dev evs).2 ++ (deviceEvents (deviceEvents dev evs).1 evs').2) := by
  induction evs generalizing dev with
  | nil => rfl
  | cons ev evs ih => rw [List.cons_append, deviceEvents, deviceEvents, ih, List.append_assoc]

/-- Between two reports nothing is sent, and each slot sees its own events. -/
theorem deviceEvents_slots (dev : Touchpad) (hevs : ∀ ev ∈ evs, ev.code ≠ .synReport) :
    (deviceEvents dev evs).2 = [] ∧ ∀ i : Fin slotsCount,
      (deviceEvents dev evs).1.slot i = (slotEvents i dev.slotCur evs).foldl SetsuSlot.event (dev.slot i) := by
  induction evs generalizing dev with
  | nil => exact ⟨rfl, fun i => rfl⟩
  | cons ev evs ih =>
    obtain ⟨hsent, hcur, hslots⟩ := deviceEvent_slots dev (hevs ev List.mem_cons_self)
    obtain ⟨hsent', hslots'⟩ := ih (deviceEvent dev ev).1 fun ev' hev' => hevs ev' (List.mem_cons_of_mem ev hev')
    refine ⟨?_, fun i => ?_⟩
    · rw [deviceEvents, hsent, hsent']
      rfl
    · rw [deviceEvents, hslots' i, hcur, hslots i, slotEvents, List.foldl_append]

/-- The buttons have no touches. -/
theorem trackingId_drainButtons (buttonsCur buttonsDiff : BitVec 64) (n : Nat) :
    ∀ e ∈ drainButtons buttonsCur buttonsDiff n, e.trackingId? = none := by
  induction n generalizing buttonsDiff with
  | zero => exact fun e he => absurd he List.not_mem_nil
  | succ n ih =>
    intro e he
    rw [drainButtons, List.mem_append] at he
    rcases he with he | he
    · split at he
      · rw [List.mem_singleton] at he
        rw [he]
        split <;> rfl
      · exact absurd he List.not_mem_nil
    · split at he
      · exact absurd he List.not_mem_nil
      · exact ih _ e he

theorem bracket_of_trackingId_none {e : SetsuEvent} (he : e.trackingId? = none) : e.bracket = none := by
  cases e with
  | touchDown id => cases he
  | touchUp id => cases he
  | touchPosition id x y => rfl
  | buttonDown button => rfl
  | buttonUp button => rfl

theorem touchEventsValid_append (es es' : List SetsuEvent) :
    TouchEventsValid (es ++ es') ↔ TouchEventsValid es ∧ TouchEventsValid es' := List.forall_mem_append

theorem touchEventsValid_flatMap {ι : Type*} (f : ι → List SetsuEvent) (l : List ι) :
    TouchEventsValid (l.flatMap f) ↔ ∀ i ∈ l, TouchEventsValid (f i) := by
  unfold TouchEventsValid
  simp only [List.mem_flatMap]
  constructor
  · intro h i hi e he
    exact h e ⟨i, hi, he⟩
  · rintro h e ⟨i, hi, he⟩
    exact h i hi e he

/-- What a report sends of the touches, slot by slot. -/
theorem report_events (dev : Touchpad) (hreport : ∀ ev ∈ report, ev.code ≠ .synReport) (hev : ev.code = .synReport) :
    ∃ buttons, (∀ e ∈ buttons, SetsuEvent.trackingId? e = none) ∧
      deviceEvents dev (report ++ [ev]) = ((deviceDrain (deviceEvents dev report).1).1,
        ((List.finRange slotsCount).flatMap fun i => ((deviceEvents dev report).1.slot i).drain
          (deviceEvents dev report).1.minX (deviceEvents dev report).1.minY) ++ buttons) := by
  refine ⟨_, trackingId_drainButtons (deviceEvents dev report).1.buttonsCur
    ((deviceEvents dev report).1.buttonsPrev ^^^ (deviceEvents dev report).1.buttonsCur) 64, ?_⟩
  rw [deviceEvents_append, (deviceEvents_slots dev hreport).1, deviceEvents, deviceEvents, deviceEvent, hev]
  simp only [List.nil_append, List.append_nil]
  rfl

theorem openTouches_append (es es' : List SetsuEvent) : openTouches (es ++ es')
    = (openTouches es).bind fun touches => Bracket.replay touches (es'.filterMap SetsuEvent.bracket) := by
  unfold openTouches
  rw [List.filterMap_append, Bracket.replay_append]

theorem drained_slots (dev : Touchpad) (i : Fin slotsCount) :
    (deviceDrain dev).1.slot i = (dev.slot i).drained := Vector.getElem_map _ i.isLt

theorem held_drained (dev : Touchpad) : (deviceDrain dev).1.held = dev.held := by
  unfold Touchpad.held
  simp only [drained_slots]
  rfl

theorem clean_drained (dev : Touchpad) : (deviceDrain dev).1.Clean := by
  intro i
  rw [drained_slots]
  exact ⟨rfl, rfl, rfl⟩

/-- **One report**: it is told right if and only if the slots can tell it. -/
theorem report_right_iff (hclean : dev.Clean) (hright : TouchEventsRight dev sent)
    (hreport : ∀ ev ∈ report, ev.code ≠ .synReport) (hev : ev.code = .synReport) :
    TouchEventsRight (deviceEvents dev (report ++ [ev])).1 (sent ++ (deviceEvents dev (report ++ [ev])).2)
      ↔ ReportOk dev report := by
  obtain ⟨buttons, hbuttons, hevents⟩ := report_events dev hreport hev
  obtain ⟨-, hslots⟩ := deviceEvents_slots dev hreport
  rw [hevents]
  generalize (deviceEvents dev report).1 = dev' at hslots ⊢
  have hsince : ∀ i : Fin slotsCount, (dev'.slot i).Since (dev.slot i).trackingId := fun i => by
    rw [hslots i]
    exact (hclean i).since.events _
  have htells : ReportOk dev report ↔ ∀ i : Fin slotsCount, (dev'.slot i).Tells (dev.slot i).trackingId := by
    refine forall_congr' fun i => ?_
    rw [hslots i]
    exact SetsuSlot.slotOk_iff (hclean i) _
  have hnone : buttons.filterMap SetsuEvent.bracket = [] :=
    List.filterMap_eq_nil_iff.mpr fun e he => bracket_of_trackingId_none (hbuttons e he)
  have hvalid : TouchEventsValid (sent ++ (((List.finRange slotsCount).flatMap fun i =>
      (dev'.slot i).drain dev'.minX dev'.minY) ++ buttons))
      ↔ ∀ i : Fin slotsCount, TouchEventsValid ((dev'.slot i).drain dev'.minX dev'.minY) := by
    rw [touchEventsValid_append, touchEventsValid_append, touchEventsValid_flatMap]
    constructor
    · rintro ⟨-, h, -⟩ i
      exact h i (List.mem_finRange i)
    · intro h
      refine ⟨hright.valid, fun i _ => h i, fun e he => ?_⟩
      rw [hbuttons e he]
      exact (Option.some_ne_none _).symm
  have hopen : openTouches (sent ++ (((List.finRange slotsCount).flatMap fun i =>
      (dev'.slot i).drain dev'.minX dev'.minY) ++ buttons))
      = Bracket.replay dev.held ((List.finRange slotsCount).flatMap fun i =>
        ((dev'.slot i).drain dev'.minX dev'.minY).filterMap SetsuEvent.bracket) := by
    rw [openTouches_append, hright.held, Option.bind_some, List.filterMap_append, hnone, List.append_nil,
      List.filterMap_flatMap]
  rw [htells]
  constructor
  · rintro ⟨hvalid', hopen'⟩ i
    rw [hopen, held_drained] at hopen'
    have hcard : ∀ j : Fin slotsCount, _ := fun j => (hsince j).card_drain (hvalid.mp hvalid' j)
    have hexact := Bracket.parts_exact hopen' (fun j _ => by
      rcases hcard j with ⟨-, heq⟩ | hlt
      · exact heq.le
      · exact hlt.le) i (List.mem_finRange i)
    rcases hcard i with ⟨htells', -⟩ | hlt
    · exact htells'
    · exact absurd hexact hlt.ne
  · intro htells'
    refine ⟨hvalid.mpr fun i => SetsuSlot.touchEventsValid_drain.mpr ⟨(htells' i).down, (htells' i).position⟩, ?_⟩
    rw [hopen, held_drained]
    exact Bracket.replay_parts fun i _ => (hsince i).replay_drain (htells' i)

/-! ## Buttons -/

/-- There is one button only, so `1 << i` is `1`. -/
structure Touchpad.OneButton (dev : Touchpad) : Prop where
  prev : dev.buttonsPrev = 0 ∨ dev.buttonsPrev = setsuButton0
  cur : dev.buttonsCur = 0 ∨ dev.buttonsCur = setsuButton0

theorem or_setsuButton0 {buttons : BitVec 64} (h : buttons = 0 ∨ buttons = setsuButton0) :
    buttons ||| setsuButton0 = setsuButton0 := by
  rcases h with rfl | rfl <;> decide

theorem and_not_setsuButton0 {buttons : BitVec 64} (h : buttons = 0 ∨ buttons = setsuButton0) :
    buttons &&& ~~~setsuButton0 = 0 := by
  rcases h with rfl | rfl <;> decide

theorem Touchpad.OneButton.event (h : dev.OneButton) (ev : InputEvent) : (deviceEvent dev ev).1.OneButton := by
  obtain ⟨code, value⟩ := ev
  cases code with
  | synReport => exact ⟨h.cur, h.cur⟩
  | absMtSlot =>
    unfold deviceEvent
    dsimp only
    split
    · exact h
    · exact ⟨h.prev, h.cur⟩
  | absMtTrackingId => exact ⟨h.prev, h.cur⟩
  | absMtPositionX => exact ⟨h.prev, h.cur⟩
  | absMtPositionY => exact ⟨h.prev, h.cur⟩
  | key key =>
    cases key with
    | other => exact h
    | btnLeft =>
      unfold deviceEvent
      dsimp only
      rw [if_neg (by decide)]
      split
      · exact ⟨h.prev, Or.inr (or_setsuButton0 h.cur)⟩
      · exact ⟨h.prev, Or.inl (and_not_setsuButton0 h.cur)⟩
  | other => exact h

theorem Touchpad.OneButton.events (h : dev.OneButton) (evs : List InputEvent) :
    (deviceEvents dev evs).1.OneButton := by
  induction evs generalizing dev with
  | nil => exact h
  | cons ev evs ih => exact ih (h.event ev)

/-- A report tells a change of the button, and nothing else of the buttons. -/
theorem drainButtons_connect (minX minY : BitVec 32) (evs : List InputEvent) :
    let dev := (deviceEvents (setsuConnect minX minY) evs).1
    drainButtons dev.buttonsCur (dev.buttonsPrev ^^^ dev.buttonsCur) 64 =
      if dev.buttonsPrev = dev.buttonsCur then []
      else if dev.buttonsCur = 0 then [.buttonUp setsuButton0]
      else [.buttonDown setsuButton0] := by
  intro dev
  have hconnect : (setsuConnect minX minY).OneButton := ⟨Or.inl rfl, Or.inl rfl⟩
  have hdev : dev.OneButton := hconnect.events evs
  rcases hdev.prev with hprev | hprev <;> rcases hdev.cur with hcur | hcur <;> rw [hprev, hcur] <;>
    decide

/-! ## Runs -/

theorem mem_slotTouch {id cur : TrackingId} : id ∈ slotTouch cur ↔ id ≠ noTrackingId ∧ cur = id := by
  unfold slotTouch
  split
  · next hcur =>
    refine ⟨fun h => absurd h (Multiset.notMem_zero id), ?_⟩
    rintro ⟨hid, rfl⟩
    exact absurd hcur hid
  · next hcur =>
    rw [Multiset.mem_singleton]
    constructor
    · rintro rfl
      exact ⟨hcur, rfl⟩
    · exact fun h => h.2.symm

/-- The touches that are held are the ids of the slots. -/
theorem mem_held (dev : Touchpad) (id : TrackingId) :
    id ∈ dev.held ↔ id ≠ noTrackingId ∧ ∃ i : Fin slotsCount, (dev.slot i).trackingId = id := by
  unfold Touchpad.held
  rw [Bracket.mem_sum_map]
  constructor
  · rintro ⟨i, -, hi⟩
    exact ⟨(mem_slotTouch.mp hi).1, i, (mem_slotTouch.mp hi).2⟩
  · rintro ⟨hid, i, hi⟩
    exact ⟨i, List.mem_finRange i, mem_slotTouch.mpr ⟨hid, hi⟩⟩

theorem slots_connect (minX minY : BitVec 32) (i : Fin slotsCount) : (setsuConnect minX minY).slot i
    = ⟨noTrackingId, noTrackingId, 0, 0, false, false⟩ := Vector.getElem_replicate i.isLt

theorem clean_connect (minX minY : BitVec 32) : (setsuConnect minX minY).Clean := by
  intro i
  rw [slots_connect]
  exact ⟨rfl, rfl, rfl⟩

theorem right_connect (minX minY : BitVec 32) : TouchEventsRight (setsuConnect minX minY) [] := by
  refine ⟨fun e he => absurd he List.not_mem_nil, ?_⟩
  have hheld : (setsuConnect minX minY).held = 0 := Multiset.eq_zero_of_forall_notMem fun id hid => by
    obtain ⟨hne, i, hi⟩ := (mem_held _ id).mp hid
    rw [slots_connect] at hi
    exact hne hi.symm
  rw [hheld]
  rfl

/-- The events up to the last report. -/
def lastReport (evs : List InputEvent) : List InputEvent := evs.rdropWhile fun ev => decide (ev.code ≠ .synReport)

/-- The events behind the last report. -/
def sinceReport (evs : List InputEvent) : List InputEvent := evs.rtakeWhile fun ev => decide (ev.code ≠ .synReport)

/-- What was sent for the events is right. -/
def RightAfter (dev : Touchpad) (evs : List InputEvent) : Prop :=
  TouchEventsRight (deviceEvents dev evs).1 (deviceEvents dev evs).2

theorem lastReport_append_sinceReport (evs : List InputEvent) : lastReport evs ++ sinceReport evs = evs :=
  List.rdropWhile_append_rtakeWhile

theorem ne_synReport_of_mem_sinceReport (hev : ev ∈ sinceReport evs) : ev.code ≠ .synReport := by
  have hdecide := List.mem_rtakeWhile_imp hev
  exact of_decide_eq_true hdecide

/-- In front of the last report there is nothing, or the event that made it. -/
theorem lastReport_cases (evs : List InputEvent) :
    lastReport evs = [] ∨ ∃ pre ev, lastReport evs = pre ++ [ev] ∧ ev.code = .synReport := by
  by_cases hnil : lastReport evs = []
  · exact Or.inl hnil
  · refine Or.inr ⟨_, _, (List.dropLast_append_getLast hnil).symm, ?_⟩
    have hlast := List.rdropWhile_last_not _ evs hnil
    rw [decide_eq_true_eq, not_not] at hlast
    exact hlast

theorem deviceEvents_synReport (dev : Touchpad) (hev : ev.code = .synReport) :
    deviceEvents dev [ev] = deviceDrain dev := by
  rw [deviceEvents, deviceEvents, deviceEvent, hev]
  exact Prod.ext rfl (List.append_nil _)

theorem clean_lastReport (hclean : dev.Clean) (evs : List InputEvent) :
    (deviceEvents dev (lastReport evs)).1.Clean := by
  rcases lastReport_cases evs with hnil | ⟨pre, ev, hpre, hev⟩
  · rw [hnil]
    exact hclean
  · rw [hpre, deviceEvents_append, deviceEvents_synReport _ hev]
    exact clean_drained _

/-- A report that follows what was right. -/
theorem rightAfter_report_iff (hclean : dev.Clean) (hev : ev.code = .synReport)
    (hright : RightAfter dev (lastReport evs)) :
    RightAfter dev (evs ++ [ev]) ↔ ReportOk (deviceEvents dev (lastReport evs)).1 (sinceReport evs) := by
  have hcut : evs ++ [ev] = lastReport evs ++ (sinceReport evs ++ [ev]) := by
    rw [← List.append_assoc, lastReport_append_sinceReport]
  rw [← report_right_iff (clean_lastReport hclean evs) hright (fun ev' => ne_synReport_of_mem_sinceReport) hev]
  unfold RightAfter
  rw [hcut, deviceEvents_append dev (lastReport evs)]

/-- What holds after every report up to here, holds after the last one. -/
theorem rightAfter_lastReport (hdev : TouchEventsRight dev [])
    (h : ∀ pre ev, pre ++ [ev] <+: evs → ev.code = .synReport → RightAfter dev (pre ++ [ev])) :
    RightAfter dev (lastReport evs) := by
  rcases lastReport_cases evs with hnil | ⟨pre, ev, hpre, hev⟩
  · rw [hnil]
    exact hdev
  · rw [hpre]
    exact h pre ev (hpre ▸ List.rdropWhile_prefix _ _) hev

/-- Every report of the events is one that the slots can tell. -/
def ReportsOk (dev : Touchpad) (evs : List InputEvent) : Prop :=
  ∀ pre ev, pre ++ [ev] <+: evs → ev.code = .synReport →
    ReportOk (deviceEvents dev (lastReport pre)).1 (sinceReport pre)

/-- Reports that the slots can tell are told right, one after another. -/
theorem ReportsOk.rightAfter (hclean : dev.Clean) (hdev : TouchEventsRight dev []) (hok : ReportsOk dev evs) :
    ∀ pre ev, pre ++ [ev] <+: evs → ev.code = .synReport → RightAfter dev (pre ++ [ev]) := by
  intro pre
  induction hn : pre.length using Nat.strong_induction_on generalizing pre with
  | _ n ih =>
    intro ev hpre hev
    have hlast : RightAfter dev (lastReport pre) := rightAfter_lastReport hdev fun pre' ev' hpre' hev' => by
      have hlen := hpre'.length_le
      rw [List.length_append, List.length_singleton] at hlen
      exact ih pre'.length (by omega) pre' rfl ev' (hpre'.trans ((List.prefix_append pre [ev]).trans hpre)) hev'
    exact (rightAfter_report_iff hclean hev hlast).mpr (hok pre ev hpre hev)

theorem reportsOk_of_rightAfter (hclean : dev.Clean) (hdev : TouchEventsRight dev [])
    (hright : ∀ pre ev, pre ++ [ev] <+: evs → ev.code = .synReport → RightAfter dev (pre ++ [ev])) :
    ReportsOk dev evs := by
  intro pre ev hpre hev
  have hlast : RightAfter dev (lastReport pre) := rightAfter_lastReport hdev fun pre' ev' hpre' hev' =>
    hright pre' ev' (hpre'.trans ((List.prefix_append pre [ev]).trans hpre)) hev'
  exact (rightAfter_report_iff hclean hev hlast).mp (hright pre ev hpre hev)

/-- **Touch events are right after every report** if and only if every report is one that the slots can tell. What
is open then are the ids of the slots. -/
theorem touches_right_iff (minX minY : BitVec 32) (evs : List InputEvent) :
    (ReportsOk (setsuConnect minX minY) evs ↔
      ∀ pre ev, pre ++ [ev] <+: evs → ev.code = .synReport → RightAfter (setsuConnect minX minY) (pre ++ [ev])) ∧
    ∀ (dev : Touchpad) (id : TrackingId),
      id ∈ dev.held ↔ id ≠ noTrackingId ∧ ∃ i : Fin slotsCount, (dev.slot i).trackingId = id :=
  ⟨⟨fun hok => hok.rightAfter (clean_connect minX minY) (right_connect minX minY),
    reportsOk_of_rightAfter (clean_connect minX minY) (right_connect minX minY)⟩, mem_held⟩

-- a touch that is replaced in one report
example : openTouches (deviceEvents (setsuConnect 0 0) [⟨.absMtTrackingId, 5⟩, ⟨.synReport, 0⟩,
    ⟨.absMtTrackingId, -1⟩, ⟨.absMtTrackingId, 6⟩, ⟨.synReport, 0⟩]).2 = some {6} := by decide +kernel

/-- A touch that is new and lifted in one report. -/
theorem touches_right_lifted :
    (deviceEvents (setsuConnect 0 0) [⟨.absMtTrackingId, 5⟩, ⟨.absMtTrackingId, -1⟩, ⟨.synReport, 0⟩]).2
      = [.touchUp 5, .touchDown noTrackingId] ∧
    ¬ RightAfter (setsuConnect 0 0) [⟨.absMtTrackingId, 5⟩, ⟨.absMtTrackingId, -1⟩, ⟨.synReport, 0⟩] := by
  have hsent :
      (deviceEvents (setsuConnect 0 0) [⟨.absMtTrackingId, 5⟩, ⟨.absMtTrackingId, -1⟩, ⟨.synReport, 0⟩]).2
        = [.touchUp 5, .touchDown noTrackingId] := by
    decide +kernel
  refine ⟨hsent, fun h => ?_⟩
  have hvalid := h.valid
  rw [hsent] at hvalid
  exact hvalid (.touchDown noTrackingId) (List.mem_cons_of_mem _ List.mem_cons_self) rfl

end Device

end Chiaki
