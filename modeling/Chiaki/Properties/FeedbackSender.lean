import Chiaki.FeedbackSender
import Chiaki.Infra.SlotDiff
import Mathlib.Data.List.Basic

/-!
# What the events of the controller say

`feedbackHistory_replays_iff`: whoever applies the events to the last state of the controller gets the
new one if and only if every touch slot follows (`TouchesFollow`).

* A slot that gets a touch in place of another only reports that the other is up, and a touch that
  moves to the slot in front of its own is reported down and then up (`not_feedbackHistory_replays`).
-/

namespace Chiaki

open Infra

variable {μ : Type} {prev now a b : ControllerState μ} {near : μ → μ → Bool}

/-! ## The other side -/

/-- What an event says. -/
inductive RemoteEvent
  | button (i : Nat) (pressed : Bool)
  | l2 (state : UInt8)
  | r2 (state : UInt8)
  | touch (event : SlotDiff.Event Int (Nat × Nat))
  deriving DecidableEq

/-- The controller as the other side sees it. -/
structure RemoteView where
  buttons : Nat → Bool
  l2 : UInt8
  r2 : UInt8
  touches : Int → Option (Nat × Nat)

def RemoteView.apply (v : RemoteView) : RemoteEvent → RemoteView
  | .button i pressed => { v with buttons := Function.update v.buttons i pressed }
  | .l2 state => { v with l2 := state }
  | .r2 state => { v with r2 := state }
  | .touch event => { v with touches := event.apply v.touches }

/-- The codes of the buttons that send their state. -/
def stateCodes : List (UInt8 × Nat) :=
  [(0x88, 0), (0x89, 1), (0x8a, 2), (0x8b, 3), (0x82, 4), (0x83, 5), (0x80, 6), (0x81, 7), (0x84, 8),
    (0x85, 9)]

/-- The codes of the buttons that have two. -/
def pressCodes : List (UInt8 × Nat × Bool) :=
  [(0x8f, 10, false), (0xaf, 10, true), (0x90, 11, false), (0xb0, 11, true), (0x8c, 12, false),
    (0xac, 12, true), (0x8d, 13, false), (0xad, 13, true), (0x91, 14, false), (0xb1, 14, true),
    (0x8e, 15, false), (0xae, 15, true)]

/-- An event is read. -/
def remoteEvent : Bytes → Option RemoteEvent
  | [kind, code] =>
    if kind = 0x80 then (pressCodes.lookup code).map fun e => .button e.1 e.2 else none
  | [kind, code, state] =>
    if kind ≠ 0x80 then none
    else if code = 0x86 then some (.l2 state)
    else if code = 0x87 then some (.r2 state)
    else (stateCodes.lookup code).map fun i => .button i (state ≠ 0)
  | [kind, pointer, b2, b3, b4] =>
    if kind = 0xd0 then some (.touch (.place pointer.toNat
      (b2.toNat * 2 ^ 4 + b3.toNat / 2 ^ 4, b3.toNat % 2 ^ 4 * 2 ^ 8 + b4.toNat)))
    else if kind = 0xc0 then some (.touch (.release pointer.toNat))
    else none
  | _ => none

def replayEvents (v : RemoteView) (events : List Bytes) : Option RemoteView :=
  (events.mapM remoteEvent).map fun es => es.foldl RemoteView.apply v

abbrev TouchSlot := SlotDiff.Slot Int (Nat × Nat)

def touchSlot (t : ControllerTouch) : TouchSlot := if t.id < 0 then none else some (t.id, t.x, t.y)

def ControllerState.slots (s : ControllerState μ) : List TouchSlot := s.touches.map touchSlot

/-- The buttons, the triggers and the active touches of a state. -/
def ControllerState.view (s : ControllerState μ) : RemoteView where
  buttons := fun i => decide (i < controllerButtonsCount) && s.buttons.testBit i
  l2 := s.l2State
  r2 := s.r2State
  touches := SlotDiff.content s.slots

/-- Touches have different pointers from 0 to 127, and positions that fit into an event. -/
structure ValidTouches (s : ControllerState μ) : Prop where
  fits : ∀ t ∈ s.touches, t.id < 2 ^ 7 ∧ t.x < 2 ^ 12 ∧ t.y < 2 ^ 12
  distinct : (SlotDiff.keys s.slots).Nodup

/-- Every slot with a touch had it before, or was free and no later slot had it. -/
def TouchesFollow (prev now : ControllerState μ) : Prop := SlotDiff.Follows (prev.slots.zip now.slots)

instance (prev now : ControllerState μ) : Decidable (TouchesFollow prev now) :=
  inferInstanceAs (Decidable (SlotDiff.Follows _))

/-! ## Events are read as they were written -/

theorem remoteEvent_button (i : Nat) (hi : i < controllerButtonsCount) (pressed : Bool) :
    (feedbackHistoryEventSetButton (2 ^ i) (if pressed then 0xff else 0)).bind remoteEvent
      = some (.button i pressed) := by
  revert i pressed
  decide

/-- The byte with the end of `x` and the beginning of `y`. -/
theorem toNat_touchNibbles {y : Nat} (x : Nat) (hy : y < 2 ^ 12) :
    (UInt8.ofNat (x % 2 ^ 4 * 2 ^ 4) ||| UInt8.ofNat (y / 2 ^ 8)).toNat
      = x % 2 ^ 4 * 2 ^ 4 + y / 2 ^ 8 := by
  have hnibble : x % 2 ^ 4 * 2 ^ 4 < 2 ^ 8 := by omega
  have hupper : y / 2 ^ 8 < 2 ^ 4 := by omega
  rw [UInt8.toNat_or, UInt8.toNat_ofNat', UInt8.toNat_ofNat', Nat.mod_eq_of_lt hnibble,
    Nat.mod_eq_of_lt (show y / 2 ^ 8 < 2 ^ 8 by omega), Nat.mul_comm]
  exact (Nat.two_pow_add_eq_or_of_lt hupper _).symm

theorem remoteEvent_touch {down : Bool} {id : Int} {x y : Nat} (hid : 0 ≤ id) (hid' : id < 2 ^ 7)
    (hx : x < 2 ^ 12) (hy : y < 2 ^ 12) :
    remoteEvent (feedbackHistoryEventSetTouchpad down (id % 2 ^ 8).toNat x y)
      = some (.touch (if down then .place id (x, y) else .release id)) := by
  have hpointer : (((UInt8.ofNat ((id % 2 ^ 8).toNat % 2 ^ 7)).toNat : Nat) : Int) = id := by
    rw [UInt8.toNat_ofNat']
    omega
  have hor := toNat_touchNibbles x hy
  have hhigh : (UInt8.ofNat (x / 2 ^ 4)).toNat = x / 2 ^ 4 := by
    rw [UInt8.toNat_ofNat']
    omega
  have hlow : (UInt8.ofNat y).toNat = y % 2 ^ 8 := UInt8.toNat_ofNat'
  cases down with
  | true =>
    simp only [feedbackHistoryEventSetTouchpad, remoteEvent, if_true, hpointer, hor, hhigh, hlow]
    rw [show x / 2 ^ 4 * 2 ^ 4 + (x % 2 ^ 4 * 2 ^ 4 + y / 2 ^ 8) / 2 ^ 4 = x by omega,
      show (x % 2 ^ 4 * 2 ^ 4 + y / 2 ^ 8) % 2 ^ 4 * 2 ^ 8 + y % 2 ^ 8 = y by omega]
  | false =>
    simp only [feedbackHistoryEventSetTouchpad, remoteEvent, Bool.false_eq_true, if_false, hpointer]
    rfl

/-- What is read of the events of a list of parts. -/
theorem mapM_filterMap {α β γ : Type} {f : α → Option β} {g : β → Option γ} {h : α → List γ}
    {l : List α} (hf : ∀ x ∈ l, (f x).toList.mapM g = some (h x)) :
    (l.filterMap f).mapM g = some (l.flatMap h) := by
  induction l with
  | nil => rfl
  | cons x l ih =>
    have hx := hf x (List.mem_cons_self ..)
    have hrest := ih fun y hy => hf y (List.mem_cons_of_mem _ hy)
    rw [List.flatMap_cons, show (x :: l).filterMap f = (f x).toList ++ l.filterMap f by
      cases hfx : f x <;> simp [hfx], List.mapM_append, hx, hrest]
    rfl

/-- What the events of the buttons say. -/
def buttonReads (prev now : ControllerState μ) (i : Nat) : List RemoteEvent :=
  if prev.buttons.testBit i ≠ now.buttons.testBit i then [.button i (now.buttons.testBit i)] else []

theorem buttonEvent_read {i : Nat} (hi : i < controllerButtonsCount) :
    (buttonEvent prev now i).toList.mapM remoteEvent = some (buttonReads prev now i) := by
  unfold buttonEvent buttonReads
  split
  · have hread := remoteEvent_button i hi (now.buttons.testBit i)
    obtain ⟨event, hevent, hread⟩ := Option.bind_eq_some_iff.mp hread
    rw [hevent]
    simp [hread]
  · rfl

theorem mapM_singleton {event : Bytes} {e : RemoteEvent} (h : remoteEvent event = some e) :
    (some event).toList.mapM remoteEvent = some [e] := by
  rw [Option.toList_some, List.mapM_cons, h]
  rfl

theorem touchSlot_up {t : ControllerTouch} (h : t.id < 0) : touchSlot t = none := if_pos h

theorem touchSlot_down {t : ControllerTouch} (h : ¬ t.id < 0) : touchSlot t = some (t.id, t.x, t.y) :=
  if_neg h

theorem touchEvent_read {p n : ControllerTouch} (hp : p.id < 2 ^ 7 ∧ p.x < 2 ^ 12 ∧ p.y < 2 ^ 12)
    (hn : n.id < 2 ^ 7 ∧ n.x < 2 ^ 12 ∧ n.y < 2 ^ 12) :
    (touchEvent p n).toList.mapM remoteEvent
      = some ((SlotDiff.slotEvents (touchSlot p) (touchSlot n)).map .touch) := by
  have hdown : ¬ n.id < 0 → (p.id < 0 ∨ p.id = n.id) → (p.id ≠ n.id ∨ p.x ≠ n.x ∨ p.y ≠ n.y) →
      (touchEvent p n).toList.mapM remoteEvent = some [.touch (.place n.id (n.x, n.y))] := by
    intro hnid hfree hchanged
    unfold touchEvent
    rw [if_neg (by omega), if_pos ⟨by omega, hchanged⟩]
    exact mapM_singleton (remoteEvent_touch (by omega) hn.1 hn.2.1 hn.2.2)
  have hup : ¬ p.id < 0 → p.id ≠ n.id →
      (touchEvent p n).toList.mapM remoteEvent = some [.touch (.release p.id)] := by
    intro hpid hne
    unfold touchEvent
    rw [if_pos ⟨hne, by omega⟩]
    exact mapM_singleton (remoteEvent_touch (by omega) hp.1 hp.2.1 hp.2.2)
  by_cases hpid : p.id < 0
  · rw [touchSlot_up hpid]
    by_cases hnid : n.id < 0
    · rw [touchSlot_up hnid, touchEvent, if_neg (by omega), if_neg (by omega)]
      rfl
    · rw [hdown hnid (Or.inl hpid) (Or.inl (by omega)), touchSlot_down hnid]
      rfl
  · rw [touchSlot_down hpid]
    by_cases hsame : p.id = n.id
    · -- the touch has stayed, and may have moved
      have hnid : ¬ n.id < 0 := hsame ▸ hpid
      rw [touchSlot_down hnid, hsame]
      by_cases hmoved : p.x ≠ n.x ∨ p.y ≠ n.y
      · have hne : (p.x, p.y) ≠ (n.x, n.y) := by
          rw [Ne, Prod.mk.injEq]
          omega
        rw [hdown hnid (Or.inr hsame) (Or.inr hmoved)]
        simp [SlotDiff.slotEvents, hne]
      · have hne : (p.x, p.y) = (n.x, n.y) := by
          rw [Prod.mk.injEq]
          omega
        rw [touchEvent, if_neg (by omega), if_neg (by omega)]
        simp [SlotDiff.slotEvents, hne]
    · rw [hup hpid hsame]
      by_cases hnid : n.id < 0
      · rw [touchSlot_up hnid]
        rfl
      · rw [touchSlot_down hnid]
        simp [SlotDiff.slotEvents, hsame]

/-- **Everything that is sent can be read.** -/
theorem feedbackHistoryEvents_read (hprev : ValidTouches prev) (hnow : ValidTouches now) :
    (feedbackHistoryEvents prev now).mapM remoteEvent
      = some ((List.range controllerButtonsCount).flatMap (buttonReads prev now)
        ++ (if prev.l2State ≠ now.l2State then [.l2 now.l2State] else [])
        ++ (if prev.r2State ≠ now.r2State then [.r2 now.r2State] else [])
        ++ (SlotDiff.diff (prev.slots.zip now.slots)).map .touch) := by
  have hbuttons : ((List.range controllerButtonsCount).filterMap (buttonEvent prev now)).mapM remoteEvent
      = some ((List.range controllerButtonsCount).flatMap (buttonReads prev now)) :=
    mapM_filterMap fun i hi => buttonEvent_read (List.mem_range.mp hi)
  have hl2 : (analogButtonEvent controllerAnalogButtonL2 prev.l2State now.l2State).toList.mapM remoteEvent
      = some (if prev.l2State ≠ now.l2State then [.l2 now.l2State] else []) := by
    unfold analogButtonEvent
    split <;> rfl
  have hr2 : (analogButtonEvent controllerAnalogButtonR2 prev.r2State now.r2State).toList.mapM remoteEvent
      = some (if prev.r2State ≠ now.r2State then [.r2 now.r2State] else []) := by
    unfold analogButtonEvent
    split <;> rfl
  have htouches : ((prev.touches.zip now.touches).filterMap fun p => touchEvent p.1 p.2).mapM remoteEvent
      = some ((SlotDiff.diff (prev.slots.zip now.slots)).map .touch) := by
    rw [mapM_filterMap fun p hp => touchEvent_read (hprev.fits p.1 (List.of_mem_zip hp).1)
      (hnow.fits p.2 (List.of_mem_zip hp).2)]
    unfold SlotDiff.diff ControllerState.slots
    rw [List.zip_map, List.flatMap_map, List.map_flatMap]
    rfl
  unfold feedbackHistoryEvents
  rw [List.mapM_append, List.mapM_append, List.mapM_append, hbuttons, hl2, hr2, htouches]
  rfl

/-! ## One change -/

theorem foldl_buttonReads (is : List Nat) {v : RemoteView}
    (h : ∀ i ∈ is, prev.buttons.testBit i = now.buttons.testBit i →
      v.buttons i = now.buttons.testBit i) :
    (is.flatMap (buttonReads prev now)).foldl RemoteView.apply v
      = { v with buttons := fun i => if i ∈ is then now.buttons.testBit i else v.buttons i } := by
  induction is generalizing v with
  | nil => simp
  | cons i is ih =>
    rw [List.flatMap_cons, List.foldl_append]
    have hfirst : (buttonReads prev now i).foldl RemoteView.apply v
        = { v with buttons := Function.update v.buttons i (now.buttons.testBit i) } := by
      unfold buttonReads
      split
      · rfl
      · next hsame =>
        rw [← h i (List.mem_cons_self ..) (Decidable.not_not.mp hsame), Function.update_eq_self]
        rfl
    rw [hfirst, ih]
    · congr 1
      funext j
      by_cases hj : j = i
      · subst hj
        simp
      · simp [hj]
    · intro j hj hsame
      by_cases hji : j = i
      · rw [hji]
        exact Function.update_self ..
      · exact (Function.update_of_ne hji _ _).trans (h j (List.mem_cons_of_mem _ hj) hsame)

theorem foldl_touch (es : List (SlotDiff.Event Int (Nat × Nat))) (v : RemoteView) :
    (es.map RemoteEvent.touch).foldl RemoteView.apply v
      = { v with touches := SlotDiff.replay v.touches es } := by
  induction es generalizing v with
  | nil => rfl
  | cons e es ih =>
    rw [List.map_cons, List.foldl_cons, ih]
    rfl

theorem slots_zip (prev now : ControllerState μ) :
    (prev.slots.zip now.slots).map Prod.fst = prev.slots ∧
      (prev.slots.zip now.slots).map Prod.snd = now.slots := by
  have hlen : prev.slots.length = now.slots.length := by
    unfold ControllerState.slots
    rw [List.length_map, List.length_map, prev.length_touches, now.length_touches]
  exact ⟨List.map_fst_zip (Nat.le_of_eq hlen), List.map_snd_zip (Nat.le_of_eq hlen.symm)⟩

/-- Buttons and triggers are always right. -/
theorem replayEvents_eq (hprev : ValidTouches prev) (hnow : ValidTouches now) :
    replayEvents prev.view (feedbackHistoryEvents prev now) = some { now.view with
      touches := SlotDiff.replay (SlotDiff.content prev.slots)
        (SlotDiff.diff (prev.slots.zip now.slots)) } := by
  unfold replayEvents
  rw [feedbackHistoryEvents_read hprev hnow, Option.map_some, List.foldl_append, List.foldl_append,
    List.foldl_append, foldl_buttonReads, foldl_touch]
  · have hbuttons : (fun i => if i ∈ List.range controllerButtonsCount then now.buttons.testBit i
        else prev.view.buttons i) = now.view.buttons := by
      funext i
      by_cases hi : i < controllerButtonsCount
      · simp [ControllerState.view, hi]
      · simp [ControllerState.view, hi]
    rw [hbuttons]
    by_cases hl2 : prev.l2State = now.l2State
    · by_cases hr2 : prev.r2State = now.r2State
      · simp [hl2, hr2, ControllerState.view]
      · simp [hl2, hr2, ControllerState.view, RemoteView.apply]
    · by_cases hr2 : prev.r2State = now.r2State
      · simp [hl2, hr2, ControllerState.view, RemoteView.apply]
      · simp [hl2, hr2, ControllerState.view, RemoteView.apply]
  · intro i hi hsame
    rw [List.mem_range] at hi
    simp [ControllerState.view, hi, hsame]

/-- **The events of a change lead to the new state if and only if every touch slot follows.** -/
theorem replayEvents_iff (hprev : ValidTouches prev) (hnow : ValidTouches now) :
    replayEvents prev.view (feedbackHistoryEvents prev now) = some now.view ↔
      TouchesFollow prev now := by
  obtain ⟨hfst, hsnd⟩ := slots_zip prev now
  have hiff := @SlotDiff.replay_diff_iff _ _ _ _ (prev.slots.zip now.slots)
    (by rw [hfst]; exact hprev.distinct) (by rw [hsnd]; exact hnow.distinct)
  rw [hfst, hsnd] at hiff
  rw [replayEvents_eq hprev hnow, TouchesFollow, ← hiff]
  constructor
  · intro h
    have htouches := congrArg RemoteView.touches (Option.some.inj h)
    exact htouches
  · intro h
    rw [h]
    rfl

/-! ## Runs of the sender -/

variable {motion : μ} {s s' : FeedbackRun μ} {l : FeedbackLabel μ}

theorem touchSlot_of_equals {p n : ControllerTouch} (h : controllerTouchEquals p n = true) :
    touchSlot p = touchSlot n := by
  unfold controllerTouchEquals at h
  split at h
  · cases h
  · next hid =>
    rw [Decidable.not_not] at hid
    by_cases hup : p.id < 0
    · rw [touchSlot_up hup, touchSlot_up (hid ▸ hup)]
    · have hxy : p.x = n.x ∧ p.y = n.y := by
        simpa [Int.not_lt.mp hup] using h
      rw [touchSlot_down hup, touchSlot_down (hid ▸ hup), hid, hxy.1, hxy.2]

theorem slots_of_equals : ∀ {ps ns : List ControllerTouch}, ps.length = ns.length →
    (ps.zip ns).all (fun p => controllerTouchEquals p.1 p.2) = true → ps.map touchSlot = ns.map touchSlot
  | [], [], _, _ => rfl
  | p :: ps, n :: ns, hlen, h => by
    rw [List.zip_cons_cons, List.all_cons, Bool.and_eq_true] at h
    rw [List.map_cons, List.map_cons, touchSlot_of_equals h.1,
      slots_of_equals (Nat.succ.inj hlen) h.2]

/-- No events are needed for states that are equal in this sense. -/
theorem view_of_equals (h : controllerStateEqualsForFeedbackHistory a b = true) : a.view = b.view := by
  simp only [controllerStateEqualsForFeedbackHistory, Bool.and_eq_true, decide_eq_true_eq] at h
  obtain ⟨⟨⟨hbuttons, hl2⟩, hr2⟩, htouches⟩ := h
  have hslots : a.slots = b.slots :=
    slots_of_equals (a.length_touches.trans b.length_touches.symm) htouches
  unfold ControllerState.view
  rw [hbuttons, hl2, hr2, hslots]

def FeedbackEffect.pushed : FeedbackEffect μ → Option Bytes
  | .push event => some event
  | _ => none

/-- The events that were pushed to the history. -/
def pushedEvents (log : List (FeedbackEffect μ)) : List Bytes := log.filterMap FeedbackEffect.pushed

theorem pushedEvents_append (log log' : List (FeedbackEffect μ)) :
    pushedEvents (log ++ log') = pushedEvents log ++ pushedEvents log' := List.filterMap_append ..

theorem feedbackSenderSendHistoryPacket_spec (s : FeedbackSender μ) :
    pushedEvents (feedbackSenderSendHistoryPacket s).2 = [] ∧
      (feedbackSenderSendHistoryPacket s).1.controllerState = s.controllerState ∧
      (feedbackSenderSendHistoryPacket s).1.controllerStateChanged = s.controllerStateChanged := by
  unfold feedbackSenderSendHistoryPacket
  split <;> exact ⟨rfl, rfl, rfl⟩

theorem feedbackSenderPush_spec (events : List Bytes) (s : FeedbackSender μ) :
    pushedEvents (feedbackSenderPush events s).2 = events ∧
      (feedbackSenderPush events s).1.controllerState = s.controllerState ∧
      (feedbackSenderPush events s).1.controllerStateChanged = s.controllerStateChanged := by
  induction events generalizing s with
  | nil => exact ⟨rfl, rfl, rfl⟩
  | cons event events ih =>
    let s1 := { s with historyBuf := feedbackHistoryBufferPush s.historyBuf event }
    obtain ⟨hpacket, hstate, hchanged⟩ := feedbackSenderSendHistoryPacket_spec s1
    obtain ⟨hrest, hstate', hchanged'⟩ := ih (feedbackSenderSendHistoryPacket s1).1
    have hlog : pushedEvents (feedbackSenderPush (event :: events) s).2
        = event :: (pushedEvents (feedbackSenderSendHistoryPacket s1).2
          ++ pushedEvents (feedbackSenderPush events (feedbackSenderSendHistoryPacket s1).1).2) :=
      congrArg (event :: ·) (pushedEvents_append _ _)
    rw [hlog, hpacket, hrest]
    exact ⟨rfl, hstate'.trans hstate, hchanged'.trans hchanged⟩

/-- **A turn** sends the change since the last one, if there is any. -/
theorem feedbackSenderTurn_spec (near : μ → μ → Bool) (s : FeedbackSender μ) :
    (feedbackSenderTurn near s).1.controllerStatePrev = s.controllerState ∧
    (feedbackSenderTurn near s).1.controllerState = s.controllerState ∧
    (feedbackSenderTurn near s).1.controllerStateChanged = false ∧
    pushedEvents (feedbackSenderTurn near s).2 =
      if s.controllerStateChanged &&
          !controllerStateEqualsForFeedbackHistory s.controllerState s.controllerStatePrev then
        feedbackHistoryEvents s.controllerStatePrev s.controllerState
      else [] := by
  have hpush := feedbackSenderPush_spec (μ := μ)
    (feedbackHistoryEvents s.controllerStatePrev s.controllerState)
  unfold feedbackSenderTurn feedbackSenderSendHistory feedbackSenderSendState
  cases hstate : !(s.controllerStateChanged &&
      controllerStateEqualsForFeedbackState near s.controllerState s.controllerStatePrev) <;>
    cases hhistory : s.controllerStateChanged &&
      !controllerStateEqualsForFeedbackHistory s.controllerState s.controllerStatePrev <;>
    simp only [hstate, hhistory, Bool.false_eq_true, if_false, if_true, true_and]
  · rfl
  · exact ⟨(hpush _).2.1, (hpush _).2.1, (hpush _).2.2, (hpush _).1⟩
  · rfl
  · exact ⟨(hpush _).2.1, (hpush _).2.1, (hpush _).2.2, (hpush _).1⟩

theorem replayEvents_append (v : RemoteView) (es es' : List Bytes) :
    replayEvents v (es ++ es') = (replayEvents v es).bind fun v => replayEvents v es' := by
  unfold replayEvents
  rw [List.mapM_append]
  cases es.mapM remoteEvent with
  | none => rfl
  | some rs =>
    cases es'.mapM remoteEvent with
    | none => rfl
    | some rs' => simp

/-- Only valid states are given, and when the thread sends a change, every touch slot follows. -/
def feedbackFollows (s : FeedbackRun μ) : FeedbackLabel μ → Prop
  | .setControllerState state => ValidTouches state
  | .turn => s.sender.controllerStateChanged = true →
    TouchesFollow s.sender.controllerStatePrev s.sender.controllerState
  | .stop => True

/-- What the other side knows between two steps. -/
structure FeedbackSeen (motion : μ) (s : FeedbackRun μ) : Prop where
  prev : ValidTouches s.sender.controllerStatePrev
  now : ValidTouches s.sender.controllerState
  remote : replayEvents (controllerStateIdle motion).view (pushedEvents s.log)
    = some s.sender.controllerStatePrev.view
  settled : s.sender.controllerStateChanged = false →
    s.sender.controllerStatePrev.view = s.sender.controllerState.view
  given : s.sender.controllerState.view = s.given.view

theorem validTouches_idle (motion : μ) : ValidTouches (controllerStateIdle motion) := by
  constructor
  · intro t ht
    rw [List.eq_of_mem_replicate ht]
    decide
  · exact List.nodup_nil

theorem feedbackSeen_step (h : FeedbackSeen motion s) (hG : feedbackFollows s l)
    (hs : (feedbackLts near motion).step s l s') : FeedbackSeen motion s' := by
  replace hs : feedbackStep near s l = some s' := hs
  cases l with
  | setControllerState state =>
    cases hs
    unfold feedbackSenderSetControllerState
    split
    · next hequals =>
      rw [controllerStateEquals, Bool.and_eq_true] at hequals
      exact ⟨h.prev, h.now, h.remote, h.settled, view_of_equals hequals.1⟩
    · exact ⟨h.prev, hG, h.remote, fun hchanged => (by cases hchanged), rfl⟩
  | stop =>
    cases hs
    exact ⟨h.prev, h.now, h.remote, h.settled, h.given⟩
  | turn =>
    unfold feedbackStep at hs
    simp only at hs
    split at hs
    · cases hs
    · cases hs
      obtain ⟨hprev, hstate, hchanged, hpushed⟩ := feedbackSenderTurn_spec near s.sender
      refine ⟨by rw [hprev]; exact h.now, by rw [hstate]; exact h.now, ?_, fun _ => by rw [hprev, hstate],
        by rw [hstate]; exact h.given⟩
      rw [hprev, pushedEvents_append, replayEvents_append, h.remote, hpushed]
      cases hflag : s.sender.controllerStateChanged with
      | false =>
        rw [← h.settled hflag]
        rfl
      | true =>
        cases hequals : controllerStateEqualsForFeedbackHistory s.sender.controllerState
            s.sender.controllerStatePrev with
        | true =>
          rw [view_of_equals hequals]
          rfl
        | false => exact (replayEvents_iff h.prev h.now).mpr (hG hflag)

theorem feedbackSeen_invariant (near : μ → μ → Bool) (motion : μ) :
    ((feedbackLts near motion).restrict feedbackFollows).Invariant (FeedbackSeen motion) where
  init := by
    intro s hs
    rw [show s = _ from hs]
    exact ⟨validTouches_idle motion, validTouches_idle motion, rfl, fun _ => rfl, rfl⟩
  step := fun _ _ _ h hs => feedbackSeen_step h hs.1 hs.2

/-- **The events lead from one state of the controller to the next if and only if every touch slot
follows**, and in every run in which this is so, the other side has the state of the last turn, which is
the state given last unless that has not been sent yet. -/
theorem feedbackHistory_replays_iff (hprev : ValidTouches prev) (hnow : ValidTouches now) :
    (replayEvents prev.view (feedbackHistoryEvents prev now) = some now.view ↔
      TouchesFollow prev now) ∧
    ∀ (near : μ → μ → Bool) (motion : μ) (s : FeedbackRun μ),
      ((feedbackLts near motion).restrict feedbackFollows).Reachable s →
      replayEvents (controllerStateIdle motion).view (pushedEvents s.log)
        = some s.sender.controllerStatePrev.view ∧
      (s.sender.controllerStateChanged = false →
        s.sender.controllerStatePrev.view = s.given.view) := by
  refine ⟨replayEvents_iff hprev hnow, fun near motion s hr => ?_⟩
  have h := (feedbackSeen_invariant near motion).reachable hr
  exact ⟨h.remote, fun hflag => (h.settled hflag).trans h.given⟩

/-! ### Changes -/

instance (s : ControllerState μ) : Decidable (ValidTouches s) :=
  decidable_of_iff ((∀ t ∈ s.touches, t.id < 2 ^ 7 ∧ t.x < 2 ^ 12 ∧ t.y < 2 ^ 12) ∧
    (SlotDiff.keys s.slots).Nodup) ⟨fun h => ⟨h.1, h.2⟩, fun h => ⟨h.fits, h.distinct⟩⟩

/-- A controller with nothing but touches. -/
def touching (first second : ControllerTouch) : ControllerState Unit := { controllerStateIdle () with
  touches := [first, second]
  length_touches := rfl }

def noTouch : ControllerTouch := ⟨0, 0, -1⟩

/-- One touch goes up, and the other one moves. -/
theorem feedbackHistory_replays_up :
    replayEvents (touching ⟨100, 200, 1⟩ ⟨500, 600, 2⟩).view
        (feedbackHistoryEvents (touching ⟨100, 200, 1⟩ ⟨500, 600, 2⟩) (touching noTouch ⟨500, 601, 2⟩))
      = some (touching noTouch ⟨500, 601, 2⟩).view := by
  have hvalid : ValidTouches (touching ⟨100, 200, 1⟩ ⟨500, 600, 2⟩) := by decide
  have hvalid' : ValidTouches (touching noTouch ⟨500, 601, 2⟩) := by decide
  exact (feedbackHistory_replays_iff hvalid hvalid').1.mpr (by decide)

/-- A touch, and another one in its slot before the thread has its next turn. -/
def replacedTouch : List (FeedbackLabel Unit) :=
  [.setControllerState (touching ⟨100, 200, 1⟩ noTouch), .turn, .setControllerState (touching noTouch noTouch),
    .setControllerState (touching ⟨300, 400, 2⟩ noTouch), .turn, .turn]

/-- **A touch in place of another is not reported, and one that moves to the slot in front of its own is
lost.** -/
theorem not_feedbackHistory_replays :
    (∃ s : FeedbackRun Unit, (feedbackLts (fun _ _ => true) ()).Reachable s ∧
      Lts.runFun (feedbackStep fun _ _ => true) ⟨feedbackSenderInit (), [], controllerStateIdle ()⟩
        replacedTouch = some s ∧
      s.given = touching ⟨300, 400, 2⟩ noTouch ∧ s.sender.controllerStateChanged = false ∧
      pushedEvents s.log = [[0xd0, 1, 6, 0x40, 200], [0xc0, 1, 6, 0x40, 200]] ∧
      replayEvents (controllerStateIdle ()).view (pushedEvents s.log) ≠ some s.given.view) ∧
    (ValidTouches (touching noTouch ⟨100, 200, 1⟩) ∧ ValidTouches (touching ⟨100, 200, 1⟩ noTouch) ∧
      feedbackHistoryEvents (touching noTouch ⟨100, 200, 1⟩) (touching ⟨100, 200, 1⟩ noTouch)
        = [[0xd0, 1, 6, 0x40, 200], [0xc0, 1, 6, 0x40, 200]] ∧
      replayEvents (touching noTouch ⟨100, 200, 1⟩).view
          (feedbackHistoryEvents (touching noTouch ⟨100, 200, 1⟩) (touching ⟨100, 200, 1⟩ noTouch))
        ≠ some (touching ⟨100, 200, 1⟩ noTouch).view) := by
  constructor
  · have hrun : (Lts.runFun (feedbackStep fun _ _ => true)
        ⟨feedbackSenderInit (), [], controllerStateIdle ()⟩ replacedTouch).map
        (fun s => (s.given, s.sender.controllerStateChanged, pushedEvents s.log))
        = some (touching ⟨300, 400, 2⟩ noTouch, false,
          [[0xd0, 1, 6, 0x40, 200], [0xc0, 1, 6, 0x40, 200]]) := by
      decide +kernel
    obtain ⟨s, hrun, hobs⟩ := Option.map_eq_some_iff.mp hrun
    simp only [Prod.mk.injEq] at hobs
    obtain ⟨hgiven, hchanged, hpushed⟩ := hobs
    refine ⟨s, Lts.Reachable.runFun (.init rfl) hrun, hrun, hgiven, hchanged, hpushed, fun h => ?_⟩
    rw [hpushed, hgiven] at h
    -- the other side does not know touch 2
    have htouch := congrArg (Option.map fun v => v.touches 2) h
    exact absurd htouch (by decide)
  · have hvalid : ValidTouches (touching noTouch ⟨100, 200, 1⟩) := by decide
    have hvalid' : ValidTouches (touching ⟨100, 200, 1⟩ noTouch) := by decide
    refine ⟨hvalid, hvalid', by decide, fun h => ?_⟩
    exact absurd ((replayEvents_iff hvalid hvalid').mp h) (by decide)

end Chiaki
