import Mathlib.Data.List.Induction
import Chiaki.FeedbackHistory
import Chiaki.Infra.PrefixCode
import Chiaki.Infra.Ring
import Chiaki.Properties.Common
import Chiaki.Properties.FeedbackSender

/-!
# What the feedback history writes

* `feedbackHistoryBuffer_format` — the events that were pushed last, from the newest one on, if they
  fit; if not, nothing behind the end of the output
* `feedbackHistory_decodable` — what was written tells which events they were
-/

namespace Chiaki

open Infra

variable {s s' : FeedbackHistoryBuffer} {recent : List FeedbackHistoryEvent} {buf : Bytes}
  {n bufSize : Nat}

/-- What is written for some events. -/
def eventBytes (events : List FeedbackHistoryEvent) : Bytes := events.flatMap FeedbackHistoryEvent.bytes

@[simp] theorem eventBytes_nil : eventBytes [] = [] := rfl

@[simp] theorem eventBytes_cons (e : FeedbackHistoryEvent) (es : List FeedbackHistoryEvent) :
    eventBytes (e :: es) = e.bytes ++ eventBytes es := List.flatMap_cons

theorem length_eventBytes_le (es : List FeedbackHistoryEvent) :
    (eventBytes es).length ≤ historyEventSizeMax * es.length := by
  induction es with
  | nil => exact Nat.zero_le _
  | cons e es ih =>
    have hlen := e.length_bytes
    rw [eventBytes_cons, List.length_append, List.length_cons, Nat.mul_succ]
    omega

/-! ## The ring -/

/-- The ring holds `recent`, the newest event first, and its counters do not overflow. -/
structure HoldsRecent (s : FeedbackHistoryBuffer) (n : Nat) (recent : List FeedbackHistoryEvent) :
    Prop where
  pos : 0 < n
  capacity : s.size = n
  memory : n * sizeofFeedbackHistoryEvent < 2 ^ 64
  events : s.events.length = n
  begin : s.begin < n
  len : s.len = recent.length
  fits : recent.length ≤ n
  cells : Ring.Holds (fun k => s.events[k]?) n s.begin recent.length (fun k => recent[k]?) 0

theorem holdsRecent_init {mem : Bool} (hpos : 0 < n)
    (h : feedbackHistoryBufferInit mem n = some s) : HoldsRecent s n [] := by
  unfold feedbackHistoryBufferInit at h
  split at h
  · cases h
  · next hmem =>
    cases h
    rw [Bool.or_eq_true, not_or, decide_eq_true_eq] at hmem
    exact ⟨hpos, rfl, Nat.not_le.mp hmem.2, List.length_replicate, hpos, rfl, Nat.zero_le _,
      Ring.holds_zero _ _ _ _ _⟩

/-- **A new event comes to the front**, and the oldest one goes if the ring is full. -/
theorem HoldsRecent.push (h : HoldsRecent s n recent) (e : FeedbackHistoryEvent) :
    ∃ s', s.push e = .ok s' ∧ HoldsRecent s' n ((e :: recent).take n) := by
  have hpos := h.pos
  have hmemory := h.memory
  have hbegin := h.begin
  have hfits := h.fits
  have hlen := h.len
  unfold sizeofFeedbackHistoryEvent at hmemory
  have hfront : (s.begin + s.size - 1) % 2 ^ 64 % s.size = (s.begin + n - 1) % n := by
    rw [h.capacity, Nat.mod_eq_of_lt (a := s.begin + n - 1) (by omega)]
  have hlt : (s.begin + n - 1) % n < n := Nat.mod_lt _ hpos
  have hcount : ((e :: recent).take n).length = min (recent.length + 1) n := by
    rw [List.length_take, List.length_cons, Nat.min_comm]
  have hpush : s.push e = .ok { s with
      begin := (s.begin + n - 1) % n
      len := if (s.len + 1) % 2 ^ 64 ≥ s.size then s.size else (s.len + 1) % 2 ^ 64
      events := s.events.set ((s.begin + n - 1) % n) e } := by
    rw [FeedbackHistoryBuffer.push, hfront, if_pos (hlt.trans_eq h.events.symm)]
  refine ⟨_, hpush, hpos, h.capacity, h.memory, ?_, hlt, ?_, ?_, ?_⟩
  · exact List.length_set.trans h.events
  · simp only
    rw [hcount, hlen, h.capacity, Nat.mod_eq_of_lt (by omega)]
    split <;> omega
  · rw [hcount]
    exact Nat.min_le_right _ _
  · -- all but the oldest one, if there is no place for it
    obtain ⟨kept, hkept⟩ : ∃ kept, min (recent.length + 1) n = kept + 1 :=
      ⟨_, (Nat.succ_pred (by omega)).symm⟩
    rw [hcount, hkept]
    refine (h.cells.take (show kept ≤ recent.length by omega)).cons (by omega) ?_ (fun j hj => ?_)
      fun off hoff => ?_
    · rw [List.getElem?_set_self (hlt.trans_eq h.events.symm), List.getElem?_take_of_lt hpos]
      rfl
    · exact List.getElem?_set_ne hj.symm
    · rw [List.getElem?_take_of_lt (by omega), List.getElem?_cons_succ, Nat.zero_add]

/-- All events are pushed, one after the other. -/
def pushEvents (s : FeedbackHistoryBuffer) (events : List FeedbackHistoryEvent) :
    Except Fault FeedbackHistoryBuffer := events.foldlM FeedbackHistoryBuffer.push s

theorem HoldsRecent.pushEvents (h : HoldsRecent s n recent) (es : List FeedbackHistoryEvent) :
    ∃ s', Chiaki.pushEvents s es = .ok s' ∧ HoldsRecent s' n ((es.reverse ++ recent).take n) := by
  induction es generalizing s recent with
  | nil =>
    refine ⟨s, rfl, ?_⟩
    rw [List.reverse_nil, List.nil_append, List.take_of_length_le h.fits]
    exact h
  | cons e es ih =>
    obtain ⟨s1, hpush, h1⟩ := h.push e
    obtain ⟨s', hrest, h'⟩ := ih h1
    refine ⟨s', ?_, ?_⟩
    · rw [Chiaki.pushEvents, List.foldlM_cons, hpush]
      exact hrest
    · have hsame : (es.reverse ++ (e :: recent).take n).take n
          = ((e :: es).reverse ++ recent).take n := by
        rw [List.reverse_cons, List.append_assoc, List.singleton_append, List.take_append,
          List.take_append, List.take_take, Nat.min_eq_left (Nat.sub_le _ _)]
      rw [← hsame]
      exact h'

/-! ## Writing the events -/

/-- What the loop does with the events that are left: it writes all of them, or stops in front of the
end. -/
inductive FormatResult (buf : Bytes) (written sizeMax : Nat) (rest : Bytes) :
    Except Fault (Bytes × Option Nat) → Prop
  | fits (h : written + rest.length ≤ sizeMax) :
    FormatResult buf written sizeMax rest (.ok (splice buf written rest, some (written + rest.length)))
  | tooSmall (buf' : Bytes) (h : sizeMax < written + rest.length) (hlen : buf'.length = buf.length)
      (hbehind : buf'.drop sizeMax = buf.drop sizeMax) :
    FormatResult buf written sizeMax rest (.ok (buf', none))

theorem HoldsRecent.formatLoop (h : HoldsRecent s n recent) {sizeMax : Nat}
    {rest : List FeedbackHistoryEvent} {i written : Nat} {buf : Bytes} (hrest : recent.drop i = rest)
    (hwritten : written ≤ historyEventSizeMax * i) (hle : written ≤ sizeMax) (hbuf : sizeMax ≤ buf.length) :
    FormatResult buf written sizeMax (eventBytes rest) (s.formatLoop sizeMax rest.length i written buf) := by
  induction rest generalizing i written buf with
  | nil =>
    have hsame : splice buf written [] = buf := by
      rw [splice, List.append_nil, List.length_nil, Nat.add_zero, List.take_append_drop]
    have hfits := @FormatResult.fits buf written sizeMax [] hle
    rw [hsame] at hfits
    exact hfits
  | cons e rest ih =>
    have hi : i < recent.length := by
      by_contra hge
      rw [List.drop_eq_nil_of_le (Nat.not_lt.mp hge)] at hrest
      cases hrest
    obtain ⟨hevent, hnext⟩ := List.cons_eq_cons.mp ((List.drop_eq_getElem_cons hi).symm.trans hrest)
    have hmemory := h.memory
    have hfits := h.fits
    have hbegin := h.begin
    have hlen := e.length_bytes
    unfold historyEventSizeMax at hwritten hlen
    unfold sizeofFeedbackHistoryEvent at hmemory
    have hcell : s.events[(s.begin + i) % 2 ^ 64 % s.size]? = some e := by
      have hcells : s.events[(s.begin + i) % n]? = recent[0 + i]? := h.cells i hi
      rw [h.capacity, Nat.mod_eq_of_lt (a := s.begin + i) (by omega), hcells, Nat.zero_add,
        List.getElem?_eq_getElem hi, hevent]
    have hsum : (written + e.len) % 2 ^ 64 = written + e.bytes.length := by
      rw [FeedbackHistoryEvent.len, Nat.mod_eq_of_lt (by omega)]
    rw [List.length_cons, FeedbackHistoryBuffer.formatLoop, hcell, eventBytes_cons]
    simp only [hsum]
    by_cases htoo : written + e.bytes.length > sizeMax
    · rw [if_pos htoo]
      refine .tooSmall buf ?_ rfl rfl
      rw [List.length_append]
      omega
    · rw [if_neg htoo, if_neg (by rw [FeedbackHistoryEvent.len]; omega)]
      have hsplice : (splice buf written e.bytes).length = buf.length := length_splice (by omega)
      have hres := @ih (i + 1) (written + e.bytes.length) (splice buf written e.bytes) hnext
        (by unfold historyEventSizeMax; omega) (Nat.not_lt.mp htoo) (by rw [hsplice]; exact hbuf)
      generalize s.formatLoop sizeMax rest.length (i + 1) (written + e.bytes.length) _ = result at hres ⊢
      cases hres with
      | fits hfit =>
        rw [splice_append_data (by omega), Nat.add_assoc, ← List.length_append]
        exact .fits (by rw [List.length_append]; omega)
      | tooSmall buf' hsmall hlen' hbehind =>
        refine .tooSmall buf' ?_ (hlen'.trans hsplice) (hbehind.trans (drop_splice (by omega) (by omega)))
        rw [List.length_append]
        omega

/-- What `chiaki_feedback_history_buffer_format` does: it writes all events and the size of them, or
it fails, and then nothing behind the end and not the size. -/
structure FormatsRecent (s : FeedbackHistoryBuffer) (recent : List FeedbackHistoryEvent) (buf : Bytes)
    (bufSize : Nat) : Prop where
  fits : (eventBytes recent).length ≤ bufSize →
    s.format buf bufSize = .ok (splice buf 0 (eventBytes recent), (eventBytes recent).length, .success)
  tooSmall : bufSize < (eventBytes recent).length →
    ∃ buf', s.format buf bufSize = .ok (buf', bufSize, .bufTooSmall) ∧ buf'.length = buf.length ∧
      buf'.drop bufSize = buf.drop bufSize

theorem HoldsRecent.format (h : HoldsRecent s n recent) (hbuf : bufSize ≤ buf.length) :
    FormatsRecent s recent buf bufSize := by
  have hloop := h.formatLoop (i := 0) (List.drop_zero (l := recent)) (Nat.zero_le _) (Nat.zero_le _) hbuf
  have hlen := h.len
  generalize hresult : s.formatLoop bufSize recent.length 0 0 buf = result at hloop
  cases hloop with
  | fits hfit =>
    rw [Nat.zero_add] at hfit
    refine ⟨fun _ => ?_, fun hsmall => absurd hfit (Nat.not_le.mpr hsmall)⟩
    rw [FeedbackHistoryBuffer.format, hlen, hresult, Nat.zero_add]
    rfl
  | tooSmall buf' hsmall hlen' hbehind =>
    rw [Nat.zero_add] at hsmall
    refine ⟨fun hfit => absurd hfit (Nat.not_le.mpr hsmall), fun _ => ⟨buf', ?_, hlen', hbehind⟩⟩
    rw [FeedbackHistoryBuffer.format, hlen, hresult]
    rfl

/-- **The last events are written, the newest one first**, for every capacity and every number of
events. The events of a full history of 16 fit into the 0x300 bytes of the sender. -/
theorem feedbackHistoryBuffer_format {mem : Bool} {s0 : FeedbackHistoryBuffer} (hn : 0 < n)
    (hinit : feedbackHistoryBufferInit mem n = some s0) (es : List FeedbackHistoryEvent) :
    ∃ s, pushEvents s0 es = .ok s ∧
      (∀ (buf : Bytes) bufSize, bufSize ≤ buf.length → FormatsRecent s (es.reverse.take n) buf bufSize) ∧
      (n = feedbackHistoryBufferSize → ∀ buf : Bytes, buf.length = 0x300 →
        ∃ buf' written, s.format buf 0x300 = .ok (buf', written, .success)) := by
  obtain ⟨s, hpush, h⟩ := (holdsRecent_init hn hinit).pushEvents es
  rw [List.append_nil] at h
  refine ⟨s, hpush, fun buf bufSize hbuf => h.format hbuf, fun hsize buf hbuf => ?_⟩
  have hfits : (eventBytes (es.reverse.take n)).length ≤ 0x300 := by
    have hbytes := length_eventBytes_le (es.reverse.take n)
    have hcount := h.fits
    unfold historyEventSizeMax at hbytes
    unfold feedbackHistoryBufferSize at hsize
    omega
  exact ⟨_, _, (h.format (Nat.le_of_eq hbuf.symm)).fits hfits⟩

/-- The event of a button that was pressed. -/
def pressedEvent (code : UInt8) : FeedbackHistoryEvent :=
  ⟨[0x80, code, 0xff], show 3 ≤ historyEventSizeMax by decide⟩

theorem feedbackHistoryBuffer_format_three : ∃ s0 s, feedbackHistoryBufferInit true 2 = some s0 ∧
    pushEvents s0 [pressedEvent 0x88, pressedEvent 0x89, pressedEvent 0x8a] = .ok s ∧
    s.format (List.replicate 8 0) 8 = .ok ([0x80, 0x8a, 0xff, 0x80, 0x89, 0xff, 0, 0], 6, .success) := by
  obtain ⟨s0, hinit⟩ : ∃ s0, feedbackHistoryBufferInit true 2 = some s0 := ⟨_, rfl⟩
  obtain ⟨s, hpush, hformat, -⟩ := feedbackHistoryBuffer_format (by decide) hinit
    [pressedEvent 0x88, pressedEvent 0x89, pressedEvent 0x8a]
  exact ⟨s0, s, hinit, hpush, (hformat (List.replicate 8 0) 8 (by decide)).fits (by decide)⟩

/-! ## The history of the sender -/

/-- The events of the list are those of the ring. -/
theorem foldl_feedbackHistoryBufferPush (es : List FeedbackHistoryEvent) :
    (es.map FeedbackHistoryEvent.bytes).foldl feedbackHistoryBufferPush []
      = (es.reverse.take feedbackHistoryBufferSize).map FeedbackHistoryEvent.bytes := by
  induction es using List.reverseRecOn with
  | nil => rfl
  | append_singleton es e ih =>
    rw [List.map_append, List.foldl_append, ih, List.reverse_append]
    simp [feedbackHistoryBufferPush, feedbackHistoryBufferSize, List.map_take, List.take_take]

/-- What `feedback_sender_send_history_packet` sends after the history was written. -/
def formattedHistory : Except Fault (Bytes × Nat × ErrorCode) → Option Bytes
  | .ok (buf, size, .success) => some (buf.take size)
  | _ => none

/-- **The ring writes what `FeedbackSender` sends**: its list of events is what the ring stands for. -/
theorem feedbackHistoryBuffer_refines {mem : Bool} {s0 : FeedbackHistoryBuffer}
    (hinit : feedbackHistoryBufferInit mem feedbackHistoryBufferSize = some s0)
    (es : List FeedbackHistoryEvent) (hbuf : bufSize ≤ buf.length) :
    ∃ s, pushEvents s0 es = .ok s ∧ formattedHistory (s.format buf bufSize)
      = feedbackHistoryBufferFormat
          ((es.map FeedbackHistoryEvent.bytes).foldl feedbackHistoryBufferPush []) bufSize := by
  obtain ⟨s, hpush, h⟩ := (holdsRecent_init (by decide) hinit).pushEvents es
  rw [List.append_nil] at h
  have hformat := h.format hbuf
  refine ⟨s, hpush, ?_⟩
  rw [foldl_feedbackHistoryBufferPush, feedbackHistoryBufferFormat, ← List.flatMap_def]
  by_cases hsmall : bufSize < (eventBytes (es.reverse.take feedbackHistoryBufferSize)).length
  · obtain ⟨buf', hbuf', -⟩ := hformat.tooSmall hsmall
    rw [hbuf']
    exact (if_pos hsmall).symm
  · rw [hformat.fits (Nat.not_lt.mp hsmall)]
    refine Eq.trans ?_ (if_neg hsmall).symm
    exact congrArg some (List.take_left' rfl)

/-! ## Which events they were -/

/-- What the protocol has for an input: a pointer below 128 and a position of 12 bits. -/
def FeedbackInput.Valid : FeedbackInput → Prop
  | .button _ _ => True
  | .touchpad _ pointerId x y => pointerId < 2 ^ 7 ∧ x < 2 ^ 12 ∧ y < 2 ^ 12

/-- The event was built of this input, and the input was accepted. -/
structure Builds (input : FeedbackInput) (event : FeedbackHistoryEvent) : Prop where
  valid : input.Valid
  bytes : input.bytes? = some event.bytes

/-- The buttons whose state is in the code: L3, R3, OPTIONS, SHARE, TOUCHPAD and PS. -/
def pressButtons : List (Nat × UInt8 × UInt8) :=
  [(0x400, 0xaf, 0x8f), (0x800, 0xb0, 0x90), (0x1000, 0xac, 0x8c), (0x2000, 0xad, 0x8d),
    (0x4000, 0xb1, 0x91), (0x8000, 0xae, 0x8e)]

/-- The other ones. -/
def stateButtons : List (Nat × UInt8) :=
  [(0x1, 0x88), (0x2, 0x89), (0x4, 0x8a), (0x8, 0x8b), (0x10, 0x82), (0x20, 0x83), (0x40, 0x80),
    (0x80, 0x81), (0x100, 0x84), (0x200, 0x85), (0x10000, 0x86), (0x20000, 0x87)]

/-- The two inputs are the same for the other side. -/
def SameInput : FeedbackInput → FeedbackInput → Prop
  | .button id state, .button id' state' =>
    id = id' ∧ if id ∈ pressButtons.map Prod.fst then (state = 0 ↔ state' = 0) else state = state'
  | .touchpad down pointerId x y, .touchpad down' pointerId' x' y' =>
    down = down' ∧ pointerId = pointerId' ∧ x = x' ∧ y = y'
  | _, _ => False

/-- The words of the stream. -/
inductive EventWord : Bytes → Prop
  | state (id : Nat) (code state : UInt8) (h : (id, code) ∈ stateButtons) : EventWord [0x80, code, state]
  | press (id : Nat) (pressed released state : UInt8) (h : (id, pressed, released) ∈ pressButtons) :
    EventWord [0x80, if state ≠ 0 then pressed else released]
  | touch (down : Bool) (pointerId x y : Nat) :
    EventWord (feedbackHistoryEventSetTouchpad down pointerId x y)

/-- An event of a button is one of the two kinds. -/
theorem feedbackHistoryEventSetButton_cases {id : Nat} {state : UInt8} {bytes : Bytes}
    (h : feedbackHistoryEventSetButton id state = some bytes) :
    (∃ code, (id, code) ∈ stateButtons ∧ bytes = [0x80, code, state]) ∨
      ∃ pressed released, (id, pressed, released) ∈ pressButtons ∧
        bytes = [0x80, if state ≠ 0 then pressed else released] := by
  unfold feedbackHistoryEventSetButton at h
  split at h
  case h_19 => cases h
  all_goals
    cases h
    first
      | exact .inl ⟨_, by decide, rfl⟩
      | exact .inr ⟨_, _, by decide, rfl⟩

theorem eventWord_of_builds {input : FeedbackInput} {event : FeedbackHistoryEvent}
    (h : Builds input event) : EventWord event.bytes := by
  have hbytes := h.bytes
  cases input with
  | button id state =>
    rcases feedbackHistoryEventSetButton_cases hbytes with ⟨code, hmem, he⟩ | ⟨pressed, released, hmem, he⟩
    · rw [he]
      exact .state id code state hmem
    · rw [he]
      exact .press id pressed released state hmem
  | touchpad down pointerId x y =>
    rw [← Option.some.inj hbytes]
    exact .touch down pointerId x y

/-- The codes of the two kinds are different. -/
theorem stateButtons_ne_pressButtons : ∀ p ∈ stateButtons, ∀ q ∈ pressButtons,
    p.1 ≠ q.1 ∧ p.2 ≠ q.2.1 ∧ p.2 ≠ q.2.2 := by
  decide

theorem stateButtons_inj : ∀ p ∈ stateButtons, ∀ q ∈ stateButtons, p.2 = q.2 → p.1 = q.1 := by decide

/-- A code belongs to one button, pressed or released. -/
theorem pressButtons_inj : ∀ p ∈ pressButtons, ∀ q ∈ pressButtons,
    (p.2.1 = q.2.1 → p.1 = q.1) ∧ (p.2.2 = q.2.2 → p.1 = q.1) ∧ p.2.1 ≠ q.2.2 := by
  decide

theorem pressCode_inj {id id' : Nat} {pressed released pressed' released' state state' : UInt8}
    (h : (id, pressed, released) ∈ pressButtons) (h' : (id', pressed', released') ∈ pressButtons)
    (heq : (if state ≠ 0 then pressed else released) = if state' ≠ 0 then pressed' else released') :
    id = id' ∧ (state = 0 ↔ state' = 0) := by
  obtain ⟨hpressed, hreleased, hne⟩ := pressButtons_inj _ h _ h'
  obtain ⟨-, -, hne'⟩ := pressButtons_inj _ h' _ h
  by_cases hs : state = 0
  · by_cases hs' : state' = 0
    · rw [if_neg (not_not.mpr hs), if_neg (not_not.mpr hs')] at heq
      exact ⟨hreleased heq, iff_of_true hs hs'⟩
    · rw [if_neg (not_not.mpr hs), if_pos hs'] at heq
      exact absurd heq.symm hne'
  · by_cases hs' : state' = 0
    · rw [if_pos hs, if_neg (not_not.mpr hs')] at heq
      exact absurd heq hne
    · rw [if_pos hs, if_pos hs'] at heq
      exact ⟨hpressed heq, iff_of_false hs hs'⟩

theorem stateCode_ne_pressCode {id id' : Nat} {code pressed released state : UInt8}
    (h : (id, code) ∈ stateButtons) (h' : (id', pressed, released) ∈ pressButtons) :
    code ≠ if state ≠ 0 then pressed else released := by
  obtain ⟨-, hpressed, hreleased⟩ := stateButtons_ne_pressButtons _ h _ h'
  split
  · exact hpressed
  · exact hreleased

/-- **No word begins with another one**: the kind of the event or the code of the button tells how long
it is. -/
theorem eventWord_prefixFree : PrefixCode.PrefixFree {bytes | EventWord bytes} := by
  intro v hv w hw hpre
  refine hpre.eq_of_length ?_
  cases hv with
  | state id code state hcode =>
    cases hw with
    | state => rfl
    | press id' pressed released state' hpress => exact absurd hpre.length_le (by simp)
    | touch down => cases down <;> simp [feedbackHistoryEventSetTouchpad] at hpre
  | press id pressed released state hpress =>
    cases hw with
    | state id' code state' hcode =>
      have hsame := (List.cons_prefix_cons.mp (List.cons_prefix_cons.mp hpre).2).1
      exact absurd hsame.symm (stateCode_ne_pressCode hcode hpress)
    | press => rfl
    | touch down => cases down <;> simp [feedbackHistoryEventSetTouchpad] at hpre
  | touch down =>
    cases hw with
    | state => exact absurd hpre.length_le (by simp [feedbackHistoryEventSetTouchpad])
    | press => exact absurd hpre.length_le (by simp [feedbackHistoryEventSetTouchpad])
    | touch => rfl

theorem eventWords_uniquelyDecodable : InformationTheory.UniquelyDecodable {bytes | EventWord bytes} := by
  refine PrefixCode.uniquelyDecodable_of_prefixFree eventWord_prefixFree fun hnil => ?_
  generalize hbytes : ([] : Bytes) = bytes at hnil
  cases hnil <;> cases hbytes

theorem touchpad_inj {down down' : Bool} {pointerId pointerId' x x' y y' : Nat}
    (h : pointerId < 2 ^ 7 ∧ x < 2 ^ 12 ∧ y < 2 ^ 12) (h' : pointerId' < 2 ^ 7 ∧ x' < 2 ^ 12 ∧ y' < 2 ^ 12)
    (heq : feedbackHistoryEventSetTouchpad down pointerId x y
      = feedbackHistoryEventSetTouchpad down' pointerId' x' y') :
    down = down' ∧ pointerId = pointerId' ∧ x = x' ∧ y = y' := by
  simp only [feedbackHistoryEventSetTouchpad, List.cons.injEq, and_true] at heq
  obtain ⟨hkind, hpointer, hhigh, hmid, hlow⟩ := heq
  have hpointer' := congrArg UInt8.toNat hpointer
  have hhigh' := congrArg UInt8.toNat hhigh
  have hmid' := congrArg UInt8.toNat hmid
  have hlow' := congrArg UInt8.toNat hlow
  rw [UInt8.toNat_ofNat', UInt8.toNat_ofNat'] at hpointer' hhigh' hlow'
  rw [toNat_touchNibbles x h.2.2, toNat_touchNibbles x' h'.2.2] at hmid'
  refine ⟨?_, by omega, by omega, by omega⟩
  revert hkind
  cases down <;> cases down' <;> decide

theorem button_inj {id id' : Nat} {state state' : UInt8} {bytes : Bytes}
    (h : feedbackHistoryEventSetButton id state = some bytes)
    (h' : feedbackHistoryEventSetButton id' state' = some bytes) :
    SameInput (.button id state) (.button id' state') := by
  rcases feedbackHistoryEventSetButton_cases h with ⟨code, hmem, he⟩ | ⟨pressed, released, hmem, he⟩
  · rcases feedbackHistoryEventSetButton_cases h' with ⟨code', hmem', he'⟩ | ⟨_, _, hmem', he'⟩
    · obtain ⟨rfl, rfl⟩ : code = code' ∧ state = state' := by simpa using he.symm.trans he'
      refine ⟨stateButtons_inj _ hmem _ hmem' rfl, ?_⟩
      rw [if_neg]
      intro hin
      obtain ⟨q, hq, hid⟩ := List.mem_map.mp hin
      exact (stateButtons_ne_pressButtons _ hmem q hq).1 hid.symm
    · exact absurd (congrArg List.length (he.symm.trans he')) (by simp)
  · rcases feedbackHistoryEventSetButton_cases h' with ⟨code', hmem', he'⟩ | ⟨_, _, hmem', he'⟩
    · exact absurd (congrArg List.length (he.symm.trans he')) (by simp)
    · have hcode := (List.cons.inj (List.cons.inj (he.symm.trans he')).2).1
      obtain ⟨hid, hstate⟩ := pressCode_inj hmem hmem' hcode
      refine ⟨hid, ?_⟩
      rw [if_pos (List.mem_map_of_mem (f := Prod.fst) hmem)]
      exact hstate

theorem button_ne_touchpad (id : Nat) (state : UInt8) (down : Bool) (pointerId x y : Nat) :
    feedbackHistoryEventSetButton id state ≠ some (feedbackHistoryEventSetTouchpad down pointerId x y) := by
  intro h
  rcases feedbackHistoryEventSetButton_cases h with ⟨_, -, he⟩ | ⟨_, _, -, he⟩
  · exact absurd (congrArg List.length he) (by simp [feedbackHistoryEventSetTouchpad])
  · exact absurd (congrArg List.length he) (by simp [feedbackHistoryEventSetTouchpad])

/-- **One event tells what it was built of.** -/
theorem sameInput_of_bytes {a b : FeedbackInput} {e f : FeedbackHistoryEvent} (ha : Builds a e)
    (hb : Builds b f) (heq : e.bytes = f.bytes) : SameInput a b := by
  have hbytes := ha.bytes
  have hbytes' := hb.bytes
  rw [heq] at hbytes
  cases a with
  | button id state =>
    cases b with
    | button id' state' => exact button_inj hbytes hbytes'
    | touchpad down pointerId x y =>
      exact absurd (hbytes.trans hbytes'.symm) (button_ne_touchpad id state down pointerId x y)
  | touchpad down pointerId x y =>
    cases b with
    | button id state =>
      exact absurd (hbytes'.trans hbytes.symm) (button_ne_touchpad id state down pointerId x y)
    | touchpad down' pointerId' x' y' =>
      exact touchpad_inj ha.valid hb.valid (Option.some.inj (hbytes.trans hbytes'.symm))

/-- A text that was written by two histories was written for the same inputs. -/
theorem sameInputs_of_eventBytes {as bs : List FeedbackInput} {es fs : List FeedbackHistoryEvent}
    (has : List.Forall₂ Builds as es) (hbs : List.Forall₂ Builds bs fs)
    (heq : eventBytes es = eventBytes fs) : List.Forall₂ SameInput as bs := by
  have hwords : ∀ {as : List FeedbackInput} {es : List FeedbackHistoryEvent}, List.Forall₂ Builds as es →
      ∀ e ∈ es, e.bytes ∈ {bytes | EventWord bytes} := by
    intro as es h
    induction h with
    | nil => exact fun e he => absurd he List.not_mem_nil
    | cons hbuilds _ ih =>
      exact List.forall_mem_cons.mpr ⟨eventWord_of_builds hbuilds, ih⟩
  have hmap := PrefixCode.map_eq_of_flatMap_eq eventWords_uniquelyDecodable (hwords has) (hwords hbs) heq
  clear heq
  induction has generalizing bs fs with
  | nil =>
    obtain rfl := List.map_eq_nil_iff.mp hmap.symm
    cases hbs
    exact .nil
  | cons hbuilds _ ih =>
    cases hbs with
    | nil => cases hmap
    | cons hbuilds' hbs =>
      obtain ⟨hhead, htail⟩ := List.cons.inj hmap
      exact .cons (sameInput_of_bytes hbuilds hbuilds' hhead) (ih hbs htail)

/-- What was written, if it did not fail. -/
theorem take_of_format {mem : Bool} {s0 : FeedbackHistoryBuffer} {es : List FeedbackHistoryEvent}
    {out : Bytes} {k : Nat} (hn : 0 < n) (hinit : feedbackHistoryBufferInit mem n = some s0)
    (hpush : pushEvents s0 es = .ok s) (hbuf : bufSize ≤ buf.length)
    (hformat : s.format buf bufSize = .ok (out, k, .success)) :
    out.take k = eventBytes (es.reverse.take n) := by
  obtain ⟨s', hpush', h⟩ := (holdsRecent_init hn hinit).pushEvents es
  rw [List.append_nil] at h
  cases hpush.symm.trans hpush'
  by_cases hsmall : bufSize < (eventBytes (es.reverse.take n)).length
  · obtain ⟨b, hb, -⟩ := (h.format hbuf).tooSmall hsmall
    cases hb.symm.trans hformat
  · cases ((h.format hbuf).fits (Nat.not_lt.mp hsmall)).symm.trans hformat
    exact List.take_left' rfl

/-- **What the history writes is uniquely decodable.** The same bytes stand for the same events in the
same order: those that the rings still hold, which are all events that were pushed if there were not
more than the ring has places. -/
theorem feedbackHistory_decodable {m : Nat} {mem mem' : Bool} {s0 t0 s t : FeedbackHistoryBuffer}
    (hm : 0 < m) (hn : 0 < n) (hs0 : feedbackHistoryBufferInit mem m = some s0)
    (ht0 : feedbackHistoryBufferInit mem' n = some t0) {as bs : List FeedbackInput}
    {es fs : List FeedbackHistoryEvent} (has : List.Forall₂ Builds as es)
    (hbs : List.Forall₂ Builds bs fs) (hs : pushEvents s0 es = .ok s) (ht : pushEvents t0 fs = .ok t)
    {buf' out out' : Bytes} {bufSize' k k' : Nat} (hbuf : bufSize ≤ buf.length)
    (hbuf' : bufSize' ≤ buf'.length) (hformat : s.format buf bufSize = .ok (out, k, .success))
    (hformat' : t.format buf' bufSize' = .ok (out', k', .success)) (heq : out.take k = out'.take k') :
    List.Forall₂ SameInput (as.reverse.take m) (bs.reverse.take n) ∧
      (as.length ≤ m → bs.length ≤ n → List.Forall₂ SameInput as bs) := by
  have hsame : eventBytes (es.reverse.take m) = eventBytes (fs.reverse.take n) := by
    rw [← take_of_format hm hs0 hs hbuf hformat, ← take_of_format hn ht0 ht hbuf' hformat', heq]
  have hkept : List.Forall₂ SameInput (as.reverse.take m) (bs.reverse.take n) :=
    sameInputs_of_eventBytes (List.forall₂_take m (List.rel_reverse has))
      (List.forall₂_take n (List.rel_reverse hbs)) hsame
  refine ⟨hkept, fun hlen hlen' => ?_⟩
  rw [List.take_of_length_le (by rwa [List.length_reverse]),
    List.take_of_length_le (by rwa [List.length_reverse])] at hkept
  simpa using List.rel_reverse hkept

theorem feedbackHistory_decodable_press :
    List.Forall₂ SameInput [.button 0x400 1, .touchpad false 3 4 5]
      [.button 0x400 7, .touchpad false 3 4 5] := by
  have hpress : Builds (.button 0x400 1) ⟨[0x80, 0xaf], by decide⟩ := ⟨trivial, rfl⟩
  have hpress' : Builds (.button 0x400 7) ⟨[0x80, 0xaf], by decide⟩ := ⟨trivial, rfl⟩
  have htouch : Builds (.touchpad false 3 4 5) ⟨[0xc0, 3, 0, 0x40, 5], by decide⟩ :=
    ⟨by simp [FeedbackInput.Valid], rfl⟩
  have hread := @feedbackHistory_decodable (List.replicate 8 0) 3 8 2 true true _ _ _ _
    (by decide) (by decide) rfl rfl _ _ _ _ (.cons hpress (.cons htouch .nil))
    (.cons hpress' (.cons htouch .nil)) rfl rfl (List.replicate 7 0) _ _ 7 _ _ (by decide) (by decide)
    rfl rfl (by decide)
  exact hread.2 (by decide) (by decide)

end Chiaki
