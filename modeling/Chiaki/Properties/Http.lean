import Chiaki.Http
import Chiaki.Infra.Search
import Mathlib.Algebra.GroupWithZero.Nat

/-!
# The end of an HTTP header

`nl_state` is the border of the bytes received so far: how many characters of the empty line they
end with (`nlTransition_border`). Hence the function succeeds with the first empty line of the
stream, however the stream is cut into results of `recv`
(`recvHttpHeader_headerSize`).

The pointer moves behind what was received, but `recv` may always write `buf_size` bytes: the
function stays inside the buffer if and only if the connection does (`recvHttpHeader_inside_iff`).
-/

namespace Chiaki

open Infra.Search

/-- What ends a header. -/
def headerEnd : Bytes := [0x0d, 0x0a, 0x0d, 0x0a]

/-! ## The automaton -/

/-- **The tables hold the borders.** -/
theorem nlTransition_border {q : Nat} (hq : q < 4) (c : UInt8) :
    nlTransition q c = border headerEnd (headerEnd.take q ++ [c]) := by
  unfold nlTransition
  by_cases hr : c = 0x0d
  · subst hr
    revert q
    decide +kernel
  · by_cases hn : c = 0x0a
    · subst hn
      revert q
      decide +kernel
    · rw [if_neg hr, if_neg hn, border_append_of_not_mem]
      simp [headerEnd, hr, hn]

/-- The state after one more byte. -/
theorem nlTransition_append {seen : Bytes} (ha : Absent headerEnd seen) (c : UInt8) :
    nlTransition (border headerEnd seen) c = border headerEnd (seen ++ [c]) := by
  have hne : border headerEnd seen ≠ 4 := by
    intro h
    refine ha seen.length (Nat.le_refl _) ?_
    rw [List.take_length]
    exact border_eq_length_iff.mp h
  have hle : border headerEnd seen ≤ 4 := border_le headerEnd seen
  rw [border_append_singleton, nlTransition_border (by omega)]

/-- What `scanNewlines` finds in `data` when it has seen `seen`. -/
inductive ScanNewlines (seen data : Bytes) : Nat × Nat → Prop
  | absent : Absent headerEnd (seen ++ data) →
      ScanNewlines seen data (border headerEnd (seen ++ data), 0)
  | found (left : Nat) : left < data.length →
      FirstEnd headerEnd (seen ++ data) (seen.length + data.length - left) →
      ScanNewlines seen data (4, left)

/-- **The loop over the bytes stops behind the first empty line.** -/
theorem scanNewlines_spec {seen data : Bytes} (ha : Absent headerEnd seen) :
    ScanNewlines seen data (scanNewlines (border headerEnd seen) data) := by
  induction data generalizing seen with
  | nil =>
    have h : Absent headerEnd (seen ++ []) := by rwa [List.append_nil]
    have := ScanNewlines.absent h
    rwa [List.append_nil] at this
  | cons c rest ih =>
    have hcons : seen ++ c :: rest = (seen ++ [c]) ++ rest := by simp
    have hlen : (seen ++ [c]).length = seen.length + 1 := by simp
    rw [scanNewlines, nlTransition_append ha]
    by_cases h4 : border headerEnd (seen ++ [c]) = 4
    · -- the empty line ends here
      have hend := ha.firstEnd (border_eq_length_iff.mp h4)
      simp only [h4, if_true]
      refine .found _ (by simp) ?_
      rw [hcons, List.length_cons, show seen.length + (rest.length + 1) - rest.length
        = seen.length + 1 by omega]
      exact hend.of_prefix (List.prefix_append _ _)
    · have hnext : Absent headerEnd (seen ++ [c]) :=
        ha.append_singleton fun hs => h4 (border_eq_length_iff.mpr hs)
      simp only [h4, if_false]
      have hrest := ih hnext
      generalize scanNewlines (border headerEnd (seen ++ [c])) rest = r at hrest ⊢
      cases hrest with
      | absent h =>
        rw [← hcons] at h ⊢
        exact .absent h
      | found left hleft h =>
        rw [← hcons, hlen] at h
        refine .found left (by rw [List.length_cons]; omega) ?_
        rwa [List.length_cons, show seen.length + (rest.length + 1) - left
          = seen.length + 1 + rest.length - left by omega]

/-! ## The stream -/

/-- The bytes that a call of `recv` writes. -/
def RecvResult.bytes : RecvResult → Bytes
  | .failed => []
  | .received data _ => data

/-- `recv` is called in this round. -/
def RecvRound.Selected (stopPipe : Bool) (round : RecvRound) : Prop :=
  ¬ (stopPipe = true ∧ round.select ≠ .success)

instance (stopPipe : Bool) (round : RecvRound) : Decidable (round.Selected stopPipe) :=
  inferInstanceAs (Decidable (¬ _))

/-- Bytes are received in this round. -/
def RecvRound.Delivers (stopPipe : Bool) (round : RecvRound) : Prop :=
  round.Selected stopPipe ∧ round.recv.bytes ≠ []

instance (stopPipe : Bool) (round : RecvRound) : Decidable (round.Delivers stopPipe) :=
  inferInstanceAs (Decidable (_ ∧ _))

/-- The bytes of all rounds until one that delivers none. -/
def delivered (stopPipe : Bool) : List RecvRound → Bytes
  | [] => []
  | round :: rounds =>
    if round.Delivers stopPipe then round.recv.bytes ++ delivered stopPipe rounds else []

/-- One round of the loop, by what it meets. -/
inductive RecvHttpHeaderRound (stopPipe : Bool) (bufSize : Nat) (seen : Bytes) (s : RecvHttpHeader)
    (rounds : List RecvRound) (round : RecvRound) :
    RecvHttpHeader × RecvHttpHeaderResult → Prop
  | unselected (err : ErrorCode) : ¬ round.Selected stopPipe →
      RecvHttpHeaderRound stopPipe bufSize seen s rounds round (s, .error err)
  | ended (err : ErrorCode) : round.Selected stopPipe → round.recv.bytes = [] →
      RecvHttpHeaderRound stopPipe bufSize seen s rounds round
        ({ s with calls := s.calls ++ [⟨s.buf, recvSize bufSize, 0⟩] }, .error err)
  | found (left : Nat) : round.Delivers stopPipe → left < round.recv.bytes.length →
      FirstEnd headerEnd (seen ++ round.recv.bytes)
        (seen.length + round.recv.bytes.length - left) →
      RecvHttpHeaderRound stopPipe bufSize seen s rounds round
        ({ s with
          calls := s.calls ++ [⟨s.buf, recvSize bufSize, round.recv.bytes.length⟩]
          receivedSize := (s.receivedSize + round.recv.bytes.length) % 2 ^ 64 },
          .success ((s.receivedSize + round.recv.bytes.length) % 2 ^ 64 - left))
  | next : round.Delivers stopPipe → Absent headerEnd (seen ++ round.recv.bytes) →
      RecvHttpHeaderRound stopPipe bufSize seen s rounds round
        (recvHttpHeaderLoop stopPipe bufSize
          { buf := s.buf + round.recv.bytes.length
            nlState := border headerEnd (seen ++ round.recv.bytes)
            receivedSize := (s.receivedSize + round.recv.bytes.length) % 2 ^ 64
            calls := s.calls ++ [⟨s.buf, recvSize bufSize, round.recv.bytes.length⟩] } rounds)

theorem recvHttpHeaderLoop_cons {stopPipe : Bool} {bufSize : Nat} {seen : Bytes}
    {s : RecvHttpHeader} (ha : Absent headerEnd seen) (hs : s.nlState = border headerEnd seen)
    (round : RecvRound) (rounds : List RecvRound) :
    RecvHttpHeaderRound stopPipe bufSize seen s rounds round
      (recvHttpHeaderLoop stopPipe bufSize s (round :: rounds)) := by
  obtain ⟨select, recv⟩ := round
  by_cases hsel : stopPipe = true ∧ select ≠ .success
  · have hnot : ¬ RecvRound.Selected stopPipe ⟨select, recv⟩ := fun h => h hsel
    rw [recvHttpHeaderLoop, if_pos hsel]
    exact .unselected _ hnot
  · have hselected : RecvRound.Selected stopPipe ⟨select, recv⟩ := hsel
    cases recv with
    | failed =>
      simp only [recvHttpHeaderLoop, hsel, if_false]
      exact .ended _ hselected rfl
    | received data int =>
      by_cases hdata : data = []
      · subst hdata
        simp only [recvHttpHeaderLoop, hsel, if_false, List.length_nil, if_true]
        exact .ended _ hselected rfl
      · have hlen : ¬ data.length = 0 := by rwa [List.length_eq_zero_iff]
        have hscan := @scanNewlines_spec seen data ha
        rw [← hs] at hscan
        simp only [recvHttpHeaderLoop, hsel, if_false, hlen]
        generalize scanNewlines s.nlState data = r at hscan ⊢
        cases hscan with
        | absent h =>
          have hne : ¬ border headerEnd (seen ++ data) = 4 := by
            intro h4
            have hsuf := border_eq_length_iff.mp h4
            exact h _ (Nat.le_refl _) (by rwa [List.take_length])
          simp only [hne, if_false]
          exact .next ⟨hselected, hdata⟩ h
        | found left hleft h =>
          simp only [if_true]
          exact .found left ⟨hselected, hdata⟩ hleft h

/-- The state of the loop when it has received `seen`. -/
structure RecvHttpHeader.Seen (s : RecvHttpHeader) (seen : Bytes) : Prop where
  absent : Absent headerEnd seen
  nlState : s.nlState = border headerEnd seen
  buf : s.buf = seen.length
  written : (s.calls.map RecvCall.written).sum = seen.length

theorem seen_start : (⟨0, 0, 0, []⟩ : RecvHttpHeader).Seen [] where
  absent := absent_nil (by decide)
  nlState := by decide +kernel
  buf := rfl
  written := rfl

theorem RecvHttpHeader.Seen.next {s : RecvHttpHeader} {seen data : Bytes} (h : s.Seen seen)
    (ha : Absent headerEnd (seen ++ data)) (size : Int) (receivedSize : Nat) :
    RecvHttpHeader.Seen
      { buf := s.buf + data.length
        nlState := border headerEnd (seen ++ data)
        receivedSize := receivedSize
        calls := s.calls ++ [⟨s.buf, size, data.length⟩] } (seen ++ data) where
  absent := ha
  nlState := rfl
  buf := by rw [h.buf, List.length_append]
  written := by simp [h.written]

/-! ## The place of the empty line -/

/-- **The loop succeeds if and only if the empty line is there, and with the first one.** -/
theorem recvHttpHeaderLoop_result {stopPipe : Bool} {bufSize : Nat} {rounds : List RecvRound} :
    ∀ {seen : Bytes} {s : RecvHttpHeader}, s.Seen seen → s.receivedSize = seen.length →
    (seen ++ delivered stopPipe rounds).length < 2 ^ 64 →
    (∀ headerSize, (recvHttpHeaderLoop stopPipe bufSize s rounds).2 = .success headerSize →
      FirstEnd headerEnd (seen ++ delivered stopPipe rounds) headerSize ∧
        headerSize ≤ (recvHttpHeaderLoop stopPipe bufSize s rounds).1.receivedSize) ∧
    ((∀ headerSize, (recvHttpHeaderLoop stopPipe bufSize s rounds).2 ≠ .success headerSize) →
      Absent headerEnd (seen ++ delivered stopPipe rounds)) := by
  induction rounds with
  | nil =>
    intro seen s h _ _
    refine ⟨fun headerSize hs => (by cases hs), fun _ => ?_⟩
    rw [delivered, List.append_nil]
    exact h.absent
  | cons round rounds ih =>
    intro seen s h hsize hlen
    have hround := @recvHttpHeaderLoop_cons stopPipe bufSize seen s h.absent h.nlState round rounds
    rw [delivered] at hlen ⊢
    generalize recvHttpHeaderLoop stopPipe bufSize s (round :: rounds) = r at hround ⊢
    cases hround with
    | unselected err hsel =>
      refine ⟨fun headerSize hs => (by cases hs), fun _ => ?_⟩
      rw [if_neg fun hd => hsel hd.1, List.append_nil]
      exact h.absent
    | ended err hsel hnil =>
      refine ⟨fun headerSize hs => (by cases hs), fun _ => ?_⟩
      rw [if_neg fun hd => hd.2 hnil, List.append_nil]
      exact h.absent
    | found left hd hleft hend =>
      rw [if_pos hd, ← List.append_assoc] at hlen ⊢
      have hmod : (s.receivedSize + round.recv.bytes.length) % 2 ^ 64
          = seen.length + round.recv.bytes.length := by
        rw [hsize]
        rw [List.length_append, List.length_append] at hlen
        exact Nat.mod_eq_of_lt (by omega)
      refine ⟨fun headerSize hs => ?_, fun hne => absurd rfl (hne _)⟩
      cases hs
      rw [hmod]
      exact ⟨hend.of_prefix (List.prefix_append _ _), Nat.sub_le _ _⟩
    | next hd ha =>
      rw [if_pos hd, ← List.append_assoc] at hlen ⊢
      refine ih (h.next ha _ _) ?_ hlen
      rw [List.length_append, List.length_append] at hlen
      simp only [hsize, List.length_append]
      exact Nat.mod_eq_of_lt (by omega)

theorem recvHttpHeader_success {stopPipe : Bool} {bufSize headerSize : Nat}
    {rounds : List RecvRound} {s : RecvHttpHeader} (hsize : bufSize < 2 ^ 64)
    (hfits : (delivered stopPipe rounds).length ≤ bufSize)
    (hs : recvHttpHeader stopPipe bufSize rounds = (s, .success headerSize)) :
    FirstEnd headerEnd (delivered stopPipe rounds) headerSize ∧ headerSize ≤ s.receivedSize := by
  have hres := (@recvHttpHeaderLoop_result stopPipe bufSize rounds [] _ seen_start rfl
    (by rw [List.nil_append]; omega)).1 headerSize
  unfold recvHttpHeader at hs
  rw [hs, List.nil_append] at hres
  exact hres rfl

theorem recvHttpHeader_complete {stopPipe : Bool} {bufSize : Nat} {rounds : List RecvRound}
    (hsize : bufSize < 2 ^ 64) (hfits : (delivered stopPipe rounds).length ≤ bufSize)
    (hin : headerEnd <:+: delivered stopPipe rounds) :
    ∃ s headerSize, recvHttpHeader stopPipe bufSize rounds = (s, .success headerSize) := by
  by_contra hno
  have hres := (@recvHttpHeaderLoop_result stopPipe bufSize rounds [] _ seen_start rfl
    (by rw [List.nil_append]; omega)).2
  rw [List.nil_append] at hres
  exact absent_iff.mp (hres fun headerSize hs => hno ⟨_, headerSize, Prod.ext rfl hs⟩) hin

/--
**The header ends behind the first empty line of the stream**, for every split of it into results
of `recv` that fits the buffer, and the function succeeds if and only if that line has been received.
-/
theorem recvHttpHeader_headerSize {stopPipe : Bool} {bufSize : Nat} {rounds : List RecvRound}
    {stream : Bytes} (hsize : bufSize < 2 ^ 64)
    (hstream : delivered stopPipe rounds <+: stream)
    (hfits : (delivered stopPipe rounds).length ≤ bufSize) :
    ((∃ s headerSize, recvHttpHeader stopPipe bufSize rounds = (s, .success headerSize)) ↔
      headerEnd <:+: delivered stopPipe rounds) ∧
    ∀ s headerSize, recvHttpHeader stopPipe bufSize rounds = (s, .success headerSize) →
      FirstEnd headerEnd stream headerSize ∧ headerSize ≤ s.receivedSize ∧
      ∀ stopPipe' bufSize' rounds' s' headerSize', bufSize' < 2 ^ 64 →
        delivered stopPipe' rounds' <+: stream →
        (delivered stopPipe' rounds').length ≤ bufSize' →
        recvHttpHeader stopPipe' bufSize' rounds' = (s', .success headerSize') →
        headerSize' = headerSize := by
  refine ⟨⟨?_, recvHttpHeader_complete hsize hfits⟩, ?_⟩
  · rintro ⟨s, headerSize, hs⟩
    by_contra hno
    exact (recvHttpHeader_success hsize hfits hs).1.not_absent (absent_iff.mpr hno)
  · intro s headerSize hs
    obtain ⟨hend, hle⟩ := recvHttpHeader_success hsize hfits hs
    refine ⟨hend.of_prefix hstream, hle, ?_⟩
    intro stopPipe' bufSize' rounds' s' headerSize' hsize' hstream' hfits' hs'
    have hend' := (recvHttpHeader_success hsize' hfits' hs').1
    exact (hend'.of_prefix hstream').unique (hend.of_prefix hstream)

/-- The empty line is cut, behind a carriage return that does not belong to it. -/
theorem recvHttpHeader_headerSize_cut :
    ∃ s, recvHttpHeader false 64
        [⟨.success, .received [0x41, 0x0d, 0x0d, 0x0a] (by decide)⟩,
          ⟨.success, .received [0x0d, 0x0a, 0x42] (by decide)⟩] = (s, .success 6) ∧
      FirstEnd headerEnd [0x41, 0x0d, 0x0d, 0x0a, 0x0d, 0x0a, 0x42] 6 := by
  refine ⟨_, rfl, ?_⟩
  exact ((@recvHttpHeader_headerSize false 64
    [⟨.success, .received [0x41, 0x0d, 0x0d, 0x0a] (by decide)⟩,
      ⟨.success, .received [0x0d, 0x0a, 0x42] (by decide)⟩]
    [0x41, 0x0d, 0x0d, 0x0a, 0x0d, 0x0a, 0x42] (by decide) (by decide) (by decide)).2 _ 6 rfl).1

/-! ## The buffer -/

/-- What `recv` writes begins at `buf` and lies inside the buffer, and nothing is received any more
when the buffer is full. -/
structure Inside (bufSize : Nat) (calls : List RecvCall) : Prop where
  written_le : (calls.map RecvCall.written).sum ≤ bufSize
  not_full : ∀ call ∈ calls, call.off < bufSize

/-- A stream is not at the end of its header when `seen` has been received and `round` comes, behind
rounds that all deliver something. -/
inductive Pending (stopPipe : Bool) : Bytes → List RecvRound → Bytes → RecvRound → Prop
  | here {seen : Bytes} {round : RecvRound} {rounds : List RecvRound} :
      ¬ headerEnd <:+: seen → Pending stopPipe seen (round :: rounds) seen round
  | later {seen seen' : Bytes} {round round' : RecvRound} {rounds : List RecvRound} :
      round.Delivers stopPipe → Pending stopPipe (seen ++ round.recv.bytes) rounds seen' round' →
      Pending stopPipe seen (round :: rounds) seen' round'

/-- As long as the header has not ended, the buffer is not full when `recv` is called, and `recv`
returns no more than what is left of it. -/
def HeaderFits (stopPipe : Bool) (bufSize : Nat) (rounds : List RecvRound) : Prop :=
  ∀ seen round, Pending stopPipe [] rounds seen round → round.Selected stopPipe →
    seen.length < bufSize ∧ seen.length + round.recv.bytes.length ≤ bufSize

theorem Pending.absent {stopPipe : Bool} {seen seen' : Bytes} {round : RecvRound}
    {rounds : List RecvRound} (h : Pending stopPipe seen rounds seen' round) :
    Absent headerEnd seen := by
  induction h with
  | here hno => exact absent_iff.mpr hno
  | later _ _ ih => exact ih.of_prefix (List.prefix_append _ _)

/-- The calls that are made are the ones before the end of the header. -/
theorem mem_recvHttpHeaderLoop_calls {stopPipe : Bool} {bufSize : Nat} {rounds : List RecvRound} :
    ∀ {seen : Bytes} {s : RecvHttpHeader}, s.Seen seen → ∀ call,
    (call ∈ (recvHttpHeaderLoop stopPipe bufSize s rounds).1.calls ↔
      call ∈ s.calls ∨ ∃ seen' round, Pending stopPipe seen rounds seen' round ∧
        round.Selected stopPipe ∧
        call = ⟨seen'.length, recvSize bufSize, round.recv.bytes.length⟩) := by
  induction rounds with
  | nil =>
    intro seen s _ call
    refine ⟨Or.inl, ?_⟩
    rintro (hc | ⟨seen', round, hp, _⟩)
    · exact hc
    · cases hp
  | cons round rounds ih =>
    intro seen s h call
    have hround := @recvHttpHeaderLoop_cons stopPipe bufSize seen s h.absent h.nlState round rounds
    have hhere : Pending stopPipe seen (round :: rounds) seen round :=
      .here (absent_iff.mp h.absent)
    generalize recvHttpHeaderLoop stopPipe bufSize s (round :: rounds) = r at hround ⊢
    cases hround with
    | unselected err hsel =>
      refine ⟨Or.inl, ?_⟩
      rintro (hc | ⟨seen', round', hp, hsel', _⟩)
      · exact hc
      · cases hp with
        | here => exact absurd hsel' hsel
        | later hd => exact absurd hd.1 hsel
    | ended err hsel hnil =>
      rw [List.mem_append, List.mem_singleton, h.buf]
      refine or_congr_right ⟨fun hc => ⟨seen, round, hhere, hsel, by rw [hc, hnil]; rfl⟩, ?_⟩
      rintro ⟨seen', round', hp, _, rfl⟩
      cases hp with
      | here => rw [hnil]; rfl
      | later hd => exact absurd hnil hd.2
    | found left hd hleft hend =>
      rw [List.mem_append, List.mem_singleton, h.buf]
      refine or_congr_right ⟨fun hc => ⟨seen, round, hhere, hd.1, hc⟩, ?_⟩
      rintro ⟨seen', round', hp, _, rfl⟩
      cases hp with
      | here => rfl
      | later _ hp => exact absurd hp.absent hend.not_absent
    | next hd ha =>
      rw [ih (h.next ha _ _), List.mem_append, List.mem_singleton, h.buf, or_assoc]
      refine or_congr_right ⟨?_, ?_⟩
      · rintro (rfl | ⟨seen', round', hp, hsel, rfl⟩)
        · exact ⟨seen, round, hhere, hd.1, rfl⟩
        · exact ⟨seen', round', .later hd hp, hsel, rfl⟩
      · rintro ⟨seen', round', hp, hsel, rfl⟩
        cases hp with
        | here => exact Or.inl rfl
        | later _ hp => exact Or.inr ⟨seen', round', hp, hsel, rfl⟩

/-- Each call writes where the one before it has ended. -/
def Contiguous (calls : List RecvCall) : Prop :=
  ∀ before call after, calls = before ++ call :: after →
    call.off = (before.map RecvCall.written).sum

theorem Contiguous.concat {calls : List RecvCall} (h : Contiguous calls) (size : Int)
    (written : Nat) :
    Contiguous (calls ++ [⟨(calls.map RecvCall.written).sum, size, written⟩]) := by
  intro before call after he
  rcases List.eq_nil_or_concat after with rfl | ⟨after', last, rfl⟩
  · obtain ⟨rfl, hc⟩ := List.append_inj' he rfl
    rw [← List.singleton_inj.mp hc]
  · rw [List.concat_eq_append, ← List.cons_append, ← List.append_assoc] at he
    exact h before call after' (List.append_inj' he rfl).1

theorem recvHttpHeaderLoop_contiguous {stopPipe : Bool} {bufSize : Nat} {rounds : List RecvRound} :
    ∀ {seen : Bytes} {s : RecvHttpHeader}, s.Seen seen → Contiguous s.calls →
    Contiguous (recvHttpHeaderLoop stopPipe bufSize s rounds).1.calls := by
  induction rounds with
  | nil => exact fun _ hc => hc
  | cons round rounds ih =>
    intro seen s h hc
    have hround := @recvHttpHeaderLoop_cons stopPipe bufSize seen s h.absent h.nlState round rounds
    have hnext : ∀ written, Contiguous (s.calls ++ [⟨s.buf, recvSize bufSize, written⟩]) := by
      intro written
      rw [h.buf, ← h.written]
      exact hc.concat _ _
    generalize recvHttpHeaderLoop stopPipe bufSize s (round :: rounds) = r at hround ⊢
    cases hround with
    | unselected => exact hc
    | ended => exact hnext _
    | found => exact hnext _
    | next hd ha => exact ih (h.next ha _ _) (hnext _)

/-- For calls without gaps, what is written in total is bounded if what each one writes is. -/
theorem Contiguous.inside_iff {calls : List RecvCall} (h : Contiguous calls) (bufSize : Nat) :
    Inside bufSize calls ↔
      ∀ call ∈ calls, call.off < bufSize ∧ call.off + call.written ≤ bufSize := by
  constructor
  · rintro ⟨hsum, hoff⟩ call hmem
    obtain ⟨before, after, rfl⟩ := List.append_of_mem hmem
    refine ⟨hoff call hmem, ?_⟩
    rw [h before call after rfl]
    rw [List.map_append, List.sum_append, List.map_cons, List.sum_cons] at hsum
    omega
  · intro hcalls
    refine ⟨?_, fun call hmem => (hcalls call hmem).1⟩
    rcases List.eq_nil_or_concat calls with rfl | ⟨before, last, rfl⟩
    · exact Nat.zero_le _
    · rw [List.concat_eq_append] at h hcalls ⊢
      have hlast := (hcalls last (by simp)).2
      rw [h before last [] rfl] at hlast
      simpa using hlast

/--
**`chiaki_recv_http_header` stays inside its buffer exactly if the connection does**: the header, or
the connection, has to end before the buffer is full, and `recv` must not return more than is left
although it may.
-/
theorem recvHttpHeader_inside_iff (stopPipe : Bool) (bufSize : Nat) (rounds : List RecvRound) :
    Inside bufSize (recvHttpHeader stopPipe bufSize rounds).1.calls ↔
      HeaderFits stopPipe bufSize rounds := by
  have hcont : Contiguous (recvHttpHeader stopPipe bufSize rounds).1.calls :=
    recvHttpHeaderLoop_contiguous seen_start fun before call after he => by
      simp at he
  rw [hcont.inside_iff]
  unfold HeaderFits
  constructor
  · intro hcalls seen round hp hsel
    exact hcalls _ ((mem_recvHttpHeaderLoop_calls seen_start _).mpr
      (Or.inr ⟨seen, round, hp, hsel, rfl⟩))
  · intro hfits call hmem
    rcases (mem_recvHttpHeaderLoop_calls seen_start call).mp hmem with hnil | ⟨seen, round, hp, hsel, rfl⟩
    · cases hnil
    · exact hfits seen round hp hsel

/-- Two results of five bytes, each of which `recv` may return, for a buffer of eight bytes. -/
theorem not_recvHttpHeader_inside :
    ∃ rounds : List RecvRound,
      (∀ call ∈ (recvHttpHeader false 8 rounds).1.calls, (call.written : Int) ≤ call.size) ∧
      ¬ Inside 8 (recvHttpHeader false 8 rounds).1.calls := by
  refine ⟨[⟨.success, .received [0x41, 0x41, 0x41, 0x41, 0x41] (by decide)⟩,
    ⟨.success, .received [0x41, 0x41, 0x41, 0x41, 0x41] (by decide)⟩], by decide, fun h => ?_⟩
  exact absurd h.written_le (by decide)

end Chiaki
