import Chiaki.Properties.Common
import Chiaki.Properties.Http

/-!
# What is received with a header

The bytes of the rounds up to the one in which the header ends are in the buffer, one behind the other
(`recvHttpHeader_received`).
-/

namespace Chiaki

open Infra Infra.Search

variable {buf buf' seen : Bytes} {rounds first rest : List RecvRound} {headerSize bufSize : Nat}

/-! ## The rounds of the header -/

/-- The bytes of some rounds. -/
def recvBytes (rounds : List RecvRound) : Bytes := rounds.flatMap fun round => round.recv.bytes

/-- The calls of `recv` in these rounds. -/
def recvCalls (bufSize : Nat) : Nat → List RecvRound → List RecvCall
  | _, [] => []
  | off, round :: rounds =>
    ⟨off, recvSize bufSize, round.recv.bytes.length⟩ :: recvCalls bufSize (off + round.recv.bytes.length) rounds

theorem length_recvCalls : ∀ (off : Nat) (rounds : List RecvRound),
    (recvCalls bufSize off rounds).length = rounds.length
  | _, [] => rfl
  | off, round :: rounds => by
    rw [recvCalls, List.length_cons, List.length_cons, length_recvCalls _ rounds]

theorem recvBytes_cons (round : RecvRound) (rounds : List RecvRound) :
    recvBytes (round :: rounds) = round.recv.bytes ++ recvBytes rounds := by
  rw [recvBytes, List.flatMap_cons]
  rfl

/-- What is received comes first in the stream. -/
theorem delivered_append (h : ∀ round ∈ first, round.Delivers true) (rest : List RecvRound) :
    delivered true (first ++ rest) = recvBytes first ++ delivered true rest := by
  induction first with
  | nil => rfl
  | cons round first ih =>
    obtain ⟨hround, hfirst⟩ := List.forall_mem_cons.mp h
    rw [List.cons_append, delivered, if_pos hround, ih hfirst, recvBytes_cons, List.append_assoc]

/-- What the calls write, if it fits. -/
theorem recvWrite_calls {off : Nat} (hoff : off ≤ buf.length) (hfirst : ∀ round ∈ first, round.Delivers true)
    (h : recvWrite buf (recvCalls bufSize off first) (first ++ rest) = .ok buf') :
    off + (recvBytes first).length ≤ buf.length ∧ buf' = splice buf off (recvBytes first) := by
  induction first generalizing off buf with
  | nil =>
    rw [recvCalls, recvWrite] at h
    · cases h
      refine ⟨hoff, ?_⟩
      simp [recvBytes, splice]
    · simp
  | cons round first ih =>
    obtain ⟨hround, hrest⟩ := List.forall_mem_cons.mp hfirst
    obtain ⟨select, recv⟩ := round
    cases recv with
    | failed => exact absurd rfl hround.2
    | received data int =>
      rw [recvCalls, List.cons_append, recvWrite] at h
      simp only [RecvResult.bytes] at h
      by_cases hfull : buf.length < off + data.length
      · rw [if_pos hfull] at h
        cases h
      · rw [if_neg hfull] at h
        have hle : off + data.length ≤ buf.length := Nat.not_lt.mp hfull
        have hlen : (splice buf off data).length = buf.length := length_splice hle
        obtain ⟨hfits, hbuf'⟩ := ih (by rwa [hlen]) hrest h
        rw [recvBytes_cons, List.length_append]
        rw [hlen] at hfits
        refine ⟨by simp only [RecvResult.bytes]; omega, ?_⟩
        rw [hbuf', splice_append_data (by omega)]
        rfl

/-- The rounds up to the one in which the header ends. -/
structure HeaderRounds (rounds first : List RecvRound) (headerSize : Nat) : Prop where
  isPrefix : first <+: rounds
  delivers : ∀ round ∈ first, round.Delivers true
  pending : Absent headerEnd (recvBytes first.dropLast)
  ends : FirstEnd headerEnd (recvBytes first) headerSize

/-- What the loop has done when it has found the end of the header. -/
structure HeaderReceived (bufSize : Nat) (seen : Bytes) (s s' : RecvHttpHeader) (rounds first : List RecvRound)
    (headerSize : Nat) : Prop where
  isPrefix : first <+: rounds
  delivers : ∀ round ∈ first, round.Delivers true
  pending : Absent headerEnd (seen ++ recvBytes first.dropLast)
  calls : s'.calls = s.calls ++ recvCalls bufSize seen.length first
  ends : s.receivedSize = seen.length → (seen ++ recvBytes first).length < 2 ^ 64 →
    s'.receivedSize = (seen ++ recvBytes first).length ∧ FirstEnd headerEnd (seen ++ recvBytes first) headerSize

theorem recvHttpHeaderLoop_received {s s' : RecvHttpHeader} (hs : s.Seen seen)
    (h : recvHttpHeaderLoop true bufSize s rounds = (s', .success headerSize)) :
    ∃ first, HeaderReceived bufSize seen s s' rounds first headerSize := by
  induction rounds generalizing seen s with
  | nil => cases h
  | cons round rounds ih =>
    have hround := @recvHttpHeaderLoop_cons true bufSize seen s hs.absent hs.nlState round rounds
    generalize recvHttpHeaderLoop true bufSize s (round :: rounds) = result at h hround
    cases hround with
    | unselected err hsel => cases h
    | ended err hsel hnil => cases h
    | found left hd hleft hend =>
      have hbytes : recvBytes [round] = round.recv.bytes := List.flatMap_singleton ..
      cases h
      refine ⟨[round], ⟨rounds, rfl⟩, List.forall_mem_singleton.mpr hd, ?_, ?_, fun hsize hlen => ?_⟩
      · simpa [recvBytes] using hs.absent
      · rw [hs.buf]
        rfl
      · rw [hbytes] at hlen ⊢
        rw [List.length_append] at hlen ⊢
        simp only [hsize, Nat.mod_eq_of_lt hlen]
        exact ⟨trivial, hend⟩
    | next hd ha =>
      obtain ⟨first, hfirst⟩ := ih (hs.next ha _ _) h
      refine ⟨round :: first, List.cons_prefix_cons.mpr ⟨rfl, hfirst.isPrefix⟩,
        List.forall_mem_cons.mpr ⟨hd, hfirst.delivers⟩, ?_, ?_, fun hsize hlen => ?_⟩
      · cases first with
        | nil => simpa [recvBytes] using hs.absent
        | cons next first =>
          rw [List.dropLast_cons_of_ne_nil (List.cons_ne_nil _ _), recvBytes_cons, ← List.append_assoc]
          exact hfirst.pending
      · rw [hfirst.calls, hs.buf, recvCalls, List.append_assoc, List.singleton_append, List.length_append]
      · rw [recvBytes_cons, ← List.append_assoc] at hlen ⊢
        refine hfirst.ends ?_ hlen
        rw [List.length_append] at hlen
        simp only [hsize, List.length_append]
        rw [List.length_append] at hlen
        exact Nat.mod_eq_of_lt (by omega)

/-- **What has been received with the header**, if it was written into the buffer. -/
theorem recvHttpHeader_received {s : RecvHttpHeader}
    (h : recvHttpHeader true bufSize rounds = (s, .success headerSize))
    (hwrite : recvWrite buf s.calls rounds = .ok buf') (hbuf : buf.length < 2 ^ 64) :
    ∃ first, HeaderRounds rounds first headerSize ∧ s.calls.length = first.length ∧
      s.receivedSize = (recvBytes first).length ∧ (recvBytes first).length ≤ buf.length ∧
      buf' = splice buf 0 (recvBytes first) := by
  obtain ⟨first, hfirst⟩ := recvHttpHeaderLoop_received seen_start h
  obtain ⟨rest, hrest⟩ := hfirst.isPrefix
  have hcalls : s.calls = recvCalls bufSize 0 first := hfirst.calls
  rw [hcalls, ← hrest] at hwrite
  obtain ⟨hfits, hbuf'⟩ := recvWrite_calls (Nat.zero_le _) hfirst.delivers hwrite
  rw [Nat.zero_add] at hfits
  have hends := hfirst.ends rfl
  rw [List.nil_append] at hends
  obtain ⟨hsize, hend⟩ := hends (by omega)
  refine ⟨first, ⟨hfirst.isPrefix, hfirst.delivers, hfirst.pending, hend⟩, ?_, hsize, hfits, hbuf'⟩
  rw [hcalls, length_recvCalls]

/-- There is only one place where the header ends. -/
theorem HeaderRounds.unique {first' : List RecvRound} {headerSize' : Nat}
    (h : HeaderRounds rounds first headerSize)
    (h' : HeaderRounds rounds first' headerSize') : first = first' ∧ headerSize = headerSize' := by
  have hnot : ∀ {first first' : List RecvRound} {headerSize headerSize' : Nat},
      HeaderRounds rounds first headerSize → HeaderRounds rounds first' headerSize' → first <+: first' →
      first = first' := by
    intro first first' headerSize headerSize' h h' hle
    rcases List.eq_nil_or_concat first' with rfl | ⟨init, last, rfl⟩
    · exact List.prefix_nil.mp hle
    · rw [List.concat_eq_append] at h' hle ⊢
      refine (List.prefix_concat_iff.mp hle).resolve_right fun hinit => ?_
      -- the header would have ended before the last one of these rounds
      have hpending := h'.pending
      rw [List.dropLast_concat] at hpending
      obtain ⟨more, rfl⟩ := hinit
      refine (h.ends.of_prefix ?_).not_absent hpending
      rw [recvBytes, recvBytes, List.flatMap_append]
      exact List.prefix_append _ _
  have heq : first = first' := by
    rcases List.prefix_or_prefix_of_prefix h.isPrefix h'.isPrefix with hle | hle
    · exact hnot h h' hle
    · exact (hnot h' h hle).symm
  subst heq
  exact ⟨rfl, h.ends.unique h'.ends⟩

/-- The end of the header is found in the round in which it comes. -/
theorem HeaderRounds.found (h : HeaderRounds rounds first headerSize) :
    ∃ s' headerSize', recvHttpHeader true bufSize rounds = (s', .success headerSize') := by
  have hloop : ∀ {first rounds : List RecvRound} {seen : Bytes} {s : RecvHttpHeader}, s.Seen seen →
      first <+: rounds → (∀ round ∈ first, round.Delivers true) → FirstEnd headerEnd (seen ++ recvBytes first) headerSize →
      ∃ s' headerSize', recvHttpHeaderLoop true bufSize s rounds = (s', .success headerSize') := by
    intro first
    induction first with
    | nil =>
      intro rounds seen s hs _ _ hends
      simp only [recvBytes, List.flatMap_nil, List.append_nil] at hends
      exact absurd hs.absent hends.not_absent
    | cons round first ih =>
      rintro _ seen s hs ⟨rest, rfl⟩ hdelivers hends
      obtain ⟨hround, hfirst⟩ := List.forall_mem_cons.mp hdelivers
      have hcons := @recvHttpHeaderLoop_cons true bufSize seen s hs.absent hs.nlState round (first ++ rest)
      rw [List.cons_append]
      generalize recvHttpHeaderLoop true bufSize s (round :: (first ++ rest)) = result at hcons ⊢
      cases hcons with
      | unselected err hsel => exact absurd hround.1 hsel
      | ended err _ hnil => exact absurd hnil hround.2
      | found left => exact ⟨_, _, rfl⟩
      | next _ ha =>
        refine ih (hs.next ha _ _) ⟨rest, rfl⟩ hfirst ?_
        rw [List.append_assoc, ← recvBytes_cons]
        exact hends
  exact hloop seen_start h.isPrefix h.delivers h.ends

/-- An error is none of `CHIAKI_ERR_SUCCESS`. -/
theorem recvHttpHeaderLoop_error {stopPipe : Bool} {s s' : RecvHttpHeader} {err : ErrorCode}
    (h : recvHttpHeaderLoop stopPipe bufSize s rounds = (s', .error err)) : err ≠ .success := by
  induction rounds generalizing s with
  | nil => cases h
  | cons round rounds ih =>
    rw [recvHttpHeaderLoop] at h
    by_cases hselect : stopPipe ∧ round.select ≠ .success
    · rw [if_pos hselect] at h
      cases h
      exact hselect.2
    rw [if_neg hselect] at h
    cases hrecv : round.recv with
    | failed =>
      rw [hrecv] at h
      cases h
      exact ErrorCode.noConfusion
    | received data int =>
      simp only [hrecv] at h
      by_cases hnil : data.length = 0
      · rw [if_pos hnil] at h
        cases h
        exact ErrorCode.noConfusion
      rw [if_neg hnil] at h
      by_cases hend : (scanNewlines s.nlState data).1 = 4
      · rw [if_pos hend] at h
        cases h
      · rw [if_neg hend] at h
        exact ih h

/-! ## Whether it fits -/

/-- Whatever the result is, the calls are those of some first rounds. -/
theorem recvHttpHeaderLoop_calls {stopPipe : Bool} {s : RecvHttpHeader} :
    ∃ used, used <+: rounds ∧
      (recvHttpHeaderLoop stopPipe bufSize s rounds).1.calls = s.calls ++ recvCalls bufSize s.buf used := by
  induction rounds generalizing s with
  | nil => exact ⟨[], List.nil_prefix, (List.append_nil _).symm⟩
  | cons round rounds ih =>
    obtain ⟨select, recv⟩ := round
    by_cases hselect : stopPipe ∧ select ≠ .success
    · rw [recvHttpHeaderLoop, if_pos hselect]
      exact ⟨[], List.nil_prefix, (List.append_nil _).symm⟩
    · rw [recvHttpHeaderLoop, if_neg hselect]
      have hone : ∀ rounds, [(⟨select, recv⟩ : RecvRound)] <+: ⟨select, recv⟩ :: rounds := fun rounds => ⟨rounds, rfl⟩
      cases recv with
      | failed => exact ⟨_, hone rounds, rfl⟩
      | received data int =>
        simp only
        by_cases hnil : data.length = 0
        · rw [if_pos hnil]
          exact ⟨_, hone rounds, rfl⟩
        rw [if_neg hnil]
        by_cases hend : (scanNewlines s.nlState data).1 = 4
        · rw [if_pos hend]
          exact ⟨_, hone rounds, rfl⟩
        · rw [if_neg hend]
          obtain ⟨used, hused, hcalls⟩ := @ih _
          refine ⟨⟨select, .received data int⟩ :: used, List.cons_prefix_cons.mpr ⟨rfl, hused⟩, ?_⟩
          rw [hcalls, recvCalls, List.append_assoc]
          rfl

/-- The calls write inside of the buffer. -/
theorem recvWrite_ok_iff {used : List RecvRound} {off : Nat} (hused : used <+: rounds) (hoff : off ≤ buf.length) :
    (∃ buf', recvWrite buf (recvCalls bufSize off used) rounds = .ok buf') ↔
      ∀ call ∈ recvCalls bufSize off used, call.off + call.written ≤ buf.length := by
  induction used generalizing buf rounds off with
  | nil =>
    refine iff_of_true ⟨buf, ?_⟩ nofun
    rw [recvCalls, recvWrite]
    simp
  | cons round used ih =>
    obtain ⟨rest, rfl⟩ := hused
    obtain ⟨select, recv⟩ := round
    rw [recvCalls, List.cons_append, recvWrite, List.forall_mem_cons]
    cases recv with
    | failed => exact (ih ⟨rest, rfl⟩ hoff).trans (and_iff_right hoff).symm
    | received data int =>
      simp only [RecvResult.bytes]
      by_cases hfull : buf.length < off + data.length
      · rw [if_pos hfull]
        exact iff_of_false nofun fun h => absurd h.1 (Nat.not_le.mpr hfull)
      · have hle := Nat.not_lt.mp hfull
        rw [if_neg hfull, ih ⟨rest, rfl⟩ (by rwa [length_splice hle]), length_splice hle, and_iff_right hle]

/-- What is received up to the end of the header fits into the buffer. -/
def RecvFits (bufSize : Nat) (rounds : List RecvRound) : Prop :=
  ∀ seen round, Pending true [] rounds seen round → round.Selected true →
    seen.length + round.recv.bytes.length ≤ bufSize

/-- **What is received is written inside of the buffer if and only if it fits.** -/
theorem recvWrite_isOk_iff :
    (∃ buf', recvWrite buf (recvHttpHeader true bufSize rounds).1.calls rounds = .ok buf') ↔
      RecvFits buf.length rounds := by
  obtain ⟨used, hused, hcalls⟩ := @recvHttpHeaderLoop_calls rounds bufSize true ⟨0, 0, 0, []⟩
  have hmem := @mem_recvHttpHeaderLoop_calls true bufSize rounds [] ⟨0, 0, 0, []⟩ seen_start
  rw [hcalls] at hmem
  rw [recvHttpHeader, hcalls, List.nil_append, recvWrite_ok_iff hused (Nat.zero_le _)]
  constructor
  · intro h seen round hpending hselected
    exact h _ ((hmem ⟨seen.length, recvSize bufSize, round.recv.bytes.length⟩).mpr
      (.inr ⟨seen, round, hpending, hselected, rfl⟩))
  · intro h call hcall
    obtain hnone | ⟨seen, round, hpending, hselected, rfl⟩ := (hmem call).mp hcall
    · cases hnone
    · exact h seen round hpending hselected

end Chiaki
