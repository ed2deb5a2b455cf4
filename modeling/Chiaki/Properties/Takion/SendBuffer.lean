import Chiaki.Takion.SendBuffer

/-!
# What the send buffer holds

`takionSendBufferAck_eq` is the point of the file: the in-place compaction keeps exactly the
packets that the number does not cover, in their order, and reports exactly the covered ones.
With it the three operations are functions on the list `contents`:

* `takionSendBufferPush_ok`, `takionSendBufferPush_error` — append, or leave as it is
* `takionSendBufferAck_eq` — filter
* `takionSendBufferResend_eq` — touch the time and the tries only
-/

namespace Chiaki

open Infra.Segment

variable {sb sb' : TakionSendBuffer} {seqNum : Nat}

namespace TakionSendBuffer

/-- What every operation keeps of a buffer made by `takionSendBufferInit`. -/
structure Wf (sb : TakionSendBuffer) : Prop where
  count_le : sb.packetsCount ≤ sb.packetsSize
  nodup : (sb.contents.map (·.seqNum)).Nodup

@[simp] theorem length_contents (sb : TakionSendBuffer) : sb.contents.length = sb.packetsCount := by
  simp [contents]

end TakionSendBuffer

theorem takionSendBufferInit_wf (takion : Bool) (size : Nat) :
    (takionSendBufferInit takion size).Wf where
  count_le := Nat.zero_le _
  nodup := List.nodup_nil

/-! ## Push -/

/-- Whether `takionSendBufferPush` stores a packet of this number. -/
def TakionSendBuffer.accepts (sb : TakionSendBuffer) (seqNum : Nat) : Prop :=
  sb.packetsCount < sb.packetsSize ∧ seqNum ∉ sb.contents.map (·.seqNum)

theorem TakionSendBuffer.any_seqNum_iff (sb : TakionSendBuffer) (seqNum : Nat) :
    ((List.range sb.packetsCount).any fun i => (sb.packets i).seqNum == seqNum) = true ↔
      seqNum ∈ sb.contents.map (·.seqNum) := by
  simp [contents, Infra.Segment.segment]

/-- **A push that is accepted appends the packet.** -/
theorem takionSendBufferPush_ok (h : sb.accepts seqNum) (buf : PacketBuf) (now : Nat) :
    ∃ sb', takionSendBufferPush sb seqNum buf now = (sb', .success) ∧
      sb'.contents = sb.contents
        ++ [{ seqNum := seqNum, tries := 0, lastSendMs := now, buf := buf }] ∧
      sb'.packetsSize = sb.packetsSize ∧ sb'.takion = sb.takion ∧
      sb'.packetsCount = sb.packetsCount + 1 := by
  obtain ⟨hroom, hnew⟩ := h
  rw [← sb.any_seqNum_iff] at hnew
  have hpush : takionSendBufferPush sb seqNum buf now
      = ({ sb with
            packets := fun i => if i = sb.packetsCount
              then { seqNum := seqNum, tries := 0, lastSendMs := now, buf := buf }
              else sb.packets i
            packetsCount := sb.packetsCount + 1 }, .success) := by
    rw [takionSendBufferPush, if_neg (by omega), if_neg hnew]
  refine ⟨_, hpush, ?_, rfl, rfl, rfl⟩
  show segment _ 0 (sb.packetsCount + 1) = _
  rw [segment_succ, TakionSendBuffer.contents]
  congr 1
  · exact segment_congr fun i _ hi => if_neg (by omega)
  · simp

/-- **A push that is not accepted changes nothing and reports an error.** -/
theorem takionSendBufferPush_error (h : ¬ sb.accepts seqNum) (buf : PacketBuf) (now : Nat) :
    (takionSendBufferPush sb seqNum buf now).1 = sb ∧
      (takionSendBufferPush sb seqNum buf now).2 ≠ .success := by
  unfold takionSendBufferPush
  by_cases hroom : sb.packetsSize ≤ sb.packetsCount
  · simp [hroom]
  · have hdup : ((List.range sb.packetsCount).any fun i => (sb.packets i).seqNum == seqNum) = true := by
      rw [sb.any_seqNum_iff]
      by_contra hnew
      exact h ⟨by omega, hnew⟩
    simp [hroom, hdup]

theorem takionSendBufferPush_success_iff (buf : PacketBuf) (now : Nat) :
    (takionSendBufferPush sb seqNum buf now).2 = .success ↔ sb.accepts seqNum := by
  constructor
  · intro hs
    by_contra hn
    exact (takionSendBufferPush_error hn buf now).2 hs
  · intro h
    obtain ⟨sb', hpush, -⟩ := takionSendBufferPush_ok h buf now
    rw [hpush]

theorem takionSendBufferPush_wf (h : sb.Wf) (seqNum : Nat) (buf : PacketBuf) (now : Nat) :
    (takionSendBufferPush sb seqNum buf now).1.Wf := by
  by_cases ha : sb.accepts seqNum
  · obtain ⟨sb', hpush, hcontents, hsize, -, hcount⟩ := takionSendBufferPush_ok ha buf now
    rw [hpush]
    refine ⟨by rw [hcount, hsize]; exact ha.1, ?_⟩
    rw [hcontents, List.map_append, List.nodup_append]
    refine ⟨h.nodup, by simp, ?_⟩
    rintro n hn _ hm rfl
    simp only [List.map_cons, List.map_nil, List.mem_singleton] at hm
    exact ha.2 (hm ▸ hn)
  · rw [(takionSendBufferPush_error ha buf now).1]
    exact h

/-! ## Acknowledgement -/

/--
The loop invariant of `chiaki_takion_send_buffer_ack` after `i` rounds. In front of
`shiftStart` and behind the gap lie the packets kept so far; from `i` on nothing has moved.
-/
structure AckInvariant (sb : TakionSendBuffer) (seqNum i : Nat) (s : TakionSendBufferAck) : Prop where
  rest : ∀ j, i ≤ j → s.packets j = sb.packets j
  acked : s.acked = (segment sb.packets 0 i).filter (·.covered seqNum)
  gap : match s.shiftStart with
    | none => s.shift = 0 ∧
        segment s.packets 0 i = (segment sb.packets 0 i).filter (fun p => !p.covered seqNum)
    | some start => 0 < s.shift ∧ start + s.shift ≤ i ∧
        segment s.packets 0 start ++ segment s.packets (start + s.shift) (i - (start + s.shift))
          = (segment sb.packets 0 i).filter (fun p => !p.covered seqNum)

theorem filter_segment_succ (p : TakionSendBufferPacket → Bool) (packets : Nat → TakionSendBufferPacket) (i : Nat) :
    (segment packets 0 (i + 1)).filter p = (segment packets 0 i).filter p ++ [packets i].filter p := by
  rw [segment_succ, List.filter_append, Nat.zero_add]

/-- A packet that stays is behind the gap. -/
theorem ackInvariant_kept {i : Nat} {s : TakionSendBufferAck} (h : AckInvariant sb seqNum i s)
    (hc : (sb.packets i).covered seqNum = false) : AckInvariant sb seqNum (i + 1) s := by
  have hi : s.packets i = sb.packets i := h.rest i (Nat.le_refl i)
  have hgap := h.gap
  refine ⟨fun j hj => h.rest j (by omega), ?_, ?_⟩
  · rw [filter_segment_succ, h.acked]
    simp [hc]
  · cases hs : s.shiftStart with
    | none =>
      rw [hs] at hgap
      obtain ⟨hshift, hseg⟩ := hgap
      refine ⟨hshift, ?_⟩
      rw [segment_succ, hseg, filter_segment_succ, Nat.zero_add, hi]
      simp [hc]
    | some start =>
      rw [hs] at hgap
      obtain ⟨hpos, hle, hseg⟩ := hgap
      refine ⟨hpos, by omega, ?_⟩
      rw [show i + 1 - (start + s.shift) = (i - (start + s.shift)) + 1 by omega, segment_succ,
        ← List.append_assoc, hseg, filter_segment_succ,
        show start + s.shift + (i - (start + s.shift)) = i by omega, hi]
      simp [hc]

theorem ackInvariant_round {i : Nat} {s : TakionSendBufferAck} (h : AckInvariant sb seqNum i s) :
    AckInvariant sb seqNum (i + 1) (takionSendBufferAckRound seqNum s i) := by
  have hi : s.packets i = sb.packets i := h.rest i (Nat.le_refl i)
  have hgap := h.gap
  unfold takionSendBufferAckRound
  cases hc : (s.packets i).covered seqNum with
  | false =>
    rw [hi] at hc
    exact ackInvariant_kept h hc
  | true =>
    simp only [if_true]
    rw [hi] at hc
    have hacked : s.acked ++ [s.packets i]
        = (segment sb.packets 0 (i + 1)).filter (·.covered seqNum) := by
      rw [filter_segment_succ, h.acked, hi]
      simp [hc]
    have hkept : (segment sb.packets 0 (i + 1)).filter (fun p => !p.covered seqNum)
        = (segment sb.packets 0 i).filter (fun p => !p.covered seqNum) := by
      rw [filter_segment_succ]
      simp [hc]
    cases hs : s.shiftStart with
    | none =>
      rw [hs] at hgap
      obtain ⟨-, hseg⟩ := hgap
      simp only
      refine ⟨fun j hj => h.rest j (by omega), hacked, Nat.one_pos, Nat.le_refl _, ?_⟩
      simp [hkept, hseg]
    | some start =>
      rw [hs] at hgap
      obtain ⟨hpos, hle, hseg⟩ := hgap
      by_cases hsame : start + s.shift = i
      · -- the gap grows by one packet
        simp only [hsame, if_true]
        refine ⟨fun j hj => h.rest j (by omega), hacked, Nat.succ_pos _, ?_, ?_⟩
        · show start + (s.shift + 1) ≤ i + 1
          omega
        · show segment s.packets 0 start
            ++ segment s.packets (start + (s.shift + 1)) (i + 1 - (start + (s.shift + 1))) = _
          rw [hkept, ← hseg, show i + 1 - (start + (s.shift + 1)) = 0 by omega,
            show i - (start + s.shift) = 0 by omega]
          simp
      · -- the old gap is closed, and a wider one starts right behind the kept packets
        simp only [hsame, if_false]
        refine ⟨fun j hj => ?_, hacked, Nat.succ_pos _, ?_, ?_⟩
        · show memmove s.packets start (start + s.shift) (i - (start + s.shift)) j = _
          rw [memmove_of_ge (by omega)]
          exact h.rest j (by omega)
        · show i - s.shift + (s.shift + 1) ≤ i + 1
          omega
        · show segment (memmove s.packets start (start + s.shift) (i - (start + s.shift))) 0
              (i - s.shift)
            ++ segment _ _ (i + 1 - (i - s.shift + (s.shift + 1))) = _
          rw [show i + 1 - (i - s.shift + (s.shift + 1)) = 0 by omega, segment_zero,
            List.append_nil, hkept, ← hseg,
            show i - s.shift = start + (i - (start + s.shift)) by omega, segment_close_gap]

theorem ackInvariant_loop (sb : TakionSendBuffer) (seqNum n : Nat) :
    AckInvariant sb seqNum n (takionSendBufferAckLoop sb seqNum n) := by
  induction n with
  | zero => exact ⟨fun _ _ => rfl, rfl, rfl, rfl⟩
  | succ n ih =>
    have hloop : takionSendBufferAckLoop sb seqNum (n + 1)
        = takionSendBufferAckRound seqNum (takionSendBufferAckLoop sb seqNum n) n := by
      simp [takionSendBufferAckLoop, List.range_succ]
    rw [hloop]
    exact ackInvariant_round ih

/-- **The compaction is a filter**: what stays is what the number does not cover, and what is
reported is what it covers, both in the order of the buffer. -/
theorem takionSendBufferAck_eq (sb : TakionSendBuffer) (seqNum : Nat) :
    (takionSendBufferAck sb seqNum).1.contents
        = sb.contents.filter (fun p => !p.covered seqNum) ∧
      (takionSendBufferAck sb seqNum).2 = sb.contents.filter (·.covered seqNum) ∧
      (takionSendBufferAck sb seqNum).1.packetsSize = sb.packetsSize ∧
      (takionSendBufferAck sb seqNum).1.takion = sb.takion := by
  have h := ackInvariant_loop sb seqNum sb.packetsCount
  have hgap := h.gap
  have hacked := h.acked
  unfold takionSendBufferAck
  generalize takionSendBufferAckLoop sb seqNum sb.packetsCount = s at *
  cases hs : s.shiftStart with
  | none =>
    simp only [hs] at hgap ⊢
    exact ⟨hgap.2, hacked, trivial, trivial⟩
  | some start =>
    simp only [hs] at hgap ⊢
    obtain ⟨-, hle, hseg⟩ := hgap
    refine ⟨?_, hacked, trivial, trivial⟩
    show segment (if start + s.shift < sb.packetsCount then _ else s.packets) 0
      (sb.packetsCount - s.shift) = _
    by_cases hlt : start + s.shift < sb.packetsCount
    · rw [if_pos hlt, show sb.packetsCount - s.shift
        = start + (sb.packetsCount - (start + s.shift)) by omega, segment_close_gap, hseg]
      rfl
    · rw [if_neg hlt, show sb.packetsCount - s.shift = start by omega]
      rw [show sb.packetsCount - (start + s.shift) = 0 by omega, segment_zero,
        List.append_nil] at hseg
      exact hseg

theorem takionSendBufferAck_wf (h : sb.Wf) (seqNum : Nat) : (takionSendBufferAck sb seqNum).1.Wf := by
  obtain ⟨hcontents, -, hsize, -⟩ := takionSendBufferAck_eq sb seqNum
  constructor
  · rw [← TakionSendBuffer.length_contents, hcontents, hsize]
    refine Nat.le_trans (List.length_filter_le _ _) ?_
    rw [TakionSendBuffer.length_contents]
    exact h.count_le
  · rw [hcontents]
    exact h.nodup.sublist (List.filter_sublist.map _)

/-- The numbers are written one behind the other, from the first free place on. -/
theorem foldl_write (ps : List TakionSendBufferPacket) (nums : Nat → Nat) (n : Nat) :
    ∃ nums', ps.foldl (fun out p => p.write out) (nums, n) = (nums', n + ps.length) ∧
      segment nums' n ps.length = ps.map (·.seqNum) ∧
      ∀ i, (i < n ∨ n + ps.length ≤ i) → nums' i = nums i := by
  induction ps generalizing nums n with
  | nil => exact ⟨nums, rfl, rfl, fun _ _ => rfl⟩
  | cons p ps ih =>
    obtain ⟨nums', hfold, hseg, hrest⟩ := ih (fun i => if i = n then p.seqNum else nums i) (n + 1)
    have hfirst : nums' n = p.seqNum := by
      rw [hrest n (Or.inl (Nat.lt_succ_self n)), if_pos rfl]
    refine ⟨nums', ?_, ?_, ?_⟩
    · rw [List.foldl_cons, TakionSendBufferPacket.write, hfold, List.length_cons, Nat.add_assoc,
        Nat.add_comm 1]
    · rw [List.length_cons, segment_cons, hseg, hfirst, List.map_cons]
    · intro i hi
      rw [List.length_cons] at hi
      rw [hrest i (by omega), if_neg (by omega)]

/-- **The in-place compaction keeps, frees and reports the right packets**, each of them in the order
of the buffer. -/
theorem takionSendBufferAck_compacts (sb : TakionSendBuffer) (seqNum : Nat) (nums : Nat → Nat) :
    (takionSendBufferAck sb seqNum).1.contents
        = sb.contents.filter (fun p => !p.covered seqNum) ∧
      (takionSendBufferAck sb seqNum).2.map (·.buf)
        = (sb.contents.filter (·.covered seqNum)).map (·.buf) ∧
      (takionSendBufferAckedSeqNums sb seqNum nums).2
        = (sb.contents.filter (·.covered seqNum)).length ∧
      segment (takionSendBufferAckedSeqNums sb seqNum nums).1 0
          (takionSendBufferAckedSeqNums sb seqNum nums).2
        = (sb.contents.filter (·.covered seqNum)).map (·.seqNum) ∧
      ∀ i, (takionSendBufferAckedSeqNums sb seqNum nums).2 ≤ i →
        (takionSendBufferAckedSeqNums sb seqNum nums).1 i = nums i := by
  obtain ⟨hcontents, hacked, -⟩ := takionSendBufferAck_eq sb seqNum
  obtain ⟨nums', hfold, hseg, hrest⟩ := foldl_write (takionSendBufferAck sb seqNum).2 nums 0
  have hout : takionSendBufferAckedSeqNums sb seqNum nums
      = (nums', 0 + (takionSendBufferAck sb seqNum).2.length) := hfold
  rw [hout, Nat.zero_add, hseg, hacked]
  refine ⟨hcontents, rfl, rfl, rfl, ?_⟩
  intro i hi
  rw [hacked] at hrest
  exact hrest i (Or.inr (by omega))

/-! ## Resending -/

@[simp] theorem TakionSendBufferPacket.resent_seqNum (p : TakionSendBufferPacket) (now : Nat) :
    (p.resent now).seqNum = p.seqNum := by
  unfold resent
  split <;> rfl

@[simp] theorem TakionSendBufferPacket.resent_buf (p : TakionSendBufferPacket) (now : Nat) :
    (p.resent now).buf = p.buf := by
  unfold resent
  split <;> rfl

/-- **Resending touches the time and the tries only**, and sends every packet that is due. -/
theorem takionSendBufferResend_eq (sb : TakionSendBuffer) (now : Nat) :
    (takionSendBufferResend sb now).1.contents.map (fun p => (p.seqNum, p.buf))
        = sb.contents.map (fun p => (p.seqNum, p.buf)) ∧
      (takionSendBufferResend sb now).1.packetsSize = sb.packetsSize ∧
      (takionSendBufferResend sb now).1.packetsCount = sb.packetsCount ∧
      (sb.takion = true → ∀ p ∈ sb.contents, p.due now = true →
        p.buf.bytes ∈ (takionSendBufferResend sb now).2) := by
  unfold takionSendBufferResend
  cases ht : sb.takion with
  | false => simp
  | true =>
    refine ⟨?_, rfl, rfl, ?_⟩
    · show (segment _ 0 sb.packetsCount).map _ = (segment _ 0 sb.packetsCount).map _
      simp only [Infra.Segment.segment, List.map_map]
      refine List.map_congr_left fun i hi => ?_
      have hlt := List.mem_range.mp hi
      simp [hlt]
    · intro _ p hp hdue
      exact List.mem_map.mpr ⟨p, List.mem_filter.mpr ⟨hp, hdue⟩, rfl⟩

theorem takionSendBufferResend_wf (h : sb.Wf) (now : Nat) : (takionSendBufferResend sb now).1.Wf := by
  obtain ⟨hmap, hsize, hcount, -⟩ := takionSendBufferResend_eq sb now
  have hseq := congrArg (List.map Prod.fst) hmap
  rw [List.map_map, List.map_map] at hseq
  refine ⟨by rw [hcount, hsize]; exact h.count_le, ?_⟩
  show ((takionSendBufferResend sb now).1.contents.map (·.seqNum)).Nodup
  rw [show (takionSendBufferResend sb now).1.contents.map (·.seqNum) = sb.contents.map (·.seqNum)
    from hseq]
  exact h.nodup

end Chiaki
