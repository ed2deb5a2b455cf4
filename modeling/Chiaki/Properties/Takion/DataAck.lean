import Chiaki.Properties.Takion.Thread

/-!
# What the Takion thread consumes and acknowledges

`dataAckInvariant_invariant` holds in every run, whatever datagrams arrive: the numbers of the
consumed chunks count up from `tag_remote`, `data_queue.begin` is the next one, and a DATA_ACK
carries the last one. Between two rounds of the main loop nothing consumed is left to
acknowledge, and the next chunk is not in the queue.

The theorems about delivery and about lost acknowledgements start from here.
-/

namespace Chiaki

open Infra Infra.History

variable {κ : Type} {gmac : κ → Nat → Bytes → Mac} {t t' : Takion κ} {l : TakionLabel κ}

/-! ## The stream in the log -/

/-- The chunks that were consumed, newest first. -/
def consumedChunks (log : List (TakionOutput κ)) : List (Nat × Bytes) :=
  log.filterMap fun
    | .consumed seqNum payload => some (seqNum, payload)
    | _ => none

/-- How many chunks were consumed since the last acknowledgement. -/
def unacked : List (TakionOutput κ) → Nat
  | [] => 0
  | .consumed .. :: log => unacked log + 1
  | .sendDataAck _ :: _ => 0
  | _ :: log => unacked log

/-- The events that the stream of chunks consists of. -/
def TakionOutput.isStream : TakionOutput κ → Bool
  | .consumed .. | .data .. | .sendDataAck _ | .send _ => true
  | _ => false

/-- Nothing happened to the stream between the two logs. -/
def SameStream (log' log : List (TakionOutput κ)) : Prop :=
  ∃ events, log' = events ++ log ∧ ∀ e ∈ events, e.isStream = false

variable {log log' log'' : List (TakionOutput κ)}

theorem SameStream.refl (log : List (TakionOutput κ)) : SameStream log log := ⟨[], rfl, by simp⟩

theorem SameStream.trans (h' : SameStream log'' log') (h : SameStream log' log) :
    SameStream log'' log := by
  obtain ⟨ev', rfl, hev'⟩ := h'
  obtain ⟨ev, rfl, hev⟩ := h
  refine ⟨ev' ++ ev, by rw [List.append_assoc], fun e he => ?_⟩
  rcases List.mem_append.mp he with he | he
  · exact hev' e he
  · exact hev e he

theorem Quiet.sameStream (h : Quiet t t') : SameStream t'.log t.log := by
  obtain ⟨events, hlog, hquiet⟩ := h.log
  refine ⟨events, hlog, fun e he => ?_⟩
  have := hquiet e he
  cases e <;> first | rfl | cases this

theorem sameStream_freeEvents (dropped : List (Nat × TakionDataPacketEntry))
    (log : List (TakionOutput κ)) : SameStream (freeEvents dropped ++ log) log := by
  refine ⟨_, rfl, fun e he => ?_⟩
  obtain ⟨d, -, hmem⟩ := List.mem_flatMap.mp he
  simp only [List.mem_cons, List.not_mem_nil, or_false] at hmem
  rcases hmem with rfl | rfl <;> rfl

/-- Handling a packet adds nothing to the stream: chunks are consumed when they are pulled. -/
theorem Handled.sameStream {buf : PacketBuf} {caller : TakionCaller}
    (hh : Handled t buf caller t') : SameStream t'.log t.log := by
  cases hh with
  | fault _ _ _ hq _ => exact hq.sameStream
  | ignored _ hq _ => exact hq.sameStream
  | pushed t1 entry q dropped _ _ _ _ _ hq _ _ hres =>
    subst hres
    exact (sameStream_freeEvents dropped t1.log).trans hq.sameStream

theorem sameStream_cons {e : TakionOutput κ} (h : e.isStream = false) (log : List (TakionOutput κ)) :
    SameStream (e :: log) log :=
  ⟨[e], rfl, fun e' he => by rw [List.mem_singleton.mp he]; exact h⟩

theorem SameStream.consumedChunks_eq (h : SameStream log' log) :
    consumedChunks log' = consumedChunks log := by
  obtain ⟨events, rfl, hev⟩ := h
  unfold consumedChunks
  rw [List.filterMap_append, List.filterMap_eq_nil_iff.mpr, List.nil_append]
  intro e he
  have := hev e he
  cases e <;> first | rfl | cases this

theorem SameStream.unacked_eq (h : SameStream log' log) : unacked log' = unacked log := by
  obtain ⟨events, rfl, hev⟩ := h
  induction events with
  | nil => rfl
  | cons e events ih =>
    have hrest := ih fun e' he' => hev e' (List.mem_cons_of_mem _ he')
    have he := hev e (List.mem_cons_self ..)
    rw [← hrest]
    cases e <;> first | rfl | cases he

theorem SameStream.always {Q : TakionOutput κ → List (TakionOutput κ) → Prop}
    (h : SameStream log' log) (ha : Always Q log)
    (hq : ∀ e : TakionOutput κ, e.isStream = false → ∀ earlier, Q e earlier) : Always Q log' := by
  obtain ⟨events, rfl, hev⟩ := h
  exact ha.append fun e he earlier => hq e (hev e he) earlier

/-- Only what was consumed can be left to acknowledge. -/
theorem unacked_le (log : List (TakionOutput κ)) : unacked log ≤ (consumedChunks log).length := by
  induction log with
  | nil => exact Nat.le_refl _
  | cons e log ih =>
    cases e with
    | consumed seqNum payload => exact Nat.succ_le_succ ih
    | sendDataAck seqNum => exact Nat.zero_le _
    | _ => exact ih

/-! ## The invariant -/

/-- Chunks are consumed in the order of their numbers, and the last one is acknowledged. A
datagram that is sent carries the acknowledgement. -/
def TakionOutput.InOrder (tagRemote : Nat) : TakionOutput κ → List (TakionOutput κ) → Prop
  | .consumed seqNum _, earlier => seqNum = seqAt tagRemote (consumedChunks earlier).length
  | .sendDataAck seqNum, earlier => 0 < unacked earlier ∧ unacked earlier ≤ 16 ∧
      seqNum = seqAt tagRemote ((consumedChunks earlier).length - 1)
  | .send packet, earlier => ∃ seqNum rest, earlier = .sendDataAck seqNum :: rest ∧
      takionDataAckSeqNum (packet.drop 17) = some seqNum
  | _, _ => True

/-- Inside `takion_flush_data_queue`. -/
def TakionPc.inFlush : TakionPc → Bool
  | .flushDataQueue .. => true
  | _ => false

structure DataAckInvariant (t : Takion κ) : Prop where
  begin : t.dataQueue.begin = seqAt t.tagRemote (consumedChunks t.log).length
  flush : ∀ caller ack seqNum, t.pc = .flushDataQueue caller ack seqNum →
    unacked t.log + t.dataQueue.count ≤ 16 ∧
      ((ack = false ∧ unacked t.log = 0) ∨ (ack = true ∧ 0 < unacked t.log ∧
        seqNum = seqAt t.tagRemote ((consumedChunks t.log).length - 1)))
  drained : t.pc.inFlush = false → unacked t.log = 0 ∧ Window.take t.dataQueue.window = none
  log : Always (TakionOutput.InOrder t.tagRemote) t.log

theorem TakionOutput.inOrder_of_not_stream {tagRemote : Nat} {e : TakionOutput κ}
    (h : e.isStream = false) (earlier : List (TakionOutput κ)) : e.InOrder tagRemote earlier := by
  cases e <;> trivial

/-- The thread goes on, outside of the flush, with the same queue. -/
theorem DataAckInvariant.of_same (h : DataAckInvariant t) (hpc : t.pc.inFlush = false)
    (hpc' : t'.pc.inFlush = false) (hqueue : t'.dataQueue = t.dataQueue)
    (htag : t'.tagRemote = t.tagRemote) (hlog : SameStream t'.log t.log) : DataAckInvariant t' where
  begin := by rw [hqueue, htag, hlog.consumedChunks_eq, h.begin]
  flush := fun caller ack seqNum he => by
    rw [he] at hpc'
    cases hpc'
  drained := fun _ => by
    rw [hlog.unacked_eq, hqueue]
    exact h.drained hpc
  log := by
    rw [htag]
    exact hlog.always h.log fun _ => TakionOutput.inOrder_of_not_stream

theorem DataAckInvariant.of_quiet (h : DataAckInvariant t) (hq : Quiet t t') (hpc : t.pc.inFlush = false)
    (hpc' : t'.pc.inFlush = false) : DataAckInvariant t' :=
  h.of_same hpc hpc' hq.dataQueue hq.tagRemote hq.sameStream

theorem TakionCaller.pc_inFlush (caller : TakionCaller) : caller.pc.inFlush = false := by
  cases caller <;> rfl

theorem dataAckInvariant_init (h : TakionInitial t) : DataAckInvariant t := by
  obtain ⟨version, enableCrypt, tagLocal, tagRemote, keyState, crypt, htag, rfl⟩ := h
  refine ⟨?_, ?_, fun _ => ⟨rfl, rfl⟩, always_nil⟩
  · exact (ReorderQueue.seqAt_zero htag).symm
  · intro caller ack seqNum he
    cases he

/-- A packet that is pushed leaves `begin` and the log of the stream as they were. -/
theorem DataAckInvariant.handled {buf : PacketBuf} {caller : TakionCaller} (h : DataAckInvariant t)
    (hb : TakionBasic t) (hpc : t.pc.inFlush = false) (hh : Handled t buf caller t') :
    DataAckInvariant t' := by
  have hlog := hh.sameStream
  cases hh with
  | fault f _ hpc' hq _ => exact h.of_quiet hq hpc (by rw [hpc']; rfl)
  | ignored hpc' hq _ => exact h.of_quiet hq hpc (by rw [hpc']; exact caller.pc_inFlush)
  | pushed t1 entry q dropped _ _ _ _ hpush hq _ _ hres =>
    rcases reorderQueuePush_result hb.wf hb.strategy (by rw [hb.size]; decide)
      (u32At_lt buf.bytes 17) entry with herr | ⟨q', dropped', hpush', hwf, hframe, -⟩
    · rw [hpush] at herr
      cases herr
    rw [hpush] at hpush'
    cases hpush'
    subst hres
    have hunacked : unacked (freeEvents dropped ++ t1.log) = 0 := by
      rw [hlog.unacked_eq]
      exact (h.drained hpc).1
    have hcount : q.count ≤ 16 := by
      have hsize : q.size = t.dataQueue.size := by
        unfold ReorderQueue.size
        rw [hframe.sizeExp]
      have := hwf.count_le
      rwa [hsize, hb.size] at this
    constructor
    · show q.begin = seqAt t1.tagRemote (consumedChunks (freeEvents dropped ++ t1.log)).length
      rw [hframe.begin, hq.tagRemote, hlog.consumedChunks_eq, h.begin]
    · intro caller' ack seqNum he
      cases he
      refine ⟨?_, Or.inl ⟨rfl, hunacked⟩⟩
      show unacked (freeEvents dropped ++ t1.log) + q.count ≤ 16
      rw [hunacked]
      omega
    · intro hpc'
      cases hpc'
    · show Always (TakionOutput.InOrder t1.tagRemote) (freeEvents dropped ++ t1.log)
      rw [hq.tagRemote]
      exact hlog.always h.log fun _ => TakionOutput.inOrder_of_not_stream

/-- What a pulled element adds to the stream. -/
theorem FlushedEntry.stream {caller : TakionCaller} {seqNum : Nat} {entry : TakionDataPacketEntry}
    {q : ReorderQueue TakionDataPacketEntry} {installed : Option (κ × κ)}
    (hf : FlushedEntry (t.pulled caller seqNum entry q) entry installed t') :
    consumedChunks t'.log = (seqNum, entry.payloadBytes) :: consumedChunks t.log ∧
      unacked t'.log = unacked t.log + 1 ∧
      ∀ tagRemote, seqNum = seqAt tagRemote (consumedChunks t.log).length →
        Always (TakionOutput.InOrder tagRemote) t.log →
        Always (TakionOutput.InOrder tagRemote) t'.log := by
  obtain ⟨events, hlog, hevents, -⟩ := hf.effect
  rw [hlog]
  rcases hevents with ⟨rfl, -⟩ | ⟨ty, rfl, -⟩
  · refine ⟨rfl, rfl, fun tagRemote hseq ha => ?_⟩
    exact always_cons.mpr ⟨trivial, always_cons.mpr ⟨trivial, always_cons.mpr ⟨hseq,
      always_cons.mpr ⟨trivial, ha⟩⟩⟩⟩
  · refine ⟨rfl, rfl, fun tagRemote hseq ha => ?_⟩
    exact always_cons.mpr ⟨trivial, always_cons.mpr ⟨trivial, always_cons.mpr ⟨trivial,
      always_cons.mpr ⟨hseq, always_cons.mpr ⟨trivial, ha⟩⟩⟩⟩⟩

/-- A chunk is consumed. -/
theorem DataAckInvariant.flushEntry {caller : TakionCaller} {ack : Bool} {last seqNum : Nat}
    {entry : TakionDataPacketEntry} {q : ReorderQueue TakionDataPacketEntry}
    {installed : Option (κ × κ)} (h : DataAckInvariant t) (hb : TakionBasic t)
    (hpc : t.pc = .flushDataQueue caller ack last)
    (hpull : reorderQueuePull t.dataQueue = some (seqNum, entry, q))
    (hf : FlushedEntry (t.pulled caller seqNum entry q) entry installed t') : DataAckInvariant t' := by
  obtain ⟨hseq, htake, -, hbegin, -⟩ := reorderQueuePull_some hb.wf hpull
  obtain ⟨hqueue, -, hpc', -, -, -, -, htag⟩ := hf.frame
  replace hqueue : t'.dataQueue = q := hqueue
  replace hpc' : t'.pc = .flushDataQueue caller true seqNum := hpc'
  replace htag : t'.tagRemote = t.tagRemote := htag
  obtain ⟨hchunks, hunacked, halways⟩ := hf.stream
  obtain ⟨hroom, -⟩ := h.flush caller ack last hpc
  have hcount : t.dataQueue.count = q.count + 1 := by
    have := congrArg List.length (Window.take_stored htake).2
    rwa [ReorderQueue.length_window, List.length_cons, ReorderQueue.length_window] at this
  rw [h.begin] at hseq
  constructor
  · rw [hqueue, hbegin, htag, hchunks, h.begin, List.length_cons]
    exact seqAt_add t.tagRemote _ 1
  · intro caller' ack' seqNum' he
    rw [hpc'] at he
    cases he
    refine ⟨by rw [hunacked, hqueue]; omega, Or.inr ⟨rfl, by omega, ?_⟩⟩
    rw [htag, hchunks, List.length_cons, Nat.add_sub_cancel, hseq]
  · intro hout
    rw [hpc'] at hout
    cases hout
  · rw [htag]
    exact halways t.tagRemote hseq h.log

/-- The queue has run empty. -/
theorem DataAckInvariant.flushEnd {caller : TakionCaller} {ack : Bool} {seqNum : Nat}
    {sent : Option Bytes} (h : DataAckInvariant t) (hb : TakionBasic t)
    (hpc : t.pc = .flushDataQueue caller ack seqNum)
    (hpc' : t'.pc = caller.pc) (hempty : reorderQueuePull t.dataQueue = none)
    (hnumber : ∀ packet, sent = some packet →
      takionDataAckSeqNum (packet.drop 17) = some (seqNum % 2 ^ 32))
    (hq : Quiet (t.acknowledged ack (seqNum % 2 ^ 32) sent) t') : DataAckInvariant t' := by
  obtain ⟨hroom, hack⟩ := h.flush caller ack seqNum hpc
  have htake := reorderQueuePull_none hb.wf hempty
  have hout : t'.pc.inFlush = false := by rw [hpc', caller.pc_inFlush]
  have hqueue : t'.dataQueue = t.dataQueue := by
    rw [hq.dataQueue]
    cases ack <;> rfl
  have htag : t'.tagRemote = t.tagRemote := by
    rw [hq.tagRemote]
    cases ack <;> rfl
  -- what the acknowledgement itself adds
  have hstream : consumedChunks t'.log = consumedChunks t.log ∧ unacked t'.log = 0 ∧
      Always (TakionOutput.InOrder t.tagRemote) t'.log := by
    rw [hq.sameStream.consumedChunks_eq, hq.sameStream.unacked_eq]
    rcases hack with ⟨rfl, hzero⟩ | ⟨rfl, hpos, hseq⟩
    · exact ⟨rfl, hzero,
        hq.sameStream.always h.log fun _ => TakionOutput.inOrder_of_not_stream⟩
    · have hmod : seqNum % 2 ^ 32 = seqNum := by
        rw [hseq]
        exact Nat.mod_eq_of_lt (seqAt_lt _ _)
      rw [hmod] at hq hnumber ⊢
      have hacked : Always (TakionOutput.InOrder t.tagRemote) (.sendDataAck seqNum :: t.log) :=
        always_cons.mpr ⟨⟨hpos, by omega, hseq⟩, h.log⟩
      cases sent with
      | none =>
        exact ⟨rfl, rfl, hq.sameStream.always hacked fun _ => TakionOutput.inOrder_of_not_stream⟩
      | some packet =>
        refine ⟨rfl, rfl, hq.sameStream.always ?_ fun _ => TakionOutput.inOrder_of_not_stream⟩
        exact always_cons.mpr ⟨⟨seqNum, t.log, rfl, hnumber packet rfl⟩, hacked⟩
  obtain ⟨hchunks, hunacked, halways⟩ := hstream
  constructor
  · rw [hqueue, htag, hchunks, h.begin]
  · intro caller' ack' seqNum' he
    rw [he] at hout
    cases hout
  · intro _
    rw [hqueue]
    exact ⟨hunacked, htake⟩
  · rw [htag]
    exact halways

theorem dataAckInvariant_step (hb : TakionBasic t) (h : DataAckInvariant t)
    (hs : (takionLts gmac).step t l t') : DataAckInvariant t' := by
  cases takionStep_move hs with
  | other hpc hq _ =>
    constructor
    · rw [hq.dataQueue, hq.tagRemote, hq.sameStream.consumedChunks_eq, h.begin]
    · rw [hpc, hq.dataQueue, hq.tagRemote, hq.sameStream.consumedChunks_eq, hq.sameStream.unacked_eq]
      exact h.flush
    · rw [hpc, hq.dataQueue, hq.sameStream.unacked_eq]
      exact h.drained
    · rw [hq.tagRemote]
      exact hq.sameStream.always h.log fun _ => TakionOutput.inOrder_of_not_stream
  | recheckBegin hpc _ hres =>
    subst hres
    exact h.of_same (by rw [hpc]; rfl) rfl rfl rfl (.refl _)
  | recheckFault i hpc _ hres =>
    subst hres
    exact h.of_same (by rw [hpc]; rfl) rfl rfl rfl (.refl _)
  | idle hpc hq _ =>
    have hout : t.pc.inFlush = false ∧ t'.pc.inFlush = false := by
      rcases hpc with ⟨h1, -, h2⟩ | ⟨i, h1, h2 | h2⟩ | ⟨h1, ⟨h2, -⟩ | h2⟩ | ⟨i, h1, h2⟩ <;>
        rw [h1, h2] <;> exact ⟨rfl, rfl⟩
    exact h.of_quiet hq hout.1 hout.2
  | postponed i packet hpc _ hh => exact h.handled hb (by rw [hpc]; rfl) hh
  | recv packet mem _ hpc hh =>
    have h1 : DataAckInvariant { t with nextBuf := t.nextBuf + 1 } := ⟨h.begin, h.flush, h.drained, h.log⟩
    have hb1 : TakionBasic { t with nextBuf := t.nextBuf + 1 } := hb.of_quiet rfl hb.postponed
    exact h1.handled hb1 (by show t.pc.inFlush = false; rw [hpc]; rfl) hh
  | flushEnd caller ack seqNum sent hpc hpc' hempty hnumber hq _ =>
    exact h.flushEnd hb hpc hpc' hempty hnumber hq
  | flushEntry caller ack last seqNum entry q mem installed _ hpc hpull hf =>
    exact h.flushEntry hb hpc hpull hf
  | stop hpc hres =>
    subst hres
    refine h.of_same (by rw [hpc]; rfl) rfl rfl rfl ?_
    exact (sameStream_cons rfl _).trans (sameStream_freeEvents _ _)

/-- **The numbers of what is consumed and acknowledged, in every run.** -/
theorem dataAckInvariant_invariant (gmac : κ → Nat → Bytes → Mac) :
    (takionLts gmac).Invariant fun t => TakionBasic t ∧ DataAckInvariant t :=
  (takionBasic_invariant gmac).and_of (fun _ h => dataAckInvariant_init h)
    fun _ _ _ hb h hs => dataAckInvariant_step hb h hs

/-! ## What an acknowledgement says -/

/-- The number of the last chunk that was consumed. -/
theorem consumedChunks_head {tagRemote seqNum : Nat} {payload : Bytes} {rest : List (Nat × Bytes)}
    (ha : Always (TakionOutput.InOrder tagRemote) log)
    (h : consumedChunks log = (seqNum, payload) :: rest) : seqNum = seqAt tagRemote rest.length := by
  induction log with
  | nil => cases h
  | cons e log ih =>
    obtain ⟨he, hbefore⟩ := always_cons.mp ha
    cases e with
    | consumed s p =>
      have h' : (s, p) :: consumedChunks log = (seqNum, payload) :: rest := h
      cases h'
      exact he
    | _ => exact ih hbefore h

theorem unacked_append {mid : List (TakionOutput κ)} {seqNum : Nat}
    (h : ∀ n, .sendDataAck n ∉ mid) :
    unacked (mid ++ .sendDataAck seqNum :: log) = (consumedChunks mid).length := by
  induction mid with
  | nil => rfl
  | cons e mid ih =>
    have hrest := ih fun n hn => h n (List.mem_cons_of_mem _ hn)
    cases e with
    | consumed s p => exact congrArg Nat.succ hrest
    | sendDataAck s => exact absurd (List.mem_cons_self ..) (h s)
    | _ => exact hrest

/-- A DATA_ACK carries the number of the last chunk consumed before it. -/
theorem DataAckInvariant.last_consumed (h : DataAckInvariant t) {later earlier : List (TakionOutput κ)}
    {seqNum : Nat} (ho : Occurs t.log (.sendDataAck seqNum) later earlier) :
    ∃ payload rest, consumedChunks earlier = (seqNum, payload) :: rest := by
  obtain ⟨hpos, -, hseq⟩ := h.log later earlier _ ho
  have hle := unacked_le earlier
  cases hc : consumedChunks earlier with
  | nil =>
    rw [hc] at hle
    exact absurd hpos (by simpa using hle)
  | cons c rest =>
    obtain ⟨s, payload⟩ := c
    have hs := consumedChunks_head (h.log.before ho) hc
    rw [hc, List.length_cons, Nat.add_sub_cancel, ← hs] at hseq
    exact ⟨payload, rest, by rw [hseq]⟩

/-- A DATA_ACK is serially after the one before it. -/
theorem DataAckInvariant.forward (h : DataAckInvariant t)
    {later mid earlier : List (TakionOutput κ)} {seqNum seqNum' : Nat}
    (ho : Occurs t.log (.sendDataAck seqNum) later (mid ++ .sendDataAck seqNum' :: earlier))
    (hmid : ∀ n, .sendDataAck n ∉ mid) : seqNum32Gt seqNum seqNum' = true := by
  have ho' : Occurs t.log (.sendDataAck seqNum') (later ++ .sendDataAck seqNum :: mid) earlier := by
    rw [Occurs, ho, List.append_assoc, List.cons_append]
  obtain ⟨hpos, hle, hseq⟩ := h.log _ _ _ ho
  obtain ⟨hpos', -, hseq'⟩ := h.log _ _ _ ho'
  have hearlier := unacked_le earlier
  have hcount : (consumedChunks (mid ++ .sendDataAck seqNum' :: earlier)).length
      = (consumedChunks mid).length + (consumedChunks earlier).length := by
    unfold consumedChunks
    rw [List.filterMap_append, List.length_append]
    rfl
  rw [unacked_append hmid] at hpos hle
  rw [hcount] at hseq
  rw [hseq, hseq', seqNum32Gt_seqAt (by omega) (by omega), decide_eq_true_iff]
  omega

end Chiaki
