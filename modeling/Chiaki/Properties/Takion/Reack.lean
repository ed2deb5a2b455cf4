import Chiaki.Properties.Takion.Authentication
import Chiaki.Properties.Takion.DataAck
import Chiaki.Properties.Takion.Send
import Chiaki.Takion.Link

/-!
# Duplicates are not acknowledged again

`takion_flush_data_queue` acknowledges only after it has pulled a chunk, and a chunk that was
consumed before brings nothing to pull. So a repeated chunk is dropped without an answer, and
a chunk whose DATA_ACK is lost stays in the send buffer of its sender until the receiver
consumes another one (`duplicateUnanswered`).

`StreamMove` says what a step of the receiver can do to the stream.
-/

namespace Chiaki

open Infra Infra.History

variable {κ : Type} {n : Nat} {gmac : κ → Nat → Bytes → Mac} {t t' t'' : Takion κ}
  {l : TakionLabel κ}

/-! ## What a step does to the stream -/

/-- A step adds nothing to the stream, or a chunk, or the acknowledgement of one. -/
inductive StreamMove (t t' : Takion κ) : Prop
  | same (log : SameStream t'.log t.log)
  | consume (events : List (TakionOutput κ)) (log : t'.log = events ++ t.log)
      (consumed : consumedChunks events ≠ [])
  | ack (events : List (TakionOutput κ)) (log : t'.log = events ++ t.log)
      (pending : 0 < unacked t.log)

theorem takionStep_streamMove (h : DataAckInvariant t)
    (hs : (takionLts gmac).step t l t') : StreamMove t t' := by
  cases takionStep_move hs with
  | other _ hq _ => exact .same hq.sameStream
  | recheckBegin _ _ hres =>
    subst hres
    exact .same (.refl _)
  | recheckFault _ _ _ hres =>
    subst hres
    exact .same (.refl _)
  | idle _ hq _ => exact .same hq.sameStream
  | postponed _ _ _ _ hh => exact .same hh.sameStream
  | recv _ _ _ _ hh => exact .same hh.sameStream
  | flushEnd caller ack seqNum sent hpc _ _ _ hq _ =>
    obtain ⟨events, hlog, -⟩ := hq.log
    rcases (h.flush caller ack seqNum hpc).2 with ⟨rfl, -⟩ | ⟨rfl, hpos, -⟩
    · exact .same hq.sameStream
    · refine .ack (events ++ ((sent.map .send).toList ++ [.sendDataAck (seqNum % 2 ^ 32)])) ?_ hpos
      rw [hlog]
      simp [Takion.acknowledged]
  | flushEntry caller ack last seqNum entry q mem installed _ _ _ hf =>
    obtain ⟨events, hlog, hevents, -⟩ := hf.effect
    refine .consume (.freeEntry entry.packetBuf.id :: .free entry.packetBuf.id :: (events ++
      [.consumed seqNum entry.payloadBytes, .use entry.packetBuf.id])) (by rw [hlog]; simp) ?_
    rcases hevents with ⟨rfl, -⟩ | ⟨ty, rfl, -⟩ <;> simp [consumedChunks]
  | stop _ hres =>
    subst hres
    exact .same ((sameStream_cons rfl _).trans (sameStream_freeEvents _ _))

/-! ## Duplicates arrive -/

/-- Every data chunk that arrives is serially before `data_queue.begin`. -/
def OnlyDuplicates (t : Takion κ) : TakionLabel κ → Prop
  | .recv packet _ => IsDataMessage t.tagLocal packet →
      seqNum32Lt (u32At packet 17) t.dataQueue.begin = true
  | _ => True

/-- The queue is `q`, with nothing to pull, and the stream has stood still since `log`. -/
structure Drained (q : ReorderQueue TakionDataPacketEntry) (log : List (TakionOutput κ))
    (t : Takion κ) : Prop where
  queue : t.dataQueue = q
  same : SameStream t.log log
  take : Window.take q.window = none
  pending : unacked log = 0

/-- A duplicate is dropped in front of the queue. -/
theorem Handled.duplicate {buf : PacketBuf} {caller : TakionCaller} (hb : TakionBasic t)
    (hh : Handled t buf caller t') (hbefore : IsDataMessage t.tagLocal buf.bytes →
      seqNum32Lt (u32At buf.bytes 17) t.dataQueue.begin = true) : t'.dataQueue = t.dataQueue := by
  cases hh with
  | fault _ _ _ hq _ => exact hq.dataQueue
  | ignored _ hq _ => exact hq.dataQueue
  | pushed t1 entry q dropped hdata _ _ _ hpush _ _ _ hres =>
    have hlt := u32At_lt buf.bytes 17
    obtain ⟨d, hpos, hd, hbegin⟩ := seqNum_behind hb.wf.begin_lt hlt (hbefore hdata)
    rw [reorderQueuePush_behind hb.wf hbegin hpos hd entry] at hpush
    cases hpush
    rw [hres]

theorem Drained.step {q : ReorderQueue TakionDataPacketEntry} {log : List (TakionOutput κ)}
    (h : Drained q log t) (hb : TakionBasic t) (ha : DataAckInvariant t) (hG : OnlyDuplicates t l)
    (hs : (takionLts gmac).step t l t') : Drained q log t' := by
  have hof : t'.dataQueue = t.dataQueue → SameStream t'.log t.log → Drained q log t' :=
    fun hqueue hlog => ⟨hqueue.trans h.queue, hlog.trans h.same, h.take, h.pending⟩
  cases takionStep_move hs with
  | other _ hq _ => exact hof hq.dataQueue hq.sameStream
  | recheckBegin _ _ hres =>
    subst hres
    exact hof rfl (.refl _)
  | recheckFault _ _ _ hres =>
    subst hres
    exact hof rfl (.refl _)
  | idle _ hq _ => exact hof hq.dataQueue hq.sameStream
  | postponed i packet _ hmem hh =>
    refine hof (hh.duplicate hb fun hdata => ?_) hh.sameStream
    exact absurd hdata (hb.postponed packet hmem).not_isDataMessage
  | recv packet mem hl _ hh =>
    subst hl
    have hb1 : TakionBasic { t with nextBuf := t.nextBuf + 1 } := hb.of_quiet rfl hb.postponed
    have hqueue := hh.duplicate hb1 hG
    exact hof hqueue hh.sameStream
  | flushEnd caller ack seqNum sent hpc _ _ _ hq _ =>
    rcases (ha.flush caller ack seqNum hpc).2 with ⟨rfl, -⟩ | ⟨rfl, hpos, -⟩
    · exact hof hq.dataQueue hq.sameStream
    · -- there is nothing to acknowledge
      rw [h.same.unacked_eq, h.pending] at hpos
      exact absurd hpos (Nat.lt_irrefl 0)
  | flushEntry caller ack last seqNum entry q' mem installed _ _ hpull _ =>
    obtain ⟨-, htake, -⟩ := reorderQueuePull_some hb.wf hpull
    rw [h.queue, h.take] at htake
    cases htake
  | stop _ hres =>
    subst hres
    exact hof rfl ((sameStream_cons rfl _).trans (sameStream_freeEvents _ _))

/-- Runs from a given state. -/
abbrev takionFrom (gmac : κ → Nat → Bytes → Mac) (t : Takion κ) : Lts (Takion κ) (TakionLabel κ) :=
  Lts.ofFun (· = t) (takionStep gmac)

theorem drained_of_onlyDuplicates (hr : (takionLts gmac).Reachable t) (hpc : t.pc.inFlush = false)
    (hr' : ((takionFrom gmac t).restrict OnlyDuplicates).Reachable t') :
    Drained t.dataQueue t.log t' := by
  obtain ⟨hb, ha⟩ := (dataAckInvariant_invariant gmac).reachable hr
  obtain ⟨hpending, htake⟩ := ha.drained hpc
  have hinv : ((takionFrom gmac t).restrict OnlyDuplicates).Invariant fun t' =>
      (TakionBasic t' ∧ DataAckInvariant t') ∧ Drained t.dataQueue t.log t' := by
    constructor
    · rintro t' rfl
      exact ⟨⟨hb, ha⟩, rfl, .refl _, htake, hpending⟩
    · rintro t1 l t2 ⟨⟨hb1, ha1⟩, hd⟩ ⟨hG, hs⟩
      exact ⟨(dataAckInvariant_invariant gmac).step t1 l t2 ⟨hb1, ha1⟩ hs, hd.step hb1 ha1 hG hs⟩
  exact (hinv.reachable hr').2

/-! ## An acknowledgement is lost -/

/-- Whether the cumulative number `ack` covers a packet of the given number. -/
def Covers (ack seqNum : Nat) : Prop := seqNum = ack ∨ seqNum32Lt seqNum ack = true

/--
The packet is in the send buffer, the receiver has nothing left to acknowledge, and no
acknowledgement that covers the packet is in flight.
-/
structure LostAck (s : TakionLink κ n) (seqNum id : Nat) : Prop where
  inSendBuffer : InSendBuffer s.sender seqNum id
  pending : unacked s.receiver.log = 0
  inFlight : ∀ packet ∈ s.toSender, ∀ ack, takionDataAckSeqNum (packet.drop 17) = some ack →
    ¬ Covers ack seqNum

/-- Runs from a given state. -/
abbrev takionLinkFrom (gmac : κ → Nat → Bytes → Mac) (s : TakionLink κ n) :
    Lts (TakionLink κ n) (TakionLinkLabel κ n) :=
  Lts.ofFun (· = s) (takionLinkStep gmac)

variable {s s' : TakionLink κ n} {linkLabel : TakionLinkLabel κ n}

/-- What one step of the link is. -/
inductive LinkMove (gmac : κ → Nat → Bytes → Mac) (s : TakionLink κ n) (l : TakionLinkLabel κ n)
    (s' : TakionLink κ n) : Prop
  | sender (sl : SendLabel κ n) (noAck : ∀ payload, sl ≠ .ack payload)
      (step : (sendLts n gmac).step s.sender sl s'.sender) (receiver : s'.receiver = s.receiver)
      (toSender : s'.toSender = s.toSender)
  | ack (packet : Bytes) (label : l = .ack packet) (inFlight : packet ∈ s.toSender)
      (step : (sendLts n gmac).step s.sender (.ack (packet.drop 17)) s'.sender)
      (receiver : s'.receiver = s.receiver) (toSender : s'.toSender = s.toSender)
  | receiver (rl : TakionLabel κ) (step : (takionLts gmac).step s.receiver rl s'.receiver)
      (sender : s'.sender = s.sender)
      (toSender : s'.toSender = sentDatagrams
        (s'.receiver.log.take (s'.receiver.log.length - s.receiver.log.length)) ++ s.toSender)
  | lose (sender : s'.sender = s.sender) (receiver : s'.receiver = s.receiver)
      (toSender : ∀ packet ∈ s'.toSender, packet ∈ s.toSender)

theorem takionLinkStep_move (h : (takionLinkLts n gmac).step s linkLabel s') :
    LinkMove gmac s linkLabel s' := by
  replace h : takionLinkStep gmac s linkLabel = some s' := h
  cases linkLabel with
  | sender sl =>
    cases sl with
    | ack payload => cases h
    | _ =>
      simp only [takionLinkStep] at h
      obtain ⟨sender, hstep, rfl⟩ := Option.map_eq_some_iff.mp h
      exact .sender _ (by simp) hstep rfl rfl
  | receiver rl =>
    cases rl with
    | recv packet mem => cases h
    | _ =>
      simp only [takionLinkStep] at h
      obtain ⟨receiver, hstep, rfl⟩ := Option.map_eq_some_iff.mp h
      exact .receiver _ hstep rfl rfl
  | data packet mem =>
    simp only [takionLinkStep] at h
    split at h
    · obtain ⟨receiver, hstep, rfl⟩ := Option.map_eq_some_iff.mp h
      exact .receiver _ hstep rfl rfl
    · cases h
  | ack packet =>
    simp only [takionLinkStep] at h
    split at h
    · next hmem =>
      obtain ⟨sender, hstep, rfl⟩ := Option.map_eq_some_iff.mp h
      exact .ack packet rfl hmem hstep rfl rfl
    · cases h
  | loseData packet =>
    cases h
    exact .lose rfl rfl fun _ hp => hp
  | loseAck packet =>
    cases h
    exact .lose rfl rfl fun _ hp => List.mem_of_mem_erase hp

/-- The receiver of a link runs as one on its own. -/
theorem takionLink_receiver (hr : (takionLinkLts n gmac).Reachable s) :
    (takionLts gmac).Reachable s.receiver := by
  induction hr with
  | init hi =>
    obtain ⟨version, enableCrypt, tagSender, tagReceiver, keyState, crypt, htag, rfl⟩ := hi
    exact .init ⟨version, enableCrypt, tagReceiver, tagSender, keyState, crypt, htag, rfl⟩
  | step _ hs ih =>
    cases takionLinkStep_move hs with
    | sender _ _ _ hreceiver _ => rwa [hreceiver]
    | ack _ _ _ _ hreceiver _ => rwa [hreceiver]
    | receiver rl hstep _ _ => exact .step ih hstep
    | lose _ hreceiver _ => rwa [hreceiver]

/-- Only an acknowledgement takes packets out of the send buffer. -/
theorem InSendBuffer.sendStep {sender sender' : SendState κ n} {sl : SendLabel κ n}
    {seqNum id : Nat} (h : InSendBuffer sender seqNum id)
    (hs : (sendLts n gmac).step sender sl sender')
    (hack : ∀ payload ack, sl = .ack payload → takionDataAckSeqNum payload = some ack →
      ¬ Covers ack seqNum) : InSendBuffer sender' seqNum id := by
  cases sendStep_move hs with
  | thread _ _ _ hsb => exact h.of_eq hsb
  | malloc _ _ _ hsb => exact h.of_eq hsb
  | transmit _ _ _ _ _ _ _ _ hsb => exact h.of_eq hsb
  | push _ now m packet _ _ _ hsb =>
    obtain ⟨p, hp, hseq, hid⟩ := h
    refine ⟨p, ?_, hseq, hid⟩
    rw [hsb]
    by_cases haccepts : sender.sendBuffer.accepts m
    · obtain ⟨sb', hpush, hcontents, -⟩ := takionSendBufferPush_ok haccepts packet now
      rw [hpush, hcontents]
      exact List.mem_append_left _ hp
    · rw [(takionSendBufferPush_error haccepts packet now).1]
      exact hp
  | ack payload ack hl hparsed _ _ hsb =>
    obtain ⟨p, hp, hseq, hid⟩ := h
    refine ⟨p, ?_, hseq, hid⟩
    rw [hsb, (takionSendBufferAck_eq sender.sendBuffer ack).1]
    refine List.mem_filter.mpr ⟨hp, ?_⟩
    have hcovers := hack payload ack hl hparsed
    rw [Covers, ← hseq, ← covered_iff] at hcovers
    simpa using hcovers
  | raise _ _ _ _ _ hsb => exact h.of_eq hsb
  | ackDone _ _ _ hsb => exact h.of_eq hsb
  | resend _ _ _ hsb => exact h.resend hsb
  | ignored _ hsb => exact h.of_eq hsb

/-- What has happened since the state `s`: the receiver has consumed another chunk, or the packet
is still where it was and nothing new is in flight to its sender. -/
def StillLost (s : TakionLink κ n) (seqNum id : Nat) (s' : TakionLink κ n) : Prop :=
  ∃ events, s'.receiver.log = events ++ s.receiver.log ∧
    (consumedChunks events = [] →
      InSendBuffer s'.sender seqNum id ∧ ∀ packet ∈ s'.toSender, packet ∈ s.toSender)

theorem unacked_append_le (events log : List (TakionOutput κ)) :
    unacked (events ++ log) ≤ (consumedChunks events).length + unacked log := by
  induction events with
  | nil => exact Nat.le_add_left _ _
  | cons e events ih =>
    cases e with
    | consumed seqNum payload =>
      show unacked (events ++ log) + 1 ≤ (consumedChunks events).length + 1 + unacked log
      omega
    | sendDataAck seqNum => exact Nat.zero_le _
    | _ => exact ih

theorem consumedChunks_append (events log : List (TakionOutput κ)) :
    consumedChunks (events ++ log) = consumedChunks events ++ consumedChunks log :=
  List.filterMap_append

theorem stillLost_step {start : TakionLink κ n} {seqNum id : Nat} (hlost : LostAck start seqNum id)
    (hr : (takionLinkLts n gmac).Reachable s) (h : StillLost start seqNum id s)
    (hs : (takionLinkLts n gmac).step s linkLabel s') : StillLost start seqNum id s' := by
  obtain ⟨events, hlog, hkept⟩ := h
  cases takionLinkStep_move hs with
  | sender sl hno hstep hreceiver hto =>
    refine ⟨events, by rw [hreceiver, hlog], fun hnone => ?_⟩
    obtain ⟨hin, hflight⟩ := hkept hnone
    rw [hto]
    exact ⟨hin.sendStep hstep fun payload _ hl => absurd hl (hno payload), hflight⟩
  | ack packet hl hmem hstep hreceiver hto =>
    refine ⟨events, by rw [hreceiver, hlog], fun hnone => ?_⟩
    obtain ⟨hin, hflight⟩ := hkept hnone
    rw [hto]
    refine ⟨hin.sendStep hstep ?_, hflight⟩
    rintro payload ack ⟨⟩ hparsed
    exact hlost.inFlight packet (hflight packet hmem) ack hparsed
  | receiver rl hstep hsender hto =>
    obtain ⟨hb, ha⟩ := (dataAckInvariant_invariant gmac).reachable (takionLink_receiver hr)
    have hnew : ∀ new, s'.receiver.log = new ++ s.receiver.log →
        s'.toSender = sentDatagrams new ++ s.toSender := by
      intro new hnew
      rw [hto, hnew, List.length_append, Nat.add_sub_cancel, List.take_left]
    cases takionStep_streamMove ha hstep with
    | same hsame =>
      obtain ⟨new, hnewlog, hquiet⟩ := hsame
      refine ⟨new ++ events, by rw [hnewlog, hlog, List.append_assoc], fun hnone => ?_⟩
      rw [consumedChunks_append] at hnone
      obtain ⟨hin, hflight⟩ := hkept (List.append_eq_nil_iff.mp hnone).2
      have hsent : sentDatagrams new = [] := by
        refine List.filterMap_eq_nil_iff.mpr fun e he => ?_
        have := hquiet e he
        cases e <;> first | rfl | cases this
      rw [hsender, hnew new hnewlog, hsent]
      exact ⟨hin, hflight⟩
    | consume new hnewlog hconsumed =>
      refine ⟨new ++ events, by rw [hnewlog, hlog, List.append_assoc], fun hnone => ?_⟩
      rw [consumedChunks_append] at hnone
      exact absurd (List.append_eq_nil_iff.mp hnone).1 hconsumed
    | ack new hnewlog hpending =>
      refine ⟨new ++ events, by rw [hnewlog, hlog, List.append_assoc], fun hnone => ?_⟩
      -- what is acknowledged was consumed since `start`
      rw [consumedChunks_append] at hnone
      have hle := unacked_append_le events start.receiver.log
      rw [← hlog, (List.append_eq_nil_iff.mp hnone).2, hlost.pending] at hle
      exact absurd hpending (Nat.not_lt.mpr hle)
  | lose hsender hreceiver hto =>
    refine ⟨events, by rw [hreceiver, hlog], fun hnone => ?_⟩
    obtain ⟨hin, hflight⟩ := hkept hnone
    rw [hsender]
    exact ⟨hin, fun packet hp => hflight packet (hto packet hp)⟩

/-- A run from a state in which an acknowledgement is lost. -/
theorem stillLost_of_lostAck {start : TakionLink κ n} {seqNum id : Nat}
    (hr : (takionLinkLts n gmac).Reachable start) (hlost : LostAck start seqNum id)
    (hr' : (takionLinkFrom gmac start).Reachable s) :
    (takionLinkLts n gmac).Reachable s ∧ StillLost start seqNum id s := by
  have hinv : (takionLinkFrom gmac start).Invariant fun s =>
      (takionLinkLts n gmac).Reachable s ∧ StillLost start seqNum id s := by
    constructor
    · rintro s rfl
      exact ⟨hr, [], rfl, fun _ => ⟨hlost.inSendBuffer, fun _ hp => hp⟩⟩
    · rintro s l s' ⟨hreach, h⟩ hs
      exact ⟨.step hreach hs, stillLost_step hlost hreach h hs⟩
  exact hinv.reachable hr'

/-- What is acknowledged after everything was acknowledged was consumed in between. -/
theorem DataAckInvariant.consumed_since {log events later earlier : List (TakionOutput κ)} {ack : Nat}
    (ha : DataAckInvariant t) (hlog : t.log = events ++ log) (hpending : unacked log = 0)
    (ho : Occurs t.log (.sendDataAck ack) later earlier) (hsince : log.length ≤ earlier.length) :
    ∃ payload rest, consumedChunks earlier = (ack, payload) :: rest ∧
      (consumedChunks log).length ≤ rest.length := by
  have hsuffix : log <:+ earlier := by
    refine List.suffix_of_suffix_length_le ⟨events, hlog.symm⟩ ?_ hsince
    exact ⟨later ++ [.sendDataAck ack], by rw [ho, List.append_assoc, List.singleton_append]⟩
  obtain ⟨mid, rfl⟩ := hsuffix
  obtain ⟨hpos, -, -⟩ := ha.log _ _ _ ho
  have hle := unacked_append_le mid log
  obtain ⟨payload, rest, hchunks⟩ := ha.last_consumed ho
  refine ⟨payload, rest, hchunks, ?_⟩
  have hlength := congrArg List.length hchunks
  rw [consumedChunks_append, List.length_append, List.length_cons] at hlength
  omega

/-! ## The property -/

/--
* As long as nothing but duplicates arrives, the receiver consumes nothing, acknowledges nothing,
  and leaves its queue as it is.
* A packet whose acknowledgement is lost stays in the send buffer, whatever is resent and
  arrives, until the receiver consumes another chunk.
* Every DATA_ACK that the receiver sends from then on carries the number of a chunk that it
  consumed since.
* The packet leaves when a DATA_ACK arrives that covers it.
-/
structure DuplicateUnanswered (n : Nat) (gmac : κ → Nat → Bytes → Mac) : Prop where
  ignored : ∀ t, (takionLts gmac).Reachable t → t.pc.inFlush = false →
    ∀ t', ((takionFrom gmac t).restrict OnlyDuplicates).Reachable t' →
      t'.dataQueue = t.dataQueue ∧ SameStream t'.log t.log
  kept : ∀ s, (takionLinkLts n gmac).Reachable s → ∀ seqNum id, LostAck s seqNum id →
    ∀ s', (takionLinkFrom gmac s).Reachable s' →
      InSendBuffer s'.sender seqNum id ∨
        (consumedChunks s.receiver.log).length < (consumedChunks s'.receiver.log).length
  consumedSince : ∀ s, (takionLinkLts n gmac).Reachable s → ∀ seqNum id, LostAck s seqNum id →
    ∀ s', (takionLinkFrom gmac s).Reachable s' → ∀ later earlier ack,
      Occurs s'.receiver.log (.sendDataAck ack) later earlier →
      s.receiver.log.length ≤ earlier.length →
      ∃ payload rest, consumedChunks earlier = (ack, payload) :: rest ∧
        (consumedChunks s.receiver.log).length ≤ rest.length
  leaves : ∀ s packet s', (takionLinkLts n gmac).step s (.ack packet) s' → ∀ ack,
    takionDataAckSeqNum (packet.drop 17) = some ack → ∀ seqNum id, Covers ack seqNum →
      ¬ InSendBuffer s'.sender seqNum id

/-- **A duplicate is not answered, and a lost acknowledgement is not sent again.** -/
theorem duplicateUnanswered (n : Nat) (gmac : κ → Nat → Bytes → Mac) : DuplicateUnanswered n gmac where
  ignored := fun t hr hpc t' hr' =>
    have h := drained_of_onlyDuplicates hr hpc hr'
    ⟨h.queue, h.same⟩
  kept := by
    intro s hr seqNum id hlost s' hr'
    obtain ⟨-, events, hlog, hkept⟩ := stillLost_of_lostAck hr hlost hr'
    by_cases hnone : consumedChunks events = []
    · exact Or.inl (hkept hnone).1
    · right
      rw [hlog, consumedChunks_append, List.length_append]
      exact Nat.lt_add_of_pos_left (List.length_pos_iff.mpr hnone)
  consumedSince := by
    intro s hr seqNum id hlost s' hr' later earlier ack ho hsince
    obtain ⟨hreach, events, hlog, -⟩ := stillLost_of_lostAck hr hlost hr'
    obtain ⟨-, ha⟩ := (dataAckInvariant_invariant gmac).reachable (takionLink_receiver hreach)
    exact ha.consumed_since hlog hlost.pending ho hsince
  leaves := by
    rintro s packet s' hs ack hparsed seqNum id hcovers ⟨p, hp, hseq, -⟩
    replace hs : takionLinkStep gmac s (.ack packet) = some s' := hs
    simp only [takionLinkStep] at hs
    split at hs
    · obtain ⟨sender, hstep, rfl⟩ := Option.map_eq_some_iff.mp hs
      have hbuffer : sender.sendBuffer = (takionSendBufferAck s.sender.sendBuffer ack).1 := by
        simp only [sendStep] at hstep
        split at hstep
        · cases hstep
          unfold sendAck
          rw [hparsed]
          rfl
        · cases hstep
      replace hp : p ∈ sender.sendBuffer.contents := hp
      rw [hbuffer, (takionSendBufferAck_eq s.sender.sendBuffer ack).1] at hp
      have hnot := (List.mem_filter.mp hp).2
      rw [Covers, ← hseq, ← covered_iff] at hcovers
      rw [hcovers] at hnot
      cases hnot
    · cases hs

/-! ### A duplicate, and a lost acknowledgement -/

/-- Chunk 5 is consumed and acknowledged. -/
def consumeOne : List (TakionLabel UInt8) :=
  toRecv ++ [.recv (exampleData 0 5 0 [1]) true, .run true none, .run true none] ++ toRecv

/-- The thread after the packet was pushed, until it waits again. -/
def untilRecv : List (TakionLabel UInt8) := .run true none :: toRecv

theorem consumeOne_run :
    ((Lts.runFun (takionStep keyGmac) exampleTakion consumeOne).bind fun t =>
      (takionStep keyGmac t (.recv (exampleData 0 5 0 [1]) true)).bind fun t' =>
        (Lts.runFun (takionStep keyGmac) t' untilRecv).map fun t'' =>
          ((t.pc, t.tagLocal, t.dataQueue.begin), t''.pc,
            t''.log.take (t''.log.length - t.log.length)))
      = some ((.recv, 1, 6), .recv, [.freeEntry 1, .free 1]) := by
  decide +kernel

/-- The duplicate of a consumed chunk is handled without any DATA_ACK. -/
theorem not_duplicateAnswered : ¬ ∀ t, (takionLts keyGmac).Reachable t → t.pc = .recv →
    ∀ packet t', IsDataMessage t.tagLocal packet →
      seqNum32Lt (u32At packet 17) t.dataQueue.begin = true →
      (takionLts keyGmac).step t (.recv packet true) t' →
      ∀ t'', Lts.runFun (takionStep keyGmac) t' untilRecv = some t'' → t''.pc = .recv →
        ∃ ack, .sendDataAck ack ∈ t''.log.take (t''.log.length - t.log.length) ∧
          Covers ack (u32At packet 17) := by
  intro hall
  obtain ⟨t, hrun, hrest⟩ := Option.bind_eq_some_iff.mp consumeOne_run
  obtain ⟨t', hstep, hrest⟩ := Option.bind_eq_some_iff.mp hrest
  obtain ⟨t'', hhandled, hobs⟩ := Option.map_eq_some_iff.mp hrest
  simp only [Prod.mk.injEq] at hobs
  obtain ⟨⟨hpc, htag, hbegin⟩, hpc', hlog⟩ := hobs
  have hreach : (takionLts keyGmac).Reachable t :=
    Lts.Reachable.runFun (.init exampleTakion_initial) hrun
  have hdata : IsDataMessage t.tagLocal (exampleData 0 5 0 [1]) := by
    rw [htag]
    decide
  have hbefore : seqNum32Lt (u32At (exampleData 0 5 0 [1]) 17) t.dataQueue.begin = true := by
    rw [hbegin]
    decide
  obtain ⟨ack, hack, -⟩ := hall t hreach hpc _ t' hdata hbefore hstep t'' hhandled hpc'
  rw [hlog] at hack
  simp at hack

/-- The datagram of an empty message 0x4823. -/
def exampleDatagram : Bytes := takionMessageDataPacket 1 0 1 0x4823 8 []

/-- The message arrives, its acknowledgement is lost, and it is resent and arrives again. -/
def lostAndResent : List (TakionLinkLabel Unit 1) :=
  let handled := [.receiver (.run true none), .receiver (.run true none)]
  sendOneMessage.map .sender ++ handled
    ++ [.data exampleDatagram true, .receiver (.run true none), .receiver (.run true none),
      .loseAck (takionMessageDataAckPacket 0x4823 0 0x4823 takionARwnd)] ++ handled
    ++ [.sender (.resend 201), .data exampleDatagram true, .receiver (.run true none)] ++ handled

example : (Lts.runFun (takionLinkStep zeroGmac)
      (takionLinkInit .v9 false 0x4823 1 keyStateInit none) lostAndResent).map
      (fun s => (s.sender.sendBuffer.contents.map (·.seqNum), s.toSender,
        (consumedChunks s.receiver.log).map (·.1), s.receiver.pc))
    = some ([0x4823], [], [0x4823], .recv) := by
  decide +kernel

end Chiaki
