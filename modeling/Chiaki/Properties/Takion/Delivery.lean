import Chiaki.Properties.Takion.Authentication
import Chiaki.Properties.Takion.DataAck

/-!
# Reliable delivery

The peer numbers its chunks consecutively and the network reorders, repeats and loses them.
As long as each chunk that arrives is less than `2 ^ 31` places from the one that is due next,
what the Takion thread consumes is the stream itself, from its beginning and in its order
(`takionDelivery_of_peer`). The invariant is that the place at distance `i` of the queue can
only hold chunk `k + i`, where `k` chunks have been consumed.
-/

namespace Chiaki

open Infra Infra.History

variable {κ : Type} {gmac : κ → Nat → Bytes → Mac} {t t' : Takion κ} {l : TakionLabel κ}
  {tagRemote : Nat}

/-- The payloads of the peer's data chunks, numbered from `tag_remote` on. -/
structure PeerStream (tagRemote : Nat) where
  payload : Nat → Bytes
  size : ∀ n, 9 ≤ (payload n).length
  seqNum : ∀ n, u32At (payload n) 0 = seqAt tagRemote n

/--
A data chunk that arrives is one of the peer's, and less than `2 ^ 31` places from the one at
`data_queue.begin`. That one has as many chunks before it as were consumed.
-/
def FromPeer (peer : PeerStream tagRemote) (t : Takion κ) : TakionLabel κ → Prop
  | .recv packet _ => IsDataMessage t.tagLocal packet →
      ∃ n, packet.drop 17 = peer.payload n ∧ n < (consumedChunks t.log).length + 2 ^ 31 ∧
        (consumedChunks t.log).length < n + 2 ^ 31
  | _ => True

/-- The DATA events, newest first. -/
def deliveredData (log : List (TakionOutput κ)) : List (TakionMessageDataType × Bytes) :=
  log.filterMap fun
    | .data _ dataType buf => some (dataType, buf)
    | _ => none

/-- The event that a chunk raises, if its data type is known. -/
def chunkData (chunk : Nat × Bytes) : Option (TakionMessageDataType × Bytes) :=
  (TakionMessageDataType.ofByte (u8At chunk.2 8)).map fun dataType => (dataType, chunk.2.drop 9)

/--
The chunks consumed are the first ones of the peer, each once and in order; the DATA events
are theirs, in the same order; every DATA_ACK, and every datagram sent for one, carries the
number of the last chunk consumed before it, and is serially after the DATA_ACK before it.
-/
structure TakionDelivery (peer : PeerStream tagRemote) (t : Takion κ) : Prop where
  consumed : ∃ k, (consumedChunks t.log).reverse
    = (List.range k).map fun n => (seqAt tagRemote n, peer.payload n)
  delivered : (deliveredData t.log).reverse = (consumedChunks t.log).reverse.filterMap chunkData
  acked : ∀ later earlier seqNum, Occurs t.log (.sendDataAck seqNum) later earlier →
    ∃ payload rest, consumedChunks earlier = (seqNum, payload) :: rest
  sent : ∀ later earlier packet, Occurs t.log (.send packet) later earlier →
    ∃ seqNum rest, earlier = .sendDataAck seqNum :: rest ∧
      takionDataAckSeqNum (packet.drop 17) = some seqNum
  forward : ∀ later mid earlier seqNum seqNum',
    Occurs t.log (.sendDataAck seqNum) later (mid ++ .sendDataAck seqNum' :: earlier) →
    (∀ n, .sendDataAck n ∉ mid) → seqNum32Gt seqNum seqNum' = true

/-! ## The invariant -/

/-- The queue and the log hold chunks of the peer at the places where they belong. -/
structure DeliveryInvariant (peer : PeerStream tagRemote) (t : Takion κ) : Prop where
  stored : ∀ i e, Window.Stored t.dataQueue.window i e →
    e.payloadBytes = peer.payload ((consumedChunks t.log).length + i) ∧
      e.payloadSize = e.payloadBytes.length
  consumed : (consumedChunks t.log).reverse = (List.range (consumedChunks t.log).length).map
    fun n => (seqAt tagRemote n, peer.payload n)
  delivered : deliveredData t.log = (consumedChunks t.log).filterMap chunkData

theorem SameStream.deliveredData_eq {log log' : List (TakionOutput κ)} (h : SameStream log' log) :
    deliveredData log' = deliveredData log := by
  obtain ⟨events, rfl, hev⟩ := h
  unfold deliveredData
  rw [List.filterMap_append, List.filterMap_eq_nil_iff.mpr, List.nil_append]
  intro e he
  have := hev e he
  cases e <;> first | rfl | cases this

variable {peer : PeerStream tagRemote}

theorem DeliveryInvariant.of_log (h : DeliveryInvariant peer t)
    (hqueue : t'.dataQueue = t.dataQueue) (hchunks : consumedChunks t'.log = consumedChunks t.log)
    (hdata : deliveredData t'.log = deliveredData t.log) : DeliveryInvariant peer t' where
  stored := by
    rw [hqueue, hchunks]
    exact h.stored
  consumed := by rw [hchunks, h.consumed]
  delivered := by rw [hdata, hchunks, h.delivered]

theorem DeliveryInvariant.of_same (h : DeliveryInvariant peer t)
    (hqueue : t'.dataQueue = t.dataQueue) (hlog : SameStream t'.log t.log) :
    DeliveryInvariant peer t' :=
  h.of_log hqueue hlog.consumedChunks_eq hlog.deliveredData_eq

/-- A chunk of the peer goes to its place, or it is dropped. -/
theorem DeliveryInvariant.pushed {q : ReorderQueue TakionDataPacketEntry}
    {dropped : List (Nat × TakionDataPacketEntry)} {n s : Nat} {entry : TakionDataPacketEntry}
    (h : DeliveryInvariant peer t) (hb : TakionBasic t)
    (hbegin : t.dataQueue.begin = seqAt tagRemote (consumedChunks t.log).length)
    (hs : s = seqAt tagRemote n) (hentry : entry.payloadBytes = peer.payload n)
    (hsize : entry.payloadSize = entry.payloadBytes.length)
    (h1 : n < (consumedChunks t.log).length + 2 ^ 31)
    (h2 : (consumedChunks t.log).length < n + 2 ^ 31)
    (hpush : reorderQueuePush t.dataQueue s entry = .ok (q, dropped)) (i : Nat)
    (e : TakionDataPacketEntry) (he : Window.Stored q.window i e) :
    e.payloadBytes = peer.payload ((consumedChunks t.log).length + i) ∧
      e.payloadSize = e.payloadBytes.length := by
  have hstored := h.stored i e
  generalize (consumedChunks t.log).length = k at hbegin h1 h2 hstored ⊢
  rcases Nat.lt_or_ge n k with hlt | hge
  · -- consumed before
    have hbehind : t.dataQueue.begin = seqAt s (k - n) := by
      rw [hbegin, hs]
      unfold seqAt
      omega
    have hdrop := reorderQueuePush_behind hb.wf hbehind (by omega) (by omega) entry
    rw [hpush] at hdrop
    cases hdrop
    exact hstored he
  · have hahead : s = seqAt t.dataQueue.begin (n - k) := by
      rw [hbegin, hs]
      unfold seqAt
      omega
    obtain ⟨q', hput, -, -, hwindow⟩ := @reorderQueuePush_ahead _ _ hb.wf hb.strategy (n - k)
      (by omega) entry
    rw [← hahead, hpush] at hput
    cases hput
    rw [hwindow] at he
    rcases Window.put_stored he with ⟨rfl, rfl⟩ | hold
    · rw [Nat.add_sub_cancel' hge]
      exact ⟨hentry, hsize⟩
    · exact hstored hold

theorem DeliveryInvariant.handled {buf : PacketBuf} {caller : TakionCaller}
    (h : DeliveryInvariant peer t) (hb : TakionBasic t)
    (hbegin : t.dataQueue.begin = seqAt tagRemote (consumedChunks t.log).length)
    (hpeer : IsDataMessage t.tagLocal buf.bytes →
      ∃ n, buf.bytes.drop 17 = peer.payload n ∧ n < (consumedChunks t.log).length + 2 ^ 31 ∧
        (consumedChunks t.log).length < n + 2 ^ 31)
    (hh : Handled t buf caller t') : DeliveryInvariant peer t' := by
  have hlog := hh.sameStream
  cases hh with
  | fault _ _ _ hq _ => exact h.of_same hq.dataQueue hq.sameStream
  | ignored _ hq _ => exact h.of_same hq.dataQueue hq.sameStream
  | pushed t1 entry q dropped hdata _ hpayload hsize hpush hq _ _ hres =>
    obtain ⟨n, hn, h1, h2⟩ := hpeer hdata
    have hseq : u32At buf.bytes 17 = seqAt tagRemote n := by
      rw [← peer.seqNum n, ← hn, u32At_drop]
    have hlength : entry.payloadSize = entry.payloadBytes.length := by
      rw [hsize, hpayload, List.length_drop]
    have hqueue : t'.dataQueue = q := by rw [hres]
    refine ⟨?_, ?_, ?_⟩
    · rw [hqueue, hlog.consumedChunks_eq]
      exact h.pushed hb hbegin hseq (hpayload.trans hn) hlength h1 h2 hpush
    · rw [hlog.consumedChunks_eq]
      exact h.consumed
    · rw [hlog.deliveredData_eq, hlog.consumedChunks_eq]
      exact h.delivered

/-- The chunk that is due leaves the queue. -/
theorem DeliveryInvariant.flushEntry {caller : TakionCaller} {seqNum : Nat}
    {entry : TakionDataPacketEntry} {q : ReorderQueue TakionDataPacketEntry}
    {installed : Option (κ × κ)} (h : DeliveryInvariant peer t) (hb : TakionBasic t)
    (hbegin : t.dataQueue.begin = seqAt tagRemote (consumedChunks t.log).length)
    (hpull : reorderQueuePull t.dataQueue = some (seqNum, entry, q))
    (hf : FlushedEntry (t.pulled caller seqNum entry q) entry installed t') :
    DeliveryInvariant peer t' := by
  obtain ⟨hseq, htake, -⟩ := reorderQueuePull_some hb.wf hpull
  obtain ⟨hchunks, -⟩ := hf.stream
  obtain ⟨events, hlog, hevents, -⟩ := hf.effect
  have hqueue : t'.dataQueue = q := hf.frame.1
  obtain ⟨hpayload, hlength⟩ := h.stored 0 entry (Window.take_stored htake).1
  rw [Nat.add_zero] at hpayload
  rw [hbegin] at hseq
  have hsize : 9 ≤ entry.payloadSize := by
    rw [hlength, hpayload]
    exact peer.size _
  constructor
  · intro i e he
    rw [hqueue] at he
    have := h.stored (i + 1) e ((Window.stored_succ_of_take htake).mp he)
    rw [hchunks, List.length_cons]
    rwa [show (consumedChunks t.log).length + 1 + i = (consumedChunks t.log).length + (i + 1) by
      omega]
  · rw [hchunks, List.reverse_cons, h.consumed, List.length_cons, List.range_succ, List.map_append,
      List.map_singleton, hseq, hpayload]
  · have hdata : chunkData (seqNum, entry.payloadBytes)
        = (TakionMessageDataType.ofByte (u8At entry.payloadBytes 8)).map fun dataType =>
          (dataType, entry.payloadBytes.drop 9) := rfl
    rw [hchunks, List.filterMap_cons, hdata, hlog]
    rcases hevents with ⟨rfl, hsmall | hunknown⟩ | ⟨ty, rfl, -, hknown⟩
    · omega
    · rw [hunknown]
      exact h.delivered
    · rw [hknown]
      exact congrArg (List.cons _) h.delivered

theorem deliveryInvariant_init (h : TakionInitial t) : DeliveryInvariant peer t := by
  obtain ⟨version, enableCrypt, tagLocal, tagRemote, keyState, crypt, -, rfl⟩ := h
  refine ⟨fun i e he => ?_, rfl, rfl⟩
  cases he

theorem deliveryInvariant_step (hb : TakionBasic t) (ha : DataAckInvariant t)
    (htag : t.tagRemote = tagRemote) (h : DeliveryInvariant peer t) (hG : FromPeer peer t l)
    (hs : (takionLts gmac).step t l t') : DeliveryInvariant peer t' := by
  have hbegin : t.dataQueue.begin = seqAt tagRemote (consumedChunks t.log).length := by
    rw [ha.begin, htag]
  cases takionStep_move hs with
  | other _ hq _ => exact h.of_same hq.dataQueue hq.sameStream
  | recheckBegin _ _ hres =>
    subst hres
    exact h.of_same rfl (.refl _)
  | recheckFault _ _ _ hres =>
    subst hres
    exact h.of_same rfl (.refl _)
  | idle _ hq _ => exact h.of_same hq.dataQueue hq.sameStream
  | postponed i packet _ hmem hh =>
    exact h.handled hb hbegin
      (fun hdata => absurd hdata (hb.postponed packet hmem).not_isDataMessage) hh
  | recv packet mem hl _ hh =>
    subst hl
    have h1 : DeliveryInvariant peer { t with nextBuf := t.nextBuf + 1 } :=
      ⟨h.stored, h.consumed, h.delivered⟩
    have hb1 : TakionBasic { t with nextBuf := t.nextBuf + 1 } := hb.of_quiet rfl hb.postponed
    refine h1.handled hb1 hbegin ?_ hh
    exact hG
  | flushEnd caller ack seqNum sent _ _ _ _ hq _ =>
    refine h.of_log ?_ ?_ ?_
    · rw [hq.dataQueue]
      cases ack <;> rfl
    · rw [hq.sameStream.consumedChunks_eq]
      cases ack <;> cases sent <;> rfl
    · rw [hq.sameStream.deliveredData_eq]
      cases ack <;> cases sent <;> rfl
  | flushEntry caller ack last seqNum entry q mem installed _ _ hpull hf =>
    exact h.flushEntry hb hbegin hpull hf
  | stop _ hres =>
    subst hres
    exact h.of_same rfl ((sameStream_cons rfl _).trans (sameStream_freeEvents _ _))

theorem deliveryInvariant_invariant (gmac : κ → Nat → Bytes → Mac) (peer : PeerStream tagRemote) :
    ((takionLts gmac).restrict (FromPeer peer)).Invariant fun t =>
      (TakionBasic t ∧ DataAckInvariant t) ∧ (t.tagRemote = tagRemote → DeliveryInvariant peer t) := by
  refine (dataAckInvariant_invariant gmac).restrict.and_of (fun t h _ => deliveryInvariant_init h) ?_
  rintro t l t' ⟨hb, ha⟩ h ⟨hG, hs⟩ htag
  rw [takionStep_tagRemote hs] at htag
  exact deliveryInvariant_step hb ha htag (h htag) hG hs

/-- **The chunks of the peer are delivered once and in order**, and acknowledged only then. -/
theorem takionDelivery_of_peer (gmac : κ → Nat → Bytes → Mac) (peer : PeerStream tagRemote)
    (hr : ((takionLts gmac).restrict (FromPeer peer)).Reachable t)
    (htag : t.tagRemote = tagRemote) : TakionDelivery peer t := by
  obtain ⟨⟨-, ha⟩, h⟩ := (deliveryInvariant_invariant gmac peer).reachable hr
  replace h := h htag
  refine ⟨⟨_, h.consumed⟩, ?_, ?_, ?_, ?_⟩
  · rw [h.delivered, List.filterMap_reverse]
  · exact fun later earlier seqNum ho => ha.last_consumed ho
  · exact fun later earlier packet ho => ha.log later earlier _ ho
  · exact fun later mid earlier seqNum seqNum' ho hmid => ha.forward ho hmid

/-! ### A stream around the end of the numbers -/

/-- Chunk `n` of a peer whose first number is the last one there is. -/
def exampleChunk (n : Nat) : Bytes := exampleData 0 (seqAt 0xffffffff n) 0 [UInt8.ofNat n]

def exampleStream : PeerStream 0xffffffff where
  payload := fun n => (exampleChunk n).drop 17
  size := fun n => by simp [exampleChunk, exampleData, be32, be16]
  seqNum := fun n => by
    have hpayload : (exampleChunk n).drop 17
        = be32 (seqAt 0xffffffff n) ++ (be16 0 ++ [0, 0] ++ [0] ++ [UInt8.ofNat n]) := rfl
    rw [hpayload, u32At_be32]
    exact Nat.mod_eq_of_lt (seqAt_lt _ _)

/-- Only the first chunks of the stream arrive. -/
def exampleArrives (t : Takion UInt8) : TakionLabel UInt8 → Bool
  | .recv packet _ => (consumedChunks t.log).length < 8 && (List.range 8).any (exampleChunk · = packet)
  | _ => true

theorem fromPeer_of_exampleArrives (t : Takion UInt8) (l : TakionLabel UInt8)
    (h : exampleArrives t l = true) : FromPeer exampleStream t l := by
  cases l with
  | recv packet mem =>
    intro _
    simp only [exampleArrives, Bool.and_eq_true, decide_eq_true_eq, List.any_eq_true,
      List.mem_range] at h
    obtain ⟨hk, n, hn, rfl⟩ := h
    exact ⟨n, rfl, by omega, by omega⟩
  | _ => trivial

/-- The second chunk comes first, then the first one twice. -/
def reorderedAndRepeated : List (TakionLabel UInt8) :=
  toRecv ++ [.recv (exampleChunk 1) true, .run true none] ++ toRecv
    ++ [.recv (exampleChunk 0) true, .run true none, .run true none, .run true none] ++ toRecv
    ++ [.recv (exampleChunk 0) true, .run true none]

theorem reorderedAndRepeated_run :
    (Lts.runFun (Lts.guarded (takionStep keyGmac) fun t l => exampleArrives t l = true)
        (takionInit .v9 true 1 0xffffffff keyStateInit none) reorderedAndRepeated).map
        (fun t => (t.tagRemote, deliveredData t.log))
      = some (0xffffffff, [(.protobuf, [1]), (.protobuf, [0])]) := by
  decide +kernel

theorem takionDelivery_reorderedAndRepeated : ∃ t : Takion UInt8,
    deliveredData t.log = [(.protobuf, [1]), (.protobuf, [0])] ∧ TakionDelivery exampleStream t := by
  obtain ⟨t, hrun, hobs⟩ := Option.map_eq_some_iff.mp reorderedAndRepeated_run
  simp only [Prod.mk.injEq] at hobs
  refine ⟨t, hobs.2, takionDelivery_of_peer keyGmac exampleStream ?_ hobs.1⟩
  refine Lts.Reachable.mono ?_ fromPeer_of_exampleArrives
  exact Lts.Reachable.runGuarded (.init ⟨.v9, true, 1, 0xffffffff, keyStateInit, none, by decide, rfl⟩)
    hrun

end Chiaki
