import Chiaki.Infra.History
import Chiaki.Properties.ReorderQueue
import Chiaki.Properties.Takion.Packet
import Chiaki.Takion.Thread

/-!
# What a step of the Takion thread can do

`takionHandlePacket_handled` and `takionStep_move` say once what a step changes about the data
queue, the keys and the data events. The theorems about runs start from these two, so that
none of them unfolds the thread again.

`takionBasic_invariant` is what the other invariants build on: the data queue is a well formed
32-bit queue, and what is postponed are audio and video packets.
-/

namespace Chiaki

open Infra Infra.History

variable {κ : Type} {gmac : κ → Nat → Bytes → Mac} {t t' t'' : Takion κ} {l : TakionLabel κ}

/-! ## Events that do not concern data -/

/-- Events that neither touch a queue entry nor consume or acknowledge one. -/
def TakionOutput.isQuiet : TakionOutput κ → Bool
  | .macVerified .. | .free .. | .dataAck .. | .av .. | .disconnect => true
  | _ => false

/-- `t'` differs from `t` in nothing that the handling of data depends on, but for where the
thread stands and which packets are postponed. -/
structure Quiet (t t' : Takion κ) : Prop where
  enableCrypt : t'.enableCrypt = t.enableCrypt
  gkcryptRemote : t'.gkcryptRemote = t.gkcryptRemote
  dataQueue : t'.dataQueue = t.dataQueue
  tagLocal : t'.tagLocal = t.tagLocal
  tagRemote : t'.tagRemote = t.tagRemote
  cryptAvailable : t'.cryptAvailable = t.cryptAvailable
  nextBuf : t'.nextBuf = t.nextBuf
  log : ∃ events, t'.log = events ++ t.log ∧ ∀ e ∈ events, e.isQuiet = true

theorem Quiet.refl (t : Takion κ) : Quiet t t :=
  ⟨rfl, rfl, rfl, rfl, rfl, rfl, rfl, [], rfl, by simp⟩

theorem Quiet.trans (h : Quiet t t') (h' : Quiet t' t'') : Quiet t t'' := by
  obtain ⟨ev, hlog, hev⟩ := h.log
  obtain ⟨ev', hlog', hev'⟩ := h'.log
  refine ⟨h'.enableCrypt.trans h.enableCrypt, h'.gkcryptRemote.trans h.gkcryptRemote,
    h'.dataQueue.trans h.dataQueue, h'.tagLocal.trans h.tagLocal, h'.tagRemote.trans h.tagRemote,
    h'.cryptAvailable.trans h.cryptAvailable, h'.nextBuf.trans h.nextBuf, ev' ++ ev, ?_, ?_⟩
  · rw [hlog', hlog, List.append_assoc]
  · intro e he
    rcases List.mem_append.mp he with he | he
    · exact hev' e he
    · exact hev e he

theorem Quiet.emit {e : TakionOutput κ} (h : e.isQuiet = true) (t : Takion κ) : Quiet t (t.emit e) :=
  ⟨rfl, rfl, rfl, rfl, rfl, rfl, rfl, [e], rfl, by simpa using h⟩

theorem Quiet.goto (t : Takion κ) (pc : TakionPc) : Quiet t (t.goto pc) :=
  ⟨rfl, rfl, rfl, rfl, rfl, rfl, rfl, [], rfl, by simp⟩

/-- The events of `takion_data_drop`. -/
def freeEvents (dropped : List (Nat × TakionDataPacketEntry)) : List (TakionOutput κ) :=
  dropped.reverse.flatMap fun d => [.freeEntry d.2.packetBuf.id, .free d.2.packetBuf.id]

theorem dataDrop_log (t : Takion κ) (dropped : List (Nat × TakionDataPacketEntry)) :
    (t.dataDrop dropped).log = freeEvents dropped ++ t.log := by
  unfold Takion.dataDrop freeEvents
  induction dropped generalizing t with
  | nil => rfl
  | cons d dropped ih =>
    rw [List.foldl_cons, ih, List.reverse_cons, List.flatMap_append, List.append_assoc]
    rfl

theorem dataDrop_eq (t : Takion κ) (dropped : List (Nat × TakionDataPacketEntry)) :
    t.dataDrop dropped = { t with log := freeEvents dropped ++ t.log } := by
  rw [← dataDrop_log]
  unfold Takion.dataDrop
  induction dropped generalizing t with
  | nil => rfl
  | cons d dropped ih => rw [List.foldl_cons, ih]; rfl

/-! ## Handling a packet -/

/-- An audio or video packet. -/
def IsAvPacket (packet : Bytes) : Prop :=
  takionPacketBaseType (u8At packet 0) = some .video ∨
    takionPacketBaseType (u8At packet 0) = some .audio

/-- A packet that reaches the data queue, if its MAC is not wrong: a message for `tagLocal` with
a data chunk of at least 9 bytes. -/
def IsDataMessage (tagLocal : Nat) (packet : Bytes) : Prop :=
  26 ≤ packet.length ∧ takionPacketBaseType (u8At packet 0) = some .control ∧
    u32At packet 1 = tagLocal ∧ packet.length = 1 + u16At packet 15 + 0xc ∧
    TakionChunkType.ofByte (u8At packet 13) = some .data

instance (tagLocal : Nat) (packet : Bytes) : Decidable (IsDataMessage tagLocal packet) :=
  inferInstanceAs (Decidable (_ ∧ _))

theorem IsAvPacket.not_isDataMessage {packet : Bytes} {tagLocal : Nat} (h : IsAvPacket packet) :
    ¬ IsDataMessage tagLocal packet := by
  rintro ⟨-, hcontrol, -⟩
  rcases h with h | h <;> rw [h] at hcontrol <;> cases hcontrol

/-- The three outcomes of the MAC check. -/
inductive MacResult (t : Takion κ) (buf : PacketBuf) : Takion κ × PacketBuf × ErrorCode → Prop
  | unchecked (crypt : t.gkcryptRemote = none) : MacResult t buf (t, buf, .success)
  | failed (buf' : PacketBuf) (err : ErrorCode) (id : buf'.id = buf.id) (failure : err ≠ .success) :
      MacResult t buf (t, buf', err)
  | verified (k : κ) (keyState : KeyState) (crypt : t.gkcryptRemote = some k) :
      MacResult t buf
        ({ t with keyState := keyState }.emit (.macVerified k buf.bytes), buf, .success)

theorem takionPacketReadKeyPos_error {keyState : KeyState} {buf : Bytes} {err : ErrorCode}
    (h : takionPacketReadKeyPos keyState buf = .error err) : err ≠ .success := by
  unfold takionPacketReadKeyPos at h
  split at h
  · cases h; decide
  · split at h
    · cases h; decide
    · split at h
      · cases h; decide
      · cases h

theorem takionPacketMac_error {crypt : Option κ} {buf : Bytes} {keyPos : Nat} {err : ErrorCode}
    (h : takionPacketMac gmac crypt buf keyPos = .error err) : err ≠ .success := by
  unfold takionPacketMac at h
  split at h
  · cases h; decide
  · split at h
    · cases h; decide
    · split at h
      · split at h
        · cases h; decide
        · cases h
      · cases h; decide

theorem takionHandlePacketMac_result (t : Takion κ) (buf : PacketBuf) :
    MacResult t buf (takionHandlePacketMac gmac t buf) := by
  unfold takionHandlePacketMac
  split
  · next hk => exact .unchecked hk
  · next crypt hk =>
    split
    · next err hpos => exact .failed buf err rfl (takionPacketReadKeyPos_error hpos)
    · next keyPos _ =>
      split
      · next err hmac => exact .failed buf err rfl (takionPacketMac_error hmac)
      · next bytes macExpected mac hmac =>
        by_cases he : macExpected = mac
        · subst he
          have hbytes : bytes = buf.bytes := takionPacketMac_eq hmac
          subst hbytes
          rw [if_neg (by simp)]
          exact .verified crypt (keyStateCommit t.keyState keyPos) hk
        · rw [if_pos he]
          exact .failed _ .invalidMac rfl (by decide)

/-- What handling a packet does to the thread, for the caller `caller`. -/
inductive Handled (t : Takion κ) (buf : PacketBuf) (caller : TakionCaller) (t' : Takion κ) : Prop
  | fault (f : Fault) (noNull : f ≠ .nullPointer) (pc : t'.pc = .fault f) (quiet : Quiet t t')
      (postponed : t'.postponedPackets = t.postponedPackets)
  | ignored (pc : t'.pc = caller.pc) (quiet : Quiet t t')
      (postponed : t'.postponedPackets = t.postponedPackets ∨ IsAvPacket buf.bytes ∧
        ∀ p ∈ t'.postponedPackets.getD [], p ∈ t.postponedPackets.getD [] ∨ p = buf)
  | pushed (t1 : Takion κ) (entry : TakionDataPacketEntry)
      (q : ReorderQueue TakionDataPacketEntry) (dropped : List (Nat × TakionDataPacketEntry))
      (isData : IsDataMessage t.tagLocal buf.bytes)
      (packet : entry.packetBuf = buf) (payload : entry.payloadBytes = buf.bytes.drop 17)
      (payloadSize : entry.payloadSize = buf.bytes.length - 17)
      (push : reorderQueuePush t.dataQueue (u32At buf.bytes 17) entry = .ok (q, dropped))
      (quiet : Quiet t t1) (postponed : t1.postponedPackets = t.postponedPackets)
      (verified : ∀ k, t.gkcryptRemote = some k → .macVerified k buf.bytes ∈ t1.log)
      (result : t' = { t1 with
        dataQueue := q
        pc := .flushDataQueue caller false 0
        log := freeEvents dropped ++ t1.log })

/-- The number in an empty `payload` is never read: the size is checked first. -/
theorem takionHandlePacketMessageData_handled (t : Takion κ) {buf : PacketBuf} (typeB : Nat)
    (mem : Bool) (caller : TakionCaller) {msg : TakionMessage}
    {keyState : KeyState} (hcontrol : takionPacketBaseType (u8At buf.bytes 0) = some .control)
    (hparse : (takionParseMessage t.tagLocal keyState (buf.bytes.drop 1)).2 = .ok msg)
    (htype : TakionChunkType.ofByte msg.chunkType = some .data) :
    (∃ t', takionHandlePacketMessageData t buf typeB (msg.payload.map (· + 1)) msg.payloadSize mem
        caller = .ok t' ∧ t' = t) ∨
      (∃ entry, IsDataMessage t.tagLocal buf.bytes ∧ entry.packetBuf = buf ∧
        entry.payloadBytes = buf.bytes.drop 17 ∧ entry.payloadSize = buf.bytes.length - 17 ∧
        takionHandlePacketMessageData t buf typeB (msg.payload.map (· + 1)) msg.payloadSize mem caller
          = match reorderQueuePush t.dataQueue (u32At buf.bytes 17) entry with
            | .error f => .error f
            | .ok (q, dropped) =>
              .ok (({ t with dataQueue := q }.dataDrop dropped).goto
                (.flushDataQueue caller false 0))) := by
  obtain ⟨hlen, htag, hsize, hchunk, hpayloadSize, hpayload⟩ := takionParseMessage_ok hparse
  rw [List.length_drop] at hlen hsize hpayloadSize
  have hheader : takionMessageHeaderSize = 16 := rfl
  unfold takionHandlePacketMessageData
  by_cases h9 : msg.payloadSize < 9
  · exact Or.inl ⟨t, by rw [if_pos h9], rfl⟩
  · rw [if_neg h9]
    cases mem with
    | false => exact Or.inl ⟨t, rfl, rfl⟩
    | true =>
      right
      have hpos : 0 < msg.payloadSize := by omega
      rw [if_pos hpos] at hpayload
      rw [hpayload, if_neg (by simp)]
      refine ⟨⟨buf, typeB, 17, msg.payloadSize, u16At buf.bytes (17 + 4)⟩, ?_, rfl, ?_, ?_, rfl⟩
      · rw [u32At_drop] at htag
        have hsize' : buf.bytes.length - 1 = u16At buf.bytes 15 + 0xc := by rw [hsize, u16At_drop]
        rw [u8At_drop] at hchunk
        refine ⟨by omega, hcontrol, htag, by omega, ?_⟩
        rw [← htype, hchunk]
      · show slice buf.bytes 17 msg.payloadSize = buf.bytes.drop 17
        rw [show msg.payloadSize = buf.bytes.length - 17 by omega, slice_eq_drop]
      · show msg.payloadSize = buf.bytes.length - 17
        omega

/-- Raising the DATA_ACK events, one for each acknowledged packet. -/
theorem quiet_dataAcks (t : Takion κ) (acked : List TakionSendBufferPacket) :
    Quiet t (acked.foldl (fun (t : Takion κ) p => t.emit (.dataAck p.seqNum)) t) ∧
      (acked.foldl (fun (t : Takion κ) p => t.emit (.dataAck p.seqNum)) t).pc = t.pc ∧
      (acked.foldl (fun (t : Takion κ) p => t.emit (.dataAck p.seqNum)) t).postponedPackets
        = t.postponedPackets := by
  induction acked generalizing t with
  | nil => exact ⟨.refl t, rfl, rfl⟩
  | cons p acked ih =>
    obtain ⟨hq, hpc, hpost⟩ := ih (t.emit (.dataAck p.seqNum))
    exact ⟨(Quiet.emit rfl t).trans hq, hpc, hpost⟩

theorem takionHandlePacketMessageDataAck_quiet (t : Takion κ) (payload : Bytes) :
    Quiet t (takionHandlePacketMessageDataAck t payload) ∧
      (takionHandlePacketMessageDataAck t payload).pc = t.pc ∧
      (takionHandlePacketMessageDataAck t payload).postponedPackets = t.postponedPackets := by
  unfold takionHandlePacketMessageDataAck
  split
  · exact ⟨.refl t, rfl, rfl⟩
  · next seqNum _ =>
    obtain ⟨hq, hpc, hpost⟩ := quiet_dataAcks
      { t with sendBuffer := (takionSendBufferAck t.sendBuffer seqNum).1 }
      (takionSendBufferAck t.sendBuffer seqNum).2
    refine ⟨?_, hpc, hpost⟩
    exact ⟨hq.enableCrypt, hq.gkcryptRemote, hq.dataQueue, hq.tagLocal, hq.tagRemote,
      hq.cryptAvailable, hq.nextBuf, hq.log⟩

theorem takionPostponePacket_quiet (t : Takion κ) (buf : PacketBuf) (mem : Bool) :
    Quiet t (takionPostponePacket t buf mem) ∧ (takionPostponePacket t buf mem).pc = t.pc ∧
      ∀ p ∈ (takionPostponePacket t buf mem).postponedPackets.getD [],
        p ∈ t.postponedPackets.getD [] ∨ p = buf := by
  unfold takionPostponePacket
  split
  · exact ⟨.refl t, rfl, fun _ hp => Or.inl hp⟩
  · simp only
    split
    · exact ⟨⟨rfl, rfl, rfl, rfl, rfl, rfl, rfl, [], rfl, by simp⟩, rfl, fun _ hp => Or.inl hp⟩
    · refine ⟨⟨rfl, rfl, rfl, rfl, rfl, rfl, rfl, [], rfl, by simp⟩, rfl, fun p hp => ?_⟩
      rcases List.mem_append.mp hp with hp | hp
      · exact Or.inl hp
      · exact Or.inr (List.mem_singleton.mp hp)

theorem takionHandlePacketAv_ok {t t' : Takion κ} {buf : PacketBuf}
    (h : takionHandlePacketAv t buf = .ok t') :
    Quiet t t' ∧ t'.pc = t.pc ∧ t'.postponedPackets = t.postponedPackets := by
  unfold takionHandlePacketAv at h
  split at h
  · cases h
  · cases h
    exact ⟨⟨rfl, rfl, rfl, rfl, rfl, rfl, rfl, [], rfl, by simp⟩, rfl, rfl⟩
  · next keyState packet _ =>
    cases h
    exact ⟨⟨rfl, rfl, rfl, rfl, rfl, rfl, rfl, [_], rfl, by simp [TakionOutput.isQuiet]⟩, rfl, rfl⟩

theorem takionHandlePacketAv_error {t : Takion κ} {buf : PacketBuf} {f : Fault}
    (h : takionHandlePacketAv t buf = .error f) : f ≠ .nullPointer := by
  have hreads : ReadsOnly (t.version.avPacketParse t.keyState buf.bytes) := by
    cases t.version with
    | v7 => exact readsOnly_takionV7AVPacketParse _ _
    | v9 => exact readsOnly_takionAVPacketParse _ _ _
    | v12 => exact readsOnly_takionAVPacketParse _ _ _
  unfold takionHandlePacketAv at h
  split at h
  · next f' hf' =>
    cases h
    rw [hreads f hf']
    decide
  · cases h
  · cases h

/-- The push of the data queue has no null pointer to follow. -/
theorem reorderQueueExtend_error {α : Type} {newEnd : Nat} {f : Fault} : ∀ (free : Nat)
    (q : ReorderQueue α), reorderQueueExtend newEnd free q = .error f → f = .assertion := by
  intro free
  induction free with
  | zero =>
    intro q h
    unfold reorderQueueExtend at h
    split at h <;> cases h
    rfl
  | succ free ih =>
    intro q h
    unfold reorderQueueExtend at h
    simp only at h
    split at h
    · exact ih _ h
    · cases h

theorem reorderQueueStore_error {α : Type} {q : ReorderQueue α} {seqNum : Nat} {user : α} {f : Fault}
    (h : reorderQueueStore q seqNum user = .error f) : f = .assertion := by
  unfold reorderQueueStore at h
  cases he : reorderQueueExtend (q.ops.add seqNum 1) (q.size - q.count) q with
  | error f' =>
    rw [he] at h
    cases h
    exact reorderQueueExtend_error _ _ he
  | ok q' =>
    rw [he] at h
    cases h

theorem reorderQueuePush_error {α : Type} {q : ReorderQueue α} {seqNum : Nat} {user : α} {f : Fault}
    (h : reorderQueuePush q seqNum user = .error f) : f = .assertion := by
  have hstore : ∀ (q : ReorderQueue α) (k : ReorderQueue α → ReorderQueue α × List (Nat × α)),
      (do let q' ← reorderQueueStore q seqNum user; return k q') = .error f → f = .assertion := by
    intro q k hk
    cases hs : reorderQueueStore q seqNum user with
    | error f' =>
      rw [hs] at hk
      cases hk
      exact reorderQueueStore_error hs
    | ok q' =>
      rw [hs] at hk
      cases hk
  unfold reorderQueuePush at h
  split at h
  · cases h; rfl
  · simp only at h
    split at h
    · split at h <;> cases h
    · split at h
      · cases h
      · split at h
        · cases h; rfl
        · split at h
          · split at h
            · cases h
            · exact hstore _ (fun q' => (q', _)) h
          · exact hstore _ (fun q' => (q', [])) h

/-- A message whose MAC was not wrong. -/
theorem takionHandlePacketMessage_handled {t1 : Takion κ} (buf : PacketBuf) (mem : Bool)
    {caller : TakionCaller} (hcontrol : takionPacketBaseType (u8At buf.bytes 0) = some .control)
    (hq : Quiet t t1) (hpc : t1.pc = caller.pc) (hpost : t1.postponedPackets = t.postponedPackets)
    (hver : ∀ k, t.gkcryptRemote = some k → .macVerified k buf.bytes ∈ t1.log) :
    Handled t buf caller (t.orFault (takionHandlePacketMessage t1 buf mem caller)) := by
  unfold takionHandlePacketMessage
  generalize hr : takionParseMessage t1.tagLocal t1.keyState (buf.bytes.drop 1) = r
  have hks : Quiet t { t1 with keyState := r.1 } :=
    hq.trans ⟨rfl, rfl, rfl, rfl, rfl, rfl, rfl, [], rfl, by simp⟩
  have hfree : ∀ t2 : Takion κ, Quiet { t1 with keyState := r.1 } t2 → t2.pc = t1.pc →
      t2.postponedPackets = t1.postponedPackets →
      Handled t buf caller (t.orFault (.ok (t2.freeBuf buf))) := fun t2 hq2 hpc2 hpost2 =>
    .ignored (hpc2.trans hpc) (hks.trans (hq2.trans (.emit rfl t2))) (Or.inl (hpost2.trans hpost))
  simp only
  split
  · exact hfree _ (.refl _) rfl rfl
  · next msg hparse =>
    split
    · next htype =>
      rw [← hr] at hparse
      rcases takionHandlePacketMessageData_handled { t1 with keyState := r.1 } msg.chunkFlags mem
          caller hcontrol hparse htype with
        ⟨t2, hres, rfl⟩ | ⟨entry, hdata, hbuf, hpayload, hsize, hres⟩
      · rw [hres]
        exact .ignored hpc hks (Or.inl hpost)
      · rw [hres]
        have hqueue : t1.dataQueue = t.dataQueue := hq.dataQueue
        cases hpush : reorderQueuePush t.dataQueue (u32At buf.bytes 17) entry with
        | error f =>
          simp only [hqueue, hpush]
          refine .fault f ?_ rfl (.goto t _) rfl
          rw [reorderQueuePush_error hpush]
          decide
        | ok res =>
          obtain ⟨q, dropped⟩ := res
          simp only [hqueue, hpush]
          refine .pushed { t1 with keyState := r.1 } entry q dropped ?_ hbuf hpayload hsize hpush
            hks hpost hver ?_
          · rw [← hq.tagLocal]
            exact hdata
          · simp only [Takion.orFault, dataDrop_eq]
            rfl
    · obtain ⟨hq2, hpc2, hpost2⟩ := takionHandlePacketMessageDataAck_quiet
        { t1 with keyState := r.1 } (slice buf.bytes (1 + msg.payload.getD 0) msg.payloadSize)
      exact hfree _ hq2 hpc2 hpost2
    · exact hfree _ (.refl _) rfl rfl

/-- An audio or video packet whose MAC was not wrong. -/
theorem takionHandlePacketAv_handled {t1 : Takion κ} (buf : PacketBuf) (mem : Bool)
    {caller : TakionCaller} (hisAv : IsAvPacket buf.bytes) (hq : Quiet t t1)
    (hpc : t1.pc = caller.pc) (hpost : t1.postponedPackets = t.postponedPackets) :
    Handled t buf caller (t.orFault
      (if t1.enableCrypt && t1.gkcryptRemote.isNone then .ok (takionPostponePacket t1 buf mem)
        else (takionHandlePacketAv t1 buf).map fun t => t.freeBuf buf)) := by
  split
  · obtain ⟨hq2, hpc2, hmem⟩ := takionPostponePacket_quiet t1 buf mem
    refine .ignored (hpc2.trans hpc) (hq.trans hq2) (Or.inr ⟨hisAv, fun p hp => ?_⟩)
    rw [← hpost]
    exact hmem p hp
  · cases hres : takionHandlePacketAv t1 buf with
    | error f => exact .fault f (takionHandlePacketAv_error hres) rfl (.goto t _) rfl
    | ok t2 =>
      obtain ⟨hq2, hpc2, hpost2⟩ := takionHandlePacketAv_ok hres
      exact .ignored (hpc2.trans hpc) (hq.trans (hq2.trans (.emit rfl t2)))
        (Or.inl (hpost2.trans hpost))

/-- What `takion_handle_packet` does behind the MAC check. -/
def takionDispatch (t : Takion κ) (buf : PacketBuf) (mem : Bool) (caller : TakionCaller) :
    Except Fault (Takion κ) :=
  match takionPacketBaseType (u8At buf.bytes 0) with
  | some .control => takionHandlePacketMessage t buf mem caller
  | some .video | some .audio =>
    if t.enableCrypt && t.gkcryptRemote.isNone then .ok (takionPostponePacket t buf mem)
    else (takionHandlePacketAv t buf).map fun t => t.freeBuf buf
  | _ => .ok (t.freeBuf buf)

/-- The type of the packet decides. -/
theorem takionDispatch_handled {t1 : Takion κ} (buf : PacketBuf) (mem : Bool) {caller : TakionCaller}
    (hq : Quiet t t1) (hpc : t1.pc = caller.pc) (hpost : t1.postponedPackets = t.postponedPackets)
    (hver : ∀ k, t.gkcryptRemote = some k → .macVerified k buf.bytes ∈ t1.log) :
    Handled t buf caller (t.orFault (takionDispatch t1 buf mem caller)) := by
  unfold takionDispatch
  split
  · next h => exact takionHandlePacketMessage_handled buf mem h hq hpc hpost hver
  · next h => exact takionHandlePacketAv_handled buf mem (Or.inl h) hq hpc hpost
  · next h => exact takionHandlePacketAv_handled buf mem (Or.inr h) hq hpc hpost
  · exact .ignored hpc (hq.trans (.emit rfl t1)) (Or.inl hpost)

/-- **What handling a packet can do.** -/
theorem takionHandlePacket_handled (t : Takion κ) (buf : PacketBuf) (mem : Bool)
    (caller : TakionCaller) :
    Handled t buf caller (t.orFault (takionHandlePacket gmac t buf mem caller)) := by
  unfold takionHandlePacket
  split
  · exact .fault .assertion (by decide) rfl (.goto t _) rfl
  · -- behind the MAC check
    have hres := @takionHandlePacketMac_result _ gmac (t.goto caller.pc) buf
    simp only
    generalize takionHandlePacketMac gmac (t.goto caller.pc) buf = r at hres ⊢
    cases hres with
    | unchecked hk =>
      exact takionDispatch_handled buf mem (.goto t _) rfl rfl fun k hk' => by
        rw [show t.gkcryptRemote = none from hk] at hk'
        cases hk'
    | failed buf' err hid herr =>
      have hq : Quiet t ((t.goto caller.pc).freeBuf buf') := (Quiet.goto t _).trans (.emit rfl _)
      cases err <;> first | exact absurd rfl herr | exact .ignored rfl hq (Or.inl rfl)
    | verified k keyState hk =>
      refine takionDispatch_handled buf mem ?_ rfl rfl ?_
      · exact ⟨rfl, rfl, rfl, rfl, rfl, rfl, rfl, [.macVerified k buf.bytes], rfl,
          by simp [TakionOutput.isQuiet]⟩
      · intro k' hk'
        rw [show t.gkcryptRemote = some k from hk] at hk'
        cases hk'
        exact List.mem_cons_self ..

/-! ## Flushing the data queue -/

/-- A pulled element raises no event, or one event of a known type. -/
inductive FlushedEntry (t : Takion κ) (entry : TakionDataPacketEntry) (installed : Option (κ × κ))
    (t' : Takion κ) : Prop
  | silent (unknown : entry.payloadSize < 9 ∨
        TakionMessageDataType.ofByte (u8At entry.payloadBytes 8) = none)
      (result : t' = t.freeEntry entry)
  | event (dataType : TakionMessageDataType) (size : 9 ≤ entry.payloadSize)
      (known : TakionMessageDataType.ofByte (u8At entry.payloadBytes 8) = some dataType)
      (result : t' = (takionDataEvent t dataType (entry.payloadBytes.drop 9) installed).freeEntry
        entry)

theorem takionFlushEntry_flushed (t : Takion κ) (entry : TakionDataPacketEntry)
    (installed : Option (κ × κ)) :
    FlushedEntry t entry installed (takionFlushEntry t entry installed) := by
  unfold takionFlushEntry
  by_cases hsize : entry.payloadSize < 9
  · simp only [hsize, if_true]
    exact .silent (Or.inl hsize) rfl
  · simp only [hsize, if_false]
    cases htype : TakionMessageDataType.ofByte (u8At entry.payloadBytes 8) with
    | none => exact .silent (Or.inr htype) rfl
    | some dataType => exact .event dataType (by omega) htype rfl

/-- What the end of the flush logs: the acknowledgement, and the datagram if it was sent. -/
def Takion.acknowledged (t : Takion κ) (ack : Bool) (seqNum : Nat) (sent : Option Bytes) :
    Takion κ :=
  if ack then { t with log := (sent.map .send).toList ++ .sendDataAck seqNum :: t.log } else t

theorem takionSendMessageDataAck_sent (t : Takion κ) (seqNum : Nat) :
    ∃ sent, (∀ packet, sent = some packet →
        takionDataAckSeqNum (packet.drop 17) = some (seqNum % 2 ^ 32)) ∧
      Quiet (t.acknowledged true seqNum sent) (takionSendMessageDataAck gmac t seqNum) ∧
      (takionSendMessageDataAck gmac t seqNum).postponedPackets = t.postponedPackets := by
  unfold takionSendMessageDataAck
  simp only
  split
  · exact ⟨none, by simp, .refl _, rfl⟩
  · next keyPos _ _ =>
    split
    · exact ⟨none, by simp, ⟨rfl, rfl, rfl, rfl, rfl, rfl, rfl, [], rfl, by simp⟩, rfl⟩
    · next buf _ _ hmac =>
      refine ⟨some buf, ?_, ⟨rfl, rfl, rfl, rfl, rfl, rfl, rfl, [], rfl, by simp⟩, rfl⟩
      rintro packet ⟨⟩
      rw [takionPacketMac_payload rfl hmac]
      exact takionDataAckSeqNum_packet _ _ _ _

/-- The state in which the callback for a pulled element runs. -/
def Takion.pulled (t : Takion κ) (caller : TakionCaller) (seqNum : Nat)
    (entry : TakionDataPacketEntry) (q : ReorderQueue TakionDataPacketEntry) : Takion κ :=
  (({ t with dataQueue := q }.goto (.flushDataQueue caller true seqNum)).emit
    (.use entry.packetBuf.id)).emit (.consumed seqNum entry.payloadBytes)

/-! ## The step -/

/-- The keys have been installed, and the packets in the queue are still to be re-checked. -/
def Takion.recheckDue (t : Takion κ) : Prop :=
  t.enableCrypt = true ∧ t.cryptAvailable = false ∧ t.gkcryptRemote.isSome = true

/-- What a step changes, by where the thread stands. -/
inductive TakionMove (t : Takion κ) (l : TakionLabel κ) (t' : Takion κ) : Prop
  | other (pc : t'.pc = t.pc) (quiet : Quiet t t')
      (postponed : t'.postponedPackets = t.postponedPackets)
  | recheckBegin (pc : t.pc = .loop) (due : t.recheckDue)
      (result : t' = { t with cryptAvailable := true, pc := .recheck 0 })
  | recheckFault (i : Nat) (pc : t.pc = .recheck i)
      (stored : ∃ e, Window.Stored t.dataQueue.window i e)
      (result : t' = t.goto (.fault .nullPointer))
  | idle (pc : (t.pc = .loop ∧ ¬ t.recheckDue ∧ t'.pc = .postponed) ∨
        (∃ i, t.pc = .recheck i ∧ (t'.pc = .recheck (i + 1) ∨ t'.pc = .postponed)) ∨
        (t.pc = .postponed ∧
          ((t'.pc = .flushPostponed 0 ∧ t.gkcryptRemote.isSome = true) ∨ t'.pc = .recv)) ∨
        (∃ i, t.pc = .flushPostponed i ∧ t'.pc = .recv))
      (quiet : Quiet t t')
      (postponed : ∀ p ∈ t'.postponedPackets.getD [], p ∈ t.postponedPackets.getD [])
  | postponed (i : Nat) (packet : PacketBuf) (pc : t.pc = .flushPostponed i)
      (member : packet ∈ t.postponedPackets.getD [])
      (handled : Handled t packet (.postponed (i + 1)) t')
  | recv (packet : Bytes) (mem : Bool) (label : l = .recv packet mem) (pc : t.pc = .recv)
      (handled : Handled { t with nextBuf := t.nextBuf + 1 } ⟨t.nextBuf, packet⟩ .recv t')
  | flushEnd (caller : TakionCaller) (ack : Bool) (seqNum : Nat) (sent : Option Bytes)
      (pc : t.pc = .flushDataQueue caller ack seqNum) (pc' : t'.pc = caller.pc)
      (empty : reorderQueuePull t.dataQueue = none)
      (number : ∀ packet, sent = some packet →
        takionDataAckSeqNum (packet.drop 17) = some (seqNum % 2 ^ 32))
      (quiet : Quiet (t.acknowledged ack (seqNum % 2 ^ 32) sent) t')
      (postponed : t'.postponedPackets = t.postponedPackets)
  | flushEntry (caller : TakionCaller) (ack : Bool) (last seqNum : Nat)
      (entry : TakionDataPacketEntry) (q : ReorderQueue TakionDataPacketEntry) (mem : Bool)
      (installed : Option (κ × κ)) (label : l = .run mem installed)
      (pc : t.pc = .flushDataQueue caller ack last)
      (pull : reorderQueuePull t.dataQueue = some (seqNum, entry, q))
      (flushed : FlushedEntry (t.pulled caller seqNum entry q) entry installed t')
  | stop (pc : t.pc = .recv)
      (result : t' = { t with
        pc := .exited
        log := .disconnect :: (freeEvents (reorderQueueFini t.dataQueue) ++ t.log) })

theorem takionRecheck_move {i : Nat} (hpc : t.pc = .recheck i) :
    TakionMove t l (takionRecheck gmac t i) := by
  unfold takionRecheck
  split
  · exact .idle (Or.inr (Or.inl ⟨i, hpc, Or.inr rfl⟩)) (.goto t _) fun _ hp => hp
  · rcases reorderQueuePeek_false t.dataQueue i with ⟨hpeek, -⟩ | ⟨hpeek, hstored⟩
    · rw [hpeek]
      exact .idle (Or.inr (Or.inl ⟨i, hpc, Or.inl rfl⟩)) (.goto t _) fun _ hp => hp
    · rw [hpeek]
      exact .recheckFault i hpc hstored rfl

theorem takionFlushDataQueue_move {caller : TakionCaller} {ack mem : Bool} {seqNum : Nat}
    {installed : Option (κ × κ)} (hpc : t.pc = .flushDataQueue caller ack seqNum) :
    TakionMove t (.run mem installed) (takionFlushDataQueue gmac t caller ack seqNum installed) := by
  unfold takionFlushDataQueue
  split
  · next hpull =>
    cases ack with
    | false => exact .flushEnd caller false seqNum none hpc rfl hpull (by simp) (.goto t _) rfl
    | true =>
      obtain ⟨sent, hnumber, hq, hpost⟩ := @takionSendMessageDataAck_sent _ gmac t (seqNum % 2 ^ 32)
      rw [Nat.mod_mod] at hnumber
      exact .flushEnd caller true seqNum sent hpc rfl hpull hnumber (hq.trans (.goto _ _)) hpost
  · next n entry q hpull =>
    exact .flushEntry caller ack seqNum n entry q mem installed rfl hpc hpull
      (takionFlushEntry_flushed _ entry installed)

theorem takionRun_move {mem : Bool} {installed : Option (κ × κ)}
    (h : takionRun gmac t mem installed = some t') : TakionMove t (.run mem installed) t' := by
  unfold takionRun at h
  split at h
  · next hpc =>
    split at h
    · next hdue =>
      cases h
      simp only [Bool.and_eq_true, Bool.not_eq_true'] at hdue
      exact .recheckBegin hpc ⟨hdue.1.1, hdue.1.2, hdue.2⟩ rfl
    · next hdue =>
      cases h
      refine .idle (Or.inl ⟨hpc, ?_, rfl⟩) (.goto t _) fun _ hp => hp
      rintro ⟨h1, h2, h3⟩
      simp [h1, h2, h3] at hdue
  · next i hpc =>
    cases h
    exact takionRecheck_move hpc
  · next hpc =>
    split at h
    · next hflush =>
      cases h
      rw [Bool.and_eq_true] at hflush
      exact .idle (Or.inr (Or.inr (Or.inl ⟨hpc, Or.inl ⟨rfl, hflush.2⟩⟩))) (.goto t _) fun _ hp => hp
    · cases h
      exact .idle (Or.inr (Or.inr (Or.inl ⟨hpc, Or.inr rfl⟩))) (.goto t _) fun _ hp => hp
  · next i hpc =>
    split at h
    · next packet hget =>
      cases h
      exact .postponed i packet hpc (List.mem_of_getElem? hget) (takionHandlePacket_handled t packet mem _)
    · cases h
      refine .idle (Or.inr (Or.inr (Or.inr ⟨i, hpc, rfl⟩))) ?_ fun _ hp => absurd hp List.not_mem_nil
      exact ⟨rfl, rfl, rfl, rfl, rfl, rfl, rfl, [], rfl, by simp⟩
  · next caller ack seqNum hpc =>
    cases h
    exact takionFlushDataQueue_move hpc
  · cases h
  · cases h
  · cases h

theorem takionStep_move (h : (takionLts gmac).step t l t') :
    TakionMove t l t' := by
  replace h : takionStep gmac t l = some t' := h
  have hsame : ∀ t1 : Takion κ, t1 = { t with keyPosLocal := t1.keyPosLocal, sendBuffer := t1.sendBuffer } →
      TakionMove t l t1 := by
    intro t1 ht1
    rw [ht1]
    exact .other rfl ⟨rfl, rfl, rfl, rfl, rfl, rfl, rfl, [], rfl, by simp⟩ rfl
  cases l with
  | run mem installed => exact takionRun_move h
  | recv packet mem =>
    simp only [takionStep, takionRecv] at h
    split at h
    · next hrecv =>
      cases h
      exact .recv packet mem rfl hrecv.1 (takionHandlePacket_handled _ _ mem .recv)
    · cases h
  | stop =>
    simp only [takionStep, takionStop] at h
    split at h
    · next hpc =>
      cases h
      refine .stop hpc ?_
      rw [dataDrop_eq]
      rfl
    · cases h
  | advanceKeyPos dataSize =>
    simp only [takionStep] at h
    split at h
    · cases h
      exact hsame _ rfl
    · cases h
      exact hsame _ rfl
  | sendBufferPush seqNum packet now =>
    cases h
    exact hsame _ rfl
  | resend now =>
    cases h
    exact hsame _ rfl

/-! ## What holds in every run -/

/-- What every step keeps: the data queue is the one that `takion_thread_func` sets up, and only
audio and video packets are postponed. -/
structure TakionBasic (t : Takion κ) : Prop where
  wf : t.dataQueue.Wf32
  strategy : t.dataQueue.dropStrategy = .end
  dropCb : t.dataQueue.dropCb = true
  size : t.dataQueue.size = 16
  postponed : ∀ p ∈ t.postponedPackets.getD [], IsAvPacket p.bytes

theorem takionBasic_init (h : TakionInitial t) : TakionBasic t := by
  obtain ⟨version, enableCrypt, tagLocal, tagRemote, keyState, crypt, htag, rfl⟩ := h
  have hwf : (reorderQueueInit32 takionReorderQueueSizeExp tagRemote :
      ReorderQueue TakionDataPacketEntry).Wf32 := reorderQueueInit32_wf32 (by decide) htag
  exact ⟨⟨hwf.ops, hwf.begin_lt, hwf.count_le, hwf.sizeExp_le⟩, rfl, rfl, rfl,
    fun _ hp => absurd hp List.not_mem_nil⟩

/-- The queue is replaced by one that its operations made. -/
theorem TakionBasic.of_queue (h : TakionBasic t) (hwf : t'.dataQueue.Wf32)
    (hframe : t'.dataQueue.dropStrategy = t.dataQueue.dropStrategy ∧
      t'.dataQueue.dropCb = t.dataQueue.dropCb ∧ t'.dataQueue.size = t.dataQueue.size)
    (hpost : ∀ p ∈ t'.postponedPackets.getD [], IsAvPacket p.bytes) : TakionBasic t' :=
  ⟨hwf, hframe.1.trans h.strategy, hframe.2.1.trans h.dropCb, hframe.2.2.trans h.size, hpost⟩

theorem TakionBasic.of_quiet (h : TakionBasic t) (hq : t'.dataQueue = t.dataQueue)
    (hpost : ∀ p ∈ t'.postponedPackets.getD [], IsAvPacket p.bytes) : TakionBasic t' :=
  h.of_queue (by rw [hq]; exact h.wf) (by rw [hq]; exact ⟨rfl, rfl, rfl⟩) hpost

theorem TakionBasic.handled {buf : PacketBuf} {caller : TakionCaller} (h : TakionBasic t)
    (hh : Handled t buf caller t') : TakionBasic t' := by
  cases hh with
  | fault f _ _ hq hpost => exact h.of_quiet hq.dataQueue (by rw [hpost]; exact h.postponed)
  | ignored _ hq hpost =>
    refine h.of_quiet hq.dataQueue ?_
    rcases hpost with hpost | ⟨hav, hpost⟩
    · rw [hpost]
      exact h.postponed
    · intro p hp
      rcases hpost p hp with hp | rfl
      · exact h.postponed p hp
      · exact hav
  | pushed t1 entry q dropped _ _ _ _ hpush hq hpost _ hres =>
    rcases reorderQueuePush_result h.wf h.strategy (by rw [h.size]; decide) (u32At_lt buf.bytes 17)
      entry with herr | ⟨q', dropped', hpush', hwf, hframe, -⟩
    · rw [hpush] at herr
      cases herr
    · rw [hpush] at hpush'
      cases hpush'
      subst hres
      refine h.of_queue hwf ⟨hframe.dropStrategy, hframe.dropCb, ?_⟩ ?_
      · show 2 ^ q.sizeExp = 2 ^ t.dataQueue.sizeExp
        rw [hframe.sizeExp]
      · show ∀ p ∈ t1.postponedPackets.getD [], IsAvPacket p.bytes
        rw [hpost]
        exact h.postponed

/-- What a pull leaves: the window without its head. -/
theorem reorderQueuePull_some {α : Type} {q q' : ReorderQueue α} {seqNum : Nat} {user : α}
    (h : q.Wf32) (hpull : reorderQueuePull q = some (seqNum, user, q')) :
    seqNum = q.begin ∧ Window.take q.window = some (user, q'.window) ∧ q'.Wf32 ∧
      q'.begin = seqAt q.begin 1 ∧ q'.size = q.size ∧ q'.dropStrategy = q.dropStrategy ∧
      q'.dropCb = q.dropCb := by
  have heq := reorderQueuePull_eq h
  cases htake : Window.take q.window with
  | none =>
    rw [htake, hpull] at heq
    cases heq
  | some r =>
    obtain ⟨x, rest⟩ := r
    rw [htake] at heq
    obtain ⟨q1, hpull1, hwf, hw, hb, hs, hd, hc⟩ := heq
    rw [hpull] at hpull1
    cases hpull1
    exact ⟨rfl, by rw [hw], hwf, hb, hs, hd, hc⟩

theorem reorderQueuePull_none {α : Type} {q : ReorderQueue α} (h : q.Wf32)
    (hpull : reorderQueuePull q = none) : Window.take q.window = none := by
  have heq := reorderQueuePull_eq h
  cases htake : Window.take q.window with
  | none => rfl
  | some r =>
    rw [htake] at heq
    obtain ⟨q1, hpull1, -⟩ := heq
    rw [hpull] at hpull1
    cases hpull1

/-- The fields that a callback cannot reach. -/
theorem FlushedEntry.frame {entry : TakionDataPacketEntry} {installed : Option (κ × κ)}
    (h : FlushedEntry t entry installed t') :
    t'.dataQueue = t.dataQueue ∧ t'.postponedPackets = t.postponedPackets ∧ t'.pc = t.pc ∧
      t'.enableCrypt = t.enableCrypt ∧ t'.cryptAvailable = t.cryptAvailable ∧
      t'.nextBuf = t.nextBuf ∧ t'.tagLocal = t.tagLocal ∧ t'.tagRemote = t.tagRemote := by
  cases h with
  | silent _ hres =>
    subst hres
    exact ⟨rfl, rfl, rfl, rfl, rfl, rfl, rfl, rfl⟩
  | event dataType _ _ hres =>
    subst hres
    unfold takionDataEvent
    cases installed <;> exact ⟨rfl, rfl, rfl, rfl, rfl, rfl, rfl, rfl⟩

theorem Takion.freeEntry_log (t : Takion κ) (entry : TakionDataPacketEntry) :
    (t.freeEntry entry).log
      = .freeEntry entry.packetBuf.id :: .free entry.packetBuf.id :: t.log := rfl

theorem Takion.freeEntry_gkcryptRemote (t : Takion κ) (entry : TakionDataPacketEntry) :
    (t.freeEntry entry).gkcryptRemote = t.gkcryptRemote := rfl

theorem Takion.pulled_log (t : Takion κ) (caller : TakionCaller) (seqNum : Nat)
    (entry : TakionDataPacketEntry) (q : ReorderQueue TakionDataPacketEntry) :
    (t.pulled caller seqNum entry q).log
      = .consumed seqNum entry.payloadBytes :: .use entry.packetBuf.id :: t.log := rfl

/-- What a callback does: at most one event, and at most new keys. -/
theorem FlushedEntry.effect {caller : TakionCaller} {seqNum : Nat} {entry : TakionDataPacketEntry}
    {q : ReorderQueue TakionDataPacketEntry} {installed : Option (κ × κ)}
    (hf : FlushedEntry (t.pulled caller seqNum entry q) entry installed t') :
    ∃ events, t'.log = .freeEntry entry.packetBuf.id :: .free entry.packetBuf.id :: (events ++
        .consumed seqNum entry.payloadBytes :: .use entry.packetBuf.id :: t.log) ∧
      (events = [] ∧ (entry.payloadSize < 9 ∨
          TakionMessageDataType.ofByte (u8At entry.payloadBytes 8) = none) ∨
        ∃ ty, events = [.data t.gkcryptRemote ty (entry.payloadBytes.drop 9)] ∧
          9 ≤ entry.payloadSize ∧
          TakionMessageDataType.ofByte (u8At entry.payloadBytes 8) = some ty) ∧
      (t'.gkcryptRemote = t.gkcryptRemote ∨
        ∃ kl kr, installed = some (kl, kr) ∧ t'.gkcryptRemote = some kr) := by
  cases hf with
  | silent hunknown hres =>
    subst hres
    refine ⟨[], ?_, Or.inl ⟨rfl, hunknown⟩, ?_⟩
    · rw [Takion.freeEntry_log, Takion.pulled_log]
      rfl
    · rw [Takion.freeEntry_gkcryptRemote]
      exact Or.inl rfl
  | event ty hsize hknown hres =>
    subst hres
    refine ⟨[.data t.gkcryptRemote ty (entry.payloadBytes.drop 9)], ?_,
      Or.inr ⟨ty, rfl, hsize, hknown⟩, ?_⟩
    · unfold takionDataEvent
      cases installed <;> rfl
    · rw [Takion.freeEntry_gkcryptRemote]
      unfold takionDataEvent
      cases installed with
      | none => exact Or.inl rfl
      | some k => exact Or.inr ⟨k.1, k.2, rfl, rfl⟩

theorem takionBasic_step (h : TakionBasic t) (hs : (takionLts gmac).step t l t') :
    TakionBasic t' := by
  cases takionStep_move hs with
  | other _ hq hpost => exact h.of_quiet hq.dataQueue (by rw [hpost]; exact h.postponed)
  | recheckBegin _ _ hres =>
    subst hres
    exact h.of_quiet rfl h.postponed
  | recheckFault _ _ _ hres =>
    subst hres
    exact h.of_quiet rfl h.postponed
  | idle _ hq hpost => exact h.of_quiet hq.dataQueue fun p hp => h.postponed p (hpost p hp)
  | postponed i packet _ _ hh => exact h.handled hh
  | recv packet mem _ _ hh =>
    have h1 : TakionBasic { t with nextBuf := t.nextBuf + 1 } := h.of_quiet rfl h.postponed
    exact h1.handled hh
  | flushEnd caller ack seqNum sent _ _ _ _ hq hpost =>
    refine h.of_quiet ?_ (by rw [hpost]; exact h.postponed)
    rw [hq.dataQueue]
    cases ack <;> rfl
  | flushEntry caller ack last seqNum entry q mem installed _ _ hpull hflushed =>
    obtain ⟨-, -, hwf, -, hsize, hstrat, hcb⟩ := reorderQueuePull_some h.wf hpull
    obtain ⟨hqueue, hpost, -⟩ := hflushed.frame
    refine h.of_queue (by rw [hqueue]; exact hwf) ?_ (by rw [hpost]; exact h.postponed)
    rw [hqueue]
    exact ⟨hstrat, hcb, hsize⟩
  | stop _ hres =>
    subst hres
    exact h.of_quiet rfl h.postponed

theorem Handled.tagRemote {buf : PacketBuf} {caller : TakionCaller} (hh : Handled t buf caller t') :
    t'.tagRemote = t.tagRemote := by
  cases hh with
  | fault _ _ _ hq _ => exact hq.tagRemote
  | ignored _ hq _ => exact hq.tagRemote
  | pushed t1 entry q dropped _ _ _ _ _ hq _ _ hres =>
    rw [hres]
    exact hq.tagRemote

/-- The tags are those of the handshake. -/
theorem takionStep_tagRemote (hs : (takionLts gmac).step t l t') :
    t'.tagRemote = t.tagRemote := by
  cases takionStep_move hs with
  | other _ hq _ => exact hq.tagRemote
  | recheckBegin _ _ hres => rw [hres]
  | recheckFault _ _ _ hres => rw [hres]; rfl
  | idle _ hq _ => exact hq.tagRemote
  | postponed _ _ _ _ hh => exact hh.tagRemote
  | recv _ _ _ _ hh => exact hh.tagRemote
  | flushEnd _ ack _ _ _ _ _ _ hq _ =>
    rw [hq.tagRemote]
    cases ack <;> rfl
  | flushEntry _ _ _ _ _ _ _ _ _ _ _ hf => exact hf.frame.2.2.2.2.2.2.2
  | stop _ hres => rw [hres]

theorem takionBasic_invariant (gmac : κ → Nat → Bytes → Mac) :
    (takionLts gmac).Invariant TakionBasic where
  init := fun _ h => takionBasic_init h
  step := fun _ _ _ h hs => takionBasic_step h hs

end Chiaki
