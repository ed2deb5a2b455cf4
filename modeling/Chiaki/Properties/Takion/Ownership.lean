import Chiaki.Properties.Takion.Postponed
import Mathlib.Algebra.Order.Group.Multiset
import Mathlib.Data.Multiset.Range

/-!
# Who owns a received packet

`takion_handle_packet` takes ownership of its buffer: from then on it is in an entry of the data
queue, among the postponed packets, or freed.

Three paths of the code drop the pointer instead (`forgetsPacket`): a data message too short for its
header, a failed allocation, and a packet that does not fit among the postponed ones any more.
Nothing else loses a buffer, and none is freed twice.
-/

namespace Chiaki

open Infra

variable {κ : Type} {gmac : κ → Nat → Bytes → Mac} {t t' t'' : Takion κ} {l : TakionLabel κ}

/-! ## The property -/

/-- The ids of the buffers that were freed. -/
def freedIds (log : List (TakionOutput κ)) : List Nat :=
  log.filterMap fun e =>
    match e with
    | .free id => some id
    | _ => none

/-- The postponed packets that are not handled yet. -/
def Takion.postponedLeft (t : Takion κ) : List PacketBuf :=
  match t.pc with
  | .flushPostponed i | .flushDataQueue (.postponed i) _ _ => (t.postponedPackets.getD []).drop i
  | _ => t.postponedPackets.getD []

/-- The places where a buffer can be: in the data queue, postponed, or freed. -/
def Takion.places (t : Takion κ) : Multiset Nat :=
  t.stored.map (·.packetBuf.id) + t.postponedLeft.map (·.id) + freedIds t.log

/-- Each buffer that was handed over is in one place, once, and no other is there. -/
def Takion.Owned (t : Takion κ) : Prop := t.places = Multiset.range t.nextBuf

/-- The thread has neither come to its end nor crashed. -/
def TakionPc.running : TakionPc → Bool
  | .exited | .fault _ => false
  | _ => true

/-! ## The condition -/

/-- `takion_postpone_packet` has no place for the packet. -/
def takionPostponeFails (t : Takion κ) (mem : Bool) : Bool :=
  match t.postponedPackets, mem with
  | none, false => true
  | packets, _ => decide (takionPostponePacketsSize ≤ (packets.getD []).length)

/-- A packet whose MAC was not wrong is forgotten. -/
def forgetsDispatch (t : Takion κ) (buf : PacketBuf) (mem : Bool) : Bool :=
  match takionPacketBaseType (u8At buf.bytes 0) with
  | some .control =>
    match (takionParseMessage t.tagLocal t.keyState (buf.bytes.drop 1)).2 with
    | .error _ => false
    | .ok msg =>
      decide (TakionChunkType.ofByte msg.chunkType = some .data)
        && (decide (msg.payloadSize < 9) || !mem)
  | some .video | some .audio => t.enableCrypt && t.gkcryptRemote.isNone && takionPostponeFails t mem
  | _ => false

/-- `takion_handle_packet` forgets the packet. -/
def forgetsPacket (gmac : κ → Nat → Bytes → Mac) (t : Takion κ) (buf : PacketBuf) (mem : Bool) :
    Bool :=
  match takionHandlePacketMac gmac t buf with
  | (t, buf, .success) => forgetsDispatch t buf mem
  | _ => false

/-- A data message is long enough, there is memory for it, and there is room for an early packet. -/
def keepsPacket (gmac : κ → Nat → Bytes → Mac) (t : Takion κ) : TakionLabel κ → Bool
  | .recv packet mem => !forgetsPacket gmac t.received ⟨t.nextBuf, packet⟩ mem
  | _ => true

/-! ## Steps that move no buffer -/

/-- No buffer changes its place. -/
structure BufsKept (t t' : Takion κ) : Prop where
  dataQueue : t'.dataQueue = t.dataQueue
  postponed : t'.postponedPackets = t.postponedPackets
  freed : freedIds t'.log = freedIds t.log
  nextBuf : t'.nextBuf = t.nextBuf
  gkcryptRemote : t'.gkcryptRemote = t.gkcryptRemote
  pc : t'.pc = t.pc

theorem BufsKept.refl (t : Takion κ) : BufsKept t t := ⟨rfl, rfl, rfl, rfl, rfl, rfl⟩

theorem BufsKept.trans (h : BufsKept t t') (h' : BufsKept t' t'') : BufsKept t t'' :=
  ⟨h'.dataQueue.trans h.dataQueue, h'.postponed.trans h.postponed, h'.freed.trans h.freed,
    h'.nextBuf.trans h.nextBuf, h'.gkcryptRemote.trans h.gkcryptRemote, h'.pc.trans h.pc⟩

theorem BufsKept.places (h : BufsKept t t') : t'.places = t.places := by
  unfold Takion.places Takion.stored Takion.postponedLeft
  rw [h.dataQueue, h.postponed, h.freed, h.pc]

theorem takionHandlePacketMessageDataAck_bufs (t : Takion κ) (payload : Bytes) :
    BufsKept t (takionHandlePacketMessageDataAck t payload) := by
  have hacks : ∀ (acked : List TakionSendBufferPacket) (t : Takion κ),
      BufsKept t (acked.foldl (fun (t : Takion κ) p => t.emit (.dataAck p.seqNum)) t) := by
    intro acked
    induction acked with
    | nil => exact BufsKept.refl
    | cons p acked ih =>
      intro t
      have hemit : BufsKept t (t.emit (.dataAck p.seqNum)) := ⟨rfl, rfl, rfl, rfl, rfl, rfl⟩
      exact hemit.trans (ih _)
  unfold takionHandlePacketMessageDataAck
  split
  · exact .refl t
  · next seqNum _ =>
    have hack : BufsKept t { t with sendBuffer := (takionSendBufferAck t.sendBuffer seqNum).1 } :=
      ⟨rfl, rfl, rfl, rfl, rfl, rfl⟩
    exact hack.trans (hacks _ _)

theorem takionHandlePacketAv_bufs {buf : PacketBuf} (h : takionHandlePacketAv t buf = .ok t') :
    BufsKept t t' := by
  unfold takionHandlePacketAv at h
  split at h <;> cases h <;> exact ⟨rfl, rfl, rfl, rfl, rfl, rfl⟩

theorem takionSendMessageDataAck_bufs (t : Takion κ) (seqNum : Nat) :
    BufsKept t (takionSendMessageDataAck gmac t seqNum) := by
  unfold takionSendMessageDataAck
  simp only
  split
  · exact ⟨rfl, rfl, rfl, rfl, rfl, rfl⟩
  · split <;> exact ⟨rfl, rfl, rfl, rfl, rfl, rfl⟩

/-! ## Handling a packet -/

/-- Where a buffer is after its handling. `t` is the thread before, with the buffer in none of the
places. -/
structure BufPlaced (t : Takion κ) (buf : PacketBuf) (lost : Bool) (caller : TakionCaller)
    (t' : Takion κ) : Prop where
  pc : t'.pc = caller.pc ∨ t'.pc = .flushDataQueue caller false 0
  nextBuf : t'.nextBuf = t.nextBuf
  gkcryptRemote : t'.gkcryptRemote = t.gkcryptRemote
  places : ∃ extra, t'.postponedPackets.getD [] = t.postponedPackets.getD [] ++ extra ∧
    (t.gkcryptRemote.isSome = true → extra = []) ∧
    (t'.stored.map (·.packetBuf.id) + extra.map (·.id) + freedIds t'.log : Multiset Nat)
      = (if lost then 0 else {buf.id}) + (t.stored.map (·.packetBuf.id) + freedIds t.log)

/-- Nobody holds the buffer any more. -/
theorem BufPlaced.forgotten {buf : PacketBuf} {caller : TakionCaller} (hpc : t.pc = caller.pc)
    (h : BufsKept t t') : BufPlaced t buf true caller t' := by
  refine ⟨Or.inl (h.pc.trans hpc), h.nextBuf, h.gkcryptRemote, [], ?_, fun _ => rfl, ?_⟩
  · rw [h.postponed, List.append_nil]
  · unfold Takion.stored
    rw [h.dataQueue, h.freed]
    simp

theorem BufPlaced.freed {buf : PacketBuf} {caller : TakionCaller} (hpc : t.pc = caller.pc)
    (h : BufsKept t t') : BufPlaced t buf false caller (t'.freeBuf buf) := by
  refine ⟨Or.inl (h.pc.trans hpc), h.nextBuf, h.gkcryptRemote, [], ?_, fun _ => rfl, ?_⟩
  · rw [List.append_nil]
    exact congrArg (·.getD []) h.postponed
  · have hfreed : freedIds (t'.freeBuf buf).log = buf.id :: freedIds t.log := by
      rw [← h.freed]
      rfl
    have hstored : (t'.freeBuf buf).stored = t.stored :=
      congrArg (fun q : ReorderQueue TakionDataPacketEntry => Window.elems q.window) h.dataQueue
    rw [hfreed, hstored, ← Multiset.cons_coe, ← Multiset.singleton_add, if_neg Bool.false_ne_true,
      List.map_nil, Multiset.coe_nil, add_zero, add_left_comm]

/-- What happened before the handling moved no buffer. -/
theorem BufPlaced.of_kept {t1 : Takion κ} {buf : PacketBuf} {lost : Bool} {caller : TakionCaller}
    (h : BufPlaced t1 buf lost caller t') (hkept : BufsKept t t1) : BufPlaced t buf lost caller t' := by
  obtain ⟨extra, hpost, hextra, hplaces⟩ := h.places
  rw [hkept.postponed] at hpost
  rw [hkept.gkcryptRemote] at hextra
  have hstored : t1.stored = t.stored :=
    congrArg (fun q : ReorderQueue TakionDataPacketEntry => Window.elems q.window) hkept.dataQueue
  rw [hstored, hkept.freed] at hplaces
  exact ⟨h.pc, h.nextBuf.trans hkept.nextBuf, h.gkcryptRemote.trans hkept.gkcryptRemote, extra, hpost,
    hextra, hplaces⟩

theorem takionPostponePacket_eq (t : Takion κ) (buf : PacketBuf) (mem : Bool) :
    takionPostponePacket t buf mem = if takionPostponeFails t mem then t else
      { t with postponedPackets := some (t.postponedPackets.getD [] ++ [buf]) } := by
  unfold takionPostponePacket takionPostponeFails
  cases hpackets : t.postponedPackets with
  | none =>
    cases mem with
    | false => rfl
    | true => rfl
  | some packets =>
    simp only [Option.getD_some, decide_eq_true_eq]
    rw [← hpackets]

theorem takionPostponePacket_placed {buf : PacketBuf} {mem : Bool} {caller : TakionCaller}
    (hpc : t.pc = caller.pc) (hcrypt : t.gkcryptRemote.isNone = true) :
    BufPlaced t buf (takionPostponeFails t mem) caller (takionPostponePacket t buf mem) := by
  rw [takionPostponePacket_eq]
  cases takionPostponeFails t mem with
  | true => exact .forgotten hpc (.refl t)
  | false =>
    refine ⟨Or.inl hpc, rfl, rfl, [buf], rfl, fun hsome => ?_, ?_⟩
    · rw [Option.isNone_iff_eq_none.mp hcrypt] at hsome
      cases hsome
    · show (t.stored.map (·.packetBuf.id) + {buf.id} + freedIds t.log : Multiset Nat) = _
      rw [if_neg Bool.false_ne_true, add_right_comm, add_comm]

/-- What a push does to the places: the new entry is stored, or it is freed. -/
theorem reorderQueuePush_placed (hb : TakionBasic t) {seqNum : Nat} (hlt : seqNum < 2 ^ 32)
    {entry : TakionDataPacketEntry} {q : ReorderQueue TakionDataPacketEntry}
    {dropped : List (Nat × TakionDataPacketEntry)} {caller : TakionCaller}
    (hpush : reorderQueuePush t.dataQueue seqNum entry = .ok (q, dropped)) :
    BufPlaced t entry.packetBuf false caller
      (({ t with dataQueue := q }.dataDrop dropped).goto (.flushDataQueue caller false 0)) := by
  rw [dataDrop_eq]
  refine ⟨Or.inr rfl, rfl, rfl, [], (List.append_nil _).symm, fun _ => rfl, ?_⟩
  rw [if_neg Bool.false_ne_true, List.map_nil, Multiset.coe_nil, add_zero]
  rcases reorderQueuePush_result hb.wf hb.strategy (by rw [hb.size]; decide) hlt entry with
    herr | ⟨q', dropped', hpush', -, -, hplace⟩
  · rw [hpush] at herr
    cases herr
  · rw [hpush] at hpush'
    cases hpush'
    rcases hplace with ⟨rfl, hstored⟩ | ⟨rfl, hwindow⟩
    · have hids : ((Window.elems q.window).map (·.packetBuf.id) : Multiset Nat)
          = {entry.packetBuf.id} + t.stored.map (·.packetBuf.id) := by
        rw [Multiset.singleton_add, Multiset.cons_coe]
        exact Multiset.coe_eq_coe.mpr (hstored.map _)
      rw [← add_assoc, ← hids]
      rfl
    · have hfreed : freedIds (freeEvents (t.dataQueue.callDropCb seqNum entry) ++ t.log)
          = entry.packetBuf.id :: freedIds t.log := by
        rw [ReorderQueue.callDropCb, hb.dropCb]
        rfl
      show ((Window.elems q.window).map (·.packetBuf.id)
        + freedIds (freeEvents (t.dataQueue.callDropCb seqNum entry) ++ t.log) : Multiset Nat) = _
      rw [hwindow, hfreed, ← Multiset.cons_coe, ← Multiset.singleton_add, add_left_comm]
      rfl

/-- The thread behind a MAC check that does not fail. -/
theorem takionHandlePacketMessageData_placed (hb : TakionBasic t) {buf : PacketBuf}
    {typeB payloadSize : Nat} {payload : Option Nat} {mem : Bool} {caller : TakionCaller}
    (hpc : t.pc = caller.pc)
    (h : takionHandlePacketMessageData t buf typeB payload payloadSize mem caller = .ok t') :
    BufPlaced t buf (decide (payloadSize < 9) || !mem) caller t' := by
  unfold takionHandlePacketMessageData at h
  split at h
  · next hshort =>
    cases h
    rw [decide_eq_true hshort, Bool.true_or]
    exact .forgotten hpc (.refl t)
  · next hlong =>
    rw [decide_eq_false hlong, Bool.false_or]
    cases mem with
    | false =>
      cases h
      exact .forgotten hpc (.refl t)
    | true =>
      rw [if_neg (by decide)] at h
      cases payload with
      | none => cases h
      | some payload =>
        simp only at h
        split at h
        · cases h
        · next q dropped hpush =>
          cases h
          exact reorderQueuePush_placed hb (u32At_lt buf.bytes payload) hpush

theorem takionHandlePacketMessage_placed (hb : TakionBasic t) {buf : PacketBuf} {mem : Bool}
    {caller : TakionCaller} (hpc : t.pc = caller.pc)
    (hcontrol : takionPacketBaseType (u8At buf.bytes 0) = some .control)
    (h : takionHandlePacketMessage t buf mem caller = .ok t') :
    BufPlaced t buf (forgetsDispatch t buf mem) caller t' := by
  unfold takionHandlePacketMessage at h
  unfold forgetsDispatch
  rw [hcontrol]
  generalize takionParseMessage t.tagLocal t.keyState (buf.bytes.drop 1) = r at h ⊢
  have hkept : BufsKept t { t with keyState := r.1 } := ⟨rfl, rfl, rfl, rfl, rfl, rfl⟩
  simp only at h ⊢
  cases hparse : r.2 with
  | error err =>
    rw [hparse] at h
    cases h
    exact .freed hpc hkept
  | ok msg =>
    rw [hparse] at h
    simp only at h ⊢
    cases htype : TakionChunkType.ofByte msg.chunkType with
    | none =>
      rw [htype] at h
      cases h
      exact .freed hpc hkept
    | some type =>
      rw [htype] at h
      cases type with
      | data =>
        rw [decide_eq_true rfl, Bool.true_and]
        have hb' : TakionBasic { t with keyState := r.1 } := hb.of_quiet rfl hb.postponed
        exact (takionHandlePacketMessageData_placed hb' hpc h).of_kept hkept
      | dataAck =>
        cases h
        exact .freed hpc (hkept.trans (takionHandlePacketMessageDataAck_bufs _ _))
      | _ =>
        cases h
        exact .freed hpc hkept

/-- Behind the MAC check. -/
theorem takionDispatch_placed (hb : TakionBasic t) {buf : PacketBuf} {mem : Bool}
    {caller : TakionCaller} (hpc : t.pc = caller.pc)
    (h : takionDispatch t buf mem caller = .ok t') :
    BufPlaced t buf (forgetsDispatch t buf mem) caller t' := by
  have hav : forgetsDispatch t buf mem
        = (t.enableCrypt && t.gkcryptRemote.isNone && takionPostponeFails t mem) →
      (if t.enableCrypt && t.gkcryptRemote.isNone then .ok (takionPostponePacket t buf mem)
        else (takionHandlePacketAv t buf).map fun t => t.freeBuf buf) = .ok t' →
      BufPlaced t buf (forgetsDispatch t buf mem) caller t' := fun hforgets h => by
    rw [hforgets]
    cases hcrypt : t.enableCrypt && t.gkcryptRemote.isNone with
    | true =>
      rw [hcrypt] at h
      cases h
      rw [Bool.and_eq_true] at hcrypt
      exact takionPostponePacket_placed hpc hcrypt.2
    | false =>
      rw [hcrypt] at h
      cases hres : takionHandlePacketAv t buf with
      | error f =>
        rw [hres] at h
        cases h
      | ok t1 =>
        rw [hres] at h
        cases h
        exact .freed hpc (takionHandlePacketAv_bufs hres)
  have hother : forgetsDispatch t buf mem = false → .ok (t.freeBuf buf) = Except.ok (ε := Fault) t' →
      BufPlaced t buf (forgetsDispatch t buf mem) caller t' := fun hforgets h => by
    cases h
    rw [hforgets]
    exact .freed hpc (.refl t)
  unfold takionDispatch at h
  cases htype : takionPacketBaseType (u8At buf.bytes 0) with
  | none =>
    rw [htype] at h
    exact hother (by unfold forgetsDispatch; rw [htype]) h
  | some type =>
    rw [htype] at h
    cases type with
    | control => exact takionHandlePacketMessage_placed hb hpc htype h
    | video | audio => exact hav (by unfold forgetsDispatch; rw [htype]) h
    | _ => exact hother (by unfold forgetsDispatch; rw [htype]) h

/-- Where the thread stands makes no difference to the MAC check. -/
theorem takionHandlePacketMac_goto (t : Takion κ) (pc : TakionPc) (buf : PacketBuf) :
    takionHandlePacketMac gmac (t.goto pc) buf =
      ((takionHandlePacketMac gmac t buf).1.goto pc, (takionHandlePacketMac gmac t buf).2) := by
  unfold takionHandlePacketMac
  simp only [Takion.goto]
  split
  · rfl
  · split
    · rfl
    · split
      · rfl
      · split <;> rfl

/-- **The places after `takion_handle_packet`.** -/
theorem takionHandlePacket_placed (hb : TakionBasic t) {buf : PacketBuf} {mem : Bool}
    {caller : TakionCaller} (h : takionHandlePacket gmac t buf mem caller = .ok t') :
    BufPlaced t buf (forgetsPacket gmac t buf mem) caller t' := by
  unfold takionHandlePacket at h
  unfold forgetsPacket
  split at h
  · cases h
  · simp only at h
    rw [takionHandlePacketMac_goto] at h
    have hres := @takionHandlePacketMac_result _ gmac t buf
    generalize takionHandlePacketMac gmac t buf = r at h hres ⊢
    cases hres with
    | unchecked hk =>
      have hb' : TakionBasic (t.goto caller.pc) := hb.of_quiet rfl hb.postponed
      have hplaced := takionDispatch_placed hb' rfl h
      exact ⟨hplaced.pc, hplaced.nextBuf, hplaced.gkcryptRemote, hplaced.places⟩
    | failed buf' err hid herr =>
      have hplaced : BufPlaced t buf false caller ((t.goto caller.pc).freeBuf buf') := by
        have hfreed : BufPlaced (t.goto caller.pc) buf' false caller ((t.goto caller.pc).freeBuf buf') :=
          .freed rfl (.refl _)
        exact ⟨hfreed.pc, hfreed.nextBuf, hfreed.gkcryptRemote, hid ▸ hfreed.places⟩
      cases err <;> first | exact absurd rfl herr | (cases h; exact hplaced)
    | verified k keyState hk =>
      have hb' : TakionBasic (({ t with keyState := keyState }.emit (.macVerified k buf.bytes)).goto
          caller.pc) := hb.of_quiet rfl hb.postponed
      have hplaced := takionDispatch_placed hb' rfl h
      exact ⟨hplaced.pc, hplaced.nextBuf, hplaced.gkcryptRemote, hplaced.places⟩

/-! ## The step -/

/-- All buffers that were handed over are in one place, but for the ones that are lost. -/
structure TakionOwns (t : Takion κ) (lost : List Nat) : Prop where
  places : t.pc.running = true → t.places + lost = Multiset.range t.nextBuf
  postponed : t.pc.inPostponed = true → t.gkcryptRemote.isSome = true

variable {lost : List Nat}

theorem TakionOwns.of_ended (hrun : t.pc.running = false) : TakionOwns t lost := by
  refine ⟨fun h => absurd (hrun.symm.trans h) Bool.false_ne_true, fun h => ?_⟩
  cases hpc : t.pc with
  | exited | fault =>
    rw [hpc] at h
    cases h
  | _ =>
    rw [hpc] at hrun
    cases hrun

/-- The thread goes on, and no buffer changes its place. -/
theorem TakionOwns.of_kept (h : TakionOwns t lost) (hkept : BufsKept (t.goto t'.pc) t')
    (hleft : (t.goto t'.pc).postponedLeft = t.postponedLeft) (hrun : t.pc.running = true)
    (hcrypt : t'.pc.inPostponed = true → t.gkcryptRemote.isSome = true) : TakionOwns t' lost := by
  have hplaces : (t.goto t'.pc).places = t.places := by
    unfold Takion.places
    rw [hleft]
    rfl
  refine ⟨fun _ => ?_, fun hp => ?_⟩
  · rw [hkept.places, hplaces, hkept.nextBuf]
    exact h.places hrun
  · rw [hkept.gkcryptRemote]
    exact hcrypt hp

theorem Takion.postponedLeft_of_outside (h : t.pc.inPostponed = false) :
    t.postponedLeft = t.postponedPackets.getD [] := by
  unfold Takion.postponedLeft
  split
  · next hpc =>
    rw [hpc] at h
    cases h
  · next hpc =>
    rw [hpc] at h
    cases h
  · rfl

/-- The thread goes on outside of the loop over the postponed packets. -/
theorem TakionOwns.goes (h : TakionOwns t lost) (hkept : BufsKept (t.goto t'.pc) t')
    (hrun : t.pc.running = true) (hout : t.pc.inPostponed = false)
    (hout' : t'.pc.inPostponed = false) : TakionOwns t' lost := by
  have hgoto : (t.goto t'.pc).pc.inPostponed = false := hout'
  refine h.of_kept hkept ?_ hrun fun hp => absurd (hout'.symm.trans hp) Bool.false_ne_true
  rw [Takion.postponedLeft_of_outside hout, Takion.postponedLeft_of_outside hgoto]
  rfl

theorem takionRecheck_owns (h : TakionOwns t lost) {i : Nat} (hpc : t.pc = .recheck i) :
    TakionOwns (takionRecheck gmac t i) lost := by
  have hgo : ∀ pc : TakionPc, pc.inPostponed = false → TakionOwns (t.goto pc) lost :=
    fun pc hout => h.goes (.refl _) (by rw [hpc]; rfl) (by rw [hpc]; rfl) hout
  unfold takionRecheck
  split
  · exact hgo _ rfl
  · rcases reorderQueuePeek_false t.dataQueue i with ⟨hpeek, -⟩ | ⟨hpeek, -⟩
    · rw [hpeek]
      exact hgo _ rfl
    · rw [hpeek]
      exact .of_ended rfl

theorem TakionCaller.left_eq (t : Takion κ) (caller : TakionCaller) (ack : Bool) (seqNum : Nat) :
    (t.goto caller.pc).postponedLeft = (t.goto (.flushDataQueue caller ack seqNum)).postponedLeft := by
  cases caller <;> rfl

/-- The postponed packets behind the handling, the new one included. -/
theorem BufPlaced.left {buf : PacketBuf} {lost : Bool} {caller : TakionCaller}
    (h : BufPlaced t buf lost caller t') (left : List PacketBuf) (hleft : ∀ extra,
      t'.postponedPackets.getD [] = t.postponedPackets.getD [] ++ extra →
      (t.gkcryptRemote.isSome = true → extra = []) →
      (t'.goto caller.pc).postponedLeft = left ++ extra) :
    t'.places = (if lost then 0 else {buf.id})
      + (t.stored.map (·.packetBuf.id) + left.map (·.id) + freedIds t.log) := by
  obtain ⟨extra, hpost, hextra, hplaces⟩ := h.places
  have hsame : t'.postponedLeft = left ++ extra := by
    rw [← hleft extra hpost hextra]
    rcases h.pc with hpc | hpc
    · rw [← hpc]
      rfl
    · rw [TakionCaller.left_eq t' caller false 0, ← hpc]
      rfl
  unfold Takion.places
  rw [hsame, List.map_append, ← Multiset.coe_add]
  calc (t'.stored.map (·.packetBuf.id) + (left.map (·.id) + extra.map (·.id)) + freedIds t'.log
        : Multiset Nat)
      = (t'.stored.map (·.packetBuf.id) + extra.map (·.id) + freedIds t'.log : Multiset Nat)
        + left.map (·.id) := by
        ac_rfl
    _ = _ := by
        rw [hplaces]
        ac_rfl

/-- With keys, an audio or video packet is never forgotten. -/
theorem forgetsPacket_of_av {buf : PacketBuf} {mem : Bool} (hav : IsAvPacket buf.bytes)
    (hcrypt : t.gkcryptRemote.isSome = true) : forgetsPacket gmac t buf mem = false := by
  have hdispatch : ∀ t1 : Takion κ, t1.gkcryptRemote = t.gkcryptRemote →
      forgetsDispatch t1 buf mem = false := fun t1 ht1 => by
    have hnone : t1.gkcryptRemote.isNone = false := by
      rw [ht1, ← Option.not_isSome, hcrypt]
      rfl
    unfold forgetsDispatch
    rcases hav with htype | htype
    · rw [htype, hnone, Bool.and_false]
      rfl
    · rw [htype, hnone, Bool.and_false]
      rfl
  unfold forgetsPacket
  have hres := @takionHandlePacketMac_result _ gmac t buf
  generalize takionHandlePacketMac gmac t buf = r at hres ⊢
  cases hres with
  | unchecked | verified => exact hdispatch _ rfl
  | failed buf' err hid herr => cases err <;> first | rfl | exact absurd rfl herr

theorem takionFlushPostponed_owns (hb : TakionBasic t) (h : TakionOwns t lost) {i : Nat}
    {packet : PacketBuf} {mem : Bool} (hpc : t.pc = .flushPostponed i)
    (hget : (t.postponedPackets.getD [])[i]? = some packet) :
    TakionOwns (t.orFault (takionHandlePacket gmac t packet mem (.postponed (i + 1)))) lost := by
  have hcrypt : t.gkcryptRemote.isSome = true := h.postponed (by rw [hpc]; rfl)
  cases hres : takionHandlePacket gmac t packet mem (.postponed (i + 1)) with
  | error f => exact .of_ended rfl
  | ok t' =>
    have hplaced := takionHandlePacket_placed hb hres
    -- with keys, an audio or video packet is handled or freed
    have hkeeps : forgetsPacket gmac t packet mem = false :=
      forgetsPacket_of_av (hb.postponed packet (List.mem_of_getElem? hget)) hcrypt
    rw [hkeeps] at hplaced
    have hleft : t.postponedLeft = packet :: (t.postponedPackets.getD []).drop (i + 1) := by
      unfold Takion.postponedLeft
      rw [hpc]
      show (t.postponedPackets.getD []).drop i = _
      rw [List.drop_eq_getElem?_toList_append, hget]
      rfl
    have hplaces := hplaced.left ((t.postponedPackets.getD []).drop (i + 1)) fun extra hpost hextra => by
      rw [hextra hcrypt, List.append_nil] at hpost ⊢
      show (t'.postponedPackets.getD []).drop (i + 1) = _
      rw [hpost]
    refine ⟨fun _ => ?_, fun _ => ?_⟩
    · show t'.places + lost = Multiset.range t'.nextBuf
      rw [hplaced.nextBuf, ← h.places (by rw [hpc]; rfl), hplaces]
      unfold Takion.places
      rw [hleft, if_neg Bool.false_ne_true, List.map_cons, ← Multiset.cons_coe, ← Multiset.singleton_add]
      ac_rfl
    · show t'.gkcryptRemote.isSome = true
      rw [hplaced.gkcryptRemote]
      exact hcrypt

theorem takionFlushDataQueue_owns (hb : TakionBasic t) (h : TakionOwns t lost)
    {caller : TakionCaller} {ack : Bool} {seqNum : Nat} {installed : Option (κ × κ)}
    (hpc : t.pc = .flushDataQueue caller ack seqNum) :
    TakionOwns (takionFlushDataQueue gmac t caller ack seqNum installed) lost := by
  unfold takionFlushDataQueue
  split
  · next hpull =>
    have hleft : (t.goto caller.pc).postponedLeft = t.postponedLeft := by
      rw [TakionCaller.left_eq t caller ack seqNum, ← hpc]
      rfl
    have hcrypt : caller.pc.inPostponed = true → t.gkcryptRemote.isSome = true := fun hp => by
      refine h.postponed ?_
      rw [hpc]
      cases caller <;> first | rfl | cases hp
    cases ack with
    | false => exact h.of_kept (.refl _) hleft (by rw [hpc]; rfl) hcrypt
    | true =>
      have hsent := @takionSendMessageDataAck_bufs _ gmac t (seqNum % 2 ^ 32)
      refine h.of_kept ?_ hleft (by rw [hpc]; rfl) hcrypt
      exact ⟨hsent.dataQueue, hsent.postponed, hsent.freed, hsent.nextBuf, hsent.gkcryptRemote, rfl⟩
  · next n entry q hpull =>
    obtain ⟨-, htake, -⟩ := reorderQueuePull_some hb.wf hpull
    have hstored : t.stored = entry :: Window.elems q.window := Window.elems_of_take htake
    have hflushed := takionFlushEntry_flushed (t.pulled caller n entry q) entry installed
    show TakionOwns (takionFlushEntry (t.pulled caller n entry q) entry installed) lost
    generalize takionFlushEntry (t.pulled caller n entry q) entry installed = t' at hflushed ⊢
    obtain ⟨hqueue, hpost, hpc', -, -, hnext, -⟩ := hflushed.frame
    obtain ⟨events, hlog, hevents, hcrypt⟩ := hflushed.effect
    have hfreed : freedIds t'.log = entry.packetBuf.id :: freedIds t.log := by
      rw [hlog]
      rcases hevents with ⟨rfl, -⟩ | ⟨ty, rfl, -⟩ <;> rfl
    have hleft : t'.postponedLeft = t.postponedLeft := by
      unfold Takion.postponedLeft
      rw [hpc', hpost, hpc]
      cases caller <;> rfl
    refine ⟨fun _ => ?_, fun hp => ?_⟩
    · rw [hnext]
      show t'.places + lost = Multiset.range t.nextBuf
      rw [← h.places (by rw [hpc]; rfl)]
      unfold Takion.places
      rw [hleft, hfreed, hstored, show t'.stored = Window.elems q.window from
        congrArg (fun q : ReorderQueue TakionDataPacketEntry => Window.elems q.window) hqueue,
        List.map_cons, ← Multiset.cons_coe, ← Multiset.cons_coe, ← Multiset.singleton_add,
        ← Multiset.singleton_add]
      ac_rfl
    · have hsome : t.gkcryptRemote.isSome = true := h.postponed (by
        rw [hpc]
        rw [hpc'] at hp
        cases caller <;> exact hp)
      rcases hcrypt with hsame | ⟨kl, kr, -, hkr⟩
      · rw [hsame]
        exact hsome
      · rw [hkr]
        rfl

/-- The postponed packets are all handled, and their list is freed. -/
theorem takionFlushPostponed_end (h : TakionOwns t lost) {i : Nat} (hpc : t.pc = .flushPostponed i)
    (hget : (t.postponedPackets.getD [])[i]? = none) :
    TakionOwns ({ t with postponedPackets := none }.goto .recv) lost := by
  have hleft : t.postponedLeft = [] := by
    unfold Takion.postponedLeft
    rw [hpc]
    exact List.drop_eq_nil_iff.mpr (List.getElem?_eq_none_iff.mp hget)
  refine ⟨fun _ => ?_, fun hp => by cases hp⟩
  have hplaces := h.places (by rw [hpc]; rfl)
  unfold Takion.places at hplaces ⊢
  rw [hleft] at hplaces
  exact hplaces

theorem takionRun_owns (hb : TakionBasic t) (h : TakionOwns t lost) {mem : Bool}
    {installed : Option (κ × κ)} (hs : takionRun gmac t mem installed = some t') :
    TakionOwns t' lost := by
  unfold takionRun at hs
  split at hs
  · next hpc =>
    split at hs <;> cases hs
    · exact h.goes ⟨rfl, rfl, rfl, rfl, rfl, rfl⟩ (by rw [hpc]; rfl) (by rw [hpc]; rfl) rfl
    · exact h.goes (.refl _) (by rw [hpc]; rfl) (by rw [hpc]; rfl) rfl
  · next i hpc =>
    cases hs
    exact takionRecheck_owns h hpc
  · next hpc =>
    split at hs <;> cases hs
    · next hdue =>
      rw [Bool.and_eq_true] at hdue
      refine h.of_kept (.refl _) ?_ (by rw [hpc]; rfl) fun _ => hdue.2
      rw [Takion.postponedLeft_of_outside (t := t) (by rw [hpc]; rfl)]
      rfl
    · exact h.goes (.refl _) (by rw [hpc]; rfl) (by rw [hpc]; rfl) rfl
  · next i hpc =>
    split at hs <;> cases hs
    · next packet hget => exact takionFlushPostponed_owns hb h hpc hget
    · next hget => exact takionFlushPostponed_end h hpc hget
  · next caller ack seqNum hpc =>
    cases hs
    exact takionFlushDataQueue_owns hb h hpc
  · cases hs
  · cases hs
  · cases hs

/-- The buffers that are lost behind a step. -/
def lostAfter (gmac : κ → Nat → Bytes → Mac) (t : Takion κ) (l : TakionLabel κ) (lost : List Nat) :
    List Nat :=
  if keepsPacket gmac t l then lost else t.nextBuf :: lost

theorem takionRecv_owns (hb : TakionBasic t) (h : TakionOwns t lost) {packet : Bytes} {mem : Bool}
    (hs : takionRecv gmac t packet mem = some t') :
    TakionOwns t' (lostAfter gmac t (.recv packet mem) lost) := by
  unfold takionRecv at hs
  split at hs
  · next hrecv =>
    cases hs
    have hb' : TakionBasic t.received := hb.of_quiet rfl hb.postponed
    cases hres : takionHandlePacket gmac t.received ⟨t.nextBuf, packet⟩ mem .recv with
    | error f =>
      show TakionOwns (t.received.orFault (takionHandlePacket gmac t.received _ mem .recv)) _
      rw [hres]
      exact .of_ended rfl
    | ok t' =>
      show TakionOwns (t.received.orFault (takionHandlePacket gmac t.received _ mem .recv)) _
      rw [hres]
      have hplaced := takionHandlePacket_placed hb' hres
      have hplaces := hplaced.left (t.postponedPackets.getD []) fun _ hpost _ => hpost
      have hleft : t.postponedLeft = t.postponedPackets.getD [] :=
        Takion.postponedLeft_of_outside (by rw [hrecv.1]; rfl)
      have hbefore := h.places (by rw [hrecv.1]; rfl)
      have hlost : lostAfter gmac t (.recv packet mem) lost
          = if forgetsPacket gmac t.received ⟨t.nextBuf, packet⟩ mem then t.nextBuf :: lost else lost := by
        have hswap : ∀ b : Bool, (if !b then lost else t.nextBuf :: lost)
            = if b then t.nextBuf :: lost else lost := fun b => by cases b <;> rfl
        exact hswap _
      refine ⟨fun _ => ?_, fun hp => ?_⟩
      · show t'.places + _ = Multiset.range t'.nextBuf
        rw [hplaced.nextBuf, hplaces]
        show _ = Multiset.range (t.nextBuf + 1)
        rw [Multiset.range_succ, ← hbefore, ← Multiset.singleton_add]
        unfold Takion.places
        rw [hleft, hlost]
        cases forgetsPacket gmac t.received ⟨t.nextBuf, packet⟩ mem with
        | true =>
          rw [if_pos rfl, if_pos rfl, ← Multiset.cons_coe, ← Multiset.singleton_add, zero_add,
            add_left_comm]
          rfl
        | false =>
          rw [if_neg Bool.false_ne_true, if_neg Bool.false_ne_true, add_assoc]
          rfl
      · rcases hplaced.pc with hpc | hpc
        · rw [show (t.received.orFault (.ok t')).pc = _ from hpc] at hp
          cases hp
        · rw [show (t.received.orFault (.ok t')).pc = _ from hpc] at hp
          cases hp
  · cases hs

/-- **What a step does to the places.** -/
theorem takionStep_owns (hb : TakionBasic t) (h : TakionOwns t lost)
    (hs : (takionLts gmac).step t l t') : TakionOwns t' (lostAfter gmac t l lost) := by
  -- what other threads do concerns no received packet
  have hsame : BufsKept t t' → TakionOwns t' lost := fun hkept => by
    refine ⟨fun hrun => ?_, fun hp => ?_⟩
    · rw [hkept.places, hkept.nextBuf]
      rw [hkept.pc] at hrun
      exact h.places hrun
    · rw [hkept.pc] at hp
      rw [hkept.gkcryptRemote]
      exact h.postponed hp
  cases l with
  | run mem installed => exact takionRun_owns hb h hs
  | recv packet mem => exact takionRecv_owns hb h hs
  | stop =>
    replace hs : takionStop t = some t' := hs
    unfold takionStop at hs
    split at hs <;> cases hs
    exact .of_ended rfl
  | advanceKeyPos dataSize =>
    replace hs : takionStep gmac t (.advanceKeyPos dataSize) = some t' := hs
    unfold takionStep at hs
    simp only at hs
    split at hs <;> cases hs <;> exact hsame ⟨rfl, rfl, rfl, rfl, rfl, rfl⟩
  | sendBufferPush seqNum packet now =>
    cases hs
    exact hsame ⟨rfl, rfl, rfl, rfl, rfl, rfl⟩
  | resend now =>
    cases hs
    exact hsame ⟨rfl, rfl, rfl, rfl, rfl, rfl⟩

theorem takionOwns_init (h : TakionInitial t) : TakionOwns t [] := by
  obtain ⟨version, enableCrypt, tagLocal, tagRemote, keyState, crypt, -, rfl⟩ := h
  exact ⟨fun _ => rfl, fun hp => by cases hp⟩

/-! ## Runs -/

/-- What is lost stays lost. -/
theorem takionRun_lost {labels : List (TakionLabel κ)} (hb : TakionBasic t) (h : TakionOwns t lost)
    (hrun : Lts.runFun (takionStep gmac) t labels = some t') :
    ∃ more, TakionOwns t' (more ++ lost) := by
  induction labels generalizing t lost with
  | nil =>
    cases hrun
    exact ⟨[], h⟩
  | cons l labels ih =>
    obtain ⟨t1, hs, hrest⟩ := Option.bind_eq_some_iff.mp hrun
    obtain ⟨more, hmore⟩ := ih (takionBasic_step hb hs) (takionStep_owns hb h hs) hrest
    unfold lostAfter at hmore
    split at hmore
    · exact ⟨more, hmore⟩
    · exact ⟨more ++ [t.nextBuf], by rw [List.append_assoc]; exact hmore⟩

theorem TakionOwns.owned (h : TakionOwns t []) (hrun : t.pc.running = true) : t.Owned := by
  have hplaces := h.places hrun
  rwa [Multiset.coe_nil, add_zero] at hplaces

theorem TakionOwns.not_owned {id : Nat} (h : TakionOwns t lost) (hid : id ∈ lost)
    (hrun : t.pc.running = true) : ¬ t.Owned := by
  intro howned
  have hplaces := h.places hrun
  rw [show t.places = _ from howned] at hplaces
  have hnil : (lost : Multiset Nat) = 0 := add_left_cancel (hplaces.trans (add_zero _).symm)
  rw [Multiset.coe_eq_zero] at hnil
  rw [hnil] at hid
  cases hid

/-- **As long as no packet is forgotten, each buffer is in exactly one place**, whatever datagrams
arrive. A packet that is forgotten is never found again. -/
theorem takion_owned (gmac : κ → Nat → Bytes → Mac) {t : Takion κ}
    (hr : ((takionLts gmac).restrict fun t l => keepsPacket gmac t l = true).Reachable t) :
    (t.pc.running = true → t.Owned) ∧
      ∀ l t', (takionLts gmac).step t l t' → keepsPacket gmac t l = false →
        ∀ labels t'', Lts.runFun (takionStep gmac) t' labels = some t'' → t''.pc.running = true →
          ¬ t''.Owned := by
  have hinv : ((takionLts gmac).restrict fun t l => keepsPacket gmac t l = true).Invariant
      fun t => TakionBasic t ∧ TakionOwns t [] :=
    (takionBasic_invariant gmac).restrict.and_of (fun _ hi => takionOwns_init hi)
      fun t l t' hb h hs => by
        have hnext := takionStep_owns hb h hs.2
        rwa [lostAfter, if_pos hs.1] at hnext
  obtain ⟨hb, h⟩ := hinv.reachable hr
  refine ⟨h.owned, fun l t' hs hforgets labels t'' hrun hrunning => ?_⟩
  have hnext := takionStep_owns hb h hs
  rw [lostAfter, hforgets, if_neg Bool.false_ne_true] at hnext
  obtain ⟨more, hmore⟩ := takionRun_lost (takionBasic_step hb hs) hnext hrun
  exact hmore.not_owned (List.mem_append_right _ (List.mem_singleton_self _)) hrunning

/-! ### Runs -/

/-- A data message that waits for the one before it, the same again, an early audio packet, and a
message for another tag. -/
def packetsKept : List (TakionLabel UInt8) :=
  toRecv ++ [.recv (exampleData 0 6 0 [1]) true, .run true none] ++ toRecv
    ++ [.recv (exampleData 0 6 0 [1]) true, .run true none] ++ toRecv
    ++ [.recv (exampleAudio 7) true] ++ toRecv ++ [.recv ([0] ++ be32 2 ++ List.replicate 21 0) true]
    ++ toRecv

theorem packetsKept_run :
    (Lts.runFun (Lts.guarded (takionStep keyGmac) fun t l => keepsPacket keyGmac t l = true)
      exampleTakion packetsKept).map
        (fun t => (t.pc, t.stored.map (·.packetBuf.id), t.postponedLeft.map (·.id), freedIds t.log))
      = some (.recv, [0], [2], [3, 1]) := by
  decide +kernel

theorem takion_owned_packetsKept : ∃ t : Takion UInt8, t.pc = .recv ∧
    t.stored.map (·.packetBuf.id) = [0] ∧ t.postponedLeft.map (·.id) = [2] ∧
    freedIds t.log = [3, 1] ∧ t.Owned := by
  obtain ⟨t, hrun, hobs⟩ := Option.map_eq_some_iff.mp packetsKept_run
  simp only [Prod.mk.injEq] at hobs
  obtain ⟨hpc, hstored, hleft, hfreed⟩ := hobs
  refine ⟨t, hpc, hstored, hleft, hfreed, (takion_owned keyGmac ?_).1 (by rw [hpc]; rfl)⟩
  exact Lts.Reachable.runGuarded (.init exampleTakion_initial) hrun

/-- A message with a data chunk of 8 bytes. -/
def shortData : Bytes :=
  [0] ++ be32 1 ++ List.replicate 4 0 ++ be32 0 ++ [0, 1] ++ be16 12 ++ be32 5 ++ be16 0 ++ [0, 0]

/-- One more early packet than there is room for. -/
def tooManyEarly : List (TakionLabel UInt8) :=
  toRecv ++ (List.replicate 33 (.recv (exampleAudio 7) true :: toRecv)).flatten

/-- The short message arrives. -/
def shortDataArrives : List (TakionLabel UInt8) := toRecv ++ [.recv shortData true] ++ toRecv

theorem forgotten_run : ∀ labels ∈ [shortDataArrives, tooManyEarly],
    (Lts.runFun (takionStep keyGmac) exampleTakion labels).map
        (fun t => (t.pc, decide (t.places.card < t.nextBuf)))
      = some (.recv, true) := by
  intro labels hlabels
  rcases List.mem_pair.mp hlabels with rfl | rfl <;> decide +kernel

/-- A run at whose end a buffer is in no place. -/
def Forgets (labels : List (TakionLabel UInt8)) : Prop :=
  ∃ t : Takion UInt8, Lts.runFun (takionStep keyGmac) exampleTakion labels = some t ∧
    (takionLts keyGmac).Reachable t ∧ t.pc = .recv ∧ ¬ t.Owned

theorem forgets_of_mem {labels : List (TakionLabel UInt8)}
    (hlabels : labels ∈ [shortDataArrives, tooManyEarly]) : Forgets labels := by
  obtain ⟨t, hrun, hobs⟩ := Option.map_eq_some_iff.mp (forgotten_run labels hlabels)
  simp only [Prod.mk.injEq, decide_eq_true_eq] at hobs
  refine ⟨t, hrun, Lts.Reachable.runFun (.init exampleTakion_initial) hrun, hobs.1, fun howned => ?_⟩
  have hcard := hobs.2
  rw [show t.places = _ from howned, Multiset.card_range] at hcard
  exact Nat.lt_irrefl _ hcard

/-- **A short data message is forgotten, and so is an early packet behind the 32nd.** -/
theorem not_takion_owned : Forgets shortDataArrives ∧ Forgets tooManyEarly :=
  ⟨forgets_of_mem (by simp), forgets_of_mem (by simp)⟩

end Chiaki
