import Chiaki.Properties.KeyState
import Chiaki.Properties.Takion.Authentication

/-!
# Key positions of received packets

* `takionKeyPos_agreement` — a packet that passes the MAC check is parsed, and decrypted, with
  the key position that its MAC was checked with
* `takionRejects_keyState_iff` — when a datagram that is turned away leaves `key_state` alone
* `not_takionRejects_keyState` — without keys, a message for another tag moves it
-/

namespace Chiaki

open Infra

variable {κ : Type} {gmac : κ → Nat → Bytes → Mac} {t t' t1 : Takion κ}

/-! ## What the parsers commit -/

theorem takionPacketReadKeyPos_ok {keyState : KeyState} {buf : Bytes} {keyPos : Nat}
    (h : takionPacketReadKeyPos keyState buf = .ok keyPos) :
    ∃ baseType off, takionPacketBaseType (u8At buf 0) = some baseType ∧
      takionPacketTypeKeyPosOffset baseType = some off ∧ off + 4 ≤ buf.length ∧
      keyPos = keyStatePos keyState (u32At buf off) := by
  unfold takionPacketReadKeyPos at h
  split at h
  · cases h
  · split at h
    · cases h
    · next off hoff =>
      obtain ⟨baseType, htype, hoff⟩ := Option.bind_eq_some_iff.mp hoff
      split at h
      · cases h
      · next hlen =>
        cases h
        exact ⟨baseType, off, htype, hoff, by omega, rfl⟩

theorem takionParseMessage_keyState (tagLocal : Nat) (keyState : KeyState) (buf : Bytes) :
    (takionParseMessage tagLocal keyState buf).1
      = if buf.length < takionMessageHeaderSize then keyState
        else ⟨keyStatePos keyState (u32At buf 0x8)⟩ := by
  unfold takionParseMessage
  by_cases hlen : buf.length < takionMessageHeaderSize
  · rw [if_pos hlen, if_pos hlen]
  · rw [if_neg hlen, if_neg hlen]
    simp only
    split
    · rfl
    · split <;> rfl

theorem takionParseMessage_keyPos {tagLocal : Nat} {keyState : KeyState} {buf : Bytes}
    {msg : TakionMessage} (h : (takionParseMessage tagLocal keyState buf).2 = .ok msg) :
    msg.keyPos = keyStatePos keyState (u32At buf 0x8) := by
  unfold takionParseMessage at h
  split at h
  · cases h
  · simp only at h
    split at h
    · cases h
    · split at h
      · cases h
      · cases h
        rfl

/-- Versions 9 and 12 commit the position of the packets that they accept. -/
theorem takionAVPacketParse_ok {v12 : Bool} {keyState keyState' : KeyState} {buf : Bytes}
    {result : Except ErrorCode TakionAVPacket}
    (h : takionAVPacketParse v12 keyState buf = .ok (keyState', result)) :
    (keyState' = keyState ∧ ∃ err, result = .error err) ∨
      ∃ packet, result = .ok packet ∧ IsAvPacket buf ∧
        packet.keyPos = keyStatePos keyState (u32At buf 0xe) ∧ keyState' = ⟨packet.keyPos⟩ := by
  unfold takionAVPacketParse at h
  split at h
  · cases h
    exact Or.inl ⟨rfl, _, rfl⟩
  · simp only at h
    split at h
    · cases h
      exact Or.inl ⟨rfl, _, rfl⟩
    · next htype =>
      split at h
      · cases h
        exact Or.inl ⟨rfl, _, rfl⟩
      · next hlen =>
        right
        have hsize : 18 ≤ buf.length := by
          unfold takionAVHeaderSize at hlen
          split at hlen
          · omega
          · split at hlen <;> omega
        have hav : IsAvPacket buf := by
          unfold IsAvPacket
          by_contra hno
          exact htype ⟨fun h => hno (Or.inl h), fun h => hno (Or.inr h)⟩
        obtain ⟨_, -, h⟩ := bind_eq_ok_iff.mp h
        obtain ⟨_, -, h⟩ := bind_eq_ok_iff.mp h
        obtain ⟨_, -, h⟩ := bind_eq_ok_iff.mp h
        obtain ⟨_, -, h⟩ := bind_eq_ok_iff.mp h
        obtain ⟨low, hlow, h⟩ := bind_eq_ok_iff.mp h
        rw [readU32_eq (by omega)] at hlow
        cases hlow
        obtain ⟨_, -, h⟩ := bind_eq_ok_iff.mp h
        obtain ⟨_, -, h⟩ := bind_eq_ok_iff.mp h
        obtain ⟨_, -, h⟩ := bind_eq_ok_iff.mp h
        obtain ⟨_, -, h⟩ := bind_eq_ok_iff.mp h
        obtain ⟨_, -, h⟩ := bind_eq_ok_iff.mp h
        cases h
        exact ⟨_, rfl, hav, rfl, rfl⟩

/-- Version 7 does not know the state. -/
theorem takionV7AVPacketParse_keyState {keyState keyState' : KeyState} {buf : Bytes}
    {result : Except ErrorCode TakionAVPacket}
    (h : takionV7AVPacketParse keyState buf = .ok (keyState', result)) : keyState' = keyState := by
  unfold takionV7AVPacketParse at h
  split at h
  · cases h
    rfl
  · simp only at h
    split at h
    · cases h
      rfl
    · split at h
      · cases h
        rfl
      · obtain ⟨_, -, h⟩ := bind_eq_ok_iff.mp h
        obtain ⟨_, -, h⟩ := bind_eq_ok_iff.mp h
        obtain ⟨_, -, h⟩ := bind_eq_ok_iff.mp h
        obtain ⟨_, -, h⟩ := bind_eq_ok_iff.mp h
        obtain ⟨_, -, h⟩ := bind_eq_ok_iff.mp h
        obtain ⟨_, -, h⟩ := bind_eq_ok_iff.mp h
        obtain ⟨_, -, h⟩ := bind_eq_ok_iff.mp h
        cases h
        rfl

/-! ## What handling a packet commits -/

/-- The MAC of the packet is right at the position `keyPos`, which its low word stands for. -/
def MacRight (gmac : κ → Nat → Bytes → Mac) (crypt : κ) (keyState : KeyState) (buf : Bytes)
    (keyPos : Nat) : Prop :=
  takionPacketReadKeyPos keyState buf = .ok keyPos ∧
    ∃ mac, takionPacketMac gmac (some crypt) buf keyPos = .ok (buf, mac, mac)

/-- With keys, a packet passes exactly when its MAC is right, and its position is committed. -/
theorem takionHandlePacketMac_some {crypt : κ} {buf : PacketBuf} (hk : t.gkcryptRemote = some crypt) :
    (∃ keyPos, MacRight gmac crypt t.keyState buf.bytes keyPos ∧
      takionHandlePacketMac gmac t buf
        = ({ t with keyState := ⟨keyPos⟩ }.emit (.macVerified crypt buf.bytes), buf, .success)) ∨
      ∃ buf' err, (∀ keyPos, ¬ MacRight gmac crypt t.keyState buf.bytes keyPos) ∧ err ≠ .success ∧
        takionHandlePacketMac gmac t buf = (t, buf', err) := by
  unfold takionHandlePacketMac
  rw [hk]
  simp only
  cases hpos : takionPacketReadKeyPos t.keyState buf.bytes with
  | error err =>
    refine Or.inr ⟨buf, err, ?_, takionPacketReadKeyPos_error hpos, rfl⟩
    rintro keyPos ⟨h, -⟩
    rw [hpos] at h
    cases h
  | ok keyPos =>
    simp only
    cases hmac : takionPacketMac gmac (some crypt) buf.bytes keyPos with
    | error err =>
      refine Or.inr ⟨buf, err, ?_, takionPacketMac_error hmac, rfl⟩
      rintro keyPos' ⟨h, mac, hmac'⟩
      rw [hpos] at h
      cases h
      rw [hmac] at hmac'
      cases hmac'
    | ok r =>
      obtain ⟨bytes, macExpected, mac⟩ := r
      simp only
      by_cases he : macExpected = mac
      · subst he
        have hbytes : bytes = buf.bytes := takionPacketMac_eq hmac
        subst hbytes
        rw [if_neg (by simp)]
        exact Or.inl ⟨keyPos, ⟨hpos, macExpected, hmac⟩, rfl⟩
      · rw [if_pos he]
        refine Or.inr ⟨_, .invalidMac, ?_, by decide, rfl⟩
        rintro keyPos' ⟨h, mac', hmac'⟩
        rw [hpos] at h
        cases h
        rw [hmac] at hmac'
        cases hmac'
        exact he rfl

theorem takionHandlePacketMac_none {buf : PacketBuf} (hk : t.gkcryptRemote = none) :
    takionHandlePacketMac gmac t buf = (t, buf, .success) := by
  unfold takionHandlePacketMac
  rw [hk]

theorem takionHandlePacket_of_none {buf : PacketBuf} (mem : Bool) (caller : TakionCaller)
    (hne : 0 < buf.bytes.length) (hk : t.gkcryptRemote = none) :
    takionHandlePacket gmac t buf mem caller = takionDispatch (t.goto caller.pc) buf mem caller := by
  unfold takionHandlePacket
  rw [if_neg (by omega)]
  simp only [@takionHandlePacketMac_none _ gmac (t.goto caller.pc) buf hk]
  rfl

/-- The state behind a MAC check that has succeeded. -/
def Takion.verified (t : Takion κ) (crypt : κ) (buf : PacketBuf) (keyPos : Nat) : Takion κ :=
  { t with keyState := ⟨keyPos⟩ }.emit (.macVerified crypt buf.bytes)

/-- With keys, a packet is handled when its MAC is right, and freed otherwise. -/
theorem takionHandlePacket_of_some {crypt : κ} {buf : PacketBuf} (mem : Bool) (caller : TakionCaller)
    (hne : 0 < buf.bytes.length) (hk : t.gkcryptRemote = some crypt) :
    (∃ keyPos, MacRight gmac crypt t.keyState buf.bytes keyPos ∧
      takionHandlePacketMac gmac (t.goto caller.pc) buf
        = ((t.goto caller.pc).verified crypt buf keyPos, buf, .success) ∧
      takionHandlePacket gmac t buf mem caller
        = takionDispatch ((t.goto caller.pc).verified crypt buf keyPos) buf mem caller) ∨
      ∃ buf' err, (∀ keyPos, ¬ MacRight gmac crypt t.keyState buf.bytes keyPos) ∧ err ≠ .success ∧
        takionHandlePacketMac gmac (t.goto caller.pc) buf = (t.goto caller.pc, buf', err) ∧
        takionHandlePacket gmac t buf mem caller = .ok ((t.goto caller.pc).freeBuf buf') := by
  unfold takionHandlePacket takionDispatch
  rw [if_neg (by omega)]
  rcases @takionHandlePacketMac_some _ gmac (t.goto caller.pc) crypt buf hk with
    ⟨keyPos, hmac, hres⟩ | ⟨buf', err, hwrong, herr, hres⟩
  · refine Or.inl ⟨keyPos, hmac, hres, ?_⟩
    simp only [hres]
    rfl
  · refine Or.inr ⟨buf', err, hwrong, herr, hres, ?_⟩
    cases err <;> first | exact absurd rfl herr | simp only [hres]

theorem dataDrop_keyState (t : Takion κ) (dropped : List (Nat × TakionDataPacketEntry)) :
    (t.dataDrop dropped).keyState = t.keyState := by
  rw [dataDrop_eq]

theorem takionHandlePacketMessageDataAck_keyState (t : Takion κ) (payload : Bytes) :
    (takionHandlePacketMessageDataAck t payload).keyState = t.keyState := by
  have hfold : ∀ (acked : List TakionSendBufferPacket) (t : Takion κ),
      (acked.foldl (fun (t : Takion κ) p => t.emit (.dataAck p.seqNum)) t).keyState = t.keyState := by
    intro acked
    induction acked with
    | nil => exact fun _ => rfl
    | cons p acked ih => exact fun t => ih _
  unfold takionHandlePacketMessageDataAck
  split
  · rfl
  · exact hfold _ _

theorem takionHandlePacketMessageData_keyState {buf : PacketBuf} {typeB payloadSize : Nat}
    {payload : Option Nat} {mem : Bool} {caller : TakionCaller}
    (h : takionHandlePacketMessageData t buf typeB payload payloadSize mem caller = .ok t') :
    t'.keyState = t.keyState := by
  unfold takionHandlePacketMessageData at h
  split at h
  · cases h
    rfl
  · split at h
    · cases h
      rfl
    · split at h
      · cases h
      · simp only at h
        split at h
        · cases h
        · cases h
          exact dataDrop_keyState _ _

/-- A message leaves what the parser leaves. -/
theorem takionHandlePacketMessage_keyState {buf : PacketBuf} {mem : Bool} {caller : TakionCaller}
    (h : takionHandlePacketMessage t buf mem caller = .ok t') :
    t'.keyState = (takionParseMessage t.tagLocal t.keyState (buf.bytes.drop 1)).1 := by
  unfold takionHandlePacketMessage at h
  simp only at h
  split at h
  · cases h
    rfl
  · split at h
    · exact takionHandlePacketMessageData_keyState h
    · cases h
      exact takionHandlePacketMessageDataAck_keyState _ _
    · cases h
      rfl

/-- An audio or video packet leaves what its parser leaves. -/
theorem takionHandlePacketAv_keyState {buf : PacketBuf} (h : takionHandlePacketAv t buf = .ok t') :
    ∃ result, t.version.avPacketParse t.keyState buf.bytes = .ok (t'.keyState, result) ∧
      t'.log = (match result with
        | .ok packet => [.av t.gkcryptRemote packet buf.bytes]
        | .error _ => []) ++ t.log := by
  unfold takionHandlePacketAv at h
  split at h
  · cases h
  · next hparse =>
    cases h
    exact ⟨_, hparse, rfl⟩
  · next hparse =>
    cases h
    exact ⟨_, hparse, rfl⟩

/-- An audio or video packet moves the state to its own position, or not at all. -/
theorem takionHandlePacketAv_moves {buf : PacketBuf} (h : takionHandlePacketAv t buf = .ok t') :
    t'.keyState = t.keyState ∨ t'.keyState = ⟨keyStatePos t.keyState (u32At buf.bytes 0xe)⟩ := by
  obtain ⟨result, hparse, -⟩ := takionHandlePacketAv_keyState h
  have hnew : ∀ v12, takionAVPacketParse v12 t.keyState buf.bytes = .ok (t'.keyState, result) →
      t'.keyState = t.keyState ∨ t'.keyState = ⟨keyStatePos t.keyState (u32At buf.bytes 0xe)⟩ := by
    intro v12 hparse
    rcases takionAVPacketParse_ok hparse with ⟨hks, -⟩ | ⟨packet, -, -, hp, hks⟩
    · exact Or.inl hks
    · exact Or.inr (by rw [hks, hp])
  cases hversion : t.version with
  | v7 =>
    rw [hversion] at hparse
    exact Or.inl (takionV7AVPacketParse_keyState hparse)
  | v9 =>
    rw [hversion] at hparse
    exact hnew _ hparse
  | v12 =>
    rw [hversion] at hparse
    exact hnew _ hparse

theorem takionHandlePacketAv_map {buf : PacketBuf}
    (h : (takionHandlePacketAv t buf).map (fun t => t.freeBuf buf) = .ok t') :
    ∃ t1, takionHandlePacketAv t buf = .ok t1 ∧ t' = t1.freeBuf buf := by
  cases hav : takionHandlePacketAv t buf with
  | error f =>
    rw [hav] at h
    cases h
  | ok t1 =>
    rw [hav] at h
    cases h
    exact ⟨t1, rfl, rfl⟩

/-- Behind the MAC check, every packet leaves the position that was committed there. -/
theorem takionDispatch_verified_keyState {crypt : κ} {buf : PacketBuf} {mem : Bool}
    {caller : TakionCaller} {keyPos : Nat} {keyState : KeyState} (hk : t.gkcryptRemote = some crypt)
    (hpos : takionPacketReadKeyPos keyState buf.bytes = .ok keyPos)
    (h : takionDispatch (t.verified crypt buf keyPos) buf mem caller = .ok t') :
    t'.keyState = ⟨keyPos⟩ := by
  obtain ⟨baseType, off, htype, hoff, -, rfl⟩ := takionPacketReadKeyPos_ok hpos
  -- the parsers find the position again that the MAC check has committed
  have hagain := keyStatePos_idem keyState (u32At_lt buf.bytes off)
  generalize keyStatePos keyState (u32At buf.bytes off) = keyPos at h hagain ⊢
  have hav : off = 0xe →
      (takionHandlePacketAv (t.verified crypt buf keyPos) buf).map (fun t => t.freeBuf buf) = .ok t' →
      t'.keyState = ⟨keyPos⟩ := by
    rintro rfl h
    obtain ⟨t1, hav, rfl⟩ := takionHandlePacketAv_map h
    show t1.keyState = _
    rcases takionHandlePacketAv_moves hav with hks | hks
    · exact hks
    · exact hks.trans (congrArg KeyState.mk hagain)
  have hnone : ((t.verified crypt buf keyPos).enableCrypt &&
      (t.verified crypt buf keyPos).gkcryptRemote.isNone) = false := by
    rw [show (t.verified crypt buf keyPos).gkcryptRemote = some crypt from hk, Option.isNone_some,
      Bool.and_false]
  unfold takionDispatch at h
  simp only [htype] at h
  cases baseType with
  | control =>
    cases hoff
    rw [takionHandlePacketMessage_keyState h, takionParseMessage_keyState, u32At_drop]
    split
    · rfl
    · exact congrArg KeyState.mk hagain
  | video =>
    simp only [hnone, Bool.false_eq_true, if_false] at h
    cases hoff
    exact hav rfl h
  | audio =>
    simp only [hnone, Bool.false_eq_true, if_false] at h
    cases hoff
    exact hav rfl h
  | congestion =>
    cases h
    rfl
  | _ => cases hoff

theorem takionHandlePacket_keyState_of_macRight {crypt : κ} {buf : PacketBuf} {mem : Bool}
    {caller : TakionCaller} {keyPos : Nat} (hk : t.gkcryptRemote = some crypt)
    (hmac : MacRight gmac crypt t.keyState buf.bytes keyPos)
    (h : takionHandlePacket gmac t buf mem caller = .ok t') : t'.keyState = ⟨keyPos⟩ := by
  by_cases hne : 0 < buf.bytes.length
  · rcases @takionHandlePacket_of_some _ gmac t crypt buf mem caller hne hk with
      ⟨keyPos', hmac', -, hres⟩ | ⟨buf', err, hwrong, -⟩
    · have hread := hmac'.1
      rw [hmac.1] at hread
      cases hread
      rw [hres] at h
      exact @takionDispatch_verified_keyState _ (t.goto caller.pc) _ _ _ _ _ _ _ hk hmac.1 h
    · exact absurd hmac (hwrong keyPos)
  · unfold takionHandlePacket at h
    rw [if_pos (by omega)] at h
    cases h

/--
**Key positions agree.** When a packet passes the MAC check, the position that its MAC was
checked with, the one that the parser of messages or of audio and video packets (version 9
or 12) takes out of it, and the one in `key_state` afterwards are the same.
-/
theorem takionKeyPos_agreement {crypt : κ} {buf buf1 : PacketBuf} (hk : t.gkcryptRemote = some crypt)
    (hpass : takionHandlePacketMac gmac t buf = (t1, buf1, .success)) :
    ∃ keyPos, MacRight gmac crypt t.keyState buf.bytes keyPos ∧ t1.keyState.prev = keyPos ∧
      (takionPacketBaseType (u8At buf.bytes 0) = some .control → ∀ keyState msg,
        takionParseMessage t1.tagLocal t1.keyState (buf1.bytes.drop 1) = (keyState, .ok msg) →
          msg.keyPos = keyPos ∧ keyState.prev = keyPos) ∧
      (∀ v12 keyState packet,
        takionAVPacketParse v12 t1.keyState buf1.bytes = .ok (keyState, .ok packet) →
          packet.keyPos = keyPos ∧ keyState.prev = keyPos) ∧
      ∀ mem caller t', takionHandlePacket gmac t buf mem caller = .ok t' →
        t'.keyState.prev = keyPos := by
  rcases @takionHandlePacketMac_some _ gmac t crypt buf hk with
    ⟨keyPos, hmac, hres⟩ | ⟨buf', err, -, herr, hres⟩
  · rw [hpass] at hres
    cases hres
    obtain ⟨baseType, off, htype, hoff, -, hpos⟩ := takionPacketReadKeyPos_ok hmac.1
    refine ⟨keyPos, hmac, rfl, ?_, ?_, ?_⟩
    · intro hcontrol keyState msg hparse
      rw [hcontrol] at htype
      cases htype
      cases hoff
      have hagain : keyStatePos ⟨keyPos⟩ (u32At buf.bytes 9) = keyPos := by
        rw [hpos]
        exact keyStatePos_idem _ (u32At_lt _ _)
      have hmsg : msg.keyPos = keyPos := by
        rw [takionParseMessage_keyPos (congrArg Prod.snd hparse), u32At_drop]
        exact hagain
      refine ⟨hmsg, ?_⟩
      have hlen := (takionParseMessage_ok (congrArg Prod.snd hparse)).1
      have hks := takionParseMessage_keyState
        ({ t with keyState := ⟨keyPos⟩ }.emit (.macVerified crypt buf.bytes)).tagLocal ⟨keyPos⟩
        (buf.bytes.drop 1)
      rw [if_neg (by omega), u32At_drop, hagain] at hks
      have hfst := congrArg Prod.fst hparse
      rw [show keyState = ⟨keyPos⟩ from hfst.symm.trans hks]
    · intro v12 keyState packet hparse
      rcases takionAVPacketParse_ok hparse with ⟨-, err, h⟩ | ⟨packet', h, hav, hp, hks⟩
      · cases h
      · cases h
        have hoff' : off = 0xe := by
          rcases hav with hav | hav <;> rw [hav] at htype <;> cases htype <;> cases hoff <;> rfl
        have hkey : packet.keyPos = keyPos := by
          rw [hp, hpos, hoff']
          exact keyStatePos_idem _ (u32At_lt _ _)
        exact ⟨hkey, by rw [hks, hkey]⟩
    · intro mem caller t' h
      rw [takionHandlePacket_keyState_of_macRight hk hmac h]
  · rw [hpass] at hres
    cases hres
    exact absurd rfl herr

/-! ### A packet whose low word has come around -/

/-- The thread of the example with keys, two positions before the low word comes around. -/
def exampleTakionWithKeys : Takion UInt8 := takionInit .v9 true 1 5 ⟨0xfffffffffe⟩ (some (7, 7))

theorem takionKeyPos_agreement_wrapped : ∃ keyPos,
    MacRight keyGmac 7 exampleTakionWithKeys.keyState (exampleData 7 5 0 [1]) keyPos ∧
      0x10000000000 = keyPos ∧
      (takionPacketBaseType (u8At (exampleData 7 5 0 [1]) 0) = some .control → ∀ keyState msg,
        takionParseMessage 1 ⟨0x10000000000⟩ ((exampleData 7 5 0 [1]).drop 1)
            = (keyState, .ok msg) →
          msg.keyPos = keyPos ∧ keyState.prev = keyPos) ∧
      (∀ v12 keyState packet,
        takionAVPacketParse v12 ⟨0x10000000000⟩ (exampleData 7 5 0 [1])
            = .ok (keyState, .ok packet) →
          packet.keyPos = keyPos ∧ keyState.prev = keyPos) ∧
      ∀ mem caller t',
        takionHandlePacket keyGmac exampleTakionWithKeys ⟨0, exampleData 7 5 0 [1]⟩ mem caller
            = .ok t' →
          t'.keyState.prev = keyPos :=
  @takionKeyPos_agreement _ keyGmac exampleTakionWithKeys
    (exampleTakionWithKeys.verified 7 ⟨0, exampleData 7 5 0 [1]⟩ 0x10000000000) 7
    ⟨0, exampleData 7 5 0 [1]⟩ ⟨0, exampleData 7 5 0 [1]⟩ rfl rfl

/-! ## Datagrams that are turned away -/

/-- Whether `takion_handle_packet` turns the datagram away: the MAC is wrong, the message does
not parse or has no known type, its payload has the wrong size, the audio or video packet does
not parse, or the type of the packet is not known. -/
def takionRejects (gmac : κ → Nat → Bytes → Mac) (t : Takion κ) (buf : PacketBuf) : Bool :=
  match takionHandlePacketMac gmac t buf with
  | (t, buf, .success) =>
    match takionPacketBaseType (u8At buf.bytes 0) with
    | some .control =>
      match (takionParseMessage t.tagLocal t.keyState (buf.bytes.drop 1)).2 with
      | .error _ => true
      | .ok msg =>
        match TakionChunkType.ofByte msg.chunkType with
        | some .data => decide (msg.payloadSize < 9)
        | some .dataAck =>
          (takionDataAckSeqNum (slice buf.bytes (1 + msg.payload.getD 0) msg.payloadSize)).isNone
        | _ => true
    | some .video | some .audio =>
      match t.enableCrypt && t.gkcryptRemote.isNone, t.version.avPacketParse t.keyState buf.bytes with
      | false, .ok (_, .error _) => true
      | _, _ => false
    | _ => true
  | _ => true

/-- The datagram brings no key position that counts, or the one that is in `key_state`. Without
keys, the position of every message with a whole header counts; with keys, that of every
packet whose MAC is right. -/
def KeyPosKept (gmac : κ → Nat → Bytes → Mac) (t : Takion κ) (buf : Bytes) : Prop :=
  match t.gkcryptRemote with
  | none => takionPacketBaseType (u8At buf 0) = some .control →
      takionMessageHeaderSize < buf.length → u32At buf 9 = t.keyState.prev % 2 ^ 32
  | some crypt => ∀ keyPos, MacRight gmac crypt t.keyState buf keyPos → keyPos = t.keyState.prev

theorem avPacketParse_error {version : TakionVersion} {keyState keyState' : KeyState} {buf : Bytes}
    {err : ErrorCode} (h : version.avPacketParse keyState buf = .ok (keyState', .error err)) :
    keyState' = keyState := by
  have hsame : ∀ v12, takionAVPacketParse v12 keyState buf = .ok (keyState', .error err) →
      keyState' = keyState := by
    intro v12 h
    rcases takionAVPacketParse_ok h with ⟨hks, -⟩ | ⟨packet, hok, -⟩
    · exact hks
    · cases hok
  cases version with
  | v7 => exact takionV7AVPacketParse_keyState h
  | v9 => exact hsame _ h
  | v12 => exact hsame _ h

theorem takionRejects_goto (pc : TakionPc) (buf : PacketBuf) :
    takionRejects gmac (t.goto pc) buf = takionRejects gmac t buf := by
  have hmac : takionHandlePacketMac gmac (t.goto pc) buf
      = ((takionHandlePacketMac gmac t buf).1.goto pc, (takionHandlePacketMac gmac t buf).2) := by
    unfold takionHandlePacketMac
    rw [show (t.goto pc).gkcryptRemote = t.gkcryptRemote from rfl,
      show (t.goto pc).keyState = t.keyState from rfl]
    cases t.gkcryptRemote with
    | none => rfl
    | some crypt =>
      simp only
      split
      · rfl
      · split
        · rfl
        · split <;> rfl
  unfold takionRejects
  rw [hmac]
  obtain ⟨t1, buf1, err⟩ := takionHandlePacketMac gmac t buf
  cases err <;> rfl

/-- Behind the MAC check, a datagram that is turned away is handled without a fault, and only a
message moves `key_state`. -/
theorem takionDispatch_of_rejects {buf : PacketBuf} (mem : Bool) (caller : TakionCaller)
    (hrej : takionRejects gmac t buf = true)
    (hpass : takionHandlePacketMac gmac t buf = (t1, buf, .success)) :
    ∃ t', takionDispatch t1 buf mem caller = .ok t' ∧
      (takionPacketBaseType (u8At buf.bytes 0) ≠ some .control → t'.keyState = t1.keyState) := by
  unfold takionRejects at hrej
  simp only [hpass] at hrej
  unfold takionDispatch
  have hav : (match t1.enableCrypt && t1.gkcryptRemote.isNone,
        t1.version.avPacketParse t1.keyState buf.bytes with
      | false, .ok (_, .error _) => true
      | _, _ => false) = true →
      ∃ t', (if t1.enableCrypt && t1.gkcryptRemote.isNone then .ok (takionPostponePacket t1 buf mem)
        else (takionHandlePacketAv t1 buf).map fun t => t.freeBuf buf) = .ok t' ∧
        t'.keyState = t1.keyState := by
    intro h
    split at h
    · next keyState err hnone hparse =>
      rw [hnone, if_neg (by simp)]
      unfold takionHandlePacketAv
      rw [hparse]
      exact ⟨_, rfl, avPacketParse_error hparse⟩
    · cases h
  split
  · next hcontrol =>
    simp only [hcontrol] at hrej
    unfold takionHandlePacketMessage
    simp only
    cases hmsg : (takionParseMessage t1.tagLocal t1.keyState (buf.bytes.drop 1)).2 with
    | error err => exact ⟨_, rfl, fun h => absurd hcontrol h⟩
    | ok msg =>
      simp only [hmsg] at hrej ⊢
      split
      · next htype =>
        simp only [htype, decide_eq_true_eq] at hrej
        unfold takionHandlePacketMessageData
        rw [if_pos hrej]
        exact ⟨_, rfl, fun h => absurd hcontrol h⟩
      · exact ⟨_, rfl, fun h => absurd hcontrol h⟩
      · exact ⟨_, rfl, fun h => absurd hcontrol h⟩
  · next hvideo =>
    simp only [hvideo] at hrej
    obtain ⟨t', hres, hks⟩ := hav hrej
    exact ⟨t', hres, fun _ => hks⟩
  · next haudio =>
    simp only [haudio] at hrej
    obtain ⟨t', hres, hks⟩ := hav hrej
    exact ⟨t', hres, fun _ => hks⟩
  · exact ⟨_, rfl, fun _ => rfl⟩

/-- Without keys, a message with a whole header leaves its own position, whatever comes of it. -/
theorem takionDispatch_control_keyState {buf : PacketBuf} {mem : Bool} {caller : TakionCaller}
    (hcontrol : takionPacketBaseType (u8At buf.bytes 0) = some .control)
    (h : takionDispatch t buf mem caller = .ok t') :
    t'.keyState = if takionMessageHeaderSize < buf.bytes.length then
      ⟨keyStatePos t.keyState (u32At buf.bytes 9)⟩ else t.keyState := by
  unfold takionDispatch at h
  simp only [hcontrol] at h
  rw [takionHandlePacketMessage_keyState h, takionParseMessage_keyState, u32At_drop, List.length_drop]
  by_cases hlen : takionMessageHeaderSize < buf.bytes.length
  · rw [if_pos hlen, if_neg (by omega)]
  · rw [if_neg hlen]
    split
    · rfl
    · next hlen' => exact absurd hlen' (by unfold takionMessageHeaderSize at *; omega)

/-- A state is left as it is, and so is every position that is computed from it later. -/
theorem keyState_kept_iff {state state' : KeyState} :
    (state' = state ∧ ∀ low, keyStatePos state' low = keyStatePos state low) ↔
      state'.prev = state.prev := by
  constructor
  · rintro ⟨rfl, -⟩
    rfl
  · intro h
    cases state
    cases state'
    cases h
    exact ⟨rfl, fun _ => rfl⟩

/-- **What a rejected datagram does to key positions.** It leaves `key_state`, and with it the
position that is computed for any later packet, if and only if `KeyPosKept` holds. -/
theorem takionRejects_keyState_iff {buf : PacketBuf} (mem : Bool) (caller : TakionCaller)
    (hne : 0 < buf.bytes.length) (hrej : takionRejects gmac t buf = true) :
    ∃ t', takionHandlePacket gmac t buf mem caller = .ok t' ∧
      ((t'.keyState = t.keyState ∧ ∀ low, keyStatePos t'.keyState low = keyStatePos t.keyState low) ↔
        KeyPosKept gmac t buf.bytes) := by
  rw [← @takionRejects_goto _ _ _ caller.pc] at hrej
  simp only [keyState_kept_iff]
  unfold KeyPosKept
  cases hk : t.gkcryptRemote with
  | none =>
    obtain ⟨t', hres, hother⟩ := takionDispatch_of_rejects mem caller hrej
      (takionHandlePacketMac_none hk)
    refine ⟨t', (takionHandlePacket_of_none mem caller hne hk).trans hres, ?_⟩
    by_cases hcontrol : takionPacketBaseType (u8At buf.bytes 0) = some .control
    · rw [takionDispatch_control_keyState hcontrol hres]
      by_cases hlen : takionMessageHeaderSize < buf.bytes.length
      · rw [if_pos hlen]
        simp only [hcontrol, hlen, forall_const]
        exact keyStatePos_eq_prev_iff t.keyState (u32At_lt _ _)
      · rw [if_neg hlen]
        exact ⟨fun _ _ h => absurd h hlen, fun _ => rfl⟩
    · rw [hother hcontrol]
      exact ⟨fun _ h => absurd h hcontrol, fun _ => rfl⟩
  | some crypt =>
    rcases @takionHandlePacket_of_some _ gmac t crypt buf mem caller hne hk with
      ⟨keyPos, hmac, hpass, hres⟩ | ⟨buf', err, hwrong, -, -, hres⟩
    · obtain ⟨t', hdone, -⟩ := takionDispatch_of_rejects mem caller hrej hpass
      have hks := takionHandlePacket_keyState_of_macRight hk hmac (hres.trans hdone)
      refine ⟨t', hres.trans hdone, ?_⟩
      rw [hks]
      constructor
      · intro h keyPos' hmac'
        rw [← h]
        have hread := hmac'.1
        rw [hmac.1] at hread
        cases hread
        rfl
      · intro h
        exact h keyPos hmac
    · refine ⟨_, hres, ?_⟩
      exact ⟨fun _ keyPos hmac => absurd hmac (hwrong keyPos), fun _ => rfl⟩

/-! ### A message for another tag, and one for this tag -/

/-- A message for tag `tag` whose header gives the position `low`, with an empty payload. -/
def exampleMessage (tag low : Nat) : Bytes :=
  [0] ++ be32 tag ++ List.replicate 4 0 ++ be32 low ++ [0, 0] ++ be16 4

/-- Without keys, one message for another tag is enough: a later packet with the low word 0 is
then taken for the one at `2 ^ 32`. -/
theorem not_takionRejects_keyState : ¬ ∀ (t t' : Takion UInt8) buf mem caller,
    takionRejects keyGmac t buf = true → takionHandlePacket keyGmac t buf mem caller = .ok t' →
      t'.keyState = t.keyState ∧ ∀ low, keyStatePos t'.keyState low = keyStatePos t.keyState low := by
  intro hall
  obtain ⟨-, hpos⟩ := hall exampleTakion
    ({ exampleTakion with keyState := ⟨0xffffffff⟩ }.freeBuf ⟨0, exampleMessage 9 0xffffffff⟩)
    ⟨0, exampleMessage 9 0xffffffff⟩ true .recv (by decide) rfl
  have h0 := hpos 0
  revert h0
  decide

/-- With keys, the same message is stopped by the MAC check. -/
theorem takionRejects_keyState_iff_wrongMac : ∃ t' : Takion UInt8,
    takionHandlePacket keyGmac exampleTakionWithKeys ⟨0, exampleMessage 9 0xffffffff⟩ true .recv
        = .ok t' ∧
      ((t'.keyState = exampleTakionWithKeys.keyState ∧
        ∀ low, keyStatePos t'.keyState low = keyStatePos exampleTakionWithKeys.keyState low) ↔
        KeyPosKept keyGmac exampleTakionWithKeys (exampleMessage 9 0xffffffff)) :=
  @takionRejects_keyState_iff _ keyGmac exampleTakionWithKeys ⟨0, exampleMessage 9 0xffffffff⟩ true
    .recv (by decide) (by decide)

end Chiaki
