import Chiaki.Properties.Takion.Packet

/-!
# Sender and receiver compute the same MAC

`chiaki_takion_packet_mac` overwrites the MAC with zeros, for two types also the key position, then
computes the MAC over the packet and puts the key position back.

* `takionPacketMacInput` — the bytes that the MAC is computed over
* `takionPacketPutMac_slice` — what is put into the MAC field
* `takionPacketMac_consistent` — running it again finds the MAC that is there
-/

namespace Chiaki

variable {κ : Type} {gmac : κ → Nat → Bytes → Mac} {crypt : Option κ} {buf buf' : Bytes}
  {baseType : TakionPacketType} {macOffset keyPosOffset keyPos i : Nat}

/-! ## The statement -/

/-- A packet of one of the types that have a MAC, long enough for its fields. -/
structure MacPacket (buf : Bytes) (baseType : TakionPacketType) (macOffset keyPosOffset : Nat) :
    Prop where
  type : takionPacketBaseType (u8At buf 0) = some baseType
  mac_eq : takionPacketTypeMacOffset baseType = some macOffset
  keyPos_eq : takionPacketTypeKeyPosOffset baseType = some keyPosOffset
  mac_le : macOffset + gkcryptGmacSize ≤ buf.length
  keyPos_le : keyPosOffset + 4 ≤ buf.length

/-- The places that are zero while the MAC is computed. -/
def MacMasked (baseType : TakionPacketType) (macOffset keyPosOffset i : Nat) : Prop :=
  (macOffset ≤ i ∧ i < macOffset + gkcryptGmacSize) ∨
    ((baseType == .control || baseType == .congestion) = true ∧
      keyPosOffset ≤ i ∧ i < keyPosOffset + 4)

/-! ## What the MAC is computed over -/

/-- The key position follows the MAC, and neither is the byte of the type. -/
theorem MacPacket.offsets (h : MacPacket buf baseType macOffset keyPosOffset) :
    0 < macOffset ∧ keyPosOffset = macOffset + gkcryptGmacSize := by
  obtain ⟨-, hmac, hkey, -, -⟩ := h
  have hsize : gkcryptGmacSize = 4 := rfl
  cases baseType <;>
    simp only [takionPacketTypeMacOffset, takionPacketTypeKeyPosOffset, Option.some.injEq,
      reduceCtorEq] at hmac hkey <;>
    omega

/-- The buffer that `chiaki_gkcrypt_gmac` gets. -/
def takionPacketMacInput (baseType : TakionPacketType) (macOffset keyPosOffset : Nat) (buf : Bytes) :
    Bytes :=
  let buf := splice buf macOffset (List.replicate gkcryptGmacSize 0)
  if baseType == .control || baseType == .congestion then
    splice buf keyPosOffset (List.replicate 4 0)
  else buf

/-- `memset(buf + off, 0, n)` -/
theorem getElem?_splice_zero {off n : Nat} (h : off + n ≤ buf.length) (i : Nat) :
    (splice buf off (List.replicate n 0))[i]?
      = if off ≤ i ∧ i < off + n then some 0 else buf[i]? := by
  rw [getElem?_splice (by rw [List.length_replicate]; exact h), List.length_replicate]
  split
  · rw [List.getElem?_replicate, if_pos (by omega)]
  · rfl

theorem length_splice_zero {off n : Nat} (h : off + n ≤ buf.length) :
    (splice buf off (List.replicate n 0)).length = buf.length :=
  length_splice (by rw [List.length_replicate]; exact h)

theorem MacPacket.input_masked (h : MacPacket buf baseType macOffset keyPosOffset)
    (hi : MacMasked baseType macOffset keyPosOffset i) :
    (takionPacketMacInput baseType macOffset keyPosOffset buf)[i]? = some 0 := by
  have hlen := length_splice_zero h.mac_le
  unfold takionPacketMacInput
  dsimp only
  split
  · rw [getElem?_splice_zero (by rw [hlen]; exact h.keyPos_le), getElem?_splice_zero h.mac_le]
    rcases hi with hin | ⟨-, hin⟩
    · rw [if_pos hin, ite_self]
    · rw [if_pos hin]
  · next htype =>
    rcases hi with hin | ⟨htype', -⟩
    · rw [getElem?_splice_zero h.mac_le, if_pos hin]
    · exact absurd htype' htype

theorem MacPacket.input_of_not_masked (h : MacPacket buf baseType macOffset keyPosOffset)
    (hi : ¬ MacMasked baseType macOffset keyPosOffset i) :
    (takionPacketMacInput baseType macOffset keyPosOffset buf)[i]? = buf[i]? := by
  have hlen := length_splice_zero h.mac_le
  obtain ⟨hmac, hkey⟩ := not_or.mp hi
  unfold takionPacketMacInput
  dsimp only
  split
  · next htype =>
    rw [getElem?_splice_zero (by rw [hlen]; exact h.keyPos_le),
      if_neg fun hin => hkey ⟨htype, hin⟩, getElem?_splice_zero h.mac_le, if_neg hmac]
  · rw [getElem?_splice_zero h.mac_le, if_neg hmac]

/-- Packets that differ in masked places only have the same input. -/
theorem MacPacket.input_congr (h : MacPacket buf baseType macOffset keyPosOffset)
    (h' : MacPacket buf' baseType macOffset keyPosOffset)
    (hagree : ∀ i, ¬ MacMasked baseType macOffset keyPosOffset i → buf'[i]? = buf[i]?) :
    takionPacketMacInput baseType macOffset keyPosOffset buf'
      = takionPacketMacInput baseType macOffset keyPosOffset buf := by
  refine List.ext_getElem? ?_
  intro i
  by_cases hi : MacMasked baseType macOffset keyPosOffset i
  · rw [h.input_masked hi, h'.input_masked hi]
  · rw [h.input_of_not_masked hi, h'.input_of_not_masked hi, hagree i hi]

/-- The MAC of a packet, which is zeros where there is no key. -/
def takionPacketMacOf (gmac : κ → Nat → Bytes → Mac) (crypt : Option κ) (keyPos : Nat)
    (input : Bytes) : Bytes :=
  match crypt with
  | none => List.replicate gkcryptGmacSize 0
  | some k => (gmac k keyPos input).toList

/-- **The MAC field holds the MAC of the input.** -/
theorem takionPacketPutMac_slice (gmac : κ → Nat → Bytes → Mac) (crypt : Option κ) (keyPos : Nat)
    (h : MacPacket buf baseType macOffset keyPosOffset) :
    slice (takionPacketPutMac gmac crypt baseType macOffset keyPosOffset buf keyPos) macOffset
        gkcryptGmacSize
      = takionPacketMacOf gmac crypt keyPos
          (takionPacketMacInput baseType macOffset keyPosOffset buf) := by
  obtain ⟨-, hoff⟩ := h.offsets
  have hlen := length_splice_zero h.mac_le
  unfold takionPacketPutMac takionPacketMacInput takionPacketMacOf
  cases crypt with
  | none => exact slice_splice List.length_replicate h.mac_le
  | some k =>
    dsimp only
    generalize splice buf macOffset (List.replicate gkcryptGmacSize 0) = b at hlen ⊢
    have hmac_le := h.mac_le
    have hkey_le := h.keyPos_le
    split
    · -- the key position is put back behind the MAC
      have hlen0 : (splice b keyPosOffset (List.replicate 4 0)).length = buf.length := by
        rw [length_splice_zero (by omega), hlen]
      have htag : ∀ x, (gmac k keyPos x).toList.length = gkcryptGmacSize := by simp
      have hfour : (slice b keyPosOffset 4).length = 4 := length_slice (by omega)
      generalize splice b keyPosOffset (List.replicate 4 0) = b0 at hlen0 ⊢
      have hlen1 : (splice b0 macOffset (gmac k keyPos b0).toList).length = buf.length := by
        rw [length_splice (by rw [htag]; omega), hlen0]
      rw [slice_splice_of_le (by omega) (by rw [hfour]; omega)]
      exact slice_splice (htag _) (by omega)
    · exact slice_splice (by simp) (by omega)

theorem length_takionPacketPutMac (gmac : κ → Nat → Bytes → Mac) (crypt : Option κ) (keyPos : Nat)
    (h : MacPacket buf baseType macOffset keyPosOffset) :
    (takionPacketPutMac gmac crypt baseType macOffset keyPosOffset buf keyPos).length
      = buf.length := by
  have hlen := length_splice_zero h.mac_le
  have hmac_le := h.mac_le
  have hkey_le := h.keyPos_le
  unfold takionPacketPutMac
  cases crypt with
  | none => exact hlen
  | some k =>
    have htag : ∀ x, (gmac k keyPos x).toList.length = gkcryptGmacSize := by simp
    dsimp only
    generalize splice buf macOffset (List.replicate gkcryptGmacSize 0) = b at hlen ⊢
    split
    · have hlen0 : (splice b keyPosOffset (List.replicate 4 0)).length = buf.length := by
        rw [length_splice_zero (by omega), hlen]
      have hfour : (slice b keyPosOffset 4).length = 4 := length_slice (by omega)
      generalize splice b keyPosOffset (List.replicate 4 0) = b0 at hlen0 ⊢
      have hlen1 : (splice b0 macOffset (gmac k keyPos b0).toList).length = buf.length := by
        rw [length_splice (by rw [htag]; omega), hlen0]
      rw [length_splice (by rw [hfour]; omega), hlen1]
    · rw [length_splice (by rw [htag]; omega), hlen]

/-! ## Both runs -/

/-- The result of the function says what its buffer is, where it has one. -/
theorem takionPacketMac_inPlace (gmac : κ → Nat → Bytes → Mac) (crypt : Option κ) (buf : Bytes)
    (keyPos : Nat) : takionPacketMac gmac crypt buf keyPos
      = (takionPacketMacInPlace gmac crypt buf keyPos).2.map fun macs =>
          ((takionPacketMacInPlace gmac crypt buf keyPos).1, macs) := by
  unfold takionPacketMac takionPacketMacInPlace
  split
  · rfl
  · split
    · rfl
    · split
      · split <;> rfl
      · rfl

theorem takionPacketMacInPlace_eq (gmac : κ → Nat → Bytes → Mac) (crypt : Option κ) (keyPos : Nat)
    (h : MacPacket buf baseType macOffset keyPosOffset) :
    takionPacketMacInPlace gmac crypt buf keyPos
      = (takionPacketPutMac gmac crypt baseType macOffset keyPosOffset buf keyPos,
          .ok (takionPacketMacOf gmac crypt keyPos
            (takionPacketMacInput baseType macOffset keyPosOffset buf),
            slice buf macOffset gkcryptGmacSize)) := by
  have hmac_le := h.mac_le
  have hkey_le := h.keyPos_le
  have hshort : (decide (buf.length < macOffset + gkcryptGmacSize)
      || decide (buf.length < keyPosOffset + 4)) = false := by
    simp only [Bool.or_eq_false_iff, decide_eq_false_iff_not]
    omega
  unfold takionPacketMacInPlace
  rw [if_neg (by omega), h.type, ← takionPacketPutMac_slice gmac crypt keyPos h]
  simp only [h.mac_eq, h.keyPos_eq, hshort, Bool.false_eq_true, if_false]

/-- An error is found before anything is written. -/
theorem takionPacketMacInPlace_error {err : ErrorCode}
    (herr : (takionPacketMacInPlace gmac crypt buf keyPos).2 = .error err) :
    (takionPacketMacInPlace gmac crypt buf keyPos).1 = buf := by
  unfold takionPacketMacInPlace at herr ⊢
  split
  · rfl
  · next hlen =>
    rw [if_neg hlen] at herr
    split
    · rfl
    · next htype =>
      rw [htype] at herr
      split
      · next hmac hkey =>
        split
        · rfl
        · next hshort =>
          simp only [hmac, hkey, hshort] at herr
          cases herr
      · rfl

theorem MacPacket.of_agree (h : MacPacket buf baseType macOffset keyPosOffset)
    (hlen : buf'.length = buf.length)
    (hagree : ∀ i, ¬ MacMasked baseType macOffset keyPosOffset i → buf'[i]? = buf[i]?) :
    MacPacket buf' baseType macOffset keyPosOffset := by
  have hoff := h.offsets
  have hfirst : buf'[0]? = buf[0]? := by
    refine hagree 0 ?_
    rintro (hin | ⟨-, hin⟩) <;> omega
  refine ⟨?_, h.mac_eq, h.keyPos_eq, hlen ▸ h.mac_le, hlen ▸ h.keyPos_le⟩
  rw [u8At, List.getD_eq_getElem?_getD, hfirst, ← List.getD_eq_getElem?_getD]
  exact h.type

/-- **Whoever runs the function again finds the MAC that it computes.** The packet is the same outside
of the MAC field, the MAC does not depend on what is masked, and on an error nothing is written. -/
theorem takionPacketMac_consistent (gmac : κ → Nat → Bytes → Mac) (crypt : Option κ) (keyPos : Nat)
    (h : MacPacket buf baseType macOffset keyPosOffset) :
    (∃ buf' mac,
      takionPacketMacInPlace gmac crypt buf keyPos
        = (buf', .ok (mac, slice buf macOffset gkcryptGmacSize)) ∧
      takionPacketMacInPlace gmac crypt buf' keyPos = (buf', .ok (mac, mac)) ∧
      buf'.length = buf.length ∧
      (∀ i, ¬ (macOffset ≤ i ∧ i < macOffset + gkcryptGmacSize) → buf'[i]? = buf[i]?) ∧
      ∀ other, other.length = buf.length →
        (∀ i, ¬ MacMasked baseType macOffset keyPosOffset i → other[i]? = buf[i]?) →
        (takionPacketMacInPlace gmac crypt other keyPos).2
          = .ok (mac, slice other macOffset gkcryptGmacSize)) ∧
    ∀ other err, (takionPacketMacInPlace gmac crypt other keyPos).2 = .error err →
      (takionPacketMacInPlace gmac crypt other keyPos).1 = other := by
  refine ⟨?_, fun _ _ => takionPacketMacInPlace_error⟩
  have hrun := takionPacketMacInPlace_eq gmac crypt keyPos h
  have hlen := length_takionPacketPutMac gmac crypt keyPos h
  have hframe : ∀ i, ¬ (macOffset ≤ i ∧ i < macOffset + gkcryptGmacSize) →
      (takionPacketPutMac gmac crypt baseType macOffset keyPosOffset buf keyPos)[i]? = buf[i]? :=
    fun i hi => getElem?_takionPacketPutMac h.mac_le h.keyPos_le hi
  have hslice := takionPacketPutMac_slice gmac crypt keyPos h
  generalize takionPacketPutMac gmac crypt baseType macOffset keyPosOffset buf keyPos = buf'
    at hrun hlen hframe hslice
  have hagree : ∀ i, ¬ MacMasked baseType macOffset keyPosOffset i → buf'[i]? = buf[i]? :=
    fun i hi => hframe i fun hin => hi (Or.inl hin)
  have hmac : ∀ other, other.length = buf.length →
      (∀ i, ¬ MacMasked baseType macOffset keyPosOffset i → other[i]? = buf[i]?) →
      (takionPacketMacInPlace gmac crypt other keyPos).2
        = .ok (takionPacketMacOf gmac crypt keyPos
            (takionPacketMacInput baseType macOffset keyPosOffset buf),
          slice other macOffset gkcryptGmacSize) := by
    intro other hother hsame
    have h' := h.of_agree hother hsame
    rw [takionPacketMacInPlace_eq gmac crypt keyPos h', h.input_congr h' hsame]
  refine ⟨buf', _, hrun, ?_, hlen, hframe, hmac⟩
  have hagain := hmac buf' hlen hagree
  rw [hslice] at hagain
  -- the MAC that is computed is the one that is there, so nothing changes
  have hsame := takionPacketMac_inPlace gmac crypt buf' keyPos
  rw [hagain] at hsame
  rw [← Prod.mk.eta (p := takionPacketMacInPlace gmac crypt buf' keyPos), hagain,
    takionPacketMac_eq hsame]

/-- A key that is added to every byte, for the example. -/
def exampleGmac (k keyPos : Nat) (buf : Bytes) : Mac :=
  Vector.replicate gkcryptGmacSize (UInt8.ofNat (k + keyPos + (buf.map UInt8.toNat).sum))

/-- A control packet with something in the fields of the MAC and of the key position. -/
def exampleControlPacket : Bytes := [0, 1, 2, 3, 4, 5, 6, 7, 8, 9, 10, 11, 12, 13, 14, 0, 4]

theorem takionPacketMac_consistent_exampleControlPacket :
    ∃ buf', takionPacketMacInPlace exampleGmac (some 3) exampleControlPacket 0x90a0b0c
        = (buf', .ok ([56, 56, 56, 56], [5, 6, 7, 8])) ∧
      takionPacketMacInPlace exampleGmac (some 3) buf' 0x90a0b0c
        = (buf', .ok ([56, 56, 56, 56], [56, 56, 56, 56])) := by
  have hpacket : MacPacket exampleControlPacket .control 5 9 :=
    ⟨rfl, rfl, rfl, by decide, by decide⟩
  have hmac : (takionPacketMacInPlace exampleGmac (some 3) exampleControlPacket 0x90a0b0c).2
      = .ok ([56, 56, 56, 56], [5, 6, 7, 8]) := by rfl
  obtain ⟨buf', mac, hfirst, hagain, -⟩ :=
    (takionPacketMac_consistent exampleGmac (some 3) 0x90a0b0c hpacket).1
  rw [hfirst] at hmac
  obtain ⟨rfl, -⟩ := Prod.mk.inj (Except.ok.inj hmac)
  exact ⟨buf', hfirst, hagain⟩

end Chiaki
