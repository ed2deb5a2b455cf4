import Chiaki.Properties.Takion.Packet

/-!
# Audio and video packets and their bounds

`av_packet_parse` checks the length of a packet once, by version and medium. What it takes out of the
packet depends on two more things, the NALU info flag and the byte for haptics.

* `takionAVPacketParse_cases` — everything that the parser of versions 9 and 12 can do
* `NaluTooShort` — the packets that pass the check and are too short for the flag
* `takionAVPacketParse_inside_iff` — the parser stays inside of all others
-/

namespace Chiaki

variable {v12 isVideo : Bool} {keyState : KeyState} {buf : Bytes}

/-! ## The statement -/

/-- `uses_nalu_info_structs` -/
def takionUsesNaluInfoStructs (buf : Bytes) : Bool := u8At buf 0 / 2 ^ 4 % 2 != 0

/-- No byte outside of the packet is read, and the data are the rest of it. -/
structure AvParseInside (v12 : Bool) (keyState : KeyState) (buf : Bytes) : Prop where
  reads : ∃ r, takionAVPacketParse v12 keyState buf = .ok r
  data : ∀ keyState' packet, takionAVPacketParse v12 keyState buf = .ok (keyState', .ok packet) →
    packet.data + packet.dataSize = buf.length

/-- An audio packet with the NALU info flag that is long enough without it only. -/
def NaluTooShort (v12 : Bool) (buf : Bytes) : Prop :=
  takionPacketBaseType (u8At buf 0) = some .audio ∧ takionUsesNaluInfoStructs buf = true ∧
    if v12 then buf.length = 21 ∨ buf.length = 22 else buf.length = 20 ∨ buf.length = 21

instance (v12 : Bool) (buf : Bytes) : Decidable (NaluTooShort v12 buf) :=
  inferInstanceAs (Decidable (_ ∧ _))

/-! ## The parser of versions 9 and 12 -/

/-- Where the data of an accepted packet begin. -/
def takionAVDataOffset (v12 isVideo usesNaluInfoStructs : Bool) : Nat :=
  1 + 0x11 + (if isVideo then 3 else 1) + (if usesNaluInfoStructs then 3 else 0)
    + if v12 && !isVideo then 1 else 0

/-- The type of audio and video packets. -/
def takionAVType (isVideo : Bool) : TakionPacketType := if isVideo then .video else .audio

theorem takionAVPacketParse_accepted (keyState : KeyState)
    (htype : takionPacketBaseType (u8At buf 0) = some (takionAVType isVideo))
    (hlen : takionAVHeaderSize v12 isVideo + 2 ≤ buf.length) :
    (∃ keyState' packet, takionAVPacketParse v12 keyState buf = .ok (keyState', .ok packet) ∧
        packet.data = takionAVDataOffset v12 isVideo (takionUsesNaluInfoStructs buf) ∧
        packet.dataSize = (buf.length + 2 ^ 64 - packet.data) % 2 ^ 64) ∨
      takionAVPacketParse v12 keyState buf = .error .outOfBounds ∧ v12 = true ∧ isVideo = false ∧
        takionUsesNaluInfoStructs buf = true ∧ buf.length < 23 := by
  have hsize : 20 ≤ buf.length := by
    unfold takionAVHeaderSize at hlen
    split at hlen
    · omega
    · split at hlen <;> omega
  unfold takionAVPacketParse takionAVDataOffset takionUsesNaluInfoStructs
  have h1 := readU16_eq (show 1 + 2 ≤ buf.length by omega)
  have h3 := readU16_eq (show 3 + 2 ≤ buf.length by omega)
  have h5 := readU32_eq (show 5 + 4 ≤ buf.length by omega)
  have h9 := readU8_eq (show 9 < buf.length by omega)
  have he := readU32_eq (show 1 + 0xd + 4 ≤ buf.length by omega)
  have h12 := readU8_eq (show 1 + 0x11 < buf.length by omega)
  rw [if_neg (by omega), htype]
  cases isVideo with
  | true =>
    have hlong : 25 ≤ buf.length := hlen
    refine Or.inl ?_
    simp only [takionAVType, if_true, beq_self_eq_true, ne_eq, not_true_eq_false, false_and, if_false,
      takionAVHeaderSize, show ¬ buf.length - 1 < 0x17 + 1 by omega, readIf, Bool.not_true,
      Bool.and_false, Bool.false_eq_true, h1, h3, h5, h9, he, h12,
      readU16_eq (show 1 + 0x11 + 2 ≤ buf.length by omega),
      readU8_eq (show 1 + 0x11 + 2 < buf.length by omega),
      readU8_eq (show 1 + 0x11 + 3 < buf.length by omega)]
    exact ⟨_, _, rfl, rfl, rfl⟩
  | false =>
    simp only [takionAVType, Bool.false_eq_true, if_false,
      show (some TakionPacketType.audio == some .video) = false from rfl, ne_eq, not_true_eq_false,
      and_false, readIf, Bool.not_false, Bool.and_true, takionAVHeaderSize]
    cases v12 with
    | false =>
      have hshort : ¬ buf.length - 1 < 0x12 + 1 := by omega
      simp only [Bool.false_eq_true, if_false, hshort, h1, h3, h5, h9, he, h12]
      exact Or.inl ⟨_, _, rfl, rfl, rfl⟩
    | true =>
      have hlong : 21 ≤ buf.length := hlen
      have hshort : ¬ buf.length - 1 < 0x13 + 1 := by omega
      simp only [if_true, hshort, if_false, h1, h3, h5, h9, he, h12]
      cases hnalu : u8At buf 0 / 2 ^ 4 % 2 != 0 with
      | false =>
        simp only [Bool.false_eq_true, if_false,
          readU8_eq (show 1 + 0x11 + 1 + 0 < buf.length by omega)]
        exact Or.inl ⟨_, _, rfl, rfl, rfl⟩
      | true =>
        simp only [if_true]
        -- the byte for haptics comes behind the three bytes that the flag adds
        rcases Nat.lt_or_ge 22 buf.length with hin | hout
        · rw [readU8_eq (show 1 + 0x11 + 1 + 3 < buf.length by omega)]
          exact Or.inl ⟨_, _, rfl, rfl, rfl⟩
        · have hread : readU8 buf (1 + 0x11 + 1 + 3) = .error .outOfBounds := by
            rw [readU8, List.getElem?_eq_none (by omega)]
          rw [hread]
          exact Or.inr ⟨rfl, trivial, trivial, trivial, by omega⟩

theorem takionAVPacketParse_rejected (keyState : KeyState)
    (h : ∀ isVideo, takionPacketBaseType (u8At buf 0) = some (takionAVType isVideo) →
      buf.length < takionAVHeaderSize v12 isVideo + 2) :
    ∃ err, takionAVPacketParse v12 keyState buf = .ok (keyState, .error err) := by
  unfold takionAVPacketParse
  split
  · exact ⟨_, rfl⟩
  · next hne =>
    dsimp only
    by_cases hvideo : takionPacketBaseType (u8At buf 0) = some .video
    · have hlen := h true hvideo
      rw [if_neg fun hno => hno.1 hvideo, hvideo]
      rw [if_pos (show buf.length - 1 < takionAVHeaderSize v12 (some TakionPacketType.video == some .video) + 1
        by rw [beq_self_eq_true]; omega)]
      exact ⟨_, rfl⟩
    · by_cases haudio : takionPacketBaseType (u8At buf 0) = some .audio
      · have hlen := h false haudio
        rw [if_neg fun hno => hno.2 haudio, haudio]
        rw [if_pos (show buf.length - 1 < takionAVHeaderSize v12 (some TakionPacketType.audio == some .video) + 1
          by rw [show (some TakionPacketType.audio == some .video) = false from rfl]; omega)]
        exact ⟨_, rfl⟩
      · rw [if_pos ⟨hvideo, haudio⟩]
        exact ⟨_, rfl⟩

/-- The data begin behind the end of these packets only. -/
theorem takionAVDataOffset_le_iff
    (htype : takionPacketBaseType (u8At buf 0) = some (takionAVType isVideo))
    (hlen : takionAVHeaderSize v12 isVideo + 2 ≤ buf.length) :
    takionAVDataOffset v12 isVideo (takionUsesNaluInfoStructs buf) ≤ buf.length ↔
      ¬ NaluTooShort v12 buf := by
  unfold NaluTooShort takionAVDataOffset
  rw [htype]
  generalize takionUsesNaluInfoStructs buf = nalu
  unfold takionAVHeaderSize at hlen
  cases isVideo <;> cases v12 <;> cases nalu <;> simp [takionAVType] at hlen ⊢ <;> omega

/-- **The parser stays inside of every packet but these.** -/
theorem takionAVPacketParse_inside_iff (hsize : buf.length < 2 ^ 64) :
    AvParseInside v12 keyState buf ↔ ¬ NaluTooShort v12 buf := by
  by_cases haccepted : ∃ isVideo, takionPacketBaseType (u8At buf 0) = some (takionAVType isVideo) ∧
      takionAVHeaderSize v12 isVideo + 2 ≤ buf.length
  · obtain ⟨isVideo, htype, hlen⟩ := haccepted
    rw [← takionAVDataOffset_le_iff htype hlen]
    rcases takionAVPacketParse_accepted keyState htype hlen with
      ⟨keyState', packet, hparse, hdata, hdataSize⟩ | ⟨hparse, rfl, rfl, hnalu, hshort⟩
    · rw [← hdata]
      constructor
      · intro h
        have hsum := h.data keyState' packet hparse
        omega
      · intro hle
        refine ⟨⟨_, hparse⟩, ?_⟩
        intro keyState'' packet' hparse'
        rw [hparse] at hparse'
        cases hparse'
        rw [hdataSize, show buf.length + 2 ^ 64 - packet.data = buf.length - packet.data + 2 ^ 64 by
          omega, Nat.add_mod_right, Nat.mod_eq_of_lt (by omega), Nat.add_sub_of_le hle]
    · rw [hnalu]
      constructor
      · intro h
        obtain ⟨r, hr⟩ := h.reads
        rw [hparse] at hr
        cases hr
      · intro hle
        have hoff : takionAVDataOffset true false true = 23 := rfl
        omega
  · -- what is not accepted is not looked at
    have hrejected : ∀ isVideo, takionPacketBaseType (u8At buf 0) = some (takionAVType isVideo) →
        buf.length < takionAVHeaderSize v12 isVideo + 2 :=
      fun isVideo htype => Nat.lt_of_not_le fun hlen => haccepted ⟨isVideo, htype, hlen⟩
    obtain ⟨err, hparse⟩ := takionAVPacketParse_rejected keyState hrejected
    constructor
    · rintro - ⟨haudio, -, hlen⟩
      have hshort := hrejected false haudio
      unfold takionAVHeaderSize at hshort
      cases v12 <;> simp at hshort hlen <;> omega
    · intro _
      refine ⟨⟨_, hparse⟩, ?_⟩
      intro keyState' packet hparse'
      rw [hparse] at hparse'
      cases hparse'

/-- A video packet of version 9 with the NALU info flag and one byte of data. -/
def exampleNaluVideo : Bytes := 0x12 :: List.replicate 24 7

theorem takionAVPacketParse_inside_iff_exampleNaluVideo :
    AvParseInside false keyStateInit exampleNaluVideo :=
  (takionAVPacketParse_inside_iff (by decide)).mpr (by decide)

/-- **Two short audio packets**: for version 12 a byte behind the packet is read, for version 9 the size
of the data is negative. -/
theorem not_takionAVPacketParse_inside :
    (takionV12AVPacketParse keyStateInit (0x13 :: List.replicate 20 0) = .error .outOfBounds ∧
      ¬ AvParseInside true keyStateInit (0x13 :: List.replicate 20 0)) ∧
    (∃ keyState packet,
      takionV9AVPacketParse keyStateInit (0x13 :: List.replicate 19 0) = .ok (keyState, .ok packet) ∧
        packet.data = 22 ∧ packet.dataSize = 2 ^ 64 - 2) ∧
      ¬ AvParseInside false keyStateInit (0x13 :: List.replicate 19 0) := by
  have h12 : takionAVPacketParse true keyStateInit (0x13 :: List.replicate 20 0)
      = .error .outOfBounds := rfl
  refine ⟨⟨h12, ?_⟩, ⟨_, _, rfl, rfl, rfl⟩, ?_⟩
  · intro h
    obtain ⟨r, hr⟩ := h.reads
    rw [h12] at hr
    cases hr
  · intro h
    exact absurd (h.data _ _ rfl) (by decide)

/-! ## Faults -/

/-- The parser of versions 9 and 12 reads behind its packet in one case only. -/
theorem takionAVPacketParse_error {f : Fault} (h : takionAVPacketParse v12 keyState buf = .error f) :
    v12 = true ∧ takionPacketBaseType (u8At buf 0) = some .audio ∧ u8At buf 0 / 2 ^ 4 % 2 ≠ 0 ∧
      (buf.length = 21 ∨ buf.length = 22) := by
  by_cases haccepted : ∃ isVideo, takionPacketBaseType (u8At buf 0) = some (takionAVType isVideo) ∧
      takionAVHeaderSize v12 isVideo + 2 ≤ buf.length
  · obtain ⟨isVideo, htype, hlen⟩ := haccepted
    rcases takionAVPacketParse_accepted keyState htype hlen with
      ⟨_, _, hparse, -⟩ | ⟨-, rfl, rfl, hnalu, hshort⟩
    · rw [hparse] at h
      cases h
    · have hlong : 21 ≤ buf.length := hlen
      exact ⟨rfl, htype, bne_iff_ne.mp hnalu, by omega⟩
  · obtain ⟨err, hparse⟩ := takionAVPacketParse_rejected keyState fun isVideo htype =>
      Nat.lt_of_not_le fun hlen => haccepted ⟨isVideo, htype, hlen⟩
    rw [hparse] at h
    cases h

theorem takionV7AVPacketParse_ne_error {keyState : KeyState} {buf : Bytes} (f : Fault) :
    takionV7AVPacketParse keyState buf ≠ .error f := by
  intro h
  unfold takionV7AVPacketParse at h
  split at h
  · cases h
  · simp only at h
    split at h
    · cases h
    · split at h
      · cases h
      · next hlen =>
        unfold takionV7AVHeaderSize at hlen
        rw [readU16_eq (by omega), readU16_eq (by omega), readU32_eq (by omega),
          readU8_eq (by omega), readU32_eq (by omega)] at h
        by_cases hvideo : (takionPacketBaseType (u8At buf 0) == some .video) = true
        · simp only [hvideo, if_true] at h hlen
          simp only [readIf, if_true, readU16_eq (show 0x12 + 2 ≤ buf.length by omega),
            readU8_eq (show 0x12 + 2 < buf.length by omega)] at h
          cases h
        · rw [Bool.not_eq_true] at hvideo
          simp only [hvideo, readIf, Bool.false_eq_true, if_false] at h
          cases h

end Chiaki
