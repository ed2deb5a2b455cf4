import Chiaki.Infra.Memo
import Chiaki.GMac

/-!
# Codes do not depend on the history

The key of a message authentication code is a function of the key position (`gmacKeyOf`), and the
one that a `ChiakiGKCrypt` keeps is a memo of it that moves forward only (`gmacSelectKey_eq`). So
every sequence of calls gets the codes that the calls would get one by one, in any order of the
positions, across every boundary of `CHIAKI_GKCRYPT_GMAC_KEY_REFRESH_KEY_POS`
(`gkcryptGmac_anyHistory`).
-/

namespace Chiaki

open Infra

variable {sha256 : Bytes → Vector UInt8 32} {gcm : Block → Block → Bytes → Int → Mac}
variable {keyBase iv keyGmacBase : Block} {s s' : GMacState} {call : GMacCall}

/-- The key for an index. -/
def gmacKeyOf (sha256 : Bytes → Vector UInt8 32) (keyGmacBase iv : Block) (index : Nat) : Block :=
  if index = 0 then keyGmacBase else gkcryptGenGmacKey sha256 index keyGmacBase iv

/-- What a call returns, given the key and the IV of the connection. -/
def gmacOf (sha256 : Bytes → Vector UInt8 32) (gcm : Block → Block → Bytes → Int → Mac)
    (keyGmacBase iv : Block) (call : GMacCall) : Except ErrorCode Mac :=
  match call.evp with
  | .success =>
    .ok (gcm (gmacKeyOf sha256 keyGmacBase iv
        ((max call.keyPos 1 - 1) / gkcryptGmacKeyRefreshKeyPos))
      (counterAdd iv (call.keyPos / 0x10)) call.buf (BitVec.ofNat 32 call.buf.length).toInt)
  | err => .error err

theorem gmacKeyIndex_eq (keyPos : Nat) :
    gmacKeyIndex keyPos = (max keyPos 1 - 1) / gkcryptGmacKeyRefreshKeyPos := by
  have h : (if keyPos > 0 then keyPos - 1 else 0) = max keyPos 1 - 1 := by
    split <;> omega
  rw [gmacKeyIndex, h]

/-! ## The key that is kept -/

/-- What the state of a connection keeps. -/
structure GMacRight (sha256 : Bytes → Vector UInt8 32) (keyGmacBase iv : Block)
    (s : GMacState) : Prop where
  iv_eq : s.iv = iv
  base_eq : s.keyGmacBase = keyGmacBase
  /-- The key that is kept is the one for its index. -/
  current_eq : s.keyGmacCurrent = gmacKeyOf sha256 keyGmacBase iv s.keyGmacIndexCurrent

/-- The key that is kept, as a memo. -/
def GMacRight.memo (h : GMacRight sha256 keyGmacBase iv s) :
    Memo (gmacKeyOf sha256 keyGmacBase iv) :=
  ⟨s.keyGmacIndexCurrent, s.keyGmacCurrent, h.current_eq⟩

theorem GMacRight.init :
    GMacRight sha256 (gkcryptGenGmacKey sha256 0 keyBase iv) iv (gmacInit sha256 keyBase iv) where
  iv_eq := rfl
  base_eq := rfl
  current_eq := rfl

/-- The state with the key for a larger index. -/
def GMacState.refresh (s : GMacState) (m : Memo (gmacKeyOf sha256 keyGmacBase iv)) : GMacState :=
  { s with keyGmacCurrent := m.value, keyGmacIndexCurrent := m.key }

theorem GMacRight.refresh (h : GMacRight sha256 keyGmacBase iv s)
    (m : Memo (gmacKeyOf sha256 keyGmacBase iv)) :
    GMacRight sha256 keyGmacBase iv (s.refresh m) where
  iv_eq := h.iv_eq
  base_eq := h.base_eq
  current_eq := m.right

theorem GMacRight.tmpKey_eq (h : GMacRight sha256 keyGmacBase iv s) (index : Nat) :
    gkcryptGenTmpGmacKey sha256 s index = gmacKeyOf sha256 keyGmacBase iv index := by
  unfold gkcryptGenTmpGmacKey gmacKeyOf
  rw [h.base_eq, h.iv_eq]
  by_cases hindex : index = 0 <;> simp [hindex]

theorem GMacRight.newKey_eq (h : GMacRight sha256 keyGmacBase iv s) {index : Nat}
    (hindex : index ≠ 0) :
    gkcryptGenNewGmacKey sha256 s index
      = .ok (s.refresh ⟨index, gmacKeyOf sha256 keyGmacBase iv index, rfl⟩) := by
  unfold gkcryptGenNewGmacKey GMacState.refresh gmacKeyOf
  rw [if_neg hindex, h.base_eq, h.iv_eq]
  simp [hindex]

/-- **The choice of the key is a lookup in the memo.** The assertion on the index cannot fail. -/
theorem gmacSelectKey_eq (h : GMacRight sha256 keyGmacBase iv s) (keyIndex : Nat) :
    gmacSelectKey sha256 s keyIndex
      = .ok ((h.memo.lookup keyIndex).1, s.refresh (h.memo.lookup keyIndex).2) := by
  unfold gmacSelectKey
  by_cases hgt : keyIndex > s.keyGmacIndexCurrent
  · rw [if_pos hgt, h.newKey_eq (Nat.ne_of_gt (Nat.zero_lt_of_lt hgt)), Memo.lookup_of_lt hgt]
    rfl
  · rw [if_neg hgt]
    by_cases hlt : keyIndex < s.keyGmacIndexCurrent
    · rw [if_pos hlt, h.tmpKey_eq, Memo.lookup_of_gt hlt]
      rfl
    · rw [if_neg hlt, Memo.lookup_of_not_lt hgt hlt]
      rfl

/-! ## Calls -/

variable (gcm)

theorem gkcryptGmac_eq (h : GMacRight sha256 keyGmacBase iv s) (call : GMacCall) :
    gkcryptGmac sha256 gcm s call = .ok (gmacOf sha256 gcm keyGmacBase iv call,
      s.refresh (h.memo.lookup (gmacKeyIndex call.keyPos)).2) := by
  unfold gkcryptGmac gmacOf
  rw [gmacSelectKey_eq h, Memo.lookup_fst, h.iv_eq, gmacKeyIndex_eq]
  cases call.evp <;> rfl

/-- A call keeps the state right, and its index does not decrease. -/
theorem gkcryptGmac_step (h : GMacRight sha256 keyGmacBase iv s) (call : GMacCall) :
    ∃ s', gkcryptGmac sha256 gcm s call = .ok (gmacOf sha256 gcm keyGmacBase iv call, s')
      ∧ GMacRight sha256 keyGmacBase iv s'
      ∧ s'.keyGmacIndexCurrent = max s.keyGmacIndexCurrent (gmacKeyIndex call.keyPos) :=
  ⟨_, gkcryptGmac_eq gcm h call, h.refresh _, Memo.lookup_snd_key _ _⟩

theorem gkcryptGmacs_right (h : GMacRight sha256 keyGmacBase iv s) (calls : List GMacCall) :
    ∃ s', gkcryptGmacs sha256 gcm s calls
        = .ok (calls.map (gmacOf sha256 gcm keyGmacBase iv), s')
      ∧ GMacRight sha256 keyGmacBase iv s'
      ∧ s.keyGmacIndexCurrent ≤ s'.keyGmacIndexCurrent := by
  induction calls generalizing s with
  | nil => exact ⟨s, rfl, h, le_refl _⟩
  | cons call calls ih =>
    obtain ⟨t, hcall, ht, hindex⟩ := gkcryptGmac_step gcm h call
    obtain ⟨s', hcalls, hs', hle⟩ := ih ht
    refine ⟨s', ?_, hs', ?_⟩
    · rw [gkcryptGmacs, hcall]
      show (gkcryptGmacs sha256 gcm t calls).bind _ = _
      rw [hcalls]
      rfl
    · exact le_trans (hindex ▸ le_max_left _ _) hle

/-- **Every sequence of calls gets the codes of the single calls.** The key that is kept is the one
for its index, and no further call makes the index smaller. -/
theorem gkcryptGmac_anyHistory (sha256 : Bytes → Vector UInt8 32)
    (gcm : Block → Block → Bytes → Int → Mac) (keyBase iv : Block) (calls : List GMacCall) :
    ∃ s, gkcryptGmacs sha256 gcm (gmacInit sha256 keyBase iv) calls
        = .ok (calls.map (gmacOf sha256 gcm (gkcryptGenGmacKey sha256 0 keyBase iv) iv), s)
      ∧ s.keyGmacBase = gkcryptGenGmacKey sha256 0 keyBase iv
      ∧ s.keyGmacCurrent = gmacKeyOf sha256 s.keyGmacBase iv s.keyGmacIndexCurrent
      ∧ ∀ call, ∃ s', gkcryptGmac sha256 gcm s call
            = .ok (gmacOf sha256 gcm s.keyGmacBase iv call, s')
          ∧ s'.keyGmacCurrent = gmacKeyOf sha256 s.keyGmacBase iv s'.keyGmacIndexCurrent
          ∧ s.keyGmacIndexCurrent ≤ s'.keyGmacIndexCurrent := by
  obtain ⟨s, hcalls, hs, _⟩ := gkcryptGmacs_right gcm GMacRight.init calls
  refine ⟨s, hcalls, hs.base_eq, ?_, ?_⟩
  · rw [hs.current_eq, hs.base_eq]
  · intro call
    obtain ⟨s', hcall, hs', hindex⟩ := gkcryptGmac_step gcm hs call
    rw [hs.base_eq]
    exact ⟨s', hcall, hs'.current_eq, hindex ▸ le_max_left _ _⟩

end Chiaki
