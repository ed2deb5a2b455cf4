import Chiaki.Properties.Ctrl.Channel
import Chiaki.Regist.Request

/-!
# The keys of a registration and of a session

* `unhide_aeropause` — what is hidden in the payload is found again
* `pinXor_inj` — different pins give different keys
* `rpcryptKeys_undoes` — the cipher is what the ctrl connection needs
* `rpcryptInitAuth_right` — the keys of a session
-/

namespace Chiaki

open Infra

variable {lib : CryptoLib} {keys keys' : RPCryptKeys} {target : Target} {rows : List Nat} {off pin pin' : Nat}

/-! ## Bytes -/

theorem get_ofFn {n : Nat} (f : Fin n → UInt8) (i : Fin n) : (Vector.ofFn f).get i = f i := by
  show (Vector.ofFn f)[i.val] = f i
  rw [Vector.getElem_ofFn]

/-- Two keys are equal if their bytes are. -/
theorem RPKey.ext {a b : RPKey} (h : ∀ i, a.get i = b.get i) : a = b := by
  apply Vector.ext
  intro i hi
  exact h ⟨i, hi⟩

theorem sub_sub_add_add (a b c : UInt8) : a - b - c + c + b = a := by
  rw [UInt8.sub_add_cancel, UInt8.sub_add_cancel]

theorem add_add_sub_sub (a b c : UInt8) : a + b + c - c - b = a := by
  rw [UInt8.add_sub_cancel, UInt8.add_sub_cancel]

/-! ## Tables -/

theorem tableByte_of_lt {index : Nat} (h : index < rows.length * 0x20) : ∃ b, tableByte rows index = some b := by
  have hrow : index / 0x20 < rows.length := Nat.div_lt_of_lt_mul (by omega)
  rw [tableByte, List.getElem?_eq_getElem hrow]
  exact ⟨_, rfl⟩

/-- All the bytes at one offset are inside the table. -/
theorem tableKey_ok (hrows : rows.length = 0x10) (hoff : off < 0x20) : ∃ k, tableKey rows off = .ok k := by
  have hlast : 0xf * 0x20 + off < rows.length * 0x20 := by omega
  obtain ⟨b, hb⟩ := tableByte_of_lt hlast
  rw [tableKey, hb]
  exact ⟨_, rfl⟩

/-- The tables that are used for a registration. -/
theorem length_registKeys (ps5 : Bool) :
    (if ps5 then ps5Keys0 else ps4Keys0).length = 0x10 ∧ (if ps5 then ps5Keys1 else ps4Keys1).length = 0x10 := by
  cases ps5
  · exact ⟨rfl, rfl⟩
  · exact ⟨rfl, rfl⟩

/-! ## The ambassador -/

theorem unhide_aeropausePs4Pre10 (ambassador : RPKey) :
    unhidePs4Pre10 (rpcryptAeropausePs4Pre10 ambassador) = ambassador := by
  apply RPKey.ext
  intro i
  simp only [unhidePs4Pre10, rpcryptAeropausePs4Pre10, get_ofFn]
  rw [Cfb.xor_cancel, sub_sub_add_add]

/-- What is hidden in the payload is found again. -/
theorem unhide_aeropause (ambassador : RPKey) (htarget : ¬ target.value < Target.ps410.value) (hoff : off < 0x20) :
    ∃ k aeropause, tableKey (if target.isPs5 then ps5Keys1 else ps4Keys1) off = .ok k ∧
      rpcryptAeropause target off ambassador = .ok (.ok aeropause) ∧
      unhide target.isPs5 k aeropause = ambassador := by
  obtain ⟨k, hk⟩ := tableKey_ok (length_registKeys target.isPs5).2 hoff
  refine ⟨k, Vector.ofFn fun i : Fin 0x10 => (ambassador.get i ^^^ k.get i) + wurzelbert target.isPs5 + UInt8.ofNat i,
    hk, ?_, ?_⟩
  · rw [rpcryptAeropause, if_neg htarget, hk]
    rfl
  · apply RPKey.ext
    intro i
    simp only [unhide, get_ofFn]
    rw [add_add_sub_sub, Cfb.xor_cancel]

/-! ## The pin -/

theorem be32_inj (hpin : pin < 2 ^ 32) (hpin' : pin' < 2 ^ 32) (h : be32 pin = be32 pin') : pin = pin' := by
  have hread := u32At_be32 pin []
  rw [h, u32At_be32, Nat.mod_eq_of_lt hpin, Nat.mod_eq_of_lt hpin'] at hread
  exact hread.symm

/-- Different pins give different keys. -/
theorem pinXor_inj {key : RPKey} (hoff : off + 4 ≤ 0x10) (hpin : pin < 2 ^ 32) (hpin' : pin' < 2 ^ 32)
    (h : pinXor key off pin = pinXor key off pin') : pin = pin' := by
  have hbyte (j : Nat) (hj : j < 4) : (be32 pin).getD j 0 = (be32 pin').getD j 0 := by
    have hget := congrArg (fun k : RPKey => k.get ⟨off + j, by omega⟩) h
    simp only [pinXor, get_ofFn] at hget
    rw [if_pos ⟨Nat.le_add_right _ _, Nat.add_lt_add_left hj off⟩,
      if_pos ⟨Nat.le_add_right _ _, Nat.add_lt_add_left hj off⟩, Nat.add_sub_cancel_left] at hget
    exact (UInt8.xor_right_inj _).mp hget
  refine be32_inj hpin hpin' ?_
  have h0 := hbyte 0 (by omega)
  have h1 := hbyte 1 (by omega)
  have h2 := hbyte 2 (by omega)
  have h3 := hbyte 3 (by omega)
  simp only [be32, List.getD_cons_zero, List.getD_cons_succ] at h0 h1 h2 h3 ⊢
  rw [h0, h1, h2, h3]

/-! ## The cipher -/

/-- The ctrl connection may use it. -/
theorem rpcryptKeys_undoes (lib : CryptoLib) (keys : RPCryptKeys) : (keys.cipher lib).Undoes :=
  fun _ _ _ h => (rpcryptEncrypt_ok h).2

/-! ## Sessions -/

theorem brightPs4Pre10_inj {nonce morning morning' : RPKey}
    (h : brightPs4Pre10 nonce morning = brightPs4Pre10 nonce morning') : morning = morning' := by
  apply RPKey.ext
  intro i
  have hbyte := congrArg (fun key : RPKey => key.get i) h
  simp only [brightPs4Pre10, get_ofFn] at hbyte
  rwa [UInt8.xor_left_inj, UInt8.xor_left_inj, UInt8.add_left_inj, UInt8.sub_left_inj] at hbyte

theorem brightOfMorning_inj {ps5 : Bool} {nonce morning morning' : RPKey}
    (h : brightOfMorning ps5 nonce morning = brightOfMorning ps5 nonce morning') : morning = morning' := by
  apply RPKey.ext
  intro i
  have hbyte := congrArg (fun key : RPKey => key.get i) h
  simp only [brightOfMorning, get_ofFn] at hbyte
  cases ps5 with
  | true =>
    simp only [if_true] at hbyte
    rwa [UInt8.xor_left_inj, UInt8.xor_left_inj, UInt8.add_left_inj, UInt8.add_left_inj] at hbyte
  | false =>
    simp only [Bool.false_eq_true, if_false] at hbyte
    rwa [UInt8.xor_left_inj, UInt8.add_left_inj, UInt8.add_left_inj, UInt8.xor_right_inj] at hbyte

/-- The keys of a session exist, unless nothing is known of the console. -/
theorem rpcryptInitAuth_error_iff {nonce morning : RPKey} :
    rpcryptInitAuth target nonce morning = .error .assertion ↔ target = .ps4Unknown := by
  cases target <;> simp [rpcryptInitAuth, rpcryptBrightAmbassador, brightAmbassador, Target.value, bind, Except.bind,
    pure, Except.pure]

/-- The hash is the data, cut or filled up, and a block is encrypted by adding the key to it. -/
def exampleLib : CryptoLib where
  hmac key data := some ((key ++ data ++ List.replicate 0x20 0).take 0x20)
  aes key block := List.zipWith (· + ·) key block
  evpFails := false

end Chiaki
