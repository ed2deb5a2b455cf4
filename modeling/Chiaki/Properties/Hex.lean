import Chiaki.Hex
import Chiaki.Properties.Common

/-!
# Which digits are read and written

* `hexRoundTrip_iff` — bytes are read again from the digits that were written for them if no half of
  a byte needs a letter
-/

namespace Chiaki

variable {buf hex data : Bytes}

/-! ## Reading -/

/-- The byte of two digits. -/
def hexByte (h l : UInt8) : Option UInt8 := do
  let h ← nibbleValue h
  let l ← nibbleValue l
  return h <<< 4 ||| l

/-- The bytes that pairs of digits stand for. -/
def hexBytes : Bytes → Option Bytes
  | [] => some []
  | [_] => none
  | h :: l :: hex => do
    let byte ← hexByte h l
    let data ← hexBytes hex
    return byte :: data

theorem hexBytes_cons {h l : UInt8} (hs : hexBytes (h :: l :: hex) = some data) :
    ∃ byte rest, hexByte h l = some byte ∧ hexBytes hex = some rest ∧ data = byte :: rest := by
  rw [hexBytes] at hs
  obtain ⟨byte, hbyte, hs⟩ := Option.bind_eq_some_iff.mp hs
  obtain ⟨rest, hrest, hs⟩ := Option.bind_eq_some_iff.mp hs
  exact ⟨byte, rest, hbyte, hrest, (Option.some.inj hs).symm⟩

theorem length_of_hexBytes : ∀ {hex data : Bytes}, hexBytes hex = some data → hex.length = 2 * data.length
  | [], _, h => by
    cases h
    rfl
  | [_], _, h => by cases h
  | h :: l :: hex, _, hs => by
    obtain ⟨byte, rest, -, hrest, rfl⟩ := hexBytes_cons hs
    have ih := length_of_hexBytes hrest
    simp only [List.length_cons]
    omega

theorem parseHexLoop_cons (buf : Bytes) (i : Nat) (h l : UInt8) (hex : Bytes) :
    parseHexLoop buf i (h :: l :: hex) = match hexByte h l with
      | some byte => parseHexLoop (buf.set i byte) (i + 1) hex
      | none => (buf, false) := by
  rw [parseHexLoop, hexByte]
  cases nibbleValue h with
  | none => rfl
  | some hi =>
    cases nibbleValue l with
    | none => rfl
    | some lo => rfl

/-- All digits are valid: the bytes are written. -/
theorem parseHexLoop_some : ∀ {hex data buf : Bytes} {i : Nat}, hexBytes hex = some data →
    i + data.length ≤ buf.length → parseHexLoop buf i hex = (splice buf i data, true)
  | [], _, buf, i, h, hle => by
    cases h
    simp [parseHexLoop, splice]
  | [_], _, _, _, h, _ => by cases h
  | h :: l :: hex, _, buf, i, hs, hle => by
    obtain ⟨byte, rest, hbyte, hrest, rfl⟩ := hexBytes_cons hs
    rw [List.length_cons] at hle
    have hin : i < buf.length := by omega
    have ih := @parseHexLoop_some hex rest (buf.set i byte) (i + 1) hrest (by rw [List.length_set]; omega)
    have happend := @splice_append_data buf [byte] i rest (by rw [List.length_singleton]; omega)
    rw [parseHexLoop_cons, hbyte]
    simp only [ih]
    rw [set_eq_splice hin, show i + 1 = i + [byte].length from rfl, happend]
    rfl

/-- A digit is not valid. -/
theorem parseHexLoop_none : ∀ {hex buf : Bytes} {i : Nat}, hexBytes hex = none → hex.length % 2 = 0 →
    (parseHexLoop buf i hex).2 = false
  | [], _, _, h, _ => by cases h
  | [_], _, _, _, heven => by cases heven
  | h :: l :: hex, buf, i, hs, heven => by
    rw [parseHexLoop_cons]
    cases hbyte : hexByte h l with
    | none => rfl
    | some byte =>
      refine parseHexLoop_none ?_ ?_
      · cases hrest : hexBytes hex with
        | none => rfl
        | some rest =>
          rw [hexBytes, hbyte, hrest] at hs
          cases hs
      · simp only [List.length_cons] at heven
        omega

theorem parseHex_some (h : hexBytes hex = some data) (hle : data.length ≤ buf.length) :
    parseHex buf hex = (splice buf 0 data, data.length, .success) := by
  have hlen := length_of_hexBytes h
  rw [parseHex, if_neg (by omega), if_neg (by omega), parseHexLoop_some h (by omega)]
  simp only [Prod.mk.injEq, and_true, true_and]
  omega

theorem parseHex_error (h : ∀ data, hexBytes hex = some data → buf.length < data.length) :
    (parseHex buf hex).2.2 ≠ .success := by
  rw [parseHex]
  by_cases hodd : hex.length % 2 ≠ 0
  · rw [if_pos hodd]
    simp
  · rw [if_neg hodd]
    by_cases hlarge : hex.length / 2 > buf.length
    · rw [if_pos hlarge]
      simp
    · rw [if_neg hlarge]
      have hnone : hexBytes hex = none := by
        by_contra hsome
        obtain ⟨data, hdata⟩ := Option.ne_none_iff_exists'.mp hsome
        have hlt := h data hdata
        have hlen := length_of_hexBytes hdata
        omega
      have hfalse := @parseHexLoop_none hex buf 0 hnone (by omega)
      generalize parseHexLoop buf 0 hex = result at hfalse ⊢
      obtain ⟨buf', ok⟩ := result
      cases hfalse
      simp

/-! ## What can be read -/

/-- The characters of `nibble_value`. -/
def IsHexDigit (c : UInt8) : Prop := c ∈ ascii "0123456789abcdefABCDEF"

instance (c : UInt8) : Decidable (IsHexDigit c) := inferInstanceAs (Decidable (_ ∈ _))

theorem nibbleValue_cases : ∀ n < 2 ^ 8,
    (nibbleValue (UInt8.ofNat n)).isSome ↔ UInt8.ofNat n ∈ ascii "0123456789abcdefABCDEF" := by
  decide +kernel

theorem nibbleValue_isSome (c : UInt8) : (nibbleValue c).isSome ↔ IsHexDigit c := by
  have h := nibbleValue_cases c.toNat c.toNat_lt
  rwa [UInt8.ofNat_toNat] at h

theorem hexByte_isSome (h l : UInt8) : (hexByte h l).isSome ↔ IsHexDigit h ∧ IsHexDigit l := by
  rw [← nibbleValue_isSome, ← nibbleValue_isSome, hexByte]
  cases nibbleValue h <;> cases nibbleValue l <;> simp

theorem hexBytes_isSome : ∀ hex : Bytes,
    (hexBytes hex).isSome ↔ hex.length % 2 = 0 ∧ ∀ c ∈ hex, IsHexDigit c
  | [] => by simp [hexBytes]
  | [_] => by simp [hexBytes]
  | h :: l :: hex => by
    have ih := hexBytes_isSome hex
    have hbyte := hexByte_isSome h l
    have hlen : (h :: l :: hex).length % 2 = hex.length % 2 := by
      simp only [List.length_cons]
      omega
    have hsome : (hexBytes (h :: l :: hex)).isSome ↔ (hexByte h l).isSome ∧ (hexBytes hex).isSome := by
      rw [hexBytes]
      cases hexByte h l <;> cases hexBytes hex <;> simp
    rw [hsome, hbyte, ih, hlen, List.forall_mem_cons, List.forall_mem_cons]
    constructor
    · rintro ⟨⟨hh, hl⟩, heven, hrest⟩
      exact ⟨heven, hh, hl, hrest⟩
    · rintro ⟨heven, hh, hl, hrest⟩
      exact ⟨⟨hh, hl⟩, heven, hrest⟩

/-- **`parse_hex` reads the texts of hexadecimal digits that have an even length and fit.** -/
theorem parseHex_success_iff (buf hex : Bytes) : (parseHex buf hex).2.2 = .success ↔
    (hex.length % 2 = 0 ∧ ∀ c ∈ hex, IsHexDigit c) ∧ hex.length / 2 ≤ buf.length := by
  rw [← hexBytes_isSome]
  constructor
  · intro hsuccess
    by_contra hnot
    refine parseHex_error (fun data hdata => ?_) hsuccess
    have hlen := length_of_hexBytes hdata
    have hlarge : ¬ hex.length / 2 ≤ buf.length := fun hle => hnot ⟨by rw [hdata]; rfl, hle⟩
    omega
  · rintro ⟨hsome, hle⟩
    obtain ⟨data, hdata⟩ := Option.isSome_iff_exists.mp hsome
    have hlen := length_of_hexBytes hdata
    rw [parseHex_some hdata (by omega)]

/-! ## Writing -/

/-- The characters that are written for some bytes. -/
def hexText (data : Bytes) : Bytes := data.flatMap fun v : UInt8 => [nibbleChar (v >>> 4), nibbleChar (v &&& 0xf)]

theorem length_hexText (data : Bytes) : (hexText data).length = 2 * data.length := by
  induction data with
  | nil => rfl
  | cons v data ih =>
    rw [hexText, List.flatMap_cons, List.length_append, ← hexText, ih, List.length_cons]
    simp only [List.length_cons, List.length_nil]
    omega

theorem formatHexLoop_eq {i : Nat} (h : i * 2 + 2 * data.length ≤ hex.length) :
    formatHexLoop hex i data = splice hex (i * 2) (hexText data) := by
  induction data generalizing i hex with
  | nil => simp [formatHexLoop, hexText, splice]
  | cons v data ih =>
    rw [List.length_cons] at h
    have htext := length_hexText data
    have hset : (hex.set (i * 2) (nibbleChar (v >>> 4))).set (i * 2 + 1) (nibbleChar (v &&& 0xf))
        = splice hex (i * 2) [nibbleChar (v >>> 4), nibbleChar (v &&& 0xf)] := by
      rw [set_eq_splice (by rw [List.length_set]; omega), set_eq_splice (by omega)]
      exact @splice_append_data hex [nibbleChar (v >>> 4)] (i * 2) [nibbleChar (v &&& 0xf)]
        (by simp only [List.length_singleton]; omega)
    have hlen := @length_splice hex [nibbleChar (v >>> 4), nibbleChar (v &&& 0xf)] (i * 2)
      (by simp only [List.length_cons, List.length_nil]; omega)
    rw [formatHexLoop, hset, ih (by omega), Nat.add_mul, Nat.one_mul]
    exact @splice_append_data hex [nibbleChar (v >>> 4), nibbleChar (v &&& 0xf)] (i * 2) (hexText data)
      (by simp only [List.length_cons, List.length_nil]; omega)

theorem formatHex_eq (h : 2 * data.length + 1 ≤ hex.length) :
    formatHex hex data = (splice hex 0 (hexText data ++ [0]), .success) := by
  have htext := length_hexText data
  have hlen := @length_splice hex (hexText data) 0 (by omega)
  rw [formatHex, if_neg (by omega), formatHexLoop_eq (by omega), Nat.zero_mul, set_eq_splice (by omega),
    ← splice_append_data (by simp only [List.length_singleton]; omega), htext, Nat.zero_add, Nat.mul_comm]

/-- No half of the byte needs a letter. -/
def DecimalHalves (v : UInt8) : Prop := v >>> 4 < 0xa ∧ v &&& 0xf < 0xa

instance (v : UInt8) : Decidable (DecimalHalves v) := inferInstanceAs (Decidable (_ ∧ _))

theorem nibbleChar_cases : ∀ n < 2 ^ 8, if DecimalHalves (UInt8.ofNat n) then
      hexByte (nibbleChar (UInt8.ofNat n >>> 4)) (nibbleChar (UInt8.ofNat n &&& 0xf)) = some (UInt8.ofNat n)
    else hexByte (nibbleChar (UInt8.ofNat n >>> 4)) (nibbleChar (UInt8.ofNat n &&& 0xf)) = none := by
  decide +kernel

theorem hexByte_nibbleChar (v : UInt8) : hexByte (nibbleChar (v >>> 4)) (nibbleChar (v &&& 0xf))
    = if DecimalHalves v then some v else none := by
  have h := nibbleChar_cases v.toNat v.toNat_lt
  rw [UInt8.ofNat_toNat] at h
  by_cases hv : DecimalHalves v
  · rw [if_pos hv] at h ⊢
    exact h
  · rw [if_neg hv] at h ⊢
    exact h

theorem hexBytes_hexText (h : ∀ v ∈ data, DecimalHalves v) : hexBytes (hexText data) = some data := by
  induction data with
  | nil => rfl
  | cons v data ih =>
    obtain ⟨hv, hdata⟩ := List.forall_mem_cons.mp h
    have hcons : hexText (v :: data) = nibbleChar (v >>> 4) :: nibbleChar (v &&& 0xf) :: hexText data := rfl
    rw [hcons, hexBytes, hexByte_nibbleChar, if_pos hv, ih hdata]
    rfl

/-- What was written for a letter is not read. -/
theorem decimalHalves_of_hexBytes {data' : Bytes} (h : hexBytes (hexText data) = some data') :
    ∀ v ∈ data, DecimalHalves v := by
  induction data generalizing data' with
  | nil => nofun
  | cons v data ih =>
    obtain ⟨byte, rest, hbyte, hrest, -⟩ := hexBytes_cons h
    refine List.forall_mem_cons.mpr ⟨?_, ih hrest⟩
    by_contra hv
    rw [hexByte_nibbleChar, if_neg hv] at hbyte
    cases hbyte

/-! ## Both -/

/-- The digits of some bytes are written and read again, and nothing but digits is read. -/
structure HexRoundTrip (data : Bytes) : Prop where
  format : ∀ hexBuf : Bytes, 2 * data.length + 1 ≤ hexBuf.length → ∃ text : Bytes,
    formatHex hexBuf data = (splice hexBuf 0 (text ++ [0]), .success) ∧ text.length = 2 * data.length ∧
    (∀ c ∈ text, IsHexDigit c) ∧ ∀ buf : Bytes, data.length ≤ buf.length →
      parseHex buf text = (splice buf 0 data, data.length, .success)
  parse : ∀ buf hex : Bytes, (parseHex buf hex).2.2 = .success ↔
    (hex.length % 2 = 0 ∧ ∀ c ∈ hex, IsHexDigit c) ∧ hex.length / 2 ≤ buf.length

/-- **Bytes are read again if and only if no half of one of them needs a letter.** -/
theorem hexRoundTrip_iff (data : Bytes) : HexRoundTrip data ↔ ∀ v ∈ data, DecimalHalves v := by
  constructor
  · intro h
    have hspace : 2 * data.length + 1 ≤ (List.replicate (2 * data.length + 1) (0 : UInt8)).length :=
      Nat.le_of_eq List.length_replicate.symm
    obtain ⟨text, hformat, hlen, hdigits, -⟩ := h.format _ hspace
    rw [formatHex_eq hspace, splice_all, splice_all] at hformat
    · have htext : hexText data = text := List.append_cancel_right (Prod.mk.inj hformat).1
      obtain ⟨data', hdata'⟩ := Option.isSome_iff_exists.mp ((hexBytes_isSome text).mpr ⟨by omega, hdigits⟩)
      rw [← htext] at hdata'
      exact decimalHalves_of_hexBytes hdata'
    · rw [List.length_append, List.length_replicate, hlen]
      rfl
    · rw [List.length_append, List.length_replicate, length_hexText]
      rfl
  · intro hdecimal
    have hbytes := hexBytes_hexText hdecimal
    have hdigits := ((hexBytes_isSome (hexText data)).mp (by rw [hbytes]; rfl)).2
    exact
      { format := fun hexBuf hspace => ⟨hexText data, formatHex_eq hspace, length_hexText data, hdigits,
          fun buf hle => parseHex_some hbytes hle⟩
        parse := parseHex_success_iff }

/-- The digit for ten is written as a `k`, which `parse_hex` rejects. -/
theorem not_hexRoundTrip :
    formatHex [0xff, 0xff, 0xff] [0x0a] = ([0x30, 0x6b, 0], .success) ∧
      (parseHex [0] [0x30, 0x6b]).2.2 = .invalidData ∧ ¬ HexRoundTrip [0x0a] := by
  refine ⟨by decide, by decide, fun h => ?_⟩
  obtain ⟨text, hformat, hlen, hdigits, -⟩ := h.format [0xff, 0xff, 0xff] (by decide)
  rw [splice_all (by rw [List.length_append, hlen]; rfl)] at hformat
  have htext : [0x30, 0x6b] ++ [0] = text ++ [0] := (Prod.mk.inj hformat).1
  have hk : (0x6b : UInt8) ∈ text := by
    rw [← List.append_cancel_right htext]
    decide
  exact absurd (hdigits 0x6b hk) (by decide)

end Chiaki
