import Chiaki.Base64
import Chiaki.Infra.Sextet
import Chiaki.Properties.Common

/-!
# What the Base64 functions write and read

* `base64_roundtrip` — the decoder reads back what the encoder wrote, and neither of them writes behind
  the end of its output
* `base64Decode_safe_iff` — when the decoder stays inside of its table
-/

namespace Chiaki

open Infra

variable {data out : Bytes} {outSize : Nat}

/-! ## Encoding -/

/-- The text that stands for some bytes. -/
def base64Text (data : Bytes) : Bytes :=
  (Sextet.toSextets data).map base64Char
    ++ List.replicate (if data.length % 3 > 0 then 3 - data.length % 3 else 0) 0x3d

theorem length_base64Text (data : Bytes) : (base64Text data).length = 4 * ((data.length + 2) / 3) := by
  rw [base64Text, List.length_append, List.length_map, List.length_replicate, Sextet.length_toSextets]
  split <;> omega

/-- The encoder writes the characters, or stops in front of the end of the output. -/
inductive PutResult (s : Base64Encoder) (outSize : Nat) (chars : Bytes) :
    Except Base64EncoderStop Base64Encoder → Prop
  | fits (h : s.resultIndex + chars.length ≤ outSize) :
    PutResult s outSize chars (.ok ⟨splice s.out s.resultIndex chars, s.resultIndex + chars.length⟩)
  | tooSmall (out : Bytes) (h : outSize < s.resultIndex + chars.length)
      (hlen : out.length = s.out.length) (hbehind : out.drop outSize = s.out.drop outSize) :
    PutResult s outSize chars (.error (.bufTooSmall out))

theorem foldlM_put {s : Base64Encoder} {chars : Bytes} (hle : s.resultIndex ≤ outSize)
    (hout : outSize ≤ s.out.length) :
    PutResult s outSize chars (chars.foldlM (Base64Encoder.put outSize) s) := by
  induction chars generalizing s with
  | nil =>
    have hsame : splice s.out s.resultIndex [] = s.out := by simp [splice]
    have hfits := @PutResult.fits s outSize [] hle
    rw [hsame] at hfits
    exact hfits
  | cons c chars ih =>
    rw [List.foldlM_cons, Base64Encoder.put]
    by_cases hend : s.resultIndex ≥ outSize
    · rw [if_pos hend]
      exact .tooSmall s.out (by simp; omega) rfl rfl
    · rw [if_neg hend, if_neg (by omega)]
      have hin : s.resultIndex < s.out.length := by omega
      have hone : s.resultIndex + [c].length ≤ s.out.length := hin
      have hres := @ih ⟨s.out.set s.resultIndex c, s.resultIndex + 1⟩ (Nat.not_le.mp hend)
        (by rw [List.length_set]; exact hout)
      change PutResult s outSize (c :: chars)
        (chars.foldlM (Base64Encoder.put outSize) ⟨s.out.set s.resultIndex c, s.resultIndex + 1⟩)
      generalize chars.foldlM (Base64Encoder.put outSize) _ = result at hres ⊢
      rw [set_eq_splice hin] at hres
      cases hres with
      | fits h =>
        simp only at h ⊢
        have hdata := @splice_append_data s.out [c] s.resultIndex chars
          (by simp only [List.length_singleton]; omega)
        rw [List.length_singleton] at hdata
        rw [hdata, Nat.add_assoc, Nat.add_comm 1]
        exact .fits (by simp only [List.length_cons]; omega)
      | tooSmall out' h hlen hbehind =>
        refine .tooSmall out' ?_ (hlen.trans (length_splice hone)) (hbehind.trans (drop_splice ?_ hone))
        · rw [List.length_cons]
          simp only at h
          omega
        · rw [List.length_singleton]
          omega

/-- The loop writes the characters of the bytes that are left. -/
theorem base64EncodeLoop_eq {fuel x : Nat} (hfuel : data.length ≤ x + fuel) (s : Base64Encoder) :
    base64EncodeLoop data outSize fuel x s
      = ((Sextet.toSextets (data.drop x)).map base64Char).foldlM (Base64Encoder.put outSize) s := by
  induction fuel generalizing x s with
  | zero =>
    rw [List.drop_eq_nil_of_le (show data.length ≤ x from hfuel)]
    rfl
  | succ fuel ih =>
    have hlen := List.length_drop (i := x) (l := data)
    have hbyte : ∀ k, u8At data (x + k) = u8At (data.drop x) k := fun k => (u8At_drop data x k).symm
    have hnext := ih (x := x + 3) (by omega)
    rw [← List.drop_drop] at hnext
    rw [base64EncodeLoop]
    rcases hrest : data.drop x with _ | ⟨a, _ | ⟨b, _ | ⟨c, rest⟩⟩⟩
    · rw [hrest] at hlen
      rw [if_neg (by simp only [List.length_nil] at hlen; omega)]
      rfl
    all_goals
      rw [hrest] at hlen hbyte hnext
      simp only [List.length_cons, List.length_nil] at hlen
      have h0 := hbyte 0
      have h1 := hbyte 1
      have h2 := hbyte 2
      rw [Nat.add_zero] at h0
      rw [if_pos (by omega)]
    · have hn : ¬ x + 1 < data.length ∧ ¬ x + 2 < data.length := by omega
      simp only [if_neg hn.1, if_neg hn.2, h0, hnext, Sextet.toSextets, Sextet.group]
      simp [u8At, Sextet.toSextets]
    · have hn : x + 1 < data.length ∧ ¬ x + 2 < data.length := by omega
      simp only [if_pos hn.1, if_neg hn.2, h0, h1, hnext, Sextet.toSextets, Sextet.group]
      simp [u8At, Sextet.toSextets]
    · have hn : x + 1 < data.length ∧ x + 2 < data.length := by omega
      simp only [if_pos hn.1, if_pos hn.2, h0, h1, h2, hnext, Sextet.toSextets, Sextet.group]
      simp [u8At]

theorem base64EncodeAll_eq (data out : Bytes) (outSize : Nat) :
    base64EncodeAll data out outSize
      = (base64Text data ++ [0]).foldlM (Base64Encoder.put outSize) ⟨out, 0⟩ := by
  rw [base64EncodeAll, base64EncodeLoop_eq (Nat.le_of_eq (Nat.zero_add _).symm), List.drop_zero, base64Text,
    List.append_assoc, List.foldlM_append]
  simp [List.foldlM_append]

/-- What the encoder does: it writes the text and a NUL, or fails and writes nothing behind the end. -/
structure Encodes (data out : Bytes) (outSize : Nat) : Prop where
  fits : 4 * ((data.length + 2) / 3) + 1 ≤ outSize →
    base64Encode data out outSize = .ok (splice out 0 (base64Text data ++ [0]), .success)
  tooSmall : outSize < 4 * ((data.length + 2) / 3) + 1 →
    ∃ out', base64Encode data out outSize = .ok (out', .bufTooSmall) ∧ out'.length = out.length ∧
      out'.drop outSize = out.drop outSize

theorem base64Encode_spec (data : Bytes) (hout : outSize ≤ out.length) : Encodes data out outSize := by
  have hput := @foldlM_put outSize ⟨out, 0⟩ (base64Text data ++ [0]) (Nat.zero_le _) hout
  have hlen : (base64Text data ++ [0]).length = 4 * ((data.length + 2) / 3) + 1 := by
    rw [List.length_append, length_base64Text]
    rfl
  rw [← base64EncodeAll_eq] at hput
  generalize hresult : base64EncodeAll data out outSize = result at hput
  cases hput with
  | fits h =>
    rw [hlen, Nat.zero_add] at h
    refine ⟨fun _ => ?_, fun hsmall => absurd h (Nat.not_le.mpr hsmall)⟩
    rw [base64Encode, hresult]
  | tooSmall out' h hlen' hbehind =>
    rw [hlen, Nat.zero_add] at h
    refine ⟨fun hfits => absurd hfits (Nat.not_le.mpr h), fun _ => ⟨out', ?_, hlen', hbehind⟩⟩
    rw [base64Encode, hresult]

/-! ## The table -/

/-- What the table says of a character. -/
def base64Class (c : UInt8) : Nat := base64D.getD c.toNat base64Invalid

/-- The numbers of six bits in front of the first character that is neither one of the alphabet nor a
space. -/
def base64Sextets (text : Bytes) : List Nat :=
  ((text.takeWhile fun c => base64Class c ≤ base64Whitespace).map base64Class).filter
    fun n => n ≠ base64Whitespace

/-- The first character that is neither one of the alphabet nor a space. -/
def base64Stop (text : Bytes) : Option UInt8 := text.find? fun c => ¬ base64Class c ≤ base64Whitespace

theorem base64D_cases : ∀ n < 2 ^ 8, base64D[n]? = some (base64D.getD n base64Invalid) ∧
    base64D.getD n base64Invalid ≤ base64Invalid ∧
    (2 ^ 7 ≤ n → base64D.getD n base64Invalid = base64Invalid) ∧
    (base64D.getD n base64Invalid = base64Equals → n = 0x3d) := by
  decide +kernel

theorem base64Class_char : ∀ n < 2 ^ 6, base64Class (base64Char n) = n ∧ base64Char n ≠ 0 := by
  decide +kernel

theorem base64Class_le (c : UInt8) : base64Class c ≤ base64Invalid := (base64D_cases c.toNat c.toNat_lt).2.1

theorem base64Class_high {c : UInt8} (h : 2 ^ 7 ≤ c.toNat) : base64Class c = base64Invalid :=
  (base64D_cases c.toNat c.toNat_lt).2.2.1 h

theorem eq_of_base64Class {c : UInt8} (h : base64Class c = base64Equals) : c = 0x3d :=
  UInt8.toNat.inj ((base64D_cases c.toNat c.toNat_lt).2.2.2 h)

/-- What a character can be. -/
theorem base64Class_cases (c : UInt8) : base64Class c < 2 ^ 6 ∨ base64Class c = base64Whitespace ∨
    base64Class c = base64Equals ∨ base64Class c = base64Invalid := by
  have hle := base64Class_le c
  unfold base64Whitespace base64Equals base64Invalid at *
  omega

theorem ne_of_lt_base64Class {n : Nat} (h : n < 2 ^ 6) :
    n ≠ base64Whitespace ∧ n ≠ base64Invalid ∧ n ≠ base64Equals := by
  unfold base64Whitespace base64Invalid base64Equals
  omega

/-- A byte with its high bit set is behind the end of the table if a `char` is signed. -/
theorem base64Lookup_eq (charSigned : Bool) (c : UInt8) :
    base64Lookup charSigned c
      = if charSigned = true ∧ 2 ^ 7 ≤ c.toNat then .error .outOfBounds else .ok (base64Class c) := by
  rw [base64Lookup, charToSize]
  by_cases hhigh : charSigned = true ∧ 2 ^ 7 ≤ c.toNat
  · have hlen : base64D.length = 2 ^ 8 := by decide +kernel
    rw [if_pos hhigh, if_pos hhigh, List.getElem?_eq_none (by omega)]
  · rw [if_neg hhigh, if_neg hhigh, (base64D_cases c.toNat c.toNat_lt).1]
    rfl

theorem base64Sextets_cons (c : UInt8) (text : Bytes) :
    base64Sextets (c :: text)
      = if base64Class c < base64Whitespace then base64Class c :: base64Sextets text
        else if base64Class c = base64Whitespace then base64Sextets text else [] := by
  unfold base64Sextets
  rw [List.takeWhile_cons]
  split
  · next hle =>
    have hle' := of_decide_eq_true hle
    by_cases heq : base64Class c = base64Whitespace
    · simp [heq]
    · rw [if_pos (Nat.lt_of_le_of_ne hle' heq), List.map_cons, List.filter_cons_of_pos (by simpa using heq)]
  · next hgt =>
    have hgt' : ¬ base64Class c ≤ base64Whitespace := by simpa using hgt
    rw [if_neg (fun h => hgt' (Nat.le_of_lt h)), if_neg (fun h => hgt' (Nat.le_of_eq h))]
    rfl

theorem base64Stop_cons (c : UInt8) (text : Bytes) :
    base64Stop (c :: text) = if base64Class c ≤ base64Whitespace then base64Stop text else some c := by
  unfold base64Stop
  by_cases hle : base64Class c ≤ base64Whitespace
  · rw [if_pos hle, List.find?_cons_of_neg (by simpa using hle)]
  · rw [if_neg hle, List.find?_cons_of_pos (by simpa using hle)]

/-! ## Decoding -/

/-- The decoder after it has written `done` and read `pending` of the next group. -/
def decoderState (out : Bytes) (done : Bytes) (pending : List Nat) : Base64Decoder where
  out := splice out 0 done
  iter := pending.length
  buf := Sextet.value pending
  len := done.length

/-- How the loop ends, of which `all` numbers are pending or come before `stop`. -/
inductive LoopResult (charSigned : Bool) (out : Bytes) (outSize : Nat) (done : Bytes) (all : List Nat)
    (stop : Option UInt8) : Except Fault (Base64Decoder × Option ErrorCode) → Prop
  | tooSmall (s : Base64Decoder) (h : outSize < done.length + 3 * (all.length / 4))
      (hlen : s.out.length = out.length) (hbehind : s.out.drop outSize = out.drop outSize) :
    LoopResult charSigned out outSize done all stop (.ok (s, some .bufTooSmall))
  | fault (c : UInt8) (hfits : done.length + 3 * (all.length / 4) ≤ outSize) (hstop : stop = some c)
      (hhigh : charSigned = true ∧ 2 ^ 7 ≤ c.toNat) :
    LoopResult charSigned out outSize done all stop (.error .outOfBounds)
  | invalid (c : UInt8) (s : Base64Decoder) (hfits : done.length + 3 * (all.length / 4) ≤ outSize)
      (hstop : stop = some c) (hlow : ¬ (charSigned = true ∧ 2 ^ 7 ≤ c.toNat)) (hne : c ≠ 0x3d)
      (hlen : s.out.length = out.length) (hbehind : s.out.drop outSize = out.drop outSize) :
    LoopResult charSigned out outSize done all stop (.ok (s, some .invalidData))
  | ended (whole rest : List Nat) (hfits : done.length + 3 * (all.length / 4) ≤ outSize)
      (hstop : ∀ c, stop = some c → c = 0x3d) (hall : all = whole ++ rest)
      (hwhole : whole.length % 4 = 0) (hrest : rest.length < 4) :
    LoopResult charSigned out outSize done all stop
      (.ok (decoderState out (done ++ Sextet.ofSextets whole) rest, none))

variable {charSigned : Bool} {done : Bytes} {pending all : List Nat} {stop : Option UInt8}
  {result : Except Fault (Base64Decoder × Option ErrorCode)}

/-- A group that has been written is the first one. -/
theorem LoopResult.group {p q r s : Nat}
    (h : LoopResult charSigned out outSize (done ++ Sextet.ofSextets [p, q, r, s]) all stop result) :
    LoopResult charSigned out outSize done (p :: q :: r :: s :: all) stop result := by
  have hlen : (done ++ Sextet.ofSextets [p, q, r, s]).length = done.length + 3 := by
    simp [Sextet.length_ofSextets]
  have hcount : (p :: q :: r :: s :: all).length / 4 = all.length / 4 + 1 := by
    simp only [List.length_cons]
    omega
  cases h with
  | tooSmall s' hsmall hlen' hbehind => exact .tooSmall s' (by omega) hlen' hbehind
  | fault c hfits hstop hhigh => exact .fault c (by omega) hstop hhigh
  | invalid c s' hfits hstop hlow hne hlen' hbehind =>
    exact .invalid c s' (by omega) hstop hlow hne hlen' hbehind
  | ended whole rest hfits hstop hall hwhole hrest =>
    rw [List.append_assoc, ← Sextet.ofSextets_append _ _ (by simp)]
    exact .ended ([p, q, r, s] ++ whole) rest (by omega) hstop (by rw [hall]; rfl)
      (by simp only [List.length_append, List.length_cons, List.length_nil]; omega) hrest

theorem pending_buf {c : Nat} (hlt : pending.length < 4) (hpending : ∀ s ∈ pending, s < 2 ^ 6)
    (hc : c < 2 ^ 6) : Sextet.value pending * 2 ^ 6 % 2 ^ 32 ||| c = Sextet.value (pending ++ [c]) := by
  have hvalue := Sextet.value_lt hpending
  have hmax : 2 ^ (6 * pending.length) ≤ 2 ^ 18 := Nat.pow_le_pow_right (by decide) (by omega)
  rw [Nat.mod_eq_of_lt (by omega), Sextet.value_append_singleton, Nat.mul_comm, Nat.two_pow_add_eq_or_of_lt hc]

/-- The bytes that fit are written behind those that have been. -/
theorem write_of_fits {data : Bytes} (iter buf : Nat) (hout : outSize ≤ out.length)
    (h : done.length + data.length ≤ outSize) :
    (⟨splice out 0 done, iter, buf, done.length⟩ : Base64Decoder).write outSize data
      = .ok (some ⟨splice out 0 (done ++ data), iter, buf, (done ++ data).length⟩) := by
  have hsplice : (splice out 0 done).length = out.length := length_splice (by omega)
  have happend := @splice_append_data out done 0 data (by omega)
  rw [Nat.zero_add] at happend
  rw [Base64Decoder.write, if_neg (by simp only; omega), if_neg (by simp only; omega), List.length_append]
  simp only [happend]

theorem write_of_lt {data : Bytes} {s : Base64Decoder} (h : outSize < s.len + data.length) :
    s.write outSize data = .ok none := if_pos h

/-- The loop ends and leaves the numbers that are pending. -/
theorem loopResult_pending (hlt : pending.length < 4) (hdone : done.length ≤ outSize)
    (hstop : ∀ c, stop = some c → c = 0x3d) :
    LoopResult charSigned out outSize done pending stop (.ok (decoderState out done pending, none)) := by
  have hfits : done.length + 3 * (pending.length / 4) ≤ outSize := by omega
  have hend := @LoopResult.ended charSigned out outSize done pending stop [] pending hfits hstop rfl rfl hlt
  rwa [show Sextet.ofSextets [] = [] from rfl, List.append_nil] at hend

/-! What one character of the text does that is not behind the end of the table. -/

section Character

variable {mem : Bytes} {n i : Nat} {c : UInt8}

theorem base64DecodeLoop_whitespace (htext : mem[i]? = some c)
    (hlow : ¬ (charSigned = true ∧ 2 ^ 7 ≤ c.toNat)) (h : base64Class c = base64Whitespace) (s : Base64Decoder) :
    base64DecodeLoop charSigned mem outSize (n + 1) i s = base64DecodeLoop charSigned mem outSize n (i + 1) s := by
  rw [base64DecodeLoop, htext]
  simp only [base64Lookup_eq, if_neg hlow]
  exact if_pos h

theorem base64DecodeLoop_invalid (htext : mem[i]? = some c)
    (hlow : ¬ (charSigned = true ∧ 2 ^ 7 ≤ c.toNat)) (h : base64Class c = base64Invalid) (s : Base64Decoder) :
    base64DecodeLoop charSigned mem outSize (n + 1) i s = .ok (s, some .invalidData) := by
  rw [base64DecodeLoop, htext]
  simp only [base64Lookup_eq, if_neg hlow]
  rw [h]
  rfl

theorem base64DecodeLoop_equals (htext : mem[i]? = some c)
    (hlow : ¬ (charSigned = true ∧ 2 ^ 7 ≤ c.toNat)) (h : base64Class c = base64Equals) (s : Base64Decoder) :
    base64DecodeLoop charSigned mem outSize (n + 1) i s = .ok (s, none) := by
  rw [base64DecodeLoop, htext]
  simp only [base64Lookup_eq, if_neg hlow]
  rw [h]
  rfl

/-- A number that does not complete its group. -/
theorem base64DecodeLoop_sextet (htext : mem[i]? = some c)
    (hlow : ¬ (charSigned = true ∧ 2 ^ 7 ≤ c.toNat)) (hsextet : base64Class c < 2 ^ 6)
    (hmore : pending.length + 1 < 4) (hpending : ∀ s ∈ pending, s < 2 ^ 6) :
    base64DecodeLoop charSigned mem outSize (n + 1) i (decoderState out done pending)
      = base64DecodeLoop charSigned mem outSize n (i + 1)
        (decoderState out done (pending ++ [base64Class c])) := by
  have hclass := ne_of_lt_base64Class hsextet
  rw [base64DecodeLoop, htext]
  simp only [base64Lookup_eq, if_neg hlow, bind, Except.bind, if_neg hclass.1, if_neg hclass.2.1,
    if_neg hclass.2.2, decoderState, pending_buf (Nat.lt_of_succ_lt hmore) hpending hsextet,
    if_neg (Nat.ne_of_lt hmore), List.length_append, List.length_singleton]

/-- A number that completes a group, whose three bytes fit. -/
theorem base64DecodeLoop_group (htext : mem[i]? = some c)
    (hlow : ¬ (charSigned = true ∧ 2 ^ 7 ≤ c.toNat)) (hsextet : base64Class c < 2 ^ 6)
    {p q r : Nat} (hpending : ∀ s ∈ [p, q, r], s < 2 ^ 6) (hout : outSize ≤ out.length)
    (hfits : done.length + 3 ≤ outSize) :
    base64DecodeLoop charSigned mem outSize (n + 1) i (decoderState out done [p, q, r])
      = base64DecodeLoop charSigned mem outSize n (i + 1)
        (decoderState out (done ++ Sextet.ofSextets [p, q, r, base64Class c]) []) := by
  have hclass := ne_of_lt_base64Class hsextet
  have hwrite := @write_of_fits out outSize done (Sextet.ofSextets [p, q, r, base64Class c]) 4
    (Sextet.value [p, q, r, base64Class c]) hout hfits
  have hbuf := pending_buf (show [p, q, r].length < 4 from Nat.lt_succ_self 3) hpending hsextet
  rw [base64DecodeLoop, htext]
  simp only [base64Lookup_eq, if_neg hlow, bind, Except.bind, if_neg hclass.1, if_neg hclass.2.1,
    if_neg hclass.2.2, decoderState, hbuf]
  exact hwrite ▸ rfl

/-- A number that completes a group, whose three bytes do not fit. -/
theorem base64DecodeLoop_tooSmall (htext : mem[i]? = some c)
    (hlow : ¬ (charSigned = true ∧ 2 ^ 7 ≤ c.toNat)) (hsextet : base64Class c < 2 ^ 6)
    {p q r : Nat} (hsmall : outSize < done.length + 3) :
    ∃ s, base64DecodeLoop charSigned mem outSize (n + 1) i (decoderState out done [p, q, r])
      = .ok (s, some .bufTooSmall) ∧ s.out = splice out 0 done := by
  have hclass := ne_of_lt_base64Class hsextet
  rw [base64DecodeLoop, htext]
  simp only [base64Lookup_eq, if_neg hlow, bind, Except.bind, if_neg hclass.1, if_neg hclass.2.1,
    if_neg hclass.2.2, decoderState]
  rw [write_of_lt hsmall]
  exact ⟨_, rfl, rfl⟩

end Character

/-- **What the loop does with some text**, of which the memory holds `n` characters from the `i`-th one
on. -/
theorem base64DecodeLoop_result {mem : Bytes} {n i : Nat} {done : Bytes} {pending : List Nat}
    (hmem : i + n ≤ mem.length) (hlt : pending.length < 4) (hpending : ∀ s ∈ pending, s < 2 ^ 6)
    (hdone : done.length ≤ outSize) (hout : outSize ≤ out.length) :
    LoopResult charSigned out outSize done (pending ++ base64Sextets (slice mem i n))
      (base64Stop (slice mem i n))
      (base64DecodeLoop charSigned mem outSize n i (decoderState out done pending)) := by
  induction n generalizing i done pending with
  | zero =>
    have hnil : pending ++ base64Sextets (slice mem i 0) = pending := List.append_nil _
    rw [hnil]
    exact loopResult_pending hlt hdone nofun
  | succ n ih =>
    obtain ⟨c, htext⟩ : ∃ c, mem[i]? = some c := ⟨_, List.getElem?_eq_getElem (by omega)⟩
    have hsplice : (splice out 0 done).length = out.length := length_splice (by omega)
    have hbehind : (splice out 0 done).drop outSize = out.drop outSize := drop_splice (by omega) (by omega)
    have hfits : done.length + 3 * (pending.length / 4) ≤ outSize := by omega
    rw [slice_succ htext]
    by_cases hhigh : charSigned = true ∧ 2 ^ 7 ≤ c.toNat
    · -- the character is looked up behind the end of the table
      rw [base64DecodeLoop, htext]
      simp only [base64Lookup_eq]
      rw [if_pos hhigh, base64Sextets_cons, base64Stop_cons, base64Class_high hhigh.2,
        if_neg (by decide), if_neg (by decide), if_neg (by decide), List.append_nil]
      exact .fault c hfits rfl hhigh
    rcases base64Class_cases c with hsextet | hspace | hequals | hinvalid
    · have hlt' : base64Class c < base64Whitespace := hsextet
      rw [base64Sextets_cons, base64Stop_cons, if_pos hlt', if_pos (Nat.le_of_lt hlt'), List.append_cons]
      by_cases hmore : pending.length + 1 < 4
      · rw [base64DecodeLoop_sextet htext hhigh hsextet hmore hpending]
        have hlen : (pending ++ [base64Class c]).length < 4 := by
          rw [List.length_append]
          exact hmore
        have hall : ∀ s ∈ pending ++ [base64Class c], s < 2 ^ 6 := by
          intro s hs
          rcases List.mem_append.mp hs with hs | hs
          · exact hpending s hs
          · rwa [List.mem_singleton.mp hs]
        exact ih (by omega) hlen hall hdone
      · obtain ⟨p, q, r, rfl⟩ := List.length_eq_three.mp (show pending.length = 3 by omega)
        by_cases hsmall : outSize < done.length + 3
        · obtain ⟨s, hloop, hs⟩ := base64DecodeLoop_tooSmall htext hhigh hsextet hsmall
          rw [hloop]
          refine .tooSmall s ?_ (hs ▸ hsplice) (hs ▸ hbehind)
          simp only [List.length_append, List.length_cons, List.length_nil]
          omega
        · rw [base64DecodeLoop_group htext hhigh hsextet hpending hout (Nat.not_lt.mp hsmall)]
          exact LoopResult.group (ih (by omega) (by decide) nofun
            (by rw [List.length_append]; exact Nat.not_lt.mp hsmall))
    · rw [base64DecodeLoop_whitespace htext hhigh hspace, base64Sextets_cons, base64Stop_cons,
        if_neg (Nat.not_lt.mpr (Nat.le_of_eq hspace.symm)), if_pos hspace, if_pos (Nat.le_of_eq hspace)]
      exact ih (by omega) hlt hpending hdone
    · rw [base64DecodeLoop_equals htext hhigh hequals, base64Sextets_cons, base64Stop_cons, hequals,
        if_neg (by decide), if_neg (by decide), if_neg (by decide), List.append_nil]
      exact loopResult_pending hlt hdone fun d hd => Option.some.inj hd ▸ eq_of_base64Class hequals
    · have hne : c ≠ 0x3d := by
        rintro rfl
        exact absurd hinvalid (by decide)
      rw [base64DecodeLoop_invalid htext hhigh hinvalid, base64Sextets_cons, base64Stop_cons, hinvalid,
        if_neg (by decide), if_neg (by decide), if_neg (by decide), List.append_nil]
      exact .invalid c _ hfits rfl hhigh hne hsplice hbehind

/-- What is left of a group is written behind the whole ones. -/
theorem finish_of_fits {rest : List Nat} (hrest : rest.length < 4) (hout : outSize ≤ out.length)
    (h : done.length + (Sextet.ofSextets rest).length ≤ outSize) :
    ∃ s, (decoderState out done rest).finish outSize = .ok (some s) ∧
      s.out = splice out 0 (done ++ Sextet.ofSextets rest) ∧
      s.len = (done ++ Sextet.ofSextets rest).length := by
  match rest with
  | [] => exact ⟨_, rfl, by simp [decoderState, Sextet.ofSextets], by simp [decoderState, Sextet.ofSextets]⟩
  | [_] => exact ⟨_, rfl, by simp [decoderState, Sextet.ofSextets], by simp [decoderState, Sextet.ofSextets]⟩
  | [p, q] => exact ⟨_, write_of_fits _ _ hout h, rfl, rfl⟩
  | [p, q, r] => exact ⟨_, write_of_fits _ _ hout h, rfl, rfl⟩
  | _ :: _ :: _ :: _ :: _ => exact absurd hrest (by simp)

theorem finish_of_lt {rest : List Nat} (hrest : rest.length < 4) (hdone : done.length ≤ outSize)
    (h : outSize < done.length + (Sextet.ofSextets rest).length) :
    (decoderState out done rest).finish outSize = .ok none := by
  match rest with
  | [] => exact absurd h (Nat.not_lt.mpr hdone)
  | [_] => exact absurd h (Nat.not_lt.mpr hdone)
  | [p, q] => exact write_of_lt h
  | [p, q, r] => exact write_of_lt h
  | _ :: _ :: _ :: _ :: _ => exact absurd hrest (by simp)

/-- How the decoder ends on a text. -/
inductive DecodeResult (charSigned : Bool) (text out : Bytes) (outSize : Nat) :
    Except Fault (Bytes × Nat × ErrorCode) → Prop
  | success (hstop : ∀ c, base64Stop text = some c → c = 0x3d)
      (hfits : (Sextet.ofSextets (base64Sextets text)).length ≤ outSize) :
    DecodeResult charSigned text out outSize (.ok (splice out 0 (Sextet.ofSextets (base64Sextets text)),
      (Sextet.ofSextets (base64Sextets text)).length, .success))
  | tooSmall (out' : Bytes) (h : outSize < (Sextet.ofSextets (base64Sextets text)).length)
      (hstop : outSize < 3 * ((base64Sextets text).length / 4) ∨ ∀ c, base64Stop text = some c → c = 0x3d)
      (hlen : out'.length = out.length) (hbehind : out'.drop outSize = out.drop outSize) :
    DecodeResult charSigned text out outSize (.ok (out', outSize, .bufTooSmall))
  | invalid (c : UInt8) (out' : Bytes) (hfits : 3 * ((base64Sextets text).length / 4) ≤ outSize)
      (hstop : base64Stop text = some c) (hlow : ¬ (charSigned = true ∧ 2 ^ 7 ≤ c.toNat)) (hne : c ≠ 0x3d)
      (hlen : out'.length = out.length) (hbehind : out'.drop outSize = out.drop outSize) :
    DecodeResult charSigned text out outSize (.ok (out', outSize, .invalidData))
  | fault (c : UInt8) (hfits : 3 * ((base64Sextets text).length / 4) ≤ outSize)
      (hstop : base64Stop text = some c) (hhigh : charSigned = true ∧ 2 ^ 7 ≤ c.toNat) :
    DecodeResult charSigned text out outSize (.error .outOfBounds)

/-- **What the decoder makes of a text**, of every length and of all 256 values. -/
theorem base64Decode_result {mem : Bytes} {inSize : Nat} (hmem : inSize ≤ mem.length)
    (hout : outSize ≤ out.length) :
    DecodeResult charSigned (mem.take inSize) out outSize
      (base64Decode charSigned mem inSize out outSize) := by
  have hloop := @base64DecodeLoop_result out outSize charSigned mem inSize 0 [] [] (by omega) (by decide) nofun
    (Nat.zero_le _) hout
  have hinit : decoderState out [] [] = ⟨out, 0, 0, 0⟩ := by simp [decoderState, splice]
  rw [List.nil_append, show slice mem 0 inSize = mem.take inSize from rfl, hinit] at hloop
  have htotal := Sextet.length_ofSextets (base64Sextets (mem.take inSize))
  rw [base64Decode]
  generalize base64DecodeLoop charSigned mem outSize inSize 0 ⟨out, 0, 0, 0⟩ = result at hloop ⊢
  cases hloop with
  | tooSmall s h hlen hbehind =>
    rw [List.length_nil, Nat.zero_add] at h
    exact .tooSmall s.out (by omega) (.inl h) hlen hbehind
  | fault c hfits hstop hhigh =>
    rw [List.length_nil, Nat.zero_add] at hfits
    exact .fault c hfits hstop hhigh
  | invalid c s hfits hstop hlow hne hlen hbehind =>
    rw [List.length_nil, Nat.zero_add] at hfits
    exact .invalid c s.out hfits hstop hlow hne hlen hbehind
  | ended whole rest hfits hstop hall hwhole hrest =>
    rw [List.length_nil, Nat.zero_add] at hfits
    rw [List.nil_append]
    have hbytes : Sextet.ofSextets (base64Sextets (mem.take inSize))
        = Sextet.ofSextets whole ++ Sextet.ofSextets rest := by rw [hall, Sextet.ofSextets_append _ _ hwhole]
    have hdone : (Sextet.ofSextets whole).length ≤ outSize := by
      rw [Sextet.length_ofSextets]
      rw [hall, List.length_append] at hfits
      omega
    by_cases hsmall : outSize < (Sextet.ofSextets (base64Sextets (mem.take inSize))).length
    · have hfinish := @finish_of_lt out outSize (Sextet.ofSextets whole) rest hrest hdone
        (by rwa [hbytes, List.length_append] at hsmall)
      simp only [bind, Except.bind, hfinish]
      exact .tooSmall _ hsmall (.inr hstop) (length_splice (by omega)) (drop_splice (by omega) (by omega))
    · have hle := Nat.not_lt.mp hsmall
      obtain ⟨s, hfinish, hs, hlen⟩ := @finish_of_fits out outSize (Sextet.ofSextets whole) rest hrest hout
        (by rwa [hbytes, List.length_append] at hle)
      simp only [bind, Except.bind, hfinish, hs, hlen]
      rw [← hbytes]
      exact .success hstop hle

/-- The decoder reads only the text. -/
theorem base64DecodeLoop_congr {mem mem' : Bytes} {n i : Nat} {s : Base64Decoder}
    (h : ∀ j, j < i + n → mem[j]? = mem'[j]?) :
    base64DecodeLoop charSigned mem outSize n i s = base64DecodeLoop charSigned mem' outSize n i s := by
  induction n generalizing i s with
  | zero => rfl
  | succ n ih =>
    have hrest : ∀ s, base64DecodeLoop charSigned mem outSize n (i + 1) s
        = base64DecodeLoop charSigned mem' outSize n (i + 1) s := fun s => ih fun j hj => h j (by omega)
    rw [base64DecodeLoop, base64DecodeLoop, h i (by omega)]
    simp only [hrest]

theorem base64Decode_congr {mem mem' : Bytes} {inSize : Nat} (h : mem.take inSize = mem'.take inSize) :
    base64Decode charSigned mem inSize out outSize = base64Decode charSigned mem' inSize out outSize := by
  have hread : ∀ j, j < 0 + inSize → mem[j]? = mem'[j]? := by
    intro j hj
    rw [Nat.zero_add] at hj
    rw [← List.getElem?_take_of_lt hj, h, List.getElem?_take_of_lt hj]
  rw [base64Decode, base64Decode, base64DecodeLoop_congr hread]

/-! ## Back and forth -/

theorem base64Sextets_chars {sextets : List Nat} (h : ∀ n ∈ sextets, n < 2 ^ 6) (rest : Bytes) :
    base64Sextets (sextets.map base64Char ++ rest) = sextets ++ base64Sextets rest ∧
      base64Stop (sextets.map base64Char ++ rest) = base64Stop rest := by
  induction sextets with
  | nil => exact ⟨rfl, rfl⟩
  | cons n sextets ih =>
    obtain ⟨hn, hrest⟩ := List.forall_mem_cons.mp h
    obtain ⟨hclass, -⟩ := base64Class_char n hn
    obtain ⟨ihsextets, ihstop⟩ := ih hrest
    have hlt : base64Class (base64Char n) < base64Whitespace := Nat.lt_of_le_of_lt (Nat.le_of_eq hclass) hn
    rw [List.map_cons, List.cons_append, base64Sextets_cons, base64Stop_cons, if_pos hlt,
      if_pos (Nat.le_of_lt hlt), ihsextets, ihstop, hclass]
    exact ⟨rfl, rfl⟩

theorem base64Sextets_padding (n : Nat) : base64Sextets (List.replicate n 0x3d) = [] ∧
    ∀ c, base64Stop (List.replicate n 0x3d) = some c → c = 0x3d := by
  cases n with
  | zero => exact ⟨rfl, nofun⟩
  | succ n =>
    rw [List.replicate_succ, base64Sextets_cons, base64Stop_cons]
    exact ⟨rfl, fun c hc => (Option.some.inj hc).symm⟩

/-- The text of some bytes stands for them. -/
theorem base64Sextets_text (data : Bytes) : base64Sextets (base64Text data) = Sextet.toSextets data ∧
    ∀ c, base64Stop (base64Text data) = some c → c = 0x3d := by
  have hlt : ∀ n ∈ Sextet.toSextets data, n < 2 ^ 6 := Sextet.toSextets_lt data
  obtain ⟨hnil, hstop⟩ :=
    base64Sextets_padding (if data.length % 3 > 0 then 3 - data.length % 3 else 0)
  rw [base64Text, (base64Sextets_chars hlt _).1, (base64Sextets_chars hlt _).2, hnil, List.append_nil]
  exact ⟨rfl, hstop⟩

theorem zero_notMem_base64Text (data : Bytes) : 0 ∉ base64Text data := by
  intro h
  rcases List.mem_append.mp h with h | h
  · obtain ⟨n, hn, hzero⟩ := List.mem_map.mp h
    exact (base64Class_char n (Sextet.toSextets_lt data n hn)).2 hzero
  · exact absurd (List.eq_of_mem_replicate h) (by decide)

theorem base64Decode_text (data : Bytes) {mem : Bytes}
    (hmem : mem.take (base64Text data).length = base64Text data) (hle : data.length ≤ outSize)
    (hout : outSize ≤ out.length) :
    base64Decode charSigned mem (base64Text data).length out outSize
      = .ok (splice out 0 data, data.length, .success) := by
  have hlen : (base64Text data).length ≤ mem.length := by
    have htake := congrArg List.length hmem
    rw [List.length_take] at htake
    omega
  have hresult := @base64Decode_result out outSize charSigned mem _ hlen hout
  rw [hmem] at hresult
  obtain ⟨hsextets, hstop⟩ := base64Sextets_text data
  have hbytes : Sextet.ofSextets (base64Sextets (base64Text data)) = data := by
    rw [hsextets, Sextet.ofSextets_toSextets]
  have htotal := Sextet.length_ofSextets (base64Sextets (base64Text data))
  rw [hbytes] at htotal
  generalize base64Decode charSigned mem (base64Text data).length out outSize = result at hresult ⊢
  cases hresult with
  | success => rw [hbytes]
  | tooSmall out' h => exact absurd h (by rw [hbytes]; omega)
  | invalid c out' hfits hc hlow hne => exact absurd (hstop c hc) hne
  | fault c hfits hc hhigh =>
    rw [hstop c hc] at hhigh
    exact absurd hhigh.2 (by decide)

/-- A text of bytes below 0x80 is always decoded to an end, and nothing is written behind the output. -/
theorem base64Decode_ascii {mem : Bytes} {inSize : Nat} (hmem : inSize ≤ mem.length)
    (hascii : ∀ c ∈ mem.take inSize, c.toNat < 2 ^ 7) (hout : outSize ≤ out.length) :
    ∃ out' written err, base64Decode charSigned mem inSize out outSize = .ok (out', written, err) ∧
      out'.length = out.length ∧ out'.drop outSize = out.drop outSize ∧ written ≤ outSize := by
  have hresult := @base64Decode_result out outSize charSigned mem inSize hmem hout
  generalize base64Decode charSigned mem inSize out outSize = result at hresult ⊢
  cases hresult with
  | success hstop hfits =>
    exact ⟨_, _, _, rfl, length_splice (by omega), drop_splice (by omega) (by omega), hfits⟩
  | tooSmall out' h hstop hlen hbehind => exact ⟨_, _, _, rfl, hlen, hbehind, Nat.le_refl _⟩
  | invalid c out' hfits hc hlow hne hlen hbehind => exact ⟨_, _, _, rfl, hlen, hbehind, Nat.le_refl _⟩
  | fault c hfits hc hhigh =>
    exact absurd (hascii c (List.mem_of_find?_eq_some hc)) (Nat.not_lt.mpr hhigh.2)

/-- **The decoder reads back what the encoder wrote**, for bytes of every length and outputs of every
size, and neither of them writes behind the end of its output. -/
theorem base64_roundtrip :
    (∀ (data out : Bytes) outSize, outSize ≤ out.length →
      (outSize < 4 * ((data.length + 2) / 3) + 1 → ∃ out',
        base64Encode data out outSize = .ok (out', .bufTooSmall) ∧ out'.length = out.length ∧
          out'.drop outSize = out.drop outSize) ∧
      (4 * ((data.length + 2) / 3) + 1 ≤ outSize → ∃ text : Bytes,
        text.length = 4 * ((data.length + 2) / 3) ∧ 0 ∉ text ∧
          base64Encode data out outSize = .ok (splice out 0 (text ++ [0]), .success) ∧
          ∀ charSigned (out' : Bytes) outSize', data.length ≤ outSize' → outSize' ≤ out'.length →
            base64Decode charSigned (splice out 0 (text ++ [0])) text.length out' outSize'
              = .ok (splice out' 0 data, data.length, .success))) ∧
    ∀ charSigned (mem : Bytes) inSize (out : Bytes) outSize, inSize ≤ mem.length →
      (∀ c ∈ mem.take inSize, c.toNat < 2 ^ 7) → outSize ≤ out.length →
      ∃ out' written err, base64Decode charSigned mem inSize out outSize = .ok (out', written, err) ∧
        out'.length = out.length ∧ out'.drop outSize = out.drop outSize ∧ written ≤ outSize := by
  refine ⟨fun data out outSize hout => ?_, fun _ _ _ _ _ hmem hascii hout =>
    base64Decode_ascii hmem hascii hout⟩
  have hencodes := base64Encode_spec data hout
  refine ⟨hencodes.tooSmall, fun hfits => ⟨base64Text data, length_base64Text data,
    zero_notMem_base64Text data, hencodes.fits hfits, fun charSigned out' outSize' hle hout' => ?_⟩⟩
  refine base64Decode_text data ?_ hle hout'
  simp [splice]

/-- Three bytes are written and read. -/
theorem base64_roundtrip_three : ∃ text : Bytes, text.length = 4 ∧
    base64Encode [1, 2, 255] (List.replicate 6 7) 5 = .ok (splice (List.replicate 6 7) 0 (text ++ [0]), .success) ∧
    base64Decode true (splice (List.replicate 6 7) 0 (text ++ [0])) text.length [9, 9, 9, 9] 3
      = .ok ([1, 2, 255, 9], 3, .success) := by
  obtain ⟨text, hlen, -, hencode, hdecode⟩ :=
    (base64_roundtrip.1 [1, 2, 255] (List.replicate 6 7) 5 (by decide)).2 (by decide)
  exact ⟨text, hlen, hencode, hdecode true [9, 9, 9, 9] 3 (by decide) (by decide)⟩

/-! ## Any input -/

/-- A byte with its high bit set is looked up: a `char` is signed, and only characters of the alphabet
and spaces are in front of the byte, which do not fill the output. -/
def HighByteReached (charSigned : Bool) (text : Bytes) (outSize : Nat) : Prop :=
  charSigned = true ∧ (∃ c, base64Stop text = some c ∧ 2 ^ 7 ≤ c.toNat) ∧
    3 * ((base64Sextets text).length / 4) ≤ outSize

/-- The decoder stays inside of its table and its input, and ends with one of its results. -/
structure DecodesSafely (charSigned : Bool) (mem : Bytes) (inSize : Nat) (out : Bytes) (outSize : Nat) :
    Prop where
  ends : ∃ out' written err, base64Decode charSigned mem inSize out outSize = .ok (out', written, err) ∧
    (err = .success ∨ err = .invalidData ∨ err = .bufTooSmall)
  reads : base64Decode charSigned mem inSize out outSize
    = base64Decode charSigned (mem.take inSize) inSize out outSize

/-- **The decoder is safe if and only if no byte with its high bit set is looked up as a signed
`char`.** -/
theorem base64Decode_safe_iff {mem : Bytes} {inSize : Nat} (hmem : inSize ≤ mem.length)
    (hout : outSize ≤ out.length) :
    DecodesSafely charSigned mem inSize out outSize ↔
      ¬ HighByteReached charSigned (mem.take inSize) outSize := by
  have hresult := @base64Decode_result out outSize charSigned mem inSize hmem hout
  have hreads : base64Decode charSigned mem inSize out outSize
      = base64Decode charSigned (mem.take inSize) inSize out outSize :=
    base64Decode_congr (by rw [List.take_take, Nat.min_self])
  constructor
  · rintro ⟨⟨out', written, err, hok, -⟩, -⟩ ⟨hsigned, ⟨c, hc, hhigh⟩, hfits⟩
    rw [hok] at hresult
    have htotal := Sextet.length_ofSextets (base64Sextets (mem.take inSize))
    cases hresult with
    | success hstop => exact absurd (hstop c hc ▸ hhigh) (by decide)
    | tooSmall _ h hstop =>
      rcases hstop with hlt | hstop
      · exact absurd hfits (Nat.not_le.mpr hlt)
      · exact absurd (hstop c hc ▸ hhigh) (by decide)
    | invalid d _ _ hd hlow =>
      cases hd.symm.trans hc
      exact hlow ⟨hsigned, hhigh⟩
  · intro hsafe
    refine ⟨?_, hreads⟩
    generalize base64Decode charSigned mem inSize out outSize = result at hresult
    cases hresult with
    | success => exact ⟨_, _, _, rfl, .inl rfl⟩
    | tooSmall => exact ⟨_, _, _, rfl, .inr (.inr rfl)⟩
    | invalid => exact ⟨_, _, _, rfl, .inr (.inl rfl)⟩
    | fault c hfits hc hhigh => exact absurd ⟨hhigh.1, ⟨c, hc, hhigh.2⟩, hfits⟩ hsafe

theorem base64Decode_safe_iff_space :
    DecodesSafely true [0x20, 0x80, 0] 2 (List.replicate 16 0) 16 ∧
      ¬ DecodesSafely true [0x0a, 0x80, 0] 2 (List.replicate 16 0) 16 := by
  refine ⟨(base64Decode_safe_iff (by decide) (by decide)).mpr ?_, fun h => ?_⟩
  · rintro ⟨-, ⟨c, hc, hhigh⟩, -⟩
    rw [show base64Stop (List.take 2 [0x20, 0x80, 0]) = some 0x20 by decide +kernel] at hc
    cases hc
    exact absurd hhigh (by decide)
  · refine (base64Decode_safe_iff (by decide) (by decide)).mp h ⟨rfl, ⟨0x80, ?_, by decide⟩, by decide +kernel⟩
    decide +kernel

/-- The value of a header that is one byte with its high bit set, with the NUL behind it. -/
theorem not_base64Decode_safe : base64Decode true [0x80, 0] 2 (List.replicate 16 0) 16 = .error .outOfBounds ∧
    ¬ DecodesSafely true [0x80, 0] 2 (List.replicate 16 0) 16 := by
  have hfault : base64Decode true [0x80, 0] 2 (List.replicate 16 0) 16 = .error .outOfBounds := rfl
  refine ⟨hfault, fun h => ?_⟩
  obtain ⟨out', written, err, hok, -⟩ := h.ends
  rw [hfault] at hok
  cases hok

end Chiaki
