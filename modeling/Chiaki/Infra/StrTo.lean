import Mathlib.Algebra.Group.Nat.Defs
import Mathlib.Algebra.Ring.Int.Defs
import Mathlib.Data.List.TakeWhile
import Mathlib.Data.Nat.Digits.Lemmas

/-!
# Numbers in strings (`strtol`, `strtoul`, `strtoull`)

Spaces, a sign, and digits; what is behind them does not matter. A number of 64 bits that is too large
becomes the largest one. An unsigned number with a minus sign is taken modulo 2^64.

* `strtoull_decimal` — a number that was written in decimals is read
* `strtoull_unsigned` — so is one that was printed
-/

namespace Infra.StrTo

/-- `isspace` -/
def isSpace (c : UInt8) : Bool := c = 0x20 || (0x09 ≤ c && c ≤ 0x0d)

/-- The value of a digit or a letter. -/
def digitValue (c : UInt8) : Nat :=
  if 0x30 ≤ c ∧ c ≤ 0x39 then c.toNat - 0x30
  else if 0x61 ≤ c ∧ c ≤ 0x7a then c.toNat - 0x61 + 10
  else if 0x41 ≤ c ∧ c ≤ 0x5a then c.toNat - 0x41 + 10
  else 36

/-- The number that the first digits make. -/
def magnitude (base : Nat) (s : List UInt8) : Nat :=
  (s.takeWhile fun c => digitValue c < base).foldl (fun n c => n * base + digitValue c) 0

/-- The string begins with `0x` and a hexadecimal digit. -/
def hasHexPrefix : List UInt8 → Bool
  | z :: x :: d :: _ => z = 0x30 && (x = 0x78 || x = 0x58) && decide (digitValue d < 16)
  | _ => false

/-- The base that is used for a string, and the digits in it. Base 0 means that the string says it. -/
def chooseBase (base : Nat) (s : List UInt8) : Nat × List UInt8 :=
  if (base = 0 ∨ base = 16) ∧ hasHexPrefix s then (16, s.drop 2)
  else if base = 0 then (if s.head? = some 0x30 then 8 else 10, s)
  else (base, s)

/-- Whether there is a minus sign, and the number behind it. -/
def signedMagnitude (base : Nat) (s : List UInt8) : Bool × Nat :=
  let s := s.dropWhile isSpace
  let digits := if s.head? = some 0x2d ∨ s.head? = some 0x2b then s.drop 1 else s
  let (base, digits) := chooseBase base digits
  (s.head? = some 0x2d, magnitude base digits)

/-- `strtol`, where a `long` has 64 bits. -/
def strtol (base : Nat) (s : List UInt8) : Int :=
  let (negative, n) := signedMagnitude base s
  if negative then max (-(n : Int)) (-2 ^ 63) else min (n : Int) (2 ^ 63 - 1)

/-- `strtoull`, and `strtoul` where a `long` has 64 bits. -/
def strtoull (base : Nat) (s : List UInt8) : Nat :=
  let (negative, n) := signedMagnitude base s
  if 2 ^ 64 ≤ n then 2 ^ 64 - 1 else if negative then (2 ^ 64 - n) % 2 ^ 64 else n

/-! ## Decimal numbers -/

/-- A number as it is written in decimals. -/
def decimal (n : Nat) : List UInt8 := (Nat.digits 10 n).reverse.map fun d => UInt8.ofNat (0x30 + d)

/-- What is printed for an unsigned number. -/
def unsigned (n : Nat) : List UInt8 := if n = 0 then [0x30] else decimal n

theorem digitValue_digit : ∀ d < 10, digitValue (UInt8.ofNat (0x30 + d)) = d ∧
    isSpace (UInt8.ofNat (0x30 + d)) = false ∧ UInt8.ofNat (0x30 + d) ≠ 0x2d ∧ UInt8.ofNat (0x30 + d) ≠ 0x2b ∧ UInt8.ofNat (0x30 + d) ≠ 0x78 ∧
    UInt8.ofNat (0x30 + d) ≠ 0x58 ∧ (UInt8.ofNat (0x30 + d) = 0x30 → d = 0) := by
  decide

theorem mem_decimal {n : Nat} {c : UInt8} (h : c ∈ decimal n) : ∃ d < 10, c = UInt8.ofNat (0x30 + d) := by
  obtain ⟨d, hd, rfl⟩ := List.mem_map.mp h
  exact ⟨d, Nat.digits_lt_base (by decide : 1 < 10) (List.mem_reverse.mp hd), rfl⟩

theorem magnitude_decimal (n : Nat) : magnitude 10 (decimal n) = n := by
  have hall : ∀ c ∈ decimal n, decide (digitValue c < 10) = true := by
    intro c hc
    obtain ⟨d, hd, rfl⟩ := mem_decimal hc
    rw [decide_eq_true_iff, (digitValue_digit d hd).1]
    exact hd
  have hfold : (Nat.digits 10 n).foldr (fun d value => value * 10 + digitValue (UInt8.ofNat (0x30 + d))) 0
      = (Nat.digits 10 n).foldr (fun d value => d + 10 * value) 0 := by
    refine List.foldr_ext _ _ _ fun d hd value => ?_
    rw [(digitValue_digit d (Nat.digits_lt_base (by decide) hd)).1]
    omega
  rw [magnitude, List.takeWhile_eq_self_iff.mpr hall, decimal, List.foldl_map, List.foldl_reverse, hfold]
  exact (Nat.ofDigits_eq_foldr 10 _).symm.trans (Nat.ofDigits_digits 10 n)

/-- The first digit is not a zero. -/
theorem decimal_eq_cons {n : Nat} (hpos : 0 < n) :
    ∃ d rest, 0 < d ∧ d < 10 ∧ decimal n = UInt8.ofNat (0x30 + d) :: rest := by
  have hne : Nat.digits 10 n ≠ [] := Nat.digits_ne_nil_iff_ne_zero.mpr (by omega)
  refine ⟨_, ((Nat.digits 10 n).dropLast.reverse.map fun d => UInt8.ofNat (0x30 + d)),
    Nat.pos_of_ne_zero (Nat.getLast_digit_ne_zero 10 (by omega)),
    Nat.digits_lt_base (by decide) (List.getLast_mem hne), ?_⟩
  rw [decimal]
  conv_lhs => rw [← List.dropLast_append_getLast hne, List.reverse_append]
  rfl

theorem hasHexPrefix_decimal (n : Nat) : hasHexPrefix (decimal n) = false := by
  have hdigit : ∀ c ∈ decimal n, c ≠ 0x78 ∧ c ≠ 0x58 := by
    intro c hc
    obtain ⟨d, hd, rfl⟩ := mem_decimal hc
    obtain ⟨-, -, -, -, hx, hX, -⟩ := digitValue_digit d hd
    exact ⟨hx, hX⟩
  generalize decimal n = s at hdigit ⊢
  match s with
  | [] => rfl
  | [_] => rfl
  | [_, _] => rfl
  | z :: x :: d :: rest =>
    obtain ⟨hx, hX⟩ := hdigit x (by simp)
    simp [hasHexPrefix, hx, hX]

/-- **A decimal number is read**, also if the string says the base. -/
theorem strtoull_decimal {n : Nat} (hpos : 0 < n) (hlt : n < 2 ^ 64) {base : Nat} (hbase : base = 0 ∨ base = 10) :
    strtoull base (decimal n) = n := by
  obtain ⟨d, rest, hd, hd10, hcons⟩ := decimal_eq_cons hpos
  obtain ⟨-, hspace, hminus, hplus, -, -, hzero⟩ := digitValue_digit d hd10
  have hchoose : chooseBase base (decimal n) = (10, decimal n) := by
    rw [chooseBase, hasHexPrefix_decimal, if_neg (by simp)]
    rcases hbase with rfl | rfl
    · rw [if_pos rfl, if_neg]
      rw [hcons, List.head?_cons]
      exact fun h => absurd (hzero (Option.some.inj h)) (by omega)
    · rfl
  have hsigned : signedMagnitude base (decimal n) = (false, n) := by
    have hdrop : (decimal n).dropWhile isSpace = decimal n := by
      rw [hcons, List.dropWhile_cons_of_neg (Bool.eq_false_iff.mp hspace)]
    have hhead : ∀ c, c ≠ UInt8.ofNat (0x30 + d) → (decimal n).head? ≠ some c := by
      intro c hne h
      rw [hcons, List.head?_cons] at h
      exact hne (Option.some.inj h).symm
    rw [signedMagnitude, hdrop]
    simp only [hhead _ hminus.symm, hhead _ hplus.symm, or_false, if_false, hchoose, magnitude_decimal,
      decide_false]
  rw [strtoull, hsigned]
  simp only
  rw [if_neg (by omega), if_neg (by decide)]

/-! ## Printed numbers -/

theorem unsigned_pos {n : Nat} (h : 0 < n) : unsigned n = decimal n := if_neg (Nat.pos_iff_ne_zero.mp h)

theorem unsigned_ne_nil (n : Nat) : unsigned n ≠ [] := by
  intro h
  rcases Nat.eq_zero_or_pos n with rfl | hpos
  · cases h
  · obtain ⟨d, rest, -, -, hcons⟩ := decimal_eq_cons hpos
    rw [unsigned_pos hpos, hcons] at h
    cases h

theorem mem_unsigned {n : Nat} {c : UInt8} (h : c ∈ unsigned n) : ∃ d < 10, c = UInt8.ofNat (0x30 + d) := by
  unfold unsigned at h
  split at h
  · exact ⟨0, by decide, List.mem_singleton.mp h⟩
  · exact mem_decimal h

/-- A number of 64 bits has twenty digits at most. -/
theorem length_unsigned {n : Nat} (h : n < 2 ^ 64) : (unsigned n).length ≤ 20 := by
  unfold unsigned
  split
  · decide
  · rw [decimal, List.length_map, List.length_reverse, Nat.digits_length_le_iff (by decide)]
    omega

/-- **A number that was printed is read.** -/
theorem strtoull_unsigned {n : Nat} (h : n < 2 ^ 64) {base : Nat} (hbase : base = 0 ∨ base = 10) :
    strtoull base (unsigned n) = n := by
  rcases Nat.eq_zero_or_pos n with rfl | hpos
  · rcases hbase with rfl | rfl <;> rfl
  · rw [unsigned_pos hpos, strtoull_decimal hpos h hbase]

/-- The first digits make the number, if no digit is behind them. -/
theorem magnitude_decimal_append (n : Nat) {rest : List UInt8} (hrest : ∀ c ∈ rest.head?, 10 ≤ digitValue c) :
    magnitude 10 (decimal n ++ rest) = n := by
  have hdigits : ∀ c ∈ decimal n, decide (digitValue c < 10) = true := by
    intro c hc
    obtain ⟨d, hd, rfl⟩ := mem_decimal hc
    rw [decide_eq_true_iff, (digitValue_digit d hd).1]
    exact hd
  have hstop : rest.takeWhile (fun c => decide (digitValue c < 10)) = [] := by
    cases rest with
    | nil => rfl
    | cons c rest => simp [hrest c rfl]
  have happend : (decimal n ++ rest).takeWhile (fun c => decide (digitValue c < 10))
      = (decimal n).takeWhile fun c => decide (digitValue c < 10) := by
    rw [List.takeWhile_append_of_pos hdigits, hstop, List.append_nil, List.takeWhile_eq_self_iff.mpr hdigits]
  rw [magnitude, happend]
  exact magnitude_decimal n

/-- **A number that was printed is read in front of a text.** -/
theorem strtol_unsigned_append {n : Nat} (hlt : n < 2 ^ 63) {rest : List UInt8}
    (hrest : ∀ c ∈ rest.head?, 10 ≤ digitValue c) : strtol 10 (unsigned n ++ rest) = n := by
  have hhead : ∃ d digits, d < 10 ∧ unsigned n = UInt8.ofNat (0x30 + d) :: digits := by
    rcases Nat.eq_zero_or_pos n with rfl | hpos
    · exact ⟨0, [], by decide, rfl⟩
    · obtain ⟨d, digits, -, hd, hcons⟩ := decimal_eq_cons hpos
      exact ⟨d, digits, hd, by rw [unsigned_pos hpos, hcons]⟩
  have hmagnitude : magnitude 10 (unsigned n ++ rest) = n := by
    rcases Nat.eq_zero_or_pos n with rfl | hpos
    · cases rest with
      | nil => rfl
      | cons c rest =>
        have hc : ¬ digitValue c < 10 := Nat.not_lt.mpr (hrest c rfl)
        simp [magnitude, unsigned, hc, show digitValue 0x30 = 0 by decide]
    · rw [unsigned_pos hpos, magnitude_decimal_append n hrest]
  obtain ⟨d, digits, hd, hcons⟩ := hhead
  obtain ⟨-, hspace, hminus, hplus, -, -, -⟩ := digitValue_digit d hd
  have hsigned : signedMagnitude 10 (unsigned n ++ rest) = (false, n) := by
    have hdrop : (unsigned n ++ rest).dropWhile isSpace = unsigned n ++ rest := by
      rw [hcons, List.cons_append, List.dropWhile_cons_of_neg (Bool.eq_false_iff.mp hspace)]
    have hhead : ∀ c, c ≠ UInt8.ofNat (0x30 + d) → (unsigned n ++ rest).head? ≠ some c := by
      intro c hne h
      rw [hcons, List.cons_append, List.head?_cons] at h
      exact hne (Option.some.inj h).symm
    have hchoose : chooseBase 10 (unsigned n ++ rest) = (10, unsigned n ++ rest) := by simp [chooseBase]
    rw [signedMagnitude, hdrop]
    simp only [hhead _ hminus.symm, hhead _ hplus.symm, or_false, if_false, hchoose, hmagnitude, decide_false]
  rw [strtol, hsigned]
  simp only [Bool.false_eq_true, if_false]
  omega

end Infra.StrTo
