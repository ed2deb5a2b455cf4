import Mathlib.Data.Nat.Digits.Defs

/-!
# Little-endian numbers

`value bs` is the number that the bytes stand for, lowest byte first, and `bytes n v` is the
number `v` in `n` bytes. They are inverse to each other for numbers of `n` bytes.
-/

namespace Infra.LittleEndian

variable {bs cs : List UInt8} {n v : Nat}

/-- The number that the bytes stand for. -/
def value (bs : List UInt8) : Nat := Nat.ofDigits 256 (bs.map UInt8.toNat)

/-- The lowest `n` bytes of a number. -/
def bytes : Nat → Nat → List UInt8
  | 0, _ => []
  | n + 1, v => UInt8.ofNat v :: bytes n (v / 256)

@[simp] theorem value_nil : value [] = 0 := rfl

@[simp] theorem value_cons (b : UInt8) (bs : List UInt8) : value (b :: bs) = b.toNat + 256 * value bs := by
  simp [value, Nat.ofDigits_cons]

@[simp] theorem length_bytes (n v : Nat) : (bytes n v).length = n := by
  induction n generalizing v with
  | zero => rfl
  | succ n ih => rw [bytes, List.length_cons, ih]

theorem value_lt (bs : List UInt8) : value bs < 256 ^ bs.length := by
  have h := @Nat.ofDigits_lt_base_pow_length 256 (bs.map UInt8.toNat) (by decide) ?_
  · rwa [List.length_map] at h
  · intro d hd
    obtain ⟨b, -, rfl⟩ := List.mem_map.mp hd
    exact UInt8.toNat_lt b

theorem value_bytes (n v : Nat) : value (bytes n v) = v % 256 ^ n := by
  induction n generalizing v with
  | zero => simp [bytes, Nat.mod_one]
  | succ n ih =>
    have hpow : 256 ^ (n + 1) = 256 * 256 ^ n := by rw [Nat.pow_succ, Nat.mul_comm]
    rw [bytes, value_cons, ih, hpow, Nat.mod_mul, UInt8.toNat_ofNat']

/-- Numbers of equal length are equal if their bytes are. -/
theorem value_inj (hlen : bs.length = cs.length) (h : value bs = value cs) : bs = cs := by
  induction bs generalizing cs with
  | nil => exact (List.eq_nil_of_length_eq_zero hlen.symm).symm
  | cons b bs ih =>
    cases cs with
    | nil => cases hlen
    | cons c cs =>
      rw [value_cons, value_cons] at h
      have hb := UInt8.toNat_lt b
      have hc := UInt8.toNat_lt c
      have hhead : b.toNat = c.toNat := by omega
      have htail : value bs = value cs := by omega
      rw [UInt8.toNat_inj.mp hhead, ih (Nat.succ.inj hlen) htail]

end Infra.LittleEndian
