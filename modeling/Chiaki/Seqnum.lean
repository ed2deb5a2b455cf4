import Chiaki.Infra.Serial

/-!
# Sequence numbers (`seqnum.h`)

`CHIAKI_DEFINE_SEQNUM(bits, greater_sint)` defines the type and its two comparisons for
16 and for 32 bits. Numbers are naturals below `2 ^ bits`; the difference is taken in
`greater_sint`, which is wide enough for it, so it is an integer here.

`seqNumGt_iff` and `seqNumLt_iff` say that the macro computes RFC 1982 comparison.
-/

namespace Chiaki

open Infra

/-! ## The two comparisons -/

/-- `chiaki_seq_num_##bits##_lt` -/
def seqNumLt (bits a b : Nat) : Bool :=
  if a == b then false
  else
    let d : Int := (b : Int) - (a : Int)
    (decide (a < b) && decide (d < 2 ^ (bits - 1)))
      || (decide (a > b) && decide (-d > 2 ^ (bits - 1)))

/-- `chiaki_seq_num_##bits##_gt` -/
def seqNumGt (bits a b : Nat) : Bool :=
  if a == b then false
  else
    let d : Int := (b : Int) - (a : Int)
    (decide (a < b) && decide (d > 2 ^ (bits - 1)))
      || (decide (a > b) && decide (-d < 2 ^ (bits - 1)))

abbrev seqNum16Lt (a b : Nat) : Bool := seqNumLt 16 a b
abbrev seqNum16Gt (a b : Nat) : Bool := seqNumGt 16 a b
abbrev seqNum32Lt (a b : Nat) : Bool := seqNumLt 32 a b
abbrev seqNum32Gt (a b : Nat) : Bool := seqNumGt 32 a b

theorem seqNumGt_iff_lt (bits a b : Nat) : seqNumGt bits a b = true ↔
    (b < a ∧ a < b + 2 ^ (bits - 1)) ∨ a + 2 ^ (bits - 1) < b := by
  have hcast : ((2 ^ (bits - 1) : Nat) : Int) = 2 ^ (bits - 1) := by push_cast; rfl
  unfold seqNumGt
  rw [← hcast]
  generalize 2 ^ (bits - 1) = half
  by_cases hab : a = b
  · simp [hab]
  · simp only [beq_iff_eq, hab, if_false, Bool.or_eq_true, Bool.and_eq_true, decide_eq_true_eq]
    omega

/-! ## As the macro writes them -/

/-- `chiaki_seq_num_##bits##_lt` on the machine's numbers; `greater_sint` has `sint` bits. -/
def seqNumLtSint (sint : Nat) {bits : Nat} (a b : BitVec bits) : Bool :=
  if a == b then false
  else
    let d : BitVec sint := b.setWidth sint - a.setWidth sint
    let half : BitVec sint := BitVec.ofNat sint 1 <<< (bits - 1)
    (a.ult b && d.slt half) || (b.ult a && half.slt (-d))

/-- `chiaki_seq_num_##bits##_gt` -/
def seqNumGtSint (sint : Nat) {bits : Nat} (a b : BitVec bits) : Bool :=
  if a == b then false
  else
    let d : BitVec sint := b.setWidth sint - a.setWidth sint
    let half : BitVec sint := BitVec.ofNat sint 1 <<< (bits - 1)
    (a.ult b && half.slt d) || (b.ult a && (-d).slt half)

/-! ## They are serial number arithmetic -/

theorem two_pow_half {bits : Nat} (hb : 0 < bits) : (2 : Int) ^ bits = 2 * 2 ^ (bits - 1) := by
  obtain ⟨n, rfl⟩ : ∃ n, bits = n + 1 := ⟨bits - 1, by omega⟩
  rw [Nat.add_sub_cancel, pow_succ, mul_comm]

theorem seqNumGt_iff {bits a b : Nat} (hbits : 0 < bits) (ha : a < 2 ^ bits) (hb : b < 2 ^ bits) :
    seqNumGt bits a b = true ↔ Serial.Gt (2 ^ (bits - 1)) a b := by
  have hpow := two_pow_half hbits
  have ha' : (a : Int) < 2 ^ bits := by exact_mod_cast ha
  have hb' : (b : Int) < 2 ^ bits := by exact_mod_cast hb
  have hgt : seqNumGt bits a b = true ↔
      (a : Int) ≠ b ∧ (((a : Int) < b ∧ (b : Int) - a > 2 ^ (bits - 1))
        ∨ ((b : Int) < a ∧ (a : Int) - b < 2 ^ (bits - 1))) := by
    unfold seqNumGt
    by_cases hab : a = b
    · simp [hab]
    · simp [hab]
  rw [hgt]
  unfold Serial.Gt Serial.ahead
  generalize (2 : Int) ^ (bits - 1) = half at *
  rcases lt_trichotomy (a : Int) b with hlt | heq | hgt
  · have hmod : ((a : Int) - b) % (2 * half) = a - b + 2 * half := by
      rw [← Int.add_emod_right]
      exact Int.emod_eq_of_lt (by omega) (by omega)
    rw [hmod]
    omega
  · simp [heq]
  · rw [Int.emod_eq_of_lt (by omega) (by omega)]
    omega

/-- `lt` is the converse of `gt`. -/
theorem seqNumLt_eq_gt (bits a b : Nat) : seqNumLt bits a b = seqNumGt bits b a := by
  unfold seqNumLt seqNumGt
  by_cases hab : a = b
  · simp [hab]
  · have hba : ¬ b = a := fun h => hab h.symm
    simp only [beq_iff_eq, hab, hba, if_false]
    rw [Bool.or_comm, show (-((b : Int) - a)) = (a : Int) - b by omega,
      show (-((a : Int) - b)) = (b : Int) - a by omega]

theorem seqNumLt_iff {bits a b : Nat} (hbits : 0 < bits) (ha : a < 2 ^ bits) (hb : b < 2 ^ bits) :
    seqNumLt bits a b = true ↔ Serial.Gt (2 ^ (bits - 1)) b a := by
  rw [seqNumLt_eq_gt, seqNumGt_iff hbits hb ha]

/-! ## Positions

`base + n` modulo `2 ^ bits` is the number of the `n`-th element of a stream that begins at `base`.
Positions less than `2 ^ (bits - 1)` apart compare as their numbers do.
-/

theorem seqNumGt_position_iff {bits a b base m n : Nat} (hbits : 0 < bits) (ha : a < 2 ^ bits)
    (hb : b < 2 ^ bits) (hm : a ≡ base + m [MOD 2 ^ bits]) (hn : b ≡ base + n [MOD 2 ^ bits]) :
    seqNumGt bits a b = true ↔ Serial.Gt (2 ^ (bits - 1)) ((base : Int) + m) ((base : Int) + n) := by
  have hcast : ∀ {x k : Nat}, x < 2 ^ bits → x ≡ base + k [MOD 2 ^ bits] →
      (x : Int) = ((base : Int) + k) % (2 * 2 ^ (bits - 1)) := by
    intro x k hlt hx
    have hmod : x = (base + k) % 2 ^ bits := (Nat.mod_eq_of_lt hlt).symm.trans hx
    rw [← two_pow_half hbits, hmod]
    push_cast
    rfl
  rw [seqNumGt_iff hbits ha hb, hcast ha hm, hcast hb hn, Serial.gt_emod]

theorem seqNumGt_position {bits a b base m n : Nat} (hbits : 0 < bits) (ha : a < 2 ^ bits)
    (hb : b < 2 ^ bits) (hm : a ≡ base + m [MOD 2 ^ bits]) (hn : b ≡ base + n [MOD 2 ^ bits])
    (h1 : m < n + 2 ^ (bits - 1)) (h2 : n < m + 2 ^ (bits - 1)) :
    seqNumGt bits a b = decide (n < m) := by
  have h1' : (m : Int) < n + 2 ^ (bits - 1) := by exact_mod_cast h1
  have h2' : (n : Int) < m + 2 ^ (bits - 1) := by exact_mod_cast h2
  rw [Bool.eq_iff_iff, seqNumGt_position_iff hbits ha hb hm hn, decide_eq_true_iff,
    Serial.gt_iff (by omega) (by omega)]
  omega

/-- Numbers exactly `2 ^ (bits - 1)` apart are not comparable. -/
theorem seqNumGt_opposite {bits a b base m n : Nat} (hbits : 0 < bits) (ha : a < 2 ^ bits)
    (hb : b < 2 ^ bits) (hm : a ≡ base + m [MOD 2 ^ bits]) (hn : b ≡ base + n [MOD 2 ^ bits])
    (h : m = n + 2 ^ (bits - 1) ∨ n = m + 2 ^ (bits - 1)) : seqNumGt bits a b = false := by
  have h' : (m : Int) = n + 2 ^ (bits - 1) ∨ (n : Int) = m + 2 ^ (bits - 1) := by exact_mod_cast h
  rw [← Bool.not_eq_true, seqNumGt_position_iff hbits ha hb hm hn]
  exact Serial.not_gt_of_opposite (by positivity) (by omega)

/-! ## Positions of 16-bit numbers -/

/-- Positions on the line of integers compare as their numbers do, as long as they are near. -/
theorem seqNum16Gt_emod {x y : Int} (h1 : x - y < 2 ^ 15) (h2 : y - x < 2 ^ 15) :
    seqNum16Gt (x % 2 ^ 16).toNat (y % 2 ^ 16).toNat = decide (y < x) := by
  have hcast : ∀ z : Int, (((z % 2 ^ 16).toNat : Nat) : Int) = z % (2 * 2 ^ 15) := by
    intro z
    omega
  rw [Bool.eq_iff_iff, seqNumGt_iff (by decide) (by omega) (by omega), hcast, hcast, Serial.gt_emod,
    Serial.gt_iff (by omega) (by omega), decide_eq_true_iff]

theorem seqNum16Gt_mod {x y : Nat} (hxy : x < y + 2 ^ 15) (hyx : y < x + 2 ^ 15) :
    seqNum16Gt (x % 2 ^ 16) (y % 2 ^ 16) = decide (y < x) := by
  have hcast : ∀ n : Nat, ((n : Int) % 2 ^ 16).toNat = n % 2 ^ 16 := fun n => by omega
  rw [← hcast x, ← hcast y, seqNum16Gt_emod (by omega) (by omega)]
  exact decide_eq_decide.mpr Int.ofNat_lt

/-! ## Positions of 32-bit numbers

`start + n` modulo `2 ^ 32` is the number of the `n`-th element of a stream that begins at
`start`. Positions less than `2 ^ 31` apart compare as their numbers do.
-/

/-- The number of position `n` in a stream whose first number is `start`. -/
def seqAt (start n : Nat) : Nat := (start + n) % 2 ^ 32

theorem seqAt_lt (start n : Nat) : seqAt start n < 2 ^ 32 := Nat.mod_lt _ (by decide)

theorem seqAt_add (start n k : Nat) : (seqAt start n + k) % 2 ^ 32 = seqAt start (n + k) := by
  unfold seqAt
  omega

theorem seqAt_modEq (start n : Nat) : seqAt start n ≡ start + n [MOD 2 ^ 32] := Nat.mod_modEq _ _

theorem seqNum32Gt_seqAt {start m n : Nat} (h1 : m < n + 2 ^ 31) (h2 : n < m + 2 ^ 31) :
    seqNum32Gt (seqAt start m) (seqAt start n) = decide (n < m) :=
  seqNumGt_position (by decide) (seqAt_lt start m) (seqAt_lt start n) (seqAt_modEq start m)
    (seqAt_modEq start n) h1 h2

/-- Numbers exactly `2 ^ 31` apart are not comparable. -/
theorem seqNum32Gt_opposite {start m n : Nat} (h : m = n + 2 ^ 31 ∨ n = m + 2 ^ 31) :
    seqNum32Gt (seqAt start m) (seqAt start n) = false :=
  seqNumGt_opposite (by decide) (seqAt_lt start m) (seqAt_lt start n) (seqAt_modEq start m)
    (seqAt_modEq start n) h

end Chiaki
