import Chiaki.Seqnum

/-!
# The laws of sequence numbers

The macro compares the raw numbers first and then their difference in `greater_sint`. That type holds every
difference (`seqNumGtSint_eq`), so the machine's comparison is the serial one, and the laws of the circle are
its laws (`seqNumLaws`).
-/

namespace Chiaki

open Infra

variable {bits sint : Nat} {a b c : BitVec bits}

theorem two_pow_succ_le {m n : Nat} (h : m < n) : 2 * 2 ^ m ≤ 2 ^ n := by
  rw [← pow_succ']
  exact Nat.pow_le_pow_right (by decide) h

/-- A number keeps its value in `greater_sint`. -/
theorem toInt_setWidth_sint (hsint : bits < sint) (a : BitVec bits) : (a.setWidth sint).toInt = a.toNat := by
  have hpow := two_pow_succ_le hsint
  have ha := a.isLt
  have hval : (a.setWidth sint).toNat = a.toNat := by
    rw [BitVec.toNat_setWidth, Nat.mod_eq_of_lt (by omega)]
  rw [BitVec.toInt_eq_toNat_of_lt (by omega), hval]

/-- `greater_sint` holds the difference. -/
theorem toInt_sub_sint (hsint : bits < sint) (a b : BitVec bits) :
    (b.setWidth sint - a.setWidth sint).toInt = (b.toNat : Int) - a.toNat := by
  have hpow := two_pow_succ_le hsint
  have ha := a.isLt
  have hb := b.isLt
  rw [BitVec.toInt_sub, toInt_setWidth_sint hsint, toInt_setWidth_sint hsint]
  exact Int.bmod_eq_of_le (by omega) (by omega)

theorem toInt_neg_sub_sint (hsint : bits < sint) (a b : BitVec bits) :
    (-(b.setWidth sint - a.setWidth sint)).toInt = -((b.toNat : Int) - a.toNat) := by
  rw [BitVec.neg_sub, BitVec.add_comm, ← BitVec.sub_eq_add_neg, toInt_sub_sint hsint]
  omega

theorem beq_toNat (a b : BitVec bits) : (a == b) = (a.toNat == b.toNat) := by
  rw [Bool.eq_iff_iff, beq_iff_eq, beq_iff_eq, BitVec.toNat_inj]

theorem toInt_half_sint (hbits : 0 < bits) (hsint : bits < sint) :
    (BitVec.ofNat sint 1 <<< (bits - 1)).toInt = 2 ^ (bits - 1) := by
  have hpow := two_pow_succ_le hsint
  have hhalf := two_pow_succ_le (Nat.sub_one_lt hbits.ne')
  have hpos := Nat.two_pow_pos (bits - 1)
  have hval : (BitVec.ofNat sint 1 <<< (bits - 1)).toNat = 2 ^ (bits - 1) := by
    rw [BitVec.toNat_shiftLeft, BitVec.toNat_ofNat, Nat.shiftLeft_eq,
      Nat.mod_eq_of_lt (Nat.one_lt_two_pow (by omega)), one_mul, Nat.mod_eq_of_lt (by omega)]
  rw [BitVec.toInt_eq_toNat_of_lt (by omega), hval]
  push_cast
  rfl

/-- Nothing overflows: the comparison of the machine's numbers is that of their values. -/
theorem seqNumGtSint_eq (hbits : 0 < bits) (hsint : bits < sint) (a b : BitVec bits) :
    seqNumGtSint sint a b = seqNumGt bits a.toNat b.toNat := by
  unfold seqNumGtSint seqNumGt
  simp only [BitVec.slt, BitVec.ult, toInt_sub_sint hsint, toInt_neg_sub_sint hsint,
    toInt_half_sint hbits hsint, beq_toNat]

theorem seqNumLtSint_eq (hbits : 0 < bits) (hsint : bits < sint) (a b : BitVec bits) :
    seqNumLtSint sint a b = seqNumLt bits a.toNat b.toNat := by
  unfold seqNumLtSint seqNumLt
  simp only [BitVec.slt, BitVec.ult, toInt_sub_sint hsint, toInt_neg_sub_sint hsint,
    toInt_half_sint hbits hsint, beq_toNat]

/-! ## The laws -/

/-- The difference on the circle is the machine's. -/
theorem ahead_toNat (hbits : 0 < bits) (a b : BitVec bits) :
    Serial.ahead (2 ^ (bits - 1)) a.toNat b.toNat = (a - b).toNat := by
  have hb := b.isLt
  unfold Serial.ahead
  rw [← two_pow_half hbits, BitVec.toNat_sub]
  push_cast [Nat.cast_sub hb.le]
  rw [← Int.add_emod_right]
  congr 1
  omega

theorem seqNumGtSint_serial (hbits : 0 < bits) (hsint : bits < sint) (a b : BitVec bits) :
    seqNumGtSint sint a b = true ↔ Serial.Gt (2 ^ (bits - 1)) a.toNat b.toNat := by
  rw [seqNumGtSint_eq hbits hsint, seqNumGt_iff hbits a.isLt b.isLt]

/-- What the users of sequence numbers rest on. -/
structure SeqNumLaws (bits sint : Nat) : Prop where
  gt_iff : ∀ a b : BitVec bits, seqNumGtSint sint a b = true ↔ 0 < (a - b).toNat ∧ (a - b).toNat < 2 ^ (bits - 1)
  lt_eq_gt : ∀ a b : BitVec bits, seqNumLtSint sint a b = seqNumGtSint sint b a
  gt_add : ∀ a b c : BitVec bits, seqNumGtSint sint (a + c) (b + c) = seqNumGtSint sint a b
  lt_add : ∀ a b c : BitVec bits, seqNumLtSint sint (a + c) (b + c) = seqNumLtSint sint a b
  trichotomy : ∀ a b : BitVec bits, (a - b).toNat ≠ 2 ^ (bits - 1) →
    (a = b ∧ seqNumLtSint sint a b = false ∧ seqNumGtSint sint a b = false) ∨
    (a ≠ b ∧ seqNumLtSint sint a b = true ∧ seqNumGtSint sint a b = false) ∨
    (a ≠ b ∧ seqNumLtSint sint a b = false ∧ seqNumGtSint sint a b = true)
  gt_trans : ∀ (arc : Set (BitVec bits)) (start : BitVec bits), (∀ a ∈ arc, (a - start).toNat < 2 ^ (bits - 1)) →
    ∀ a ∈ arc, ∀ b ∈ arc, ∀ c ∈ arc,
      seqNumGtSint sint a b = true → seqNumGtSint sint b c = true → seqNumGtSint sint a c = true

section

variable (hbits : 0 < bits) (hsint : bits < sint)

include hbits hsint

theorem seqNumGtSint_iff (a b : BitVec bits) :
    seqNumGtSint sint a b = true ↔ 0 < (a - b).toNat ∧ (a - b).toNat < 2 ^ (bits - 1) := by
  rw [seqNumGtSint_serial hbits hsint, Serial.Gt, ahead_toNat hbits]
  exact_mod_cast Iff.rfl

theorem seqNumLtSint_eq_gt (a b : BitVec bits) : seqNumLtSint sint a b = seqNumGtSint sint b a := by
  rw [seqNumLtSint_eq hbits hsint, seqNumGtSint_eq hbits hsint, seqNumLt_eq_gt]

theorem seqNumGtSint_add (a b c : BitVec bits) : seqNumGtSint sint (a + c) (b + c) = seqNumGtSint sint a b := by
  rw [Bool.eq_iff_iff, seqNumGtSint_serial hbits hsint, seqNumGtSint_serial hbits hsint, BitVec.toNat_add,
    BitVec.toNat_add]
  push_cast
  rw [two_pow_half hbits, Serial.gt_emod, Serial.gt_add_right]

theorem seqNumGtSint_asymm (a b : BitVec bits) (hgt : seqNumGtSint sint a b = true) :
    seqNumGtSint sint b a = false := by
  rw [seqNumGtSint_serial hbits hsint] at hgt
  rw [← Bool.not_eq_true, seqNumGtSint_serial hbits hsint]
  exact Serial.not_gt_of_gt (by positivity) hgt

theorem seqNumGtSint_or (a b : BitVec bits) (hne : a ≠ b) (hopp : (a - b).toNat ≠ 2 ^ (bits - 1)) :
    seqNumGtSint sint a b = true ∨ seqNumGtSint sint b a = true := by
  rw [seqNumGtSint_serial hbits hsint, seqNumGtSint_serial hbits hsint]
  have hzero : (a - b).toNat ≠ 0 := by
    rw [Ne, ← BitVec.toNat_zero, BitVec.toNat_inj, BitVec.sub_eq_iff_eq_add, BitVec.zero_add]
    exact hne
  refine Serial.gt_or_gt (by positivity) ?_ ?_
  · rw [ahead_toNat hbits]
    exact_mod_cast hzero
  · rw [ahead_toNat hbits]
    exact_mod_cast hopp

theorem seqNumGtSint_trans {start : BitVec bits} (ha : (a - start).toNat < 2 ^ (bits - 1))
    (hb : (b - start).toNat < 2 ^ (bits - 1)) (hc : (c - start).toNat < 2 ^ (bits - 1))
    (hab : seqNumGtSint sint a b = true) (hbc : seqNumGtSint sint b c = true) : seqNumGtSint sint a c = true := by
  have hnear : ∀ {x : BitVec bits}, (x - start).toNat < 2 ^ (bits - 1) →
      Serial.ahead (2 ^ (bits - 1)) x.toNat start.toNat < 2 ^ (bits - 1) := fun {x} hx => by
    rw [ahead_toNat hbits]
    exact_mod_cast hx
  have hiff : ∀ {x y : BitVec bits}, (x - start).toNat < 2 ^ (bits - 1) → (y - start).toNat < 2 ^ (bits - 1) →
      (seqNumGtSint sint x y = true ↔ Serial.ahead (2 ^ (bits - 1)) y.toNat start.toNat
        < Serial.ahead (2 ^ (bits - 1)) x.toNat start.toNat) := fun {x y} hx hy => by
    rw [seqNumGtSint_serial hbits hsint, Serial.gt_iff_of_arc (by positivity) (hnear hx) (hnear hy)]
  rw [hiff ha hb] at hab
  rw [hiff hb hc] at hbc
  rw [hiff ha hc]
  exact hbc.trans hab

end

/-- **Serial number arithmetic**, for each width that the macro is used with. -/
theorem seqNumLaws (hbits : 0 < bits) (hsint : bits < sint) : SeqNumLaws bits sint where
  gt_iff := seqNumGtSint_iff hbits hsint
  lt_eq_gt := seqNumLtSint_eq_gt hbits hsint
  gt_add := seqNumGtSint_add hbits hsint
  lt_add a b c := by
    rw [seqNumLtSint_eq_gt hbits hsint, seqNumLtSint_eq_gt hbits hsint, seqNumGtSint_add hbits hsint]
  trichotomy a b hopp := by
    rw [seqNumLtSint_eq_gt hbits hsint]
    by_cases hab : a = b
    · subst hab
      refine Or.inl ⟨rfl, ?_, ?_⟩ <;>
      · unfold seqNumGtSint
        rw [beq_self_eq_true, if_pos rfl]
    · rcases seqNumGtSint_or hbits hsint a b hab hopp with hgt | hlt
      · exact Or.inr (Or.inr ⟨hab, seqNumGtSint_asymm hbits hsint a b hgt, hgt⟩)
      · exact Or.inr (Or.inl ⟨hab, hlt, seqNumGtSint_asymm hbits hsint b a hlt⟩)
  gt_trans arc start harc a ha b hb c hc hab hbc :=
    seqNumGtSint_trans hbits hsint (harc a ha) (harc b hb) (harc c hc) hab hbc

/-- `CHIAKI_DEFINE_SEQNUM(16, int32_t)` and `CHIAKI_DEFINE_SEQNUM(32, int64_t)` -/
theorem seqNumLaws_defined : SeqNumLaws 16 32 ∧ SeqNumLaws 32 64 :=
  ⟨seqNumLaws (by decide) (by decide), seqNumLaws (by decide) (by decide)⟩

end Chiaki
