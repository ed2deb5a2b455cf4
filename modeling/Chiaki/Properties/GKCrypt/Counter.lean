import Chiaki.GMac
import Chiaki.Properties.GKCrypt.KeyStream

/-!
# The carry of `counter_add`

The carry and what is left of the summand are one variable, and the loop ends when it is zero. What it has not
reached is copied, so that all 16 bytes are those of the sum (`counterAddMem_right`), and only the two arrays
are touched.
-/

namespace Chiaki

open Infra Infra.LittleEndian

variable {base out : Bytes} {v i : Nat}

/-! ## The loop over the arrays -/

/-- One byte of the sum, and what the bytes behind it are. -/
theorem counterAddLoop_cons (b : UInt8) (base : Bytes) (v : Nat) : counterAddLoop (b :: base) v =
    UInt8.ofNat ((b.toNat + v) % 2 ^ 64) ::
      if (b.toNat + v) % 2 ^ 64 / 2 ^ 8 = 0 then base else counterAddLoop base ((b.toNat + v) % 2 ^ 64 / 2 ^ 8) := rfl

/-- **The loop from byte `i`**: in front of where it ends there is the sum, if the rest is that of `base`. -/
theorem counterAddMemLoop_eq (hbase : base.length = gkcryptBlockSize) (hout : out.length = gkcryptBlockSize)
    (hi : i < gkcryptBlockSize) : ∃ j out', counterAddMemLoop out base v i = .ok (j, out') ∧
      j ≤ gkcryptBlockSize ∧ out'.length = gkcryptBlockSize ∧
      out'.take j ++ base.drop j = out.take i ++ counterAddLoop (base.drop i) v := by
  induction hn : gkcryptBlockSize - i generalizing i out v with
  | zero => omega
  | succ n ih =>
    have hread : base[i]? = some base[i] := List.getElem?_eq_getElem (by omega)
    have hdrop : base.drop i = base[i] :: base.drop (i + 1) := List.drop_eq_getElem_cons (by omega)
    rw [counterAddMemLoop, hread, hdrop, counterAddLoop_cons]
    simp only
    rw [if_neg (by omega)]
    generalize (base[i].toNat + v) % 2 ^ 64 = r
    have hset : (out.set i (UInt8.ofNat r)).length = gkcryptBlockSize := by rw [List.length_set, hout]
    have htake : (out.set i (UInt8.ofNat r)).take (i + 1) = out.take i ++ [UInt8.ofNat r] := by
      rw [List.take_succ_eq_append_getElem (by omega), List.getElem_set_self, List.take_set_of_le (Nat.le_refl i)]
    by_cases hgo : i + 1 < gkcryptBlockSize ∧ r / 2 ^ 8 ≠ 0
    · obtain ⟨j, out', hloop, hj, hlen, heq⟩ := ih hset hgo.1 (by omega)
      rw [dif_pos hgo, hloop, if_neg hgo.2]
      refine ⟨j, out', rfl, hj, hlen, ?_⟩
      rw [heq, htake, List.append_assoc, List.singleton_append]
    · rw [dif_neg hgo]
      refine ⟨i + 1, _, rfl, hi, hset, ?_⟩
      rw [htake, List.append_assoc, List.singleton_append]
      split
      · rfl
      · next hcarry =>
        -- the carry leaves the block
        have hend : base.drop (i + 1) = [] := List.drop_eq_nil_of_le (by omega)
        rw [hend]
        rfl

/-- The copy behind the loop fills `out`. -/
theorem counterAddMem_of_length (hbase : base.length = gkcryptBlockSize) (hout : out.length = gkcryptBlockSize) :
    counterAddMem out base v = .ok (counterAddLoop base v) := by
  obtain ⟨j, out', hloop, hj, hlen, heq⟩ := @counterAddMemLoop_eq base out v 0 hbase hout (by decide)
  rw [List.take_zero, List.nil_append, List.drop_zero] at heq
  rw [← heq]
  unfold counterAddMem
  simp only [hloop, bind, Except.bind]
  split
  · rw [if_neg (by omega)]
    have hslice : slice base j (gkcryptBlockSize - j) = base.drop j :=
      List.take_of_length_le (by rw [List.length_drop]; omega)
    have hrest : out'.drop (j + (base.drop j).length) = [] :=
      List.drop_eq_nil_of_le (by rw [List.length_drop]; omega)
    rw [hslice, splice, hrest, List.append_nil]
    rfl
  · next hfull =>
    rw [List.take_of_length_le (by omega), List.drop_eq_nil_of_le (by omega), List.append_nil]
    rfl

/-- The arrays are never left, and `out` is what the bytes alone say. -/
theorem counterAddMem_eq (out base : Block) (v : Nat) :
    counterAddMem out.toList base.toList v = .ok (counterAdd base v).toList :=
  counterAddMem_of_length Vector.length_toList Vector.length_toList

/-! ## Positions -/

/-- Neither the block number of a position nor the offset of its GMAC key is too large. -/
theorem counterAdd_summands {keyPos : Nat} (hpos : keyPos < 2 ^ 64) :
    keyPos / gkcryptBlockSize + 255 < 2 ^ 64 ∧
      gmacKeyIndex keyPos * gkcryptGmacKeyRefreshIvOffset + 255 < 2 ^ 64 := by
  have hindex : gmacKeyIndex keyPos * gkcryptGmacKeyRefreshKeyPos ≤ keyPos := by
    unfold gmacKeyIndex
    refine (Nat.div_mul_le_self _ _).trans ?_
    split <;> omega
  unfold gkcryptBlockSize gkcryptGmacKeyRefreshIvOffset
  unfold gkcryptGmacKeyRefreshKeyPos at hindex
  omega

/-- **`counter_add` writes the sum** to all bytes of `out`, and does so for every position. -/
theorem counterAddMem_right (out base : Block) {v : Nat} (hv : v + 255 < 2 ^ 64) :
    counterAddMem out.toList base.toList v = .ok (bytes gkcryptBlockSize ((base.value + v) % 2 ^ 128)) ∧
      ∀ keyPos, keyPos < 2 ^ 64 →
        counterAddMem out.toList base.toList (keyPos / gkcryptBlockSize)
          = .ok (bytes gkcryptBlockSize ((base.value + keyPos / gkcryptBlockSize) % 2 ^ 128)) ∧
        counterAddMem out.toList base.toList (gmacKeyIndex keyPos * gkcryptGmacKeyRefreshIvOffset % 2 ^ 64)
          = .ok (bytes gkcryptBlockSize
            ((base.value + gmacKeyIndex keyPos * gkcryptGmacKeyRefreshIvOffset) % 2 ^ 128)) := by
  have hadd : ∀ {v : Nat}, v + 255 < 2 ^ 64 → counterAddMem out.toList base.toList v
      = .ok (bytes gkcryptBlockSize ((base.value + v) % 2 ^ 128)) := fun {v} hv => by
    have hmod : Block.ofNat (base.value + v) = Block.ofNat ((base.value + v) % 2 ^ 128) := Block.value_inj (by
      rw [Block.value_ofNat, Block.value_ofNat, Nat.mod_mod])
    rw [counterAddMem_eq, counterAdd_eq hv, hmod]
    rfl
  refine ⟨hadd hv, fun keyPos hpos => ?_⟩
  obtain ⟨hblock, hkey⟩ := counterAdd_summands hpos
  rw [Nat.mod_eq_of_lt (by omega : gmacKeyIndex keyPos * gkcryptGmacKeyRefreshIvOffset < 2 ^ 64)]
  exact ⟨hadd hblock, hadd hkey⟩

theorem counterAddMem_right_carry :
    counterAddMem (Vector.replicate 16 7 : Block).toList (Vector.replicate 16 255 : Block).toList 1
        = .ok (bytes gkcryptBlockSize 0) :=
  (counterAddMem_right (Vector.replicate 16 7) (Vector.replicate 16 255) (v := 1) (by decide)).1.trans (by
    decide +kernel)

end Chiaki
