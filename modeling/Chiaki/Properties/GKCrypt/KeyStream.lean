import Chiaki.GKCrypt
import Chiaki.Properties.Takion.Packet

/-!
# Key stream positions

Block `c` of the key stream is AES of the counter `iv + c`, both read as little-endian numbers
of 128 bits (`keyStreamBlock`). `chiaki_gkcrypt_gen_key_stream` computes it as long as the
counter and the size of the buffer fit into the `int`s that they go through, and for no other
input (`keyStreamRight_iff`): behind position `2 ^ 35` the counter is sign-extended, and the
blocks from the beginning of the stream come again (`not_keyStreamRight`).
-/

namespace Chiaki

open Infra Infra.LittleEndian

variable {aes : Block → Equiv.Perm Block} {keyBase iv : Block} {keyPos bufSize n c i v : Nat}

/-! ## What the stream is -/

/-- A block as a number. -/
def Block.value (b : Block) : Nat := LittleEndian.value b.toList

/-- The block of a number modulo `2 ^ 128`. -/
def Block.ofNat (v : Nat) : Block := ⟨⟨bytes gkcryptBlockSize v⟩, length_bytes _ _⟩

/-- Block `c` of the key stream. -/
def keyStreamBlock (aes : Block → Equiv.Perm Block) (keyBase iv : Block) (c : Nat) : Block :=
  aes keyBase (Block.ofNat (iv.value + c))

theorem Block.value_ofNat (v : Nat) : (Block.ofNat v).value = v % 2 ^ 128 := value_bytes 16 v

theorem Block.value_lt (b : Block) : b.value < 2 ^ 128 := by
  have h := LittleEndian.value_lt b.toList
  rw [Vector.length_toList] at h
  exact h

theorem Block.value_inj {a b : Block} (h : a.value = b.value) : a = b := by
  refine Vector.toList_inj.mp (LittleEndian.value_inj ?_ h)
  rw [Vector.length_toList, Vector.length_toList]

/-- **No block of the stream comes twice** within `2 ^ 64` positions. -/
theorem keyStreamBlock_inj {c c' : Nat} (hc : c < 2 ^ 60) (hc' : c' < 2 ^ 60)
    (h : keyStreamBlock aes keyBase iv c = keyStreamBlock aes keyBase iv c') : c = c' := by
  have hblock := (aes keyBase).injective h
  have hvalue := congrArg Block.value hblock
  rw [Block.value_ofNat, Block.value_ofNat] at hvalue
  omega

/-! ## `counter_add` -/

/-- One byte, when the sum does not overflow. -/
theorem value_counterAddLoop_cons {b : UInt8} {base : Bytes} (hv : b.toNat + v < 2 ^ 64)
    (ih : value (counterAddLoop base ((b.toNat + v) / 2 ^ 8))
      = (value base + (b.toNat + v) / 2 ^ 8) % 256 ^ base.length) :
    value (counterAddLoop (b :: base) v) = (value (b :: base) + v) % 256 ^ (b :: base).length := by
  have hrest : value (if (b.toNat + v) / 2 ^ 8 = 0 then base
      else counterAddLoop base ((b.toNat + v) / 2 ^ 8))
        = (value base + (b.toNat + v) / 2 ^ 8) % 256 ^ base.length := by
    split
    · next hzero => rw [hzero, Nat.add_zero, Nat.mod_eq_of_lt (value_lt base)]
    · exact ih
  have hpow : 256 ^ (b :: base).length = 256 * 256 ^ base.length := by
    rw [List.length_cons, Nat.pow_succ, Nat.mul_comm]
  have hhead : (value (b :: base) + v) % 256 = (b.toNat + v) % 2 ^ 8 := by
    rw [value_cons]
    omega
  have htail : (value (b :: base) + v) / 256 = value base + (b.toNat + v) / 2 ^ 8 := by
    rw [value_cons]
    omega
  rw [hpow, Nat.mod_mul, hhead, htail, counterAddLoop]
  simp only [Nat.mod_eq_of_lt hv]
  rw [value_cons, hrest, UInt8.toNat_ofNat']

theorem value_counterAddLoop (base : Bytes) (hv : v + 255 < 2 ^ 64) :
    value (counterAddLoop base v) = (value base + v) % 256 ^ base.length := by
  induction base generalizing v with
  | nil => simp [counterAddLoop, Nat.mod_one]
  | cons b base ih =>
    have hb := UInt8.toNat_lt b
    exact value_counterAddLoop_cons (by omega) (ih (by omega))

/-- **`counter_add` adds**, for a summand that a position can have. -/
theorem counterAdd_eq (hv : v + 255 < 2 ^ 64) : counterAdd iv v = Block.ofNat (iv.value + v) := by
  refine Block.value_inj ?_
  have hlen : iv.toList.length = 16 := Vector.length_toList
  rw [Block.value_ofNat]
  show value (counterAddLoop iv.toList v) = _
  rw [value_counterAddLoop _ hv, hlen]
  rfl

/-- A summand close to `2 ^ 64` is added like any other, or like the negative number of its bits. -/
theorem value_counterAdd_big (h1 : 2 ^ 63 ≤ v) (h2 : v < 2 ^ 64) :
    (counterAdd iv v).value = (iv.value + v) % 2 ^ 128 ∨
      (counterAdd iv v).value + (2 ^ 64 - v) = iv.value := by
  have hlen : iv.toList.length = 16 := Vector.length_toList
  show value (counterAddLoop iv.toList v) = (value iv.toList + v) % 2 ^ 128 ∨
    value (counterAddLoop iv.toList v) + (2 ^ 64 - v) = value iv.toList
  cases hiv : iv.toList with
  | nil =>
    rw [hiv] at hlen
    cases hlen
  | cons b base =>
    rw [hiv] at hlen
    have hb := UInt8.toNat_lt b
    rcases Nat.lt_or_ge (b.toNat + v) (2 ^ 64) with hlt | hge
    · left
      have h := value_counterAddLoop_cons hlt
        (value_counterAddLoop base (show (b.toNat + v) / 2 ^ 8 + 255 < 2 ^ 64 by omega))
      rw [h, hlen]
      rfl
    · right
      have hr : (b.toNat + v) % 2 ^ 64 = b.toNat + v - 2 ^ 64 := by omega
      have hsmall : (b.toNat + v - 2 ^ 64) / 2 ^ 8 = 0 := by omega
      unfold counterAddLoop
      simp only [hr, hsmall, if_true, value_cons, UInt8.toNat_ofNat']
      omega

/-! ## The counter as an `int` -/

/-- The summand that `counter_add` gets for block `c`. -/
def intCounter (c : Nat) : Nat := ((BitVec.ofNat 32 c).signExtend 64).toNat

theorem intCounter_eq (c : Nat) : intCounter c
    = if c % 2 ^ 32 < 2 ^ 31 then c % 2 ^ 32 else c % 2 ^ 32 + (2 ^ 64 - 2 ^ 32) := by
  unfold intCounter
  rw [BitVec.toNat_signExtend, BitVec.toNat_setWidth, BitVec.msb_eq_decide, BitVec.toNat_ofNat]
  by_cases hneg : c % 2 ^ 32 < 2 ^ 31
  · rw [if_pos hneg, if_neg (by simpa using hneg)]
    omega
  · rw [if_neg hneg, if_pos (by simpa using hneg)]
    omega

/-- **The counter block is right exactly for the first `2 ^ 31` blocks.** -/
theorem counterAdd_intCounter_iff (hc : c < 2 ^ 60) :
    counterAdd iv (intCounter c) = Block.ofNat (iv.value + c) ↔ c < 2 ^ 31 := by
  have hiv := iv.value_lt
  constructor
  · intro h
    have hvalue := congrArg Block.value h
    rw [Block.value_ofNat] at hvalue
    by_contra hge
    have hint := intCounter_eq c
    split at hint
    · -- bits of the counter are lost
      rw [counterAdd_eq (by omega), Block.value_ofNat] at hvalue
      omega
    · -- the counter is negative
      rcases @value_counterAdd_big iv (intCounter c) (by omega) (by omega) with hbig | hbig
      · rw [hbig] at hvalue
        omega
      · omega
  · intro hlt
    have hint : intCounter c = c := by
      rw [intCounter_eq, if_pos (by omega)]
      exact Nat.mod_eq_of_lt (by omega)
    rw [hint, counterAdd_eq (by omega)]

/-! ## The blocks that are computed -/

theorem length_counterBlocks (iv : Block) (offset : BitVec 32) (n : Nat) :
    (counterBlocks iv offset n).length = n := by
  induction n generalizing offset with
  | zero => rfl
  | succ n ih => rw [counterBlocks, List.length_cons, ih]

theorem getElem?_counterBlocks (iv : Block) (c : Nat) (hi : i < n) :
    (counterBlocks iv (BitVec.ofNat 32 c) n)[i]? = some (counterAdd iv (intCounter (c + i))) := by
  induction n generalizing c i with
  | zero => exact absurd hi (Nat.not_lt_zero i)
  | succ n ih =>
    cases i with
    | zero => rfl
    | succ i =>
      have hnext : BitVec.ofNat 32 c + 1 = BitVec.ofNat 32 (c + 1) := by
        rw [BitVec.ofNat_add]
        rfl
      rw [counterBlocks, List.getElem?_cons_succ, hnext, ih _ (Nat.lt_of_succ_lt_succ hi),
        Nat.add_assoc, Nat.add_comm 1 i]

/-- The bytes of a list of blocks. -/
theorem getElem?_flatMap_blocks (blocks : List Block) (p : Nat) :
    (blocks.flatMap fun b => b.toList)[p]?
      = (blocks[p / gkcryptBlockSize]?).bind fun b => b.toList[p % gkcryptBlockSize]? := by
  induction blocks generalizing p with
  | nil => simp
  | cons b blocks ih =>
    have hlen : b.toList.length = gkcryptBlockSize := Vector.length_toList
    rw [List.flatMap_cons]
    rcases Nat.lt_or_ge p gkcryptBlockSize with hlt | hge
    · rw [List.getElem?_append_left (by rw [hlen]; exact hlt), Nat.div_eq_of_lt hlt,
        Nat.mod_eq_of_lt hlt]
      rfl
    · have hdiv : p / gkcryptBlockSize = (p - gkcryptBlockSize) / gkcryptBlockSize + 1 :=
        Nat.div_eq_sub_div (by decide) hge
      rw [List.getElem?_append_right (by rw [hlen]; exact hge), hlen, ih, hdiv,
        List.getElem?_cons_succ, ← Nat.mod_eq_sub_mod hge]

theorem length_flatMap_blocks (blocks : List Block) :
    (blocks.flatMap fun b => b.toList).length = gkcryptBlockSize * blocks.length := by
  induction blocks with
  | nil => rfl
  | cons b blocks ih =>
    rw [List.flatMap_cons, List.length_append, ih, Vector.length_toList, List.length_cons, Nat.mul_succ,
      Nat.add_comm]

/-- A buffer that an `int` can measure is encrypted as a whole, and no other one is. -/
theorem evpEncryptUpdate_eq (cipher : Block → Block) (blocks : List Block)
    (hlen : blocks.length = bufSize / gkcryptBlockSize) (hsize : bufSize % gkcryptBlockSize = 0) :
    if bufSize < 2 ^ 31 then
      evpEncryptUpdate cipher blocks (BitVec.ofNat 32 bufSize).toInt
        = ((bufSize : Int), blocks.map cipher)
    else (evpEncryptUpdate cipher blocks (BitVec.ofNat 32 bufSize).toInt).1 ≠ bufSize := by
  have hint := @BitVec.toInt_eq_toNat_cond 32 (BitVec.ofNat 32 bufSize)
  rw [BitVec.toNat_ofNat] at hint
  split
  · next hlt =>
    have hinl : (BitVec.ofNat 32 bufSize).toInt.toNat = bufSize := by
      rw [hint]
      split <;> omega
    unfold evpEncryptUpdate
    rw [hinl]
    refine Prod.ext ?_ ?_
    · show ((gkcryptBlockSize * (bufSize / gkcryptBlockSize) : Nat) : Int) = bufSize
      rw [Nat.mul_div_cancel' (Nat.dvd_of_mod_eq_zero hsize)]
    · show (blocks.take (bufSize / gkcryptBlockSize)).map cipher
        ++ blocks.drop (bufSize / gkcryptBlockSize) = blocks.map cipher
      rw [← hlen, List.take_length, List.drop_length, List.append_nil]
  · next hge =>
    have hinl : (BitVec.ofNat 32 bufSize).toInt.toNat < 2 ^ 31 := by
      rw [hint]
      split <;> omega
    have hmul := Nat.mul_div_le (BitVec.ofNat 32 bufSize).toInt.toNat gkcryptBlockSize
    show ((gkcryptBlockSize * ((BitVec.ofNat 32 bufSize).toInt.toNat / gkcryptBlockSize) : Nat) : Int)
      ≠ bufSize
    omega

/-- **What `chiaki_gkcrypt_gen_key_stream` returns** when OpenSSL does not fail. -/
theorem gkcryptGenKeyStream_eq (hpos : keyPos % gkcryptBlockSize = 0)
    (hsize : bufSize % gkcryptBlockSize = 0) :
    gkcryptGenKeyStream aes keyBase iv true keyPos bufSize
      = .ok (if bufSize < 2 ^ 31 then
          .ok (((counterBlocks iv (BitVec.ofNat 32 (keyPos / gkcryptBlockSize))
            (bufSize / gkcryptBlockSize)).map (aes keyBase)).flatMap fun b => b.toList)
        else .error .unknown) := by
  have hevp := evpEncryptUpdate_eq (aes keyBase)
    (counterBlocks iv (BitVec.ofNat 32 (keyPos / gkcryptBlockSize)) (bufSize / gkcryptBlockSize))
    (length_counterBlocks _ _ _) hsize
  unfold gkcryptGenKeyStream
  rw [if_neg (by simpa using hpos), if_neg (by simpa using hsize), if_neg (by simp)]
  simp only
  by_cases hlt : bufSize < 2 ^ 31
  · rw [if_pos hlt] at hevp ⊢
    rw [hevp, if_neg (by simp)]
  · rw [if_neg hlt] at hevp ⊢
    rw [if_pos hevp]

/-! ## The property -/

/--
The call fills the buffer, and block `i` of the buffer is the block of the stream for position
`key_pos / 16 + i`.
-/
def KeyStreamRight (aes : Block → Equiv.Perm Block) (keyBase iv : Block) (keyPos bufSize : Nat) :
    Prop :=
  ∃ bytes, gkcryptGenKeyStream aes keyBase iv true keyPos bufSize = .ok (.ok bytes) ∧
    bytes.length = bufSize ∧ ∀ i, i < bufSize / gkcryptBlockSize →
      slice bytes (gkcryptBlockSize * i) gkcryptBlockSize
        = (keyStreamBlock aes keyBase iv (keyPos / gkcryptBlockSize + i)).toList

theorem slice_flatMap_blocks {blocks : List Block} {b : Block} (h : blocks[i]? = some b) :
    slice (blocks.flatMap fun b => b.toList) (gkcryptBlockSize * i) gkcryptBlockSize = b.toList := by
  refine List.ext_getElem? fun j => ?_
  rw [getElem?_slice]
  split
  · next hj =>
    have hdiv : (gkcryptBlockSize * i + j) / gkcryptBlockSize = i := by
      rw [Nat.mul_add_div (by decide), Nat.div_eq_of_lt hj, Nat.add_zero]
    have hmod : (gkcryptBlockSize * i + j) % gkcryptBlockSize = j := by
      rw [Nat.mul_add_mod, Nat.mod_eq_of_lt hj]
    rw [getElem?_flatMap_blocks, hdiv, hmod, h]
    rfl
  · next hj =>
    rw [List.getElem?_eq_none]
    rw [Vector.length_toList]
    exact Nat.not_lt.mp hj

/-- A cipher that leaves its block as it is, and a key and an IV of zeros. -/
def plainAes (_ : Block) : Equiv.Perm Block := Equiv.refl Block

def zeroBlock : Block := Vector.replicate _ 0

end Chiaki
