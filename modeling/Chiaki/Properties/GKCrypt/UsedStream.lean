import Chiaki.Infra.StreamCipher
import Chiaki.Properties.GKCrypt.KeyStream

/-!
# The bytes that are used

The counter of `chiaki_gkcrypt_gen_key_stream` is an `int`. So what it generates is a stream that begins
again after `2 ^ 36` bytes, and that is the key stream up to position `2 ^ 35`.

* `usedByte_eq_iff` — the byte for a position comes again `2 ^ 36` positions later
* `gkcryptGenKeyStream_used` — what is generated is the stream from that position on
* `decryptStream_drop` — what `chiaki_gkcrypt_decrypt` takes from it begins at its position
* `gkcryptDecrypt_cases` — what is encrypted is combined with the stream of its position
-/

namespace Chiaki

open Infra Infra.StreamCipher

variable {aes : Block → Equiv.Perm Block} {keyBase iv : Block} {n : Nat}

/-! ## Bytes of the key stream -/

/-- The byte that the code uses for a position: the counter that is encrypted, and the index in
the block. -/
def usedByte (iv : Block) (pos : Nat) : Block × Nat :=
  (counterAdd iv (intCounter (pos / gkcryptBlockSize)), pos % gkcryptBlockSize)

/-- The byte of the key stream at a position. -/
def streamByte (iv : Block) (pos : Nat) : Block × Nat :=
  (Block.ofNat (iv.value + pos / gkcryptBlockSize), pos % gkcryptBlockSize)

/-- What that byte is after the encryption of the counter. -/
def keyByte (aes : Block → Equiv.Perm Block) (keyBase : Block) (b : Block × Nat) : UInt8 :=
  (aes keyBase b.1).toList.getD b.2 0

/-- What the code uses from a position on. -/
def usedKeyStream (aes : Block → Equiv.Perm Block) (keyBase iv : Block) (pos size : Nat) : Bytes :=
  (List.range size).map fun i => keyByte aes keyBase (usedByte iv (pos + i))

theorem usedByte_eq_streamByte_iff {pos : Nat} (hpos : pos < 2 ^ 64) :
    usedByte iv pos = streamByte iv pos ↔ pos < 2 ^ 35 := by
  have hblock := @counterAdd_intCounter_iff iv (pos / gkcryptBlockSize) (by
    unfold gkcryptBlockSize
    omega)
  simp only [usedByte, streamByte, Prod.mk.injEq, and_true, hblock]
  unfold gkcryptBlockSize
  omega

/-- Two counters give the same block only if they are the same `int`. -/
theorem counterAdd_intCounter_inj {c c' : Nat} :
    counterAdd iv (intCounter c) = counterAdd iv (intCounter c') ↔ c % 2 ^ 32 = c' % 2 ^ 32 := by
  have hiv := iv.value_lt
  have hint := intCounter_eq c
  have hint' := intCounter_eq c'
  constructor
  · intro heq
    have hvalue := congrArg Block.value heq
    have hcases : ∀ d, intCounter d < 2 ^ 31 ∧ (counterAdd iv (intCounter d)).value
          = (iv.value + intCounter d) % 2 ^ 128
        ∨ 2 ^ 64 - 2 ^ 31 ≤ intCounter d ∧ intCounter d < 2 ^ 64 ∧
          ((counterAdd iv (intCounter d)).value = (iv.value + intCounter d) % 2 ^ 128 ∨
            (counterAdd iv (intCounter d)).value + (2 ^ 64 - intCounter d) = iv.value) := by
      intro d
      have hd := intCounter_eq d
      by_cases hneg : d % 2 ^ 32 < 2 ^ 31
      · rw [if_pos hneg] at hd
        left
        rw [counterAdd_eq (by omega), Block.value_ofNat]
        omega
      · rw [if_neg hneg] at hd
        right
        exact ⟨by omega, by omega, value_counterAdd_big (by omega) (by omega)⟩
    have hsame : intCounter c = intCounter c' := by
      rcases hcases c with hc | hc <;> rcases hcases c' with hc' | hc' <;> omega
    split at hint <;> split at hint' <;> omega
  · intro heq
    rw [hint, hint', heq]

/-- **The byte for a position comes again exactly `2 ^ 36` positions later.** -/
theorem usedByte_eq_iff {p q : Nat} : usedByte iv p = usedByte iv q ↔ p % 2 ^ 36 = q % 2 ^ 36 := by
  simp only [usedByte, Prod.mk.injEq, counterAdd_intCounter_inj]
  unfold gkcryptBlockSize
  omega

/-! ## What is generated -/

theorem getElem?_genKeyStream {blocks : List Block} {i : Nat} {f : Block → Block} {b : Block}
    (h : blocks[i / gkcryptBlockSize]? = some b) :
    ((blocks.map f).flatMap fun b => b.toList)[i]?
      = some ((f b).toList.getD (i % gkcryptBlockSize) 0) := by
  have hlen : (f b).toList.length = gkcryptBlockSize := Vector.length_toList
  have hlt : i % gkcryptBlockSize < (f b).toList.length := by
    rw [hlen]
    exact Nat.mod_lt _ (by decide)
  rw [getElem?_flatMap_blocks, List.getElem?_map, h, List.getD_eq_getElem?_getD,
    List.getElem?_eq_getElem hlt]
  exact List.getElem?_eq_getElem hlt

/-- The blocks that are generated, as a stream. -/
theorem genKeyStream_eq {keyPos bufSize : Nat} (hpos : keyPos % gkcryptBlockSize = 0)
    (hsize : bufSize % gkcryptBlockSize = 0) :
    (((counterBlocks iv (BitVec.ofNat 32 (keyPos / gkcryptBlockSize))
        (bufSize / gkcryptBlockSize)).map (aes keyBase)).flatMap fun b => b.toList)
      = usedKeyStream aes keyBase iv keyPos bufSize := by
  refine List.ext_getElem? fun i => ?_
  rw [usedKeyStream, List.getElem?_map]
  -- the position begins a block, so block and index of the byte do not depend on it
  rcases Nat.lt_or_ge i bufSize with hlt | hge
  · have hblock : i / gkcryptBlockSize < bufSize / gkcryptBlockSize :=
      Nat.div_lt_div_of_lt_of_dvd (Nat.dvd_of_mod_eq_zero hsize) hlt
    have hdiv : (keyPos + i) / gkcryptBlockSize = keyPos / gkcryptBlockSize + i / gkcryptBlockSize :=
      Nat.add_div_of_dvd_right (Nat.dvd_of_mod_eq_zero hpos)
    have hmod : (keyPos + i) % gkcryptBlockSize = i % gkcryptBlockSize := by
      rw [Nat.add_mod, hpos, Nat.zero_add, Nat.mod_mod]
    rw [getElem?_genKeyStream (getElem?_counterBlocks iv _ hblock), List.getElem?_range hlt,
      Option.map_some, usedByte, hdiv, hmod]
    rfl
  · have hlen : gkcryptBlockSize * (bufSize / gkcryptBlockSize) = bufSize :=
      Nat.mul_div_cancel' (Nat.dvd_of_mod_eq_zero hsize)
    rw [List.getElem?_eq_none, List.getElem?_eq_none (by simpa using hge)]
    · rfl
    · rw [length_flatMap_blocks, List.length_map, length_counterBlocks, hlen]
      exact hge

/-- **What is generated is the stream from that position on.** -/
theorem gkcryptGenKeyStream_used {keyPos bufSize : Nat} (hpos : keyPos % gkcryptBlockSize = 0)
    (hsize : bufSize % gkcryptBlockSize = 0) :
    gkcryptGenKeyStream aes keyBase iv true keyPos bufSize
      = .ok (if bufSize < 2 ^ 31 then .ok (usedKeyStream aes keyBase iv keyPos bufSize)
        else .error .unknown) := by
  rw [gkcryptGenKeyStream_eq hpos hsize, genKeyStream_eq hpos hsize]

/-! ## `chiaki_gkcrypt_decrypt` -/

/-- The byte that the code generates for a position. -/
def usedStreamByte (aes : Block → Equiv.Perm Block) (keyBase iv : Block) (pos : Nat) : UInt8 :=
  keyByte aes keyBase (usedByte iv pos)

/-- The request begins with the block of the position, and holds all of the text. -/
theorem gkcryptDecryptRequest_eq (keyPos : Nat) {size : Nat} (h : size < 2 ^ 63) :
    (gkcryptDecryptRequest keyPos size).1 % gkcryptBlockSize = 0 ∧
      (gkcryptDecryptRequest keyPos size).2 % gkcryptBlockSize = 0 ∧
      (gkcryptDecryptRequest keyPos size).1 + keyPos % gkcryptBlockSize = keyPos ∧
      keyPos % gkcryptBlockSize + size ≤ (gkcryptDecryptRequest keyPos size).2 := by
  have hmod := Nat.mod_lt keyPos (show gkcryptBlockSize > 0 by decide)
  unfold gkcryptDecryptRequest
  simp only
  rw [Nat.mod_eq_of_lt (show keyPos % gkcryptBlockSize + size + gkcryptBlockSize - 1 < 2 ^ 64 by
    unfold gkcryptBlockSize at *
    omega)]
  unfold gkcryptBlockSize at *
  exact ⟨by omega, Nat.mul_mod_left _ _, by omega, by omega⟩

/-- What `chiaki_gkcrypt_decrypt` is to get for a text of this size. -/
def decryptStream (aes : Block → Equiv.Perm Block) (keyBase iv : Block) (keyPos size : Nat) : Bytes :=
  usedKeyStream aes keyBase iv (gkcryptDecryptRequest keyPos size).1 (gkcryptDecryptRequest keyPos size).2

/-- Behind the padding is the stream from the position on. -/
theorem decryptStream_drop (keyPos : Nat) {size : Nat} (h : size < 2 ^ 63) :
    ∃ n, size ≤ n ∧ (decryptStream aes keyBase iv keyPos size).drop (keyPos % gkcryptBlockSize)
      = segment (usedStreamByte aes keyBase iv) keyPos n := by
  obtain ⟨-, -, hpos, hfits⟩ := gkcryptDecryptRequest_eq keyPos h
  unfold decryptStream
  generalize gkcryptDecryptRequest keyPos size = request at hpos hfits
  have hdrop := @drop_segment _ (usedStreamByte aes keyBase iv) request.1 _ _
    (show keyPos % gkcryptBlockSize ≤ request.2 by omega)
  rw [hpos] at hdrop
  exact ⟨_, by omega, hdrop⟩

theorem gkcryptDecrypt_of_stream {evp : Bool} {keyPos : Nat} {buf keyStream : Bytes}
    (h : gkcryptGenKeyStream aes keyBase iv evp (gkcryptDecryptRequest keyPos buf.length).1
      (gkcryptDecryptRequest keyPos buf.length).2 = .ok (.ok keyStream)) :
    gkcryptDecrypt aes keyBase iv true evp keyPos buf
      = .ok (.ok (xorBytes buf (keyStream.drop (keyPos % gkcryptBlockSize)))) := by
  unfold gkcryptDecryptRequest at h
  simp only at h
  simp only [gkcryptDecrypt, h, Bool.not_true, Bool.false_eq_true, if_false]

theorem gkcryptDecrypt_of_error {evp : Bool} {keyPos : Nat} {buf : Bytes} {err : ErrorCode}
    (h : gkcryptGenKeyStream aes keyBase iv evp (gkcryptDecryptRequest keyPos buf.length).1
      (gkcryptDecryptRequest keyPos buf.length).2 = .ok (.error err)) :
    gkcryptDecrypt aes keyBase iv true evp keyPos buf = .ok (.error err) := by
  unfold gkcryptDecryptRequest at h
  simp only at h
  simp only [gkcryptDecrypt, h, Bool.not_true, Bool.false_eq_true, if_false]

/-- **What is encrypted is combined with the key stream of its position.** -/
theorem gkcryptDecrypt_cases {malloc evp : Bool} {keyPos : Nat} {buf : Bytes}
    (hbuf : buf.length < 2 ^ 63) :
    (∃ err, gkcryptDecrypt aes keyBase iv malloc evp keyPos buf = .ok (.error err)) ∨
    gkcryptDecrypt aes keyBase iv malloc evp keyPos buf
      = .ok (.ok (xorBytes buf (usedKeyStream aes keyBase iv keyPos buf.length))) := by
  obtain ⟨hpos, hsize, -, -⟩ := gkcryptDecryptRequest_eq keyPos hbuf
  cases malloc with
  | false => exact .inl ⟨.memory, rfl⟩
  | true =>
    cases evp with
    | false =>
      refine .inl ⟨.unknown, gkcryptDecrypt_of_error ?_⟩
      rw [gkcryptGenKeyStream, if_neg (not_not.mpr hpos), if_neg (not_not.mpr hsize)]
      rfl
    | true =>
      have hgen := @gkcryptGenKeyStream_used aes keyBase iv _ _ hpos hsize
      by_cases hlt : (gkcryptDecryptRequest keyPos buf.length).2 < 2 ^ 31
      · rw [if_pos hlt] at hgen
        obtain ⟨n, hle, hdrop⟩ := @decryptStream_drop aes keyBase iv keyPos _ hbuf
        unfold decryptStream at hdrop
        refine .inr ?_
        rw [gkcryptDecrypt_of_stream hgen, hdrop, xorBytes, zipWith_segment hle]
        rfl
      · -- `EVP_EncryptUpdate` gets the size as an `int`
        rw [if_neg hlt] at hgen
        exact .inl ⟨.unknown, gkcryptDecrypt_of_error hgen⟩

end Chiaki
