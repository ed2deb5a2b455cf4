import Chiaki.Common

/-!
# Writing into a buffer and reading out of it again
-/

namespace Chiaki

variable {buf data : Bytes} {off n i : Nat}

/-! ## Writing -/

theorem getElem?_splice (h : off + data.length ≤ buf.length) (i : Nat) :
    (splice buf off data)[i]?
      = if off ≤ i ∧ i < off + data.length then data[i - off]? else buf[i]? := by
  have htake : (buf.take off).length = off := by
    rw [List.length_take]
    omega
  unfold splice
  rcases Nat.lt_or_ge i off with hlt | hge
  · rw [List.append_assoc, List.getElem?_append_left (by omega), List.getElem?_take_of_lt hlt,
      if_neg (by omega)]
  · rcases Nat.lt_or_ge i (off + data.length) with hin | hout
    · rw [List.append_assoc, List.getElem?_append_right (by omega), htake,
        List.getElem?_append_left (by omega), if_pos ⟨hge, hin⟩]
    · rw [List.getElem?_append_right (by rw [List.length_append, htake]; omega),
        List.getElem?_drop, if_neg (by omega), List.length_append, htake]
      congr 1
      omega

theorem length_splice (h : off + data.length ≤ buf.length) :
    (splice buf off data).length = buf.length := by
  unfold splice
  simp only [List.length_append, List.length_take, List.length_drop]
  omega

/-- Outside of what was written, the buffer is as before. -/
theorem getElem?_splice_of_not (h : off + data.length ≤ buf.length)
    (hi : ¬ (off ≤ i ∧ i < off + data.length)) : (splice buf off data)[i]? = buf[i]? := by
  rw [getElem?_splice h, if_neg hi]

theorem take_splice (h : off ≤ buf.length) :
    (splice buf off data).take (off + data.length) = buf.take off ++ data := by
  unfold splice
  rw [List.take_append_of_le_length, List.take_of_length_le]
  · rw [List.length_append, List.length_take]
    omega
  · rw [List.length_append, List.length_take]
    omega

theorem drop_splice (hle : off + data.length ≤ n) (h : off + data.length ≤ buf.length) :
    (splice buf off data).drop n = buf.drop n := by
  refine List.ext_getElem? fun k => ?_
  rw [List.getElem?_drop, List.getElem?_drop, getElem?_splice_of_not h (by omega)]

/-- What is written next to each other is written at once. -/
theorem splice_append_data {more : Bytes} (h : off + data.length + more.length ≤ buf.length) :
    splice (splice buf off data) (off + data.length) more = splice buf off (data ++ more) := by
  have hoff : off ≤ buf.length := by omega
  rw [splice.eq_def _ (off + data.length), take_splice hoff, drop_splice (by omega) (by omega)]
  unfold splice
  rw [List.length_append, List.append_assoc (buf.take off), Nat.add_assoc]

theorem set_eq_splice {i : Nat} (h : i < buf.length) (c : UInt8) :
    buf.set i c = splice buf i [c] := by
  rw [splice, List.set_eq_take_append_cons_drop, if_pos h, List.append_assoc]
  rfl

theorem splice_all (h : data.length = buf.length) : splice buf 0 data = data := by
  rw [splice, List.take_zero, List.nil_append, Nat.zero_add, h, List.drop_length, List.append_nil]

/-! ## Reading -/

theorem getElem?_slice (buf : Bytes) (off n i : Nat) :
    (slice buf off n)[i]? = if i < n then buf[off + i]? else none := by
  unfold slice
  split
  · next h => rw [List.getElem?_take_of_lt h, List.getElem?_drop]
  · next h => exact List.getElem?_eq_none (by rw [List.length_take]; omega)

theorem length_slice (h : off + n ≤ buf.length) : (slice buf off n).length = n := by
  unfold slice
  rw [List.length_take, List.length_drop]
  omega

theorem slice_succ {c : UInt8} (h : buf[i]? = some c) (n : Nat) :
    slice buf i (n + 1) = c :: slice buf (i + 1) n := by
  obtain ⟨hlt, rfl⟩ := List.getElem?_eq_some_iff.mp h
  rw [slice, List.drop_eq_getElem_cons hlt, List.take_succ_cons]
  rfl

/-- What has been written is read again. -/
theorem slice_splice (hn : data.length = n)
    (h : off + n ≤ buf.length) : slice (splice buf off data) off n = data := by
  subst hn
  refine List.ext_getElem? ?_
  intro i
  rw [getElem?_slice]
  by_cases hi : i < data.length
  · rw [if_pos hi, getElem?_splice h, if_pos ⟨by omega, by omega⟩, Nat.add_sub_cancel_left]
  · rw [if_neg hi, List.getElem?_eq_none (Nat.le_of_not_lt hi)]

/-- A field in front of what is written stays. -/
theorem slice_splice_of_le {off' : Nat} (hle : off + n ≤ off')
    (h : off' + data.length ≤ buf.length) : slice (splice buf off' data) off n = slice buf off n := by
  refine List.ext_getElem? ?_
  intro i
  rw [getElem?_slice, getElem?_slice]
  split
  · exact getElem?_splice_of_not h (by omega)
  · rfl

/-- A field behind what is written stays. -/
theorem slice_splice_of_ge {off' : Nat} (hle : off' + data.length ≤ off)
    (h : off' + data.length ≤ buf.length) : slice (splice buf off' data) off n = slice buf off n := by
  refine List.ext_getElem? ?_
  intro i
  rw [getElem?_slice, getElem?_slice]
  split
  · exact getElem?_splice_of_not h (by omega)
  · rfl

theorem slice_eq_drop (buf : Bytes) (off : Nat) : slice buf off (buf.length - off) = buf.drop off := by
  unfold slice
  rw [← List.length_drop, List.take_length]

/-- What lies next to each other is read at once. -/
theorem slice_append_slice (buf : Bytes) (off n m : Nat) :
    slice buf off n ++ slice buf (off + n) m = slice buf off (n + m) := by
  rw [slice, slice, slice, List.take_add, List.drop_drop]

theorem u8At_drop (buf : Bytes) (off i : Nat) : u8At (buf.drop off) i = u8At buf (off + i) := by
  simp [u8At, List.getD_eq_getElem?_getD]

theorem u16At_drop (buf : Bytes) (off i : Nat) : u16At (buf.drop off) i = u16At buf (off + i) := by
  rw [u16At, u8At_drop, u8At_drop]
  rfl

theorem u32At_drop (buf : Bytes) (off i : Nat) : u32At (buf.drop off) i = u32At buf (off + i) := by
  rw [u32At, u16At_drop, u16At_drop]
  rfl

theorem slice_append (h : off + n ≤ buf.length) (rest : Bytes) :
    slice (buf ++ rest) off n = slice buf off n := by
  unfold slice
  rw [List.drop_append_of_le_length (by omega), List.take_append_of_le_length]
  rw [List.length_drop]
  omega

theorem u8At_append (h : i < buf.length) (rest : Bytes) :
    u8At (buf ++ rest) i = u8At buf i := by
  simp only [u8At, List.getD_eq_getElem?_getD, List.getElem?_append_left h]

theorem u16At_append (h : off + 2 ≤ buf.length) (rest : Bytes) :
    u16At (buf ++ rest) off = u16At buf off := by
  rw [u16At, u8At_append (by omega), u8At_append (by omega)]
  rfl

theorem u32At_append (h : off + 4 ≤ buf.length) (rest : Bytes) :
    u32At (buf ++ rest) off = u32At buf off := by
  rw [u32At, u16At_append (by omega), u16At_append (by omega)]
  rfl

/-! ## Numbers in the byte order of the network -/

theorem be16_toNat {v : Nat} (h : v < 2 ^ 16) :
    (UInt8.ofNat (v / 2 ^ 8)).toNat * 2 ^ 8 + (UInt8.ofNat v).toNat = v := by
  simp only [UInt8.toNat_ofNat']
  omega

theorem be32_mod (v : Nat) :
    ((UInt8.ofNat (v / 2 ^ 24)).toNat * 2 ^ 8 + (UInt8.ofNat (v / 2 ^ 16)).toNat) * 2 ^ 16
      + ((UInt8.ofNat (v / 2 ^ 8)).toNat * 2 ^ 8 + (UInt8.ofNat v).toNat) = v % 2 ^ 32 := by
  simp only [UInt8.toNat_ofNat']
  omega

theorem be32_toNat {v : Nat} (h : v < 2 ^ 32) :
    ((UInt8.ofNat (v / 2 ^ 24)).toNat * 2 ^ 8 + (UInt8.ofNat (v / 2 ^ 16)).toNat) * 2 ^ 16
      + ((UInt8.ofNat (v / 2 ^ 8)).toNat * 2 ^ 8 + (UInt8.ofNat v).toNat) = v := by
  rw [be32_mod, Nat.mod_eq_of_lt h]

theorem u8_toNat {v : Nat} (h : v < 2 ^ 8) : (UInt8.ofNat v).toNat = v := by
  rw [UInt8.toNat_ofNat', Nat.mod_eq_of_lt h]

theorem u32At_be32 (v : Nat) (rest : Bytes) : u32At (be32 v ++ rest) 0 = v % 2 ^ 32 := be32_mod v

theorem length_be32 (v : Nat) : (be32 v).length = 4 := rfl

theorem be32_u32At (b0 b1 b2 b3 : UInt8) (rest : Bytes) :
    be32 (u32At (b0 :: b1 :: b2 :: b3 :: rest) 0) = [b0, b1, b2, b3] := by
  have h0 := b0.toNat_lt
  have h1 := b1.toNat_lt
  have h2 := b2.toNat_lt
  have h3 := b3.toNat_lt
  simp only [be32, u32At, u16At, u8At, List.getD_cons_succ, List.getD_cons_zero, List.cons.injEq,
    ← UInt8.toNat_inj, UInt8.toNat_ofNat', and_true]
  omega

theorem be32_u32At_slice (h : off + 4 ≤ buf.length) : be32 (u32At buf off) = slice buf off 4 := by
  rw [← Nat.add_zero off, ← u32At_drop, slice, Nat.add_zero]
  have hlen := List.length_drop (i := off) (l := buf)
  rcases hrest : buf.drop off with _ | ⟨b0, _ | ⟨b1, _ | ⟨b2, _ | ⟨b3, rest⟩⟩⟩⟩
  · rw [hrest, List.length_nil] at hlen
    omega
  · rw [hrest, List.length_singleton] at hlen
    omega
  · rw [hrest] at hlen
    simp only [List.length_cons, List.length_nil] at hlen
    omega
  · rw [hrest] at hlen
    simp only [List.length_cons, List.length_nil] at hlen
    omega
  · exact be32_u32At b0 b1 b2 b3 rest

theorem be16_u16At (b0 b1 : UInt8) (rest : Bytes) : be16 (u16At (b0 :: b1 :: rest) 0) = [b0, b1] := by
  have h0 := b0.toNat_lt
  have h1 := b1.toNat_lt
  simp only [be16, u16At, u8At, List.getD_cons_succ, List.getD_cons_zero, List.cons.injEq,
    ← UInt8.toNat_inj, UInt8.toNat_ofNat', and_true]
  omega

end Chiaki
