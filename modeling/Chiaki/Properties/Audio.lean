import Chiaki.Audio
import Chiaki.Properties.Common

/-!
# Whether an audio header is read as it was written

* `audioHeader_roundtrip_iff` — `channels` and `bits` change places
-/

namespace Chiaki

variable {h : AudioHeader} {buf data : Bytes}

/-- The bytes of a header, as they are written. -/
def audioHeaderBytes (h : AudioHeader) : Bytes :=
  [h.bits, h.channels] ++ be32 h.rate.toNat ++ be32 h.frameSize.toNat ++ be32 h.unknown.toNat

theorem audioHeaderSave_eq (h : AudioHeader) (hbuf : audioHeaderSize ≤ buf.length) :
    audioHeaderSave h buf = .ok (splice buf 0 (audioHeaderBytes h)) := by
  have hsize : 0xe ≤ buf.length := hbuf
  have hfirst : (buf.set 0 h.bits).set 1 h.channels = splice buf 0 [h.bits, h.channels] := by
    rw [set_eq_splice (by rw [List.length_set]; omega), set_eq_splice (by omega)]
    exact @splice_append_data buf [h.bits] 0 [h.channels] (by simp only [List.length_singleton]; omega)
  have hrate : splice (splice buf 0 [h.bits, h.channels]) 2 (be32 h.rate.toNat)
      = splice buf 0 ([h.bits, h.channels] ++ be32 h.rate.toNat) :=
    @splice_append_data buf [h.bits, h.channels] 0 (be32 h.rate.toNat)
      (by simp only [List.length_cons, List.length_nil, length_be32]; omega)
  have hframeSize : splice (splice buf 0 ([h.bits, h.channels] ++ be32 h.rate.toNat)) 6 (be32 h.frameSize.toNat)
      = splice buf 0 ([h.bits, h.channels] ++ be32 h.rate.toNat ++ be32 h.frameSize.toNat) :=
    @splice_append_data buf ([h.bits, h.channels] ++ be32 h.rate.toNat) 0 (be32 h.frameSize.toNat)
      (by simp only [List.length_cons, List.length_nil, List.length_append, length_be32]; omega)
  rw [audioHeaderSave, if_neg (Nat.not_lt.mpr hbuf)]
  simp only [hfirst, hrate, hframeSize]
  exact congrArg _ (@splice_append_data buf
    ([h.bits, h.channels] ++ be32 h.rate.toNat ++ be32 h.frameSize.toNat) 0 (be32 h.unknown.toNat) hsize)

theorem audioHeaderLoad_eq (hdata : audioHeaderSize ≤ data.length) :
    audioHeaderLoad data = .ok
      { channels := UInt8.ofNat (u8At data 0)
        bits := UInt8.ofNat (u8At data 1)
        rate := UInt32.ofNat (u32At data 2)
        frameSize := UInt32.ofNat (u32At data 6)
        unknown := UInt32.ofNat (u32At data 0xa) } := by
  have hsize : 0xe ≤ data.length := hdata
  rw [audioHeaderLoad, readU8_eq (by omega), readU8_eq (by omega), readU32_eq (by omega), readU32_eq (by omega),
    readU32_eq (by omega)]
  rfl

/-- A header that was written is read with `channels` and `bits` in each other's place. -/
theorem audioHeaderLoad_bytes (h : AudioHeader) :
    audioHeaderLoad (audioHeaderBytes h) = .ok { h with channels := h.bits, bits := h.channels } := by
  have hnumber : ∀ (v : UInt32) rest, UInt32.ofNat (u32At (be32 v.toNat ++ rest) 0) = v := fun v rest => by
    rw [u32At_be32, Nat.mod_eq_of_lt v.toNat_lt, UInt32.ofNat_toNat]
  have hchannels : UInt8.ofNat (u8At (audioHeaderBytes h) 0) = h.bits := UInt8.ofNat_toNat
  have hbits : UInt8.ofNat (u8At (audioHeaderBytes h) 1) = h.channels := UInt8.ofNat_toNat
  have hrate : UInt32.ofNat (u32At (audioHeaderBytes h) 2) = h.rate :=
    hnumber h.rate (be32 h.frameSize.toNat ++ be32 h.unknown.toNat)
  have hframeSize : UInt32.ofNat (u32At (audioHeaderBytes h) 6) = h.frameSize :=
    hnumber h.frameSize (be32 h.unknown.toNat)
  have hunknown : UInt32.ofNat (u32At (audioHeaderBytes h) 0xa) = h.unknown := hnumber h.unknown []
  rw [audioHeaderLoad_eq (Nat.le_refl _), hchannels, hbits, hrate, hframeSize, hunknown]

/-- The bytes of a header that was read are those it was read from, but for the order of the first two. -/
theorem audioHeaderBytes_load {first second : UInt8} {rest : Bytes}
    (hrest : (first :: second :: rest).length = audioHeaderSize) :
    ∃ h, audioHeaderLoad (first :: second :: rest) = .ok h ∧
      audioHeaderBytes h = second :: first :: rest := by
  have hsize : (first :: second :: rest).length = 0xe := hrest
  refine ⟨_, audioHeaderLoad_eq (Nat.le_of_eq hrest.symm), ?_⟩
  have hnumber : ∀ off, off + 4 ≤ 0xe →
      be32 (UInt32.ofNat (u32At (first :: second :: rest) off)).toNat
        = slice (first :: second :: rest) off 4 := fun off hoff => by
    rw [UInt32.toNat_ofNat', Nat.mod_eq_of_lt (u32At_lt _ _), be32_u32At_slice (by omega)]
  have hfirst : UInt8.ofNat (u8At (first :: second :: rest) 0) = first := UInt8.ofNat_toNat
  have hsecond : UInt8.ofNat (u8At (first :: second :: rest) 1) = second := UInt8.ofNat_toNat
  have hfields : slice (first :: second :: rest) 2 4 ++ slice (first :: second :: rest) 6 4
      ++ slice (first :: second :: rest) 0xa 4 = rest := by
    rw [slice_append_slice _ 2 4 4, slice_append_slice _ 2 8 4]
    simp only [List.length_cons] at hsize
    exact List.take_of_length_le (show rest.length ≤ 8 + 4 by omega)
  simp only [audioHeaderBytes, hnumber 2 (by decide), hnumber 6 (by decide), hnumber 0xa (by decide), hfirst,
    hsecond]
  rw [List.append_assoc, List.append_assoc, ← List.append_assoc (slice _ 2 4), hfields]
  rfl

/-- **A header is read again if and only if it has as many bits as channels, and a text that was read is
written again if and only if its first two bytes are the same.** -/
theorem audioHeader_roundtrip_iff (h : AudioHeader) (hbuf : buf.length = audioHeaderSize)
    (hdata : data.length = audioHeaderSize) :
    (audioHeaderSave h buf >>= audioHeaderLoad = .ok h ↔ h.channels = h.bits) ∧
      ((audioHeaderLoad data >>= fun h => audioHeaderSave h buf) = .ok data ↔ u8At data 0 = u8At data 1) := by
  have hsave : ∀ h : AudioHeader, audioHeaderSave h buf = .ok (audioHeaderBytes h) := fun h => by
    rw [audioHeaderSave_eq h (Nat.le_of_eq hbuf.symm), splice_all (show (audioHeaderBytes h).length = buf.length from hbuf.symm)]
  constructor
  · have hload : audioHeaderSave h buf >>= audioHeaderLoad
        = .ok { h with channels := h.bits, bits := h.channels } := by
      simp only [hsave h, bind, Except.bind, audioHeaderLoad_bytes]
    rw [hload]
    constructor
    · intro heq
      exact (congrArg AudioHeader.bits (Except.ok.inj heq))
    · intro hsame
      obtain ⟨channels, bits, rate, frameSize, unknown⟩ := h
      cases hsame
      rfl
  · rcases data with _ | ⟨first, _ | ⟨second, rest⟩⟩
    · cases hdata
    · cases hdata
    · obtain ⟨h', hload, hbytes⟩ := audioHeaderBytes_load hdata
      have heq : (audioHeaderLoad (first :: second :: rest) >>= fun h => audioHeaderSave h buf)
          = .ok (second :: first :: rest) := by
        simp only [hload, bind, Except.bind, hsave h', hbytes]
      rw [heq]
      constructor
      · intro hok
        exact congrArg UInt8.toNat (List.cons.inj (Except.ok.inj hok)).1.symm
      · intro hsame
        rw [UInt8.toNat.inj (show first.toNat = second.toNat from hsame)]

theorem audioHeader_roundtrip_stereo :
    audioHeaderSave ⟨2, 2, 48000, 480, 1⟩ (List.replicate 0xe 0) >>= audioHeaderLoad = .ok ⟨2, 2, 48000, 480, 1⟩ :=
  (@audioHeader_roundtrip_iff (List.replicate 0xe 0) (List.replicate 0xe 0) ⟨2, 2, 48000, 480, 1⟩ rfl rfl).1.mpr rfl

/-- Two channels of 16 bits are read as 16 channels of two bits. -/
theorem not_audioHeader_roundtrip :
    audioHeaderSave ⟨2, 16, 48000, 480, 1⟩ (List.replicate 0xe 0) >>= audioHeaderLoad
      = .ok ⟨16, 2, 48000, 480, 1⟩ ∧
    audioHeaderSave ⟨2, 16, 48000, 480, 1⟩ (List.replicate 0xe 0) >>= audioHeaderLoad
      ≠ .ok ⟨2, 16, 48000, 480, 1⟩ ∧
    (audioHeaderLoad ([2, 16] ++ List.replicate 0xc 0) >>= fun h => audioHeaderSave h (List.replicate 0xe 0))
      ≠ .ok ([2, 16] ++ List.replicate 0xc 0) := by
  decide +kernel

end Chiaki
