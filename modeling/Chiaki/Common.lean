import Mathlib.Algebra.Group.Nat.Defs
import Mathlib.Data.List.Basic

/-!
# Byte buffers, error codes and faults

What the modules of the library share: the error codes of `common.h`, the ways a run can
leave the defined behaviour of C, and the big-endian fields of network packets.
-/

namespace Chiaki

/-- `ChiakiErrorCode` -/
inductive ErrorCode
  | success
  | unknown
  | parseAddr
  | thread
  | memory
  | overflow
  | network
  | connectionRefused
  | hostDown
  | hostUnreach
  | disconnected
  | invalidData
  | bufTooSmall
  | mutexLocked
  | canceled
  | timeout
  | invalidResponse
  | invalidMac
  | uninitialized
  | fecFailed
  | versionMismatch
  deriving DecidableEq, Repr

/-- A run that stops inside a function: a failed `assert`, or an access C does not define. -/
inductive Fault
  | assertion
  | nullPointer
  | outOfBounds
  deriving DecidableEq, Repr

abbrev Bytes := List UInt8

/-- The bytes of a string literal. -/
def ascii (s : String) : Bytes := s.toByteArray.data.toList

/-- A computation has a result if and only if both of its parts have one. -/
theorem bind_eq_ok_iff {ε α β : Type} {x : Except ε α} {f : α → Except ε β} {b : β} :
    (x >>= f) = .ok b ↔ ∃ a, x = .ok a ∧ f a = .ok b := by
  cases x with
  | error e =>
    constructor
    · intro h
      cases h
    · rintro ⟨a, ha, -⟩
      cases ha
  | ok a =>
    constructor
    · intro h
      exact ⟨a, rfl, h⟩
    · rintro ⟨_, ⟨⟩, h⟩
      exact h

/-! ## Big-endian fields -/

/-- One byte of a buffer. Reading past its end is undefined. -/
def readU8 (buf : Bytes) (off : Nat) : Except Fault Nat :=
  match buf[off]? with
  | some b => .ok b.toNat
  | none => .error .outOfBounds

/-- `ntohs` of the two bytes at `off`. -/
def readU16 (buf : Bytes) (off : Nat) : Except Fault Nat := do
  let b0 ← readU8 buf off
  let b1 ← readU8 buf (off + 1)
  return b0 * 2 ^ 8 + b1

/-- `ntohl` of the four bytes at `off`. -/
def readU32 (buf : Bytes) (off : Nat) : Except Fault Nat := do
  let hi ← readU16 buf off
  let lo ← readU16 buf (off + 2)
  return hi * 2 ^ 16 + lo

/-- The values that the readers return when the field lies inside the buffer. -/
def u8At (buf : Bytes) (off : Nat) : Nat := (buf.getD off 0).toNat

def u16At (buf : Bytes) (off : Nat) : Nat := u8At buf off * 2 ^ 8 + u8At buf (off + 1)

def u32At (buf : Bytes) (off : Nat) : Nat := u16At buf off * 2 ^ 16 + u16At buf (off + 2)

theorem readU8_eq {buf : Bytes} {off : Nat} (h : off < buf.length) :
    readU8 buf off = .ok (u8At buf off) := by
  simp [readU8, u8At, List.getD_eq_getElem?_getD, h]

theorem readU16_eq {buf : Bytes} {off : Nat} (h : off + 2 ≤ buf.length) :
    readU16 buf off = .ok (u16At buf off) := by
  rw [readU16, readU8_eq (by omega), readU8_eq (by omega)]
  rfl

theorem readU32_eq {buf : Bytes} {off : Nat} (h : off + 4 ≤ buf.length) :
    readU32 buf off = .ok (u32At buf off) := by
  rw [readU32, readU16_eq (by omega), readU16_eq (by omega)]
  rfl

theorem u8At_lt (buf : Bytes) (off : Nat) : u8At buf off < 2 ^ 8 := UInt8.toNat_lt _

theorem u16At_lt (buf : Bytes) (off : Nat) : u16At buf off < 2 ^ 16 := by
  have h0 := u8At_lt buf off
  have h1 := u8At_lt buf (off + 1)
  unfold u16At
  omega

theorem u32At_lt (buf : Bytes) (off : Nat) : u32At buf off < 2 ^ 32 := by
  have h0 := u16At_lt buf off
  have h1 := u16At_lt buf (off + 2)
  unfold u32At
  omega

/-- `htonl(v)` as the four bytes it puts into memory. -/
def be32 (v : Nat) : Bytes :=
  [UInt8.ofNat (v / 2 ^ 24), UInt8.ofNat (v / 2 ^ 16), UInt8.ofNat (v / 2 ^ 8), UInt8.ofNat v]

/-- `htons(v)` as the two bytes it puts into memory. -/
def be16 (v : Nat) : Bytes := [UInt8.ofNat (v / 2 ^ 8), UInt8.ofNat v]

/-- Overwrite the bytes from `off` on. -/
def splice (buf : Bytes) (off : Nat) (data : Bytes) : Bytes :=
  buf.take off ++ data ++ buf.drop (off + data.length)

/-- `memcpy` out of a buffer. -/
def slice (buf : Bytes) (off n : Nat) : Bytes := (buf.drop off).take n

end Chiaki
