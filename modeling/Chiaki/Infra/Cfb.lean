import Mathlib.Data.List.Basic

/-!
# Cipher feedback

A block cipher as a stream cipher: the block that was encrypted last hides the next bytes, and is replaced by what
comes out, byte by byte.

* `encrypt`, `decrypt` — from a register and a place in it
* `decrypt_encrypt`, `encrypt_decrypt` — one undoes the other
-/

namespace Infra.Cfb

variable {E : List UInt8 → List UInt8} {size : Nat}

/-- The register in front of the next byte. -/
def refill (E : List UInt8 → List UInt8) (register : List UInt8) (off : Nat) : List UInt8 :=
  if off = 0 then E register else register

def encrypt (E : List UInt8 → List UInt8) (size : Nat) : List UInt8 → Nat → List UInt8 → List UInt8
  | _, _, [] => []
  | register, off, p :: plain =>
    let register := refill E register off
    let c := p ^^^ register.getD off 0
    c :: encrypt E size (register.set off c) ((off + 1) % size) plain

def decrypt (E : List UInt8 → List UInt8) (size : Nat) : List UInt8 → Nat → List UInt8 → List UInt8
  | _, _, [] => []
  | register, off, c :: enc =>
    let register := refill E register off
    (c ^^^ register.getD off 0) :: decrypt E size (register.set off c) ((off + 1) % size) enc

theorem xor_cancel (a b : UInt8) : a ^^^ b ^^^ b = a := by rw [UInt8.xor_assoc, UInt8.xor_self, UInt8.xor_zero]

theorem decrypt_encrypt (register : List UInt8) (off : Nat) (plain : List UInt8) :
    decrypt E size register off (encrypt E size register off plain) = plain := by
  induction plain generalizing register off with
  | nil => rfl
  | cons p plain ih =>
    simp only [encrypt, decrypt]
    rw [xor_cancel, ih]

theorem encrypt_decrypt (register : List UInt8) (off : Nat) (enc : List UInt8) :
    encrypt E size register off (decrypt E size register off enc) = enc := by
  induction enc generalizing register off with
  | nil => rfl
  | cons c enc ih =>
    simp only [encrypt, decrypt]
    rw [xor_cancel, ih]

theorem length_encrypt (register : List UInt8) (off : Nat) (plain : List UInt8) :
    (encrypt E size register off plain).length = plain.length := by
  induction plain generalizing register off with
  | nil => rfl
  | cons p plain ih => rw [encrypt, List.length_cons, List.length_cons, ih]

theorem length_decrypt (register : List UInt8) (off : Nat) (enc : List UInt8) :
    (decrypt E size register off enc).length = enc.length := by
  induction enc generalizing register off with
  | nil => rfl
  | cons c enc ih => rw [decrypt, List.length_cons, List.length_cons, ih]

end Infra.Cfb
