import Chiaki.Common

/-!
# Hexadecimal digits (`utils.h`)

Each function is given a buffer by its list: how many bytes it may write is the length of the list.
-/

namespace Chiaki

/-! ## Reading -/

/-- `nibble_value` -/
def nibbleValue (c : UInt8) : Option UInt8 :=
  if 0x30 ≤ c ∧ c ≤ 0x39 then some (c - 0x30)
  else if 0x61 ≤ c ∧ c ≤ 0x66 then some (c - 0x61 + 0xa)
  else if 0x41 ≤ c ∧ c ≤ 0x46 then some (c - 0x41 + 0xa)
  else none

/-- The loop of `parse_hex`, which has written `i` bytes. The number of digits is even. -/
def parseHexLoop : Bytes → Nat → Bytes → Bytes × Bool
  | buf, i, h :: l :: hex =>
    match nibbleValue h, nibbleValue l with
    | some h, some l => parseHexLoop (buf.set i (h <<< 4 ||| l)) (i + 1) hex
    | _, _ => (buf, false)
  | buf, _, _ => (buf, true)

/-- `parse_hex` into a buffer of which the whole size is given: the buffer, `*buf_size` and the result. -/
def parseHex (buf hex : Bytes) : Bytes × Nat × ErrorCode :=
  if hex.length % 2 ≠ 0 then (buf, buf.length, .invalidData)
  else if hex.length / 2 > buf.length then (buf, buf.length, .bufTooSmall)
  else
    match parseHexLoop buf 0 hex with
    | (buf, true) => (buf, hex.length / 2, .success)
    | (buf, false) => (buf, buf.length, .invalidData)

/-! ## Writing -/

/-- `nibble_char` -/
def nibbleChar (v : UInt8) : UInt8 :=
  if v > 0xf then 0x30
  else if v < 0xa then 0x30 + v
  else 0x61 + v

/-- The loop of `format_hex`, which has written the digits of `i` bytes. -/
def formatHexLoop : Bytes → Nat → Bytes → Bytes
  | hexBuf, _, [] => hexBuf
  | hexBuf, i, v :: buf =>
    formatHexLoop ((hexBuf.set (i * 2) (nibbleChar (v >>> 4))).set (i * 2 + 1) (nibbleChar (v &&& 0xf)))
      (i + 1) buf

/-- `format_hex`: `hex_buf` and the result. -/
def formatHex (hexBuf buf : Bytes) : Bytes × ErrorCode :=
  if hexBuf.length < buf.length * 2 + 1 then (hexBuf, .bufTooSmall)
  else ((formatHexLoop hexBuf 0 buf).set (buf.length * 2) 0, .success)

end Chiaki
