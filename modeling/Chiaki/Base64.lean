import Chiaki.Common

/-!
# Base64 (`base64.c`)

The encoder writes group by group and checks the end of the output before every character. The decoder
looks every character up in a table with a place for each of 256 values; whether a `char` is signed is a
parameter. No array is so long that an index overflows.
-/

namespace Chiaki

/-! ## Encoding -/

/-- `base64chars` -/
def base64Chars : Bytes :=
  List.map (fun c => UInt8.ofNat c.toNat)
    ['A', 'B', 'C', 'D', 'E', 'F', 'G', 'H', 'I', 'J', 'K', 'L', 'M', 'N', 'O', 'P', 'Q', 'R', 'S',
      'T', 'U', 'V', 'W', 'X', 'Y', 'Z', 'a', 'b', 'c', 'd', 'e', 'f', 'g', 'h', 'i', 'j', 'k', 'l',
      'm', 'n', 'o', 'p', 'q', 'r', 's', 't', 'u', 'v', 'w', 'x', 'y', 'z', '0', '1', '2', '3', '4',
      '5', '6', '7', '8', '9', '+', '/']

/-- `out` and `result_index`. -/
structure Base64Encoder where
  out : Bytes
  resultIndex : Nat

/-- How the encoder ends before its last character. -/
inductive Base64EncoderStop
  | fault (fault : Fault)
  | bufTooSmall (out : Bytes)

/-- `out[result_index++] = c`, if `result_index` is not too large. -/
def Base64Encoder.put (outSize : Nat) (s : Base64Encoder) (c : UInt8) :
    Except Base64EncoderStop Base64Encoder :=
  if s.resultIndex ≥ outSize then .error (.bufTooSmall s.out)
  else if s.out.length ≤ s.resultIndex then .error (.fault .outOfBounds)
  else .ok ⟨s.out.set s.resultIndex c, s.resultIndex + 1⟩

/-- `base64chars[n]` -/
def base64Char (n : Nat) : UInt8 := base64Chars.getD n 0

/-- The loop over the groups of three bytes, from the byte at `x` on. -/
def base64EncodeLoop (data : Bytes) (outSize : Nat) :
    Nat → Nat → Base64Encoder → Except Base64EncoderStop Base64Encoder
  | 0, _, s => .ok s
  | fuel + 1, x, s =>
    if x < data.length then do
      let n := u8At data x * 2 ^ 16
        + (if x + 1 < data.length then u8At data (x + 1) * 2 ^ 8 else 0)
        + (if x + 2 < data.length then u8At data (x + 2) else 0)
      let s ← s.put outSize (base64Char (n / 2 ^ 18 % 2 ^ 6))
      let s ← s.put outSize (base64Char (n / 2 ^ 12 % 2 ^ 6))
      let s ← if x + 1 < data.length then s.put outSize (base64Char (n / 2 ^ 6 % 2 ^ 6)) else pure s
      let s ← if x + 2 < data.length then s.put outSize (base64Char (n % 2 ^ 6)) else pure s
      base64EncodeLoop data outSize fuel (x + 3) s
    else .ok s

/-- The whole text with its terminator. -/
def base64EncodeAll (data out : Bytes) (outSize : Nat) : Except Base64EncoderStop Base64Encoder := do
  let s ← base64EncodeLoop data outSize data.length 0 ⟨out, 0⟩
  let padCount := data.length % 3
  let s ← (List.replicate (if padCount > 0 then 3 - padCount else 0) 0x3d).foldlM
    (Base64Encoder.put outSize) s
  s.put outSize 0

/-- `chiaki_base64_encode`: `out` and the result. -/
def base64Encode (data out : Bytes) (outSize : Nat) : Except Fault (Bytes × ErrorCode) :=
  match base64EncodeAll data out outSize with
  | .ok s => .ok (s.out, .success)
  | .error (.bufTooSmall out) => .ok (out, .bufTooSmall)
  | .error (.fault fault) => .error fault

/-! ## Decoding -/

/-- `WHITESPACE` -/
def base64Whitespace : Nat := 64

/-- `EQUALS` -/
def base64Equals : Nat := 65

/-- `INVALID` -/
def base64Invalid : Nat := 66

/-- `d` -/
def base64D : List Nat :=
  [66, 66, 66, 66, 66, 66, 66, 66, 66, 66, 64, 66, 66, 66, 66, 66, 66, 66, 66, 66, 66, 66, 66, 66,
    66, 66, 66, 66, 66, 66, 66, 66, 66, 66, 66, 66, 66, 66, 66, 66, 66, 66, 66, 62, 66, 66, 66, 63,
    52, 53, 54, 55, 56, 57, 58, 59, 60, 61, 66, 66, 66, 65, 66, 66, 66, 0, 1, 2, 3, 4, 5, 6, 7, 8,
    9, 10, 11, 12, 13, 14, 15, 16, 17, 18, 19, 20, 21, 22, 23, 24, 25, 66, 66, 66, 66, 66, 66, 26,
    27, 28, 29, 30, 31, 32, 33, 34, 35, 36, 37, 38, 39, 40, 41, 42, 43, 44, 45, 46, 47, 48, 49, 50,
    51, 66, 66, 66, 66, 66, 66, 66, 66, 66, 66, 66, 66, 66, 66, 66, 66, 66, 66, 66, 66, 66, 66, 66,
    66, 66, 66, 66, 66, 66, 66, 66, 66, 66, 66, 66, 66, 66, 66, 66, 66, 66, 66, 66, 66, 66, 66, 66,
    66, 66, 66, 66, 66, 66, 66, 66, 66, 66, 66, 66, 66, 66, 66, 66, 66, 66, 66, 66, 66, 66, 66, 66,
    66, 66, 66, 66, 66, 66, 66, 66, 66, 66, 66, 66, 66, 66, 66, 66, 66, 66, 66, 66, 66, 66, 66, 66,
    66, 66, 66, 66, 66, 66, 66, 66, 66, 66, 66, 66, 66, 66, 66, 66, 66, 66, 66, 66, 66, 66, 66, 66,
    66, 66, 66, 66, 66, 66, 66, 66, 66, 66, 66, 66, 66, 66]

/-- `(size_t)c` -/
def charToSize (charSigned : Bool) (c : UInt8) : Nat :=
  if charSigned = true ∧ 2 ^ 7 ≤ c.toNat then 2 ^ 64 - 2 ^ 8 + c.toNat else c.toNat

/-- `d[(size_t)c]` -/
def base64Lookup (charSigned : Bool) (c : UInt8) : Except Fault Nat :=
  match base64D[charToSize charSigned c]? with
  | some n => .ok n
  | none => .error .outOfBounds

/-- The variables of `chiaki_base64_decode`. The pointer `out` has moved by `len`. -/
structure Base64Decoder where
  out : Bytes
  iter : Nat
  buf : Nat
  len : Nat
  deriving DecidableEq

/-- The next bytes are written, if they are not too many. -/
def Base64Decoder.write (s : Base64Decoder) (outSize : Nat) (data : Bytes) :
    Except Fault (Option Base64Decoder) :=
  if s.len + data.length > outSize then .ok none
  else if s.out.length < s.len + data.length then .error .outOfBounds
  else .ok (some { s with out := splice s.out s.len data, len := s.len + data.length })

/-- The loop of `chiaki_base64_decode` over `n` characters from the `i`-th one on: the variables, and
what was returned inside of the loop. -/
def base64DecodeLoop (charSigned : Bool) (mem : Bytes) (outSize : Nat) :
    Nat → Nat → Base64Decoder → Except Fault (Base64Decoder × Option ErrorCode)
  | 0, _, s => .ok (s, none)
  | n + 1, i, s =>
    match mem[i]? with
    | none => .error .outOfBounds
    | some char => do
      let c ← base64Lookup charSigned char
      if c = base64Whitespace then base64DecodeLoop charSigned mem outSize n (i + 1) s
      else if c = base64Invalid then return (s, some .invalidData)
      else if c = base64Equals then return (s, none)
      else
        let s := { s with buf := s.buf * 2 ^ 6 % 2 ^ 32 ||| c, iter := s.iter + 1 }
        if s.iter = 4 then
          let written ← s.write outSize
            [UInt8.ofNat (s.buf / 2 ^ 16), UInt8.ofNat (s.buf / 2 ^ 8), UInt8.ofNat s.buf]
          match written with
          | none => return (s, some .bufTooSmall)
          | some s => base64DecodeLoop charSigned mem outSize n (i + 1) { s with buf := 0, iter := 0 }
        else base64DecodeLoop charSigned mem outSize n (i + 1) s

/-- What is left after the loop. -/
def Base64Decoder.finish (s : Base64Decoder) (outSize : Nat) : Except Fault (Option Base64Decoder) :=
  if s.iter = 3 then s.write outSize [UInt8.ofNat (s.buf / 2 ^ 10), UInt8.ofNat (s.buf / 2 ^ 2)]
  else if s.iter = 2 then s.write outSize [UInt8.ofNat (s.buf / 2 ^ 4)]
  else .ok (some s)

/-- `chiaki_base64_decode` of the first `inSize` bytes of `mem`: `out`, `*out_size` and the result. -/
def base64Decode (charSigned : Bool) (mem : Bytes) (inSize : Nat) (out : Bytes) (outSize : Nat) :
    Except Fault (Bytes × Nat × ErrorCode) := do
  let (s, err) ← base64DecodeLoop charSigned mem outSize inSize 0 ⟨out, 0, 0, 0⟩
  match err with
  | some err => return (s.out, outSize, err)
  | none =>
    match ← s.finish outSize with
    | none => return (s.out, outSize, .bufTooSmall)
    | some s => return (s.out, s.len, .success)

end Chiaki
