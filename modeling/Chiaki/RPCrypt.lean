import Chiaki.Infra.Cfb
import Chiaki.RPCrypt.Tables
import Chiaki.Session.Request

/-!
# The keys of a registration and of a session (`rpcrypt.c`)

`bright` is the key of the cipher, and `ambassador` becomes the initialisation vector, together with a counter. The
console has the same two.

AES and HMAC are parameters, and so is whether the functions of the library fail.
-/

namespace Chiaki

open Infra

/-- `CHIAKI_RPCRYPT_KEY_SIZE` bytes. -/
abbrev RPKey := Vector UInt8 0x10

/-- `ChiakiRPCrypt` -/
structure RPCryptKeys where
  target : Target
  bright : RPKey
  ambassador : RPKey
  deriving DecidableEq

/-! ## Tables -/

/-- A row of 0x10 bytes. -/
def keyOfRow (row : Nat) : RPKey := Vector.ofFn fun i => rowByte 0x10 row i

/-- A byte of a table with rows of 0x20 bytes. -/
def tableByte (rows : List Nat) (index : Nat) : Option UInt8 :=
  rows[index / 0x20]?.map fun row => rowByte 0x20 row (index % 0x20)

/-- `table[i*0x20 + off]` for all `i`. The last one is the farthest. -/
def tableKey (rows : List Nat) (off : Nat) : Except Fault RPKey :=
  match tableByte rows (0xf * 0x20 + off) with
  | none => .error .outOfBounds
  | some _ => .ok (Vector.ofFn fun i => (tableByte rows (i * 0x20 + off)).getD 0)

/-! ## Sessions -/

/-- `ambassador` in `bright_ambassador_ps4_pre10`. -/
def ambassadorPs4Pre10 (nonce : RPKey) : RPKey :=
  Vector.ofFn fun i : Fin 0x10 => (nonce.get i - UInt8.ofNat i - 0x27) ^^^ (keyOfRow echoA).get i

/-- `bright` in `bright_ambassador_ps4_pre10`. -/
def brightPs4Pre10 (nonce morning : RPKey) : RPKey :=
  Vector.ofFn fun i : Fin 0x10 => (morning.get i - UInt8.ofNat i + 0x34) ^^^ (keyOfRow echoB).get i ^^^ nonce.get i

/-- `bright_ambassador_ps4_pre10` -/
def brightAmbassadorPs4Pre10 (nonce morning : RPKey) : RPKey × RPKey :=
  (brightPs4Pre10 nonce morning, ambassadorPs4Pre10 nonce)

/-- `ambassador` in `bright_ambassador`. -/
def ambassadorOfNonce (ps5 : Bool) (nonce : RPKey) : RPKey :=
  let key := keyOfRow ((if ps5 then keysAPs5 else keysAPs4).getD (nonce.get 0 >>> 3).toNat 0)
  Vector.ofFn fun i : Fin 0x10 =>
    (if ps5 then nonce.get i - 0x2d - UInt8.ofNat i else nonce.get i + 0x36 + UInt8.ofNat i) ^^^ key.get i

/-- `bright` in `bright_ambassador`. -/
def brightOfMorning (ps5 : Bool) (nonce morning : RPKey) : RPKey :=
  let key := keyOfRow ((if ps5 then keysBPs5 else keysBPs4).getD (nonce.get 7 >>> 3).toNat 0)
  Vector.ofFn fun i : Fin 0x10 =>
    if ps5 then (morning.get i + 0x18 + UInt8.ofNat i) ^^^ nonce.get i ^^^ key.get i
    else ((key.get i ^^^ morning.get i) + 0x21 + UInt8.ofNat i) ^^^ nonce.get i

/-- `bright_ambassador` -/
def brightAmbassador (target : Target) (nonce morning : RPKey) : Except ErrorCode (RPKey × RPKey) :=
  if target.value < Target.ps410.value then .error .invalidData
  else .ok (brightOfMorning target.isPs5 nonce morning, ambassadorOfNonce target.isPs5 nonce)

/-- `chiaki_rpcrypt_bright_ambassador` -/
def rpcryptBrightAmbassador (target : Target) (nonce morning : RPKey) : Except Fault (RPKey × RPKey) :=
  match target with
  | .ps48 | .ps49 => .ok (brightAmbassadorPs4Pre10 nonce morning)
  | _ =>
    match brightAmbassador target nonce morning with
    | .error _ => .error .assertion
    | .ok keys => .ok keys

/-- `chiaki_rpcrypt_init_auth` -/
def rpcryptInitAuth (target : Target) (nonce morning : RPKey) : Except Fault RPCryptKeys := do
  let (bright, ambassador) ← rpcryptBrightAmbassador target nonce morning
  return ⟨target, bright, ambassador⟩

/-! ## Registrations -/

/-- `chiaki_rpcrypt_aeropause_ps4_pre10` -/
def rpcryptAeropausePs4Pre10 (ambassador : RPKey) : RPKey :=
  Vector.ofFn fun i : Fin 0x10 => (ambassador.get i - UInt8.ofNat i - 0x29) ^^^ (keyOfRow echoB).get i

/-- `wurzelbert` -/
def wurzelbert (ps5 : Bool) : UInt8 := if ps5 then -0x2d else 0x29

/-- `chiaki_rpcrypt_aeropause` -/
def rpcryptAeropause (target : Target) (key1Off : Nat) (ambassador : RPKey) :
    Except Fault (Except ErrorCode RPKey) := do
  if target.value < Target.ps410.value then return .error .invalidData
  else
    let k ← tableKey (if target.isPs5 then ps5Keys1 else ps4Keys1) key1Off
    return .ok (Vector.ofFn fun i : Fin 0x10 =>
      (ambassador.get i ^^^ k.get i) + wurzelbert target.isPs5 + UInt8.ofNat i)

/-- The four bytes of the pin, from `off` on. -/
def pinXor (key : RPKey) (off : Nat) (pin : Nat) : RPKey :=
  Vector.ofFn fun i : Fin 0x10 =>
    if off ≤ i.val ∧ i.val < off + 4 then key.get i ^^^ (be32 pin).getD (i.val - off) 0 else key.get i

/-- `chiaki_rpcrypt_init_regist_ps4_pre10` -/
def rpcryptInitRegistPs4Pre10 (ambassador : RPKey) (pin : Nat) : RPCryptKeys where
  target := .ps49
  bright := pinXor (keyOfRow registAesKey) 0 pin
  ambassador := ambassador

/-- `chiaki_rpcrypt_init_regist`. Where it returns an error, nothing is written. -/
def rpcryptInitRegist (target : Target) (ambassador : RPKey) (key0Off pin : Nat) :
    Except Fault (Except ErrorCode RPCryptKeys) := do
  if target.value < Target.ps410.value then return .error .invalidData
  else if key0Off ≥ 0x20 then return .error .invalidData
  else
    let key ← tableKey (if target.isPs5 then ps5Keys0 else ps4Keys0) key0Off
    return .ok ⟨target, pinXor key 0xc pin, ambassador⟩

/-! ## The cipher -/

/-- What is used of the cryptographic library: HMAC-SHA-256, if it does not fail, AES-128 of one block, and whether
one of the functions for the cipher fails. -/
structure CryptoLib where
  hmac : Bytes → Bytes → Option Bytes
  aes : Bytes → Bytes → Bytes
  evpFails : Bool

/-- `rpcrypt_hmac_key` -/
def rpcryptHmacKey (target : Target) : RPKey :=
  match target with
  | .ps51 => keyOfRow hmacKeyPs5
  | .ps48 | .ps49 => keyOfRow hmacKeyPs4Pre10
  | _ => keyOfRow hmacKeyPs4

/-- `counter`, big-endian. -/
def be64 (v : Nat) : Bytes := be32 (v / 2 ^ 32) ++ be32 v

/-- `chiaki_rpcrypt_generate_iv` -/
def rpcryptGenerateIv (lib : CryptoLib) (rpcrypt : RPCryptKeys) (counter : Nat) : Except ErrorCode Bytes :=
  let buf := rpcrypt.ambassador.toList ++ be64 counter
  match lib.hmac (rpcryptHmacKey rpcrypt.target).toList buf with
  | none => .error .unknown
  | some hmac => if hmac.length < rpcryptKeySize then .error .unknown else .ok (hmac.take rpcryptKeySize)

/-- `chiaki_rpcrypt_crypt`. -/
def rpcryptCrypt (lib : CryptoLib) (rpcrypt : RPCryptKeys) (counter : Nat) (data : Bytes) (encrypt : Bool) :
    Except ErrorCode Bytes := do
  let iv ← rpcryptGenerateIv lib rpcrypt counter
  if lib.evpFails then .error .unknown
  else
    let aes := lib.aes rpcrypt.bright.toList
    if encrypt then return Cfb.encrypt aes rpcryptKeySize iv 0 data
    else return Cfb.decrypt aes rpcryptKeySize iv 0 data

/-- `chiaki_rpcrypt_encrypt` -/
def rpcryptEncrypt (lib : CryptoLib) (rpcrypt : RPCryptKeys) (counter : Nat) (data : Bytes) : Except ErrorCode Bytes :=
  rpcryptCrypt lib rpcrypt counter data true

/-- `chiaki_rpcrypt_decrypt` -/
def rpcryptDecrypt (lib : CryptoLib) (rpcrypt : RPCryptKeys) (counter : Nat) (data : Bytes) : Except ErrorCode Bytes :=
  rpcryptCrypt lib rpcrypt counter data false

theorem rpcryptEncrypt_ok {lib : CryptoLib} {keys : RPCryptKeys} {counter : Nat} {plain enc : Bytes}
    (h : rpcryptEncrypt lib keys counter plain = .ok enc) :
    enc.length = plain.length ∧ rpcryptDecrypt lib keys counter enc = .ok plain := by
  unfold rpcryptEncrypt rpcryptCrypt at h
  unfold rpcryptDecrypt rpcryptCrypt
  obtain ⟨iv, hiv, h⟩ := bind_eq_ok_iff.mp h
  rw [hiv]
  cases hfails : lib.evpFails with
  | true =>
    rw [hfails] at h
    cases h
  | false =>
    rw [hfails] at h
    cases h
    refine ⟨Cfb.length_encrypt _ _ _, ?_⟩
    show Except.ok _ = _
    rw [Cfb.decrypt_encrypt]

theorem length_rpcryptDecrypt {lib : CryptoLib} {keys : RPCryptKeys} {counter : Nat} {enc plain : Bytes}
    (h : rpcryptDecrypt lib keys counter enc = .ok plain) :
    plain.length = enc.length := by
  unfold rpcryptDecrypt rpcryptCrypt at h
  obtain ⟨iv, -, h⟩ := bind_eq_ok_iff.mp h
  cases hfails : lib.evpFails with
  | true =>
    rw [hfails] at h
    cases h
  | false =>
    rw [hfails] at h
    cases h
    exact Cfb.length_decrypt _ _ _

/-- The cipher with some keys. -/
def RPCryptKeys.cipher (lib : CryptoLib) (keys : RPCryptKeys) : RPCrypt where
  encrypt := rpcryptEncrypt lib keys
  decrypt := rpcryptDecrypt lib keys
  length_encrypt := fun _ _ _ h => (rpcryptEncrypt_ok h).1
  length_decrypt := fun _ _ _ h => length_rpcryptDecrypt h

end Chiaki
