import Chiaki.GKCrypt
import Chiaki.Takion.Packet

/-!
# Message authentication codes (`gkcrypt.c`)

The part of a `ChiakiGKCrypt` that `chiaki_gkcrypt_gmac` works on. The key of a code depends on
the key position, and the key in use is kept.

SHA-256 and AES-GCM are parameters. `EVP_EncryptUpdate` gets the size of the buffer as an `int`,
and this is what the parameter for GCM sees. A call says how OpenSSL ended.
-/

namespace Chiaki

/-- `CHIAKI_GKCRYPT_GMAC_KEY_REFRESH_KEY_POS` -/
def gkcryptGmacKeyRefreshKeyPos : Nat := 45000

/-- `CHIAKI_GKCRYPT_GMAC_KEY_REFRESH_IV_OFFSET` -/
def gkcryptGmacKeyRefreshIvOffset : Nat := 44910

/-- A `ChiakiGKCrypt`, as far as the codes depend on it. -/
structure GMacState where
  iv : Block
  keyGmacBase : Block
  keyGmacCurrent : Block
  keyGmacIndexCurrent : Nat

/-- A call of `chiaki_gkcrypt_gmac`, with the error code that OpenSSL's part ends with. -/
structure GMacCall where
  keyPos : Nat
  buf : Bytes
  evp : ErrorCode

variable (sha256 : Bytes → Vector UInt8 32) (gcm : Block → Block → Bytes → Int → Mac)

/-- `chiaki_gkcrypt_gen_gmac_key` -/
def gkcryptGenGmacKey (index : Nat) (keyBase iv : Block) : Block :=
  let data := keyBase.toList
    ++ (counterAdd iv (index * gkcryptGmacKeyRefreshIvOffset % 2 ^ 64)).toList
  let md := sha256 data
  Vector.ofFn fun i : Fin 16 => md[i.val] ^^^ md[i.val + 0x10]

/-- `chiaki_gkcrypt_init`, once the key and the IV are there. -/
def gmacInit (keyBase iv : Block) : GMacState where
  iv := iv
  keyGmacBase := gkcryptGenGmacKey sha256 0 keyBase iv
  keyGmacCurrent := gkcryptGenGmacKey sha256 0 keyBase iv
  keyGmacIndexCurrent := 0

/-- `chiaki_gkcrypt_gen_new_gmac_key` -/
def gkcryptGenNewGmacKey (s : GMacState) (index : Nat) : Except Fault GMacState :=
  if index = 0 then .error .assertion
  else
    .ok { s with
      keyGmacCurrent := gkcryptGenGmacKey sha256 index s.keyGmacBase s.iv
      keyGmacIndexCurrent := index }

/-- `chiaki_gkcrypt_gen_tmp_gmac_key` -/
def gkcryptGenTmpGmacKey (s : GMacState) (index : Nat) : Block :=
  if index ≠ 0 then gkcryptGenGmacKey sha256 index s.keyGmacBase s.iv else s.keyGmacBase

/-- `key_index` -/
def gmacKeyIndex (keyPos : Nat) : Nat :=
  (if keyPos > 0 then keyPos - 1 else 0) / gkcryptGmacKeyRefreshKeyPos

/-- `gmac_key`, and the state with the key that is kept. -/
def gmacSelectKey (s : GMacState) (keyIndex : Nat) : Except Fault (Block × GMacState) :=
  if keyIndex > s.keyGmacIndexCurrent then do
    let s ← gkcryptGenNewGmacKey sha256 s keyIndex
    return (s.keyGmacCurrent, s)
  else if keyIndex < s.keyGmacIndexCurrent then
    return (gkcryptGenTmpGmacKey sha256 s keyIndex, s)
  else return (s.keyGmacCurrent, s)

/-- `chiaki_gkcrypt_gmac` -/
def gkcryptGmac (s : GMacState) (call : GMacCall) :
    Except Fault (Except ErrorCode Mac × GMacState) := do
  let iv := counterAdd s.iv (call.keyPos / 0x10)
  let (gmacKey, s) ← gmacSelectKey sha256 s (gmacKeyIndex call.keyPos)
  match call.evp with
  | .success =>
    return (.ok (gcm gmacKey iv call.buf (BitVec.ofNat 32 call.buf.length).toInt), s)
  | err => return (.error err, s)

/-- One call after the other on the same ChiakiGKCrypt. -/
def gkcryptGmacs (s : GMacState) :
    List GMacCall → Except Fault (List (Except ErrorCode Mac) × GMacState)
  | [] => return ([], s)
  | call :: calls => do
    let (result, s) ← gkcryptGmac sha256 gcm s call
    let (results, s) ← gkcryptGmacs s calls
    return (result :: results, s)

end Chiaki
