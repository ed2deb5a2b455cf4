import Chiaki.Common

/-!
# Key agreement (`ecdh.c`)

The OpenSSL back end. The curve and HMAC-SHA256 are parameters. The mbed TLS back end asks its
library for the same things, and neither of the two looks at `handshake_key` or `remote_sig` in
`chiaki_ecdh_derive_secret`.
-/

namespace Chiaki

variable {P S : Type}

/-- `CHIAKI_ECDH_SECRET_SIZE` -/
def ecdhSecretSize : Nat := 32

/-- What the library computes on the curve. -/
structure EcGroup (P S : Type) where
  /-- `EC_POINT_oct2point` -/
  oct2point : Bytes → Option P
  /-- `EC_POINT_point2oct`, uncompressed -/
  point2oct : P → Bytes
  /-- `ECDH_compute_key`, before it is cut to the size of the buffer -/
  computeKey : P → S → Option Bytes

/-- `ChiakiECDH` -/
structure Ecdh (P S : Type) where
  publicKey : P
  privateKey : S

variable (ec : EcGroup P S) (hmac : Bytes → Bytes → Bytes)

/-- `chiaki_ecdh_get_local_pub_key`: the key and its signature. `evp` is false if OpenSSL cannot
compute the HMAC. -/
def ecdhGetLocalPubKey (ecdh : Ecdh P S) (evp : Bool) (keyOutSize : Nat) (handshakeKey : Bytes) :
    Except ErrorCode (Bytes × Bytes) :=
  let keyOut := ec.point2oct ecdh.publicKey
  if keyOut.length = 0 ∨ keyOutSize < keyOut.length then .error .unknown
  else if !evp then .error .unknown
  else .ok (keyOut, hmac handshakeKey keyOut)

/-- `chiaki_ecdh_derive_secret`. `pointNew` is false if there is no memory for the point. -/
def ecdhDeriveSecret (ecdh : Ecdh P S) (pointNew : Bool) (remoteKey _handshakeKey _remoteSig : Bytes) :
    Except ErrorCode Bytes :=
  if !pointNew then .error .unknown
  else
    match ec.oct2point remoteKey with
    | none => .error .unknown
    | some remotePublicKey =>
      match ec.computeKey remotePublicKey ecdh.privateKey with
      | none => .error .unknown
      | some key =>
        let secretOut := key.take ecdhSecretSize
        if secretOut.length ≠ ecdhSecretSize then .error .unknown else .ok secretOut

end Chiaki
