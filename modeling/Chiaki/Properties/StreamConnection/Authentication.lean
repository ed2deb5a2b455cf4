import Chiaki.Properties.StreamConnection.Step

/-!
# The signature of the peer's key

`chiaki_ecdh_get_local_pub_key` signs the local key with the handshake key, and the handler of BANG
insists on a signature and passes it on. `chiaki_ecdh_derive_secret` does not look at it: whether it
succeeds depends on the key alone (`ecdhDeriveSecret_ok_iff`), so a BANG message is accepted with any
signature (`bangInstalls_iff`), and two endpoints accept each other with different handshake keys
(`endpointsAccept_iff`). `peerAuthenticated_iff` says for which inputs the key is authenticated all
the same.
-/

namespace Chiaki

open StreamConnection

variable {P S : Type} {ec : EcGroup P S} {hmac : Bytes → Bytes → Bytes} {ecdh : Ecdh P S}
variable {remoteKey handshakeKey : Bytes} {pointNew : Bool}

/-! ## `chiaki_ecdh_derive_secret` -/

/-- There is a shared secret for the key: it is a point of the curve, and the library computes as many
bytes as needed. -/
def Derivable (ec : EcGroup P S) (ecdh : Ecdh P S) (pointNew : Bool) (remoteKey : Bytes) : Prop :=
  pointNew = true ∧ ∃ point key, ec.oct2point remoteKey = some point ∧
    ec.computeKey point ecdh.privateKey = some key ∧ ecdhSecretSize ≤ key.length

/-- **Neither the handshake key nor the signature plays a part.** -/
theorem ecdhDeriveSecret_ok_iff (handshakeKey remoteSig : Bytes) :
    (∃ secret, ecdhDeriveSecret ec ecdh pointNew remoteKey handshakeKey remoteSig = .ok secret) ↔
      Derivable ec ecdh pointNew remoteKey := by
  unfold ecdhDeriveSecret Derivable
  cases pointNew with
  | false => simp
  | true =>
    cases hpoint : ec.oct2point remoteKey with
    | none => simp
    | some point =>
      cases hkey : ec.computeKey point ecdh.privateKey with
      | none => simp [hkey]
      | some key =>
        by_cases hlen : ecdhSecretSize ≤ key.length
        · simp [hkey, hlen]
        · have hmin : ¬ min ecdhSecretSize key.length = ecdhSecretSize := by omega
          simp [hkey, hlen, hmin]

/-! ## The handler of BANG -/

/-- The handler installs `gkcrypt_local` and `gkcrypt_remote`. -/
def BangInstalls (ec : EcGroup P S) (s : StreamConnection P S) (pb : Option TkprotoTakionMessage)
    (env : HandlerEnv) : Prop :=
  s.gkcryptLocal = none ∧ (takionDataExpectBang ec s pb env).gkcryptLocal.isSome ∧
    (takionDataExpectBang ec s pb env).gkcryptRemote.isSome

/-- Nothing but the signature is left to check: it is the first BANG, and there is no lack of memory
or threads. -/
structure BangComplete (ec : EcGroup P S) (s : StreamConnection P S)
    (pb : Option TkprotoTakionMessage) (env : HandlerEnv) (pubKey sig : Bytes) : Prop where
  check : checkBang pb = .accepted pubKey sig
  noSecret : s.ecdhSecret = none
  noLocal : s.gkcryptLocal = none
  malloc : env.malloc = true
  derivable : Derivable ec s.ecdh env.pointNew pubKey
  gkcryptLocal : env.gkcryptLocal = true
  gkcryptRemote : env.gkcryptRemote = true

@[simp] theorem StreamConnection.push_gkcryptLocal (s : StreamConnection P S) :
    s.push.gkcryptLocal = s.gkcryptLocal := rfl

@[simp] theorem StreamConnection.push_gkcryptRemote (s : StreamConnection P S) :
    s.push.gkcryptRemote = s.gkcryptRemote := rfl

@[simp] theorem StreamConnection.fail_gkcryptLocal (s : StreamConnection P S) :
    s.fail.gkcryptLocal = s.gkcryptLocal := rfl

@[simp] theorem StreamConnection.fail_gkcryptRemote (s : StreamConnection P S) :
    s.fail.gkcryptRemote = s.gkcryptRemote := rfl

theorem takionDataHandleDisconnect_gkcryptLocal (s : StreamConnection P S)
    (msg : TkprotoTakionMessage) :
    (takionDataHandleDisconnect s msg).gkcryptLocal = s.gkcryptLocal := by
  unfold takionDataHandleDisconnect
  split <;> rfl

/-- The rest of the handler. -/
theorem takionDataAcceptBang_installs {s : StreamConnection P S} {pubKey sig : Bytes} {env : HandlerEnv}
    (hlocal : s.gkcryptLocal = none) :
    ((takionDataAcceptBang ec s pubKey sig env).gkcryptLocal.isSome ∧
        (takionDataAcceptBang ec s pubKey sig env).gkcryptRemote.isSome) ↔
      s.ecdhSecret = none ∧ env.malloc = true ∧ Derivable ec s.ecdh env.pointNew pubKey ∧
        env.gkcryptLocal = true ∧ env.gkcryptRemote = true := by
  rw [← ecdhDeriveSecret_ok_iff s.handshakeKey sig]
  unfold takionDataAcceptBang
  cases hsecret : s.ecdhSecret with
  | some secret => simp [hlocal]
  | none =>
    cases hmalloc : env.malloc with
    | false => simp [hlocal]
    | true =>
      cases hderive : ecdhDeriveSecret ec s.ecdh env.pointNew pubKey s.handshakeKey sig with
      | error err => simp [hlocal]
      | ok secret =>
        unfold streamConnectionInitCrypt
        cases henvLocal : env.gkcryptLocal with
        | false => simp
        | true =>
          cases henvRemote : env.gkcryptRemote with
          | false => simp [emit]
          | true => cases henvSent : env.sent <;> simp [emit]

/-- **A BANG message is accepted no matter what its signature is.** -/
theorem bangInstalls_iff {s : StreamConnection P S} {pb : Option TkprotoTakionMessage}
    {env : HandlerEnv} :
    BangInstalls ec s pb env ↔ ∃ pubKey sig, BangComplete ec s pb env pubKey sig := by
  unfold BangInstalls takionDataExpectBang
  constructor
  · rintro ⟨hlocal, hinstalled⟩
    cases hcheck : checkBang pb with
    | accepted pubKey sig =>
      simp only [hcheck] at hinstalled
      obtain ⟨hsecret, hmalloc, hderivable, henvLocal, henvRemote⟩ :=
        (takionDataAcceptBang_installs hlocal).mp hinstalled
      exact ⟨pubKey, sig, hcheck, hsecret, hlocal, hmalloc, hderivable, henvLocal, henvRemote⟩
    | undecodable => simp [hcheck, hlocal] at hinstalled
    | refused => simp [hcheck, hlocal] at hinstalled
    | unexpected msg =>
      simp only [hcheck] at hinstalled
      split at hinstalled
      · simp [takionDataHandleDisconnect_gkcryptLocal, hlocal] at hinstalled
      · simp [hlocal] at hinstalled
  · rintro ⟨pubKey, sig, h⟩
    refine ⟨h.noLocal, ?_⟩
    simp only [h.check]
    exact (takionDataAcceptBang_installs h.noLocal).mpr
      ⟨h.noSecret, h.malloc, h.derivable, h.gkcryptLocal, h.gkcryptRemote⟩

/-! ## Two endpoints -/

/-- Each of two endpoints derives a secret from the key and the signature that the other one
generates. -/
def EndpointsAccept (ec : EcGroup P S) (hmac : Bytes → Bytes → Bytes) (ecdh₁ ecdh₂ : Ecdh P S)
    (handshakeKey₁ handshakeKey₂ : Bytes) : Prop :=
  ∃ key₁ sig₁ key₂ sig₂, ecdhGetLocalPubKey ec hmac ecdh₁ true 128 handshakeKey₁ = .ok (key₁, sig₁) ∧
    ecdhGetLocalPubKey ec hmac ecdh₂ true 128 handshakeKey₂ = .ok (key₂, sig₂) ∧
    (∃ secret, ecdhDeriveSecret ec ecdh₁ true key₂ handshakeKey₁ sig₂ = .ok secret) ∧
    ∃ secret, ecdhDeriveSecret ec ecdh₂ true key₁ handshakeKey₂ sig₁ = .ok secret

/-- The key of an endpoint fits into the message, and the other one accepts it. -/
def KeyUsable (ec : EcGroup P S) (ecdh other : Ecdh P S) : Prop :=
  (ec.point2oct ecdh.publicKey).length ≠ 0 ∧ (ec.point2oct ecdh.publicKey).length ≤ 128 ∧
    Derivable ec other true (ec.point2oct ecdh.publicKey)

theorem ecdhGetLocalPubKey_ok_iff {keyOutSize : Nat} {key sig : Bytes} :
    ecdhGetLocalPubKey ec hmac ecdh true keyOutSize handshakeKey = .ok (key, sig) ↔
      (ec.point2oct ecdh.publicKey).length ≠ 0 ∧ (ec.point2oct ecdh.publicKey).length ≤ keyOutSize ∧
        ec.point2oct ecdh.publicKey = key ∧ hmac handshakeKey key = sig := by
  unfold ecdhGetLocalPubKey
  simp only
  by_cases hsize : (ec.point2oct ecdh.publicKey).length = 0 ∨
      keyOutSize < (ec.point2oct ecdh.publicKey).length
  · rw [if_pos hsize]
    simp only [reduceCtorEq, false_iff]
    rintro ⟨hne, hle, -⟩
    rcases hsize with hzero | hlt
    · exact hne hzero
    · exact absurd hle (Nat.not_le.mpr hlt)
  · obtain ⟨hne, hle⟩ := not_or.mp hsize
    rw [if_neg hsize, if_neg (by simp)]
    simp only [Except.ok.injEq, Prod.mk.injEq]
    constructor
    · rintro ⟨rfl, rfl⟩
      exact ⟨hne, Nat.not_lt.mp hle, rfl, rfl⟩
    · rintro ⟨-, -, rfl, rfl⟩
      exact ⟨rfl, rfl⟩

/-- **Two endpoints accept each other whatever their handshake keys are.** -/
theorem endpointsAccept_iff {ecdh₁ ecdh₂ : Ecdh P S} {handshakeKey₁ handshakeKey₂ : Bytes} :
    EndpointsAccept ec hmac ecdh₁ ecdh₂ handshakeKey₁ handshakeKey₂ ↔
      KeyUsable ec ecdh₁ ecdh₂ ∧ KeyUsable ec ecdh₂ ecdh₁ := by
  unfold EndpointsAccept KeyUsable
  simp only [ecdhGetLocalPubKey_ok_iff, ecdhDeriveSecret_ok_iff]
  constructor
  · rintro ⟨key₁, sig₁, key₂, sig₂, ⟨hne₁, hle₁, rfl, -⟩, ⟨hne₂, hle₂, rfl, -⟩, hder₁, hder₂⟩
    exact ⟨⟨hne₁, hle₁, hder₂⟩, hne₂, hle₂, hder₁⟩
  · rintro ⟨⟨hne₁, hle₁, hder₂⟩, hne₂, hle₂, hder₁⟩
    exact ⟨_, _, _, _, ⟨hne₁, hle₁, rfl, rfl⟩, ⟨hne₂, hle₂, rfl, rfl⟩, hder₁, hder₂⟩

/-! ## The property -/

/--
**The peer's key is authenticated exactly for the inputs where something else fails or the signature
happens to be right**: for the derivation of the secret, for the handler of BANG, and for two endpoints.
-/
theorem peerAuthenticated_iff (ec : EcGroup P S) (hmac : Bytes → Bytes → Bytes) :
    (∀ ecdh pointNew remoteKey handshakeKey remoteSig,
      ((∃ secret, ecdhDeriveSecret ec ecdh pointNew remoteKey handshakeKey remoteSig = .ok secret) →
          remoteSig = hmac handshakeKey remoteKey) ↔
        (¬ Derivable ec ecdh pointNew remoteKey ∨ remoteSig = hmac handshakeKey remoteKey)) ∧
    (∀ s pb env,
      (BangInstalls ec s pb env → ∃ pubKey sig, checkBang pb = .accepted pubKey sig ∧
          sig = hmac s.handshakeKey pubKey) ↔
        ∀ pubKey sig, BangComplete ec s pb env pubKey sig → sig = hmac s.handshakeKey pubKey) ∧
    ∀ ecdh₁ ecdh₂ handshakeKey₁ handshakeKey₂,
      (EndpointsAccept ec hmac ecdh₁ ecdh₂ handshakeKey₁ handshakeKey₂ →
          handshakeKey₁ = handshakeKey₂) ↔
        (handshakeKey₁ = handshakeKey₂ ∨ ¬ KeyUsable ec ecdh₁ ecdh₂ ∨ ¬ KeyUsable ec ecdh₂ ecdh₁) := by
  refine ⟨?_, ?_, ?_⟩
  · intro ecdh pointNew remoteKey handshakeKey remoteSig
    rw [ecdhDeriveSecret_ok_iff, imp_iff_not_or]
  · intro s pb env
    rw [bangInstalls_iff]
    constructor
    · intro hauth pubKey sig hcomplete
      obtain ⟨pubKey', sig', hcheck, hsig⟩ := hauth ⟨pubKey, sig, hcomplete⟩
      cases hcomplete.check.symm.trans hcheck
      exact hsig
    · rintro hauth ⟨pubKey, sig, hcomplete⟩
      exact ⟨pubKey, sig, hcomplete.check, hauth pubKey sig hcomplete⟩
  · intro ecdh₁ ecdh₂ handshakeKey₁ handshakeKey₂
    rw [endpointsAccept_iff]
    constructor
    · intro hsame
      by_cases h₁ : KeyUsable ec ecdh₁ ecdh₂
      · by_cases h₂ : KeyUsable ec ecdh₂ ecdh₁
        · exact .inl (hsame ⟨h₁, h₂⟩)
        · exact .inr (.inr h₂)
      · exact .inr (.inl h₁)
    · rintro (hsame | hnot | hnot) ⟨h₁, h₂⟩
      · exact hsame
      · exact absurd h₁ hnot
      · exact absurd h₂ hnot

/-! ### The generator of the curve as key -/

/-- A connection that waits for BANG. -/
def generatorConnection (handshakeKey : Bytes) : StreamConnection Unit Unit :=
  (streamConnectionInit ⟨(), ()⟩ handshakeKey).setState .expectBang

theorem derivable_generator : Derivable generatorGroup ⟨(), ()⟩ true generatorKey :=
  ⟨rfl, (), generatorX, rfl, rfl, by decide⟩

theorem bangComplete_generator {sig handshakeKey : Bytes} (hne : sig ≠ []) (hlen : sig.length ≤ 32) :
    BangComplete generatorGroup (generatorConnection handshakeKey) (generatorBang sig) fineEnv
      generatorKey sig where
  check := by
    have hkeyLen : generatorKey.length ≤ 128 := by decide
    have hkeyNe : generatorKey ≠ [] := by decide
    simp [checkBang, generatorBang, pbDecodeBuf, hne, hlen, hkeyLen, hkeyNe]
  noSecret := rfl
  noLocal := rfl
  malloc := rfl
  derivable := derivable_generator
  gkcryptLocal := rfl
  gkcryptRemote := rfl

/-- The first byte of the key as a signature: the property holds of a signature that is right. -/
theorem peerAuthenticated_iff_rightSig :
    BangInstalls generatorGroup (generatorConnection (List.replicate 16 0))
        (generatorBang [0x04]) fineEnv ∧
      ∃ pubKey sig, checkBang (generatorBang [0x04]) = .accepted pubKey sig ∧ sig = pubKey.take 1 := by
  have hinstalls : BangInstalls generatorGroup (generatorConnection (List.replicate 16 0))
      (generatorBang [0x04]) fineEnv :=
    bangInstalls_iff.mpr ⟨_, _, bangComplete_generator (by decide) (by decide)⟩
  refine ⟨hinstalls, ((peerAuthenticated_iff generatorGroup fun _ data => data.take 1).2.1
    (generatorConnection (List.replicate 16 0)) _ _).mpr ?_ hinstalls⟩
  intro pubKey sig hcomplete
  have hcheck := (@bangComplete_generator [0x04] [] (by decide) (by decide)).check
  cases hcomplete.check.symm.trans hcheck
  rfl

/-- Two different signatures are accepted for the same key, and two endpoints with different handshake
keys accept each other. -/
theorem not_peerAuthenticated :
    BangInstalls generatorGroup (generatorConnection (List.replicate 16 0))
        (generatorBang (List.replicate 32 0)) fineEnv ∧
      BangInstalls generatorGroup (generatorConnection (List.replicate 16 0))
        (generatorBang (List.replicate 32 1)) fineEnv ∧
      ∀ hmac : Bytes → Bytes → Bytes,
        (¬ ∀ sig, BangInstalls generatorGroup (generatorConnection (List.replicate 16 0))
            (generatorBang sig) fineEnv → sig = hmac (List.replicate 16 0) generatorKey) ∧
          EndpointsAccept generatorGroup hmac ⟨(), ()⟩ ⟨(), ()⟩ (List.replicate 16 0)
            (List.replicate 16 1) := by
  have hinstalls : ∀ sig : Bytes, sig ≠ [] → sig.length ≤ 32 →
      BangInstalls generatorGroup (generatorConnection (List.replicate 16 0)) (generatorBang sig)
        fineEnv :=
    fun sig hne hlen => bangInstalls_iff.mpr ⟨_, _, bangComplete_generator hne hlen⟩
  have h0 := hinstalls (List.replicate 32 0) (by decide) (by decide)
  have h1 := hinstalls (List.replicate 32 1) (by decide) (by decide)
  refine ⟨h0, h1, fun hmac => ⟨fun hall => ?_, ?_⟩⟩
  · have hsame := (hall _ h0).trans (hall _ h1).symm
    exact absurd hsame (by decide)
  · have husable : KeyUsable generatorGroup ⟨(), ()⟩ ⟨(), ()⟩ :=
      ⟨(by decide), (by decide), derivable_generator⟩
    exact endpointsAccept_iff.mpr ⟨husable, husable⟩

end Chiaki
