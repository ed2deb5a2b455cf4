import Chiaki.Properties.StreamConnection.Step

/-!
# BANG and the two GKCrypts

The handler of BANG asserts that no secret has been derived before. Neither its success nor its failure
changes the state variable, so the handler runs again for every BANG until the running thread has woken
up. The assertion fails exactly if a BANG that passes the checks comes again after one from which the
secret was derived (`bangInvariant_step`). In every run, the GKCrypts are created at most once, and freed
once when the connection is.
-/

namespace Chiaki

open Infra StreamConnection

variable {P S : Type} {ec : EcGroup P S} {s s' t : StreamConnection P S} {l : StreamLabel}
variable {pb : Option TkprotoTakionMessage} {env : HandlerEnv} {log new : List StreamEvent}

/-! ## The property -/

/-- The indices of the GKCrypts that were created: 2 is `gkcrypt_local` and 3 is `gkcrypt_remote`. -/
def createdGKCrypts (log : List StreamEvent) : List Nat :=
  log.filterMap fun
    | .gkcryptNew index => some index
    | _ => none

def freedGKCrypts (log : List StreamEvent) : List Nat :=
  log.filterMap fun
    | .gkcryptFree index => some index
    | _ => none

/-- What there is to be freed. -/
def heldGKCrypts (s : StreamConnection P S) : List Nat :=
  (s.gkcryptRemote.toList ++ s.gkcryptLocal.toList).map (·.index)

/-- BANG is processed at most once: no assertion fails, and each GKCrypt is created at most once and
freed exactly once. -/
structure BangOnce (s : StreamConnection P S) : Prop where
  assertion : ∀ f, s.takion ≠ .fault f
  created : (createdGKCrypts s.log).Nodup
  freed : (freedGKCrypts s.log).Nodup
  finished : s.run = .finished → (freedGKCrypts s.log).Perm (createdGKCrypts s.log)

/-- The secret can be derived from this message. -/
def derivesSecret (ec : EcGroup P S) (s : StreamConnection P S) (pb : Option TkprotoTakionMessage)
    (env : HandlerEnv) : Bool :=
  match checkBang pb with
  | .accepted pubKey sig =>
    env.malloc && (ecdhDeriveSecret ec s.ecdh env.pointNew pubKey s.handshakeKey sig).isOk
  | _ => false

/-- It was derived from an earlier one. -/
def secretDerived (ec : EcGroup P S) (s : StreamConnection P S) : Bool :=
  s.log.any fun
    | .handled .expectBang pb env => derivesSecret ec s pb env
    | _ => false

def BangCheck.isAccepted : BangCheck → Bool
  | .accepted _ _ => true
  | _ => false

/-- The handler of BANG does not meet a BANG that passes its checks after the secret was derived. -/
def bangFirst (ec : EcGroup P S) (s : StreamConnection P S) : StreamLabel → Bool
  | .deliver pb _ => !(s.state = .expectBang && (checkBang pb).isAccepted && secretDerived ec s)
  | _ => true

/-! ## What leaves the secret and the GKCrypts alone -/

structure CryptKept (s s' : StreamConnection P S) : Prop where
  ecdhSecret : s'.ecdhSecret = s.ecdhSecret
  gkcryptLocal : s'.gkcryptLocal = s.gkcryptLocal
  gkcryptRemote : s'.gkcryptRemote = s.gkcryptRemote
  created : createdGKCrypts s'.log = createdGKCrypts s.log
  freed : freedGKCrypts s'.log = freedGKCrypts s.log

theorem CryptKept.refl (s : StreamConnection P S) : CryptKept s s := ⟨rfl, rfl, rfl, rfl, rfl⟩

theorem CryptKept.trans (h : CryptKept s t) (h' : CryptKept t s') : CryptKept s s' :=
  ⟨h'.ecdhSecret.trans h.ecdhSecret, h'.gkcryptLocal.trans h.gkcryptLocal,
    h'.gkcryptRemote.trans h.gkcryptRemote, h'.created.trans h.created, h'.freed.trans h.freed⟩

theorem CryptKept.held (h : CryptKept s s') : heldGKCrypts s' = heldGKCrypts s := by
  unfold heldGKCrypts
  rw [h.gkcryptLocal, h.gkcryptRemote]

theorem StreamConnection.send_crypt (s : StreamConnection P S) (err : ErrorCode) :
    CryptKept s (s.send err) := by
  unfold StreamConnection.send
  split
  · exact ⟨rfl, rfl, rfl, rfl, rfl⟩
  · exact .refl s

theorem takionDataHandleDisconnect_crypt (s : StreamConnection P S) (msg : TkprotoTakionMessage) :
    CryptKept s (takionDataHandleDisconnect s msg) ∧ (takionDataHandleDisconnect s msg).takion = s.takion := by
  unfold takionDataHandleDisconnect
  split
  · exact ⟨.refl s, rfl⟩
  · exact ⟨⟨rfl, rfl, rfl, rfl, rfl⟩, rfl⟩

theorem takionDataIdle_crypt (s : StreamConnection P S) (pb : Option TkprotoTakionMessage) :
    CryptKept s (takionDataIdle s pb) ∧ (takionDataIdle s pb).takion = s.takion := by
  unfold takionDataIdle
  split
  · exact ⟨.refl s, rfl⟩
  · split
    · exact takionDataHandleDisconnect_crypt s _
    · exact ⟨.refl s, rfl⟩

theorem takionDataExpectStreaminfo_crypt (s : StreamConnection P S) (pb : Option TkprotoTakionMessage)
    (env : HandlerEnv) : CryptKept s (takionDataExpectStreaminfo s pb env) ∧
      (takionDataExpectStreaminfo s pb env).takion = s.takion := by
  unfold takionDataExpectStreaminfo
  split
  · exact ⟨.refl s, rfl⟩
  · split
    · split
      · split
        · exact takionDataHandleDisconnect_crypt s _
        · exact ⟨.refl s, rfl⟩
      · split
        · exact ⟨⟨rfl, rfl, rfl, rfl, rfl⟩, rfl⟩
        · simp only
          split <;> exact ⟨⟨rfl, rfl, rfl, rfl, rfl⟩, rfl⟩
    · exact ⟨.refl s, rfl⟩

/-- Only the handler of BANG has to do with the secret. -/
theorem takionDataProtobuf_crypt (ec : EcGroup P S) (pb : Option TkprotoTakionMessage)
    (env : HandlerEnv) (hstate : s.state ≠ .expectBang) :
    CryptKept s (takionDataProtobuf ec s pb env) ∧
      (takionDataProtobuf ec s pb env).takion = s.takion := by
  have hnote : CryptKept s (s.emit (.handled s.state pb env)) := ⟨rfl, rfl, rfl, rfl, rfl⟩
  unfold takionDataProtobuf
  simp only
  split
  · next hbang => exact absurd hbang hstate
  · obtain ⟨hkept, htakion⟩ := takionDataExpectStreaminfo_crypt (s.emit (.handled s.state pb env)) pb env
    exact ⟨hnote.trans hkept, htakion⟩
  · obtain ⟨hkept, htakion⟩ := takionDataIdle_crypt (s.emit (.handled s.state pb env)) pb
    exact ⟨hnote.trans hkept, htakion⟩

theorem StreamProceed.crypt {w : StreamWait} {err : ErrorCode} (hp : StreamProceed s err w s') :
    CryptKept s s' := by
  cases hp <;> exact ⟨rfl, rfl, rfl, rfl, rfl⟩

theorem streamRunMove_crypt (hfini : l ≠ .fini) (hs : StreamRunMove s l s') : CryptKept s s' := by
  cases hs with
  | @begin result => cases result <;> exact ⟨rfl, rfl, rfl, rfl, rfl⟩
  | pass => exact (streamRunProceed_cases _ _ _ _).crypt
  | timeout => exact (streamRunProceed_cases _ _ _ _).crypt
  | wake => exact (streamRunProceed_cases _ _ _ _).crypt
  | big => exact (s.send_crypt _).trans ⟨rfl, rfl, rfl, rfl, rfl⟩
  | bigError => exact (s.send_crypt _).trans ⟨rfl, rfl, rfl, rfl, rfl⟩
  | heartbeat => exact (s.send_crypt _).trans ⟨rfl, rfl, rfl, rfl, rfl⟩
  | disconnect => exact (s.send_crypt _).trans ⟨rfl, rfl, rfl, rfl, rfl⟩
  | fini => exact absurd rfl hfini
  | _ => exact ⟨rfl, rfl, rfl, rfl, rfl⟩

theorem streamTakionMove_noFault (hdeliver : ∀ pb env, l ≠ .deliver pb env)
    (hs : StreamTakionMove ec s l s') (f : Fault) : s'.takion ≠ .fault f := by
  cases hs with
  | deliver => exact absurd rfl (hdeliver _ _)
  | ack htakion => exact fun hf => by cases htakion.symm.trans hf
  | av htakion => exact fun hf => by cases htakion.symm.trans hf
  | corrupt htakion => exact fun hf => by cases htakion.symm.trans hf
  | _ => rintro ⟨⟩

theorem streamTakionMove_crypt (hdeliver : ∀ pb env, l ≠ .deliver pb env)
    (hs : StreamTakionMove ec s l s') : CryptKept s s' := by
  cases hs with
  | connected =>
    rw [streamConnectionTakionCb_eq]
    exact ⟨rfl, rfl, rfl, rfl, rfl⟩
  | disconnected =>
    rw [streamConnectionTakionCb_eq]
    exact ⟨rfl, rfl, rfl, rfl, rfl⟩
  | deliver => exact absurd rfl (hdeliver _ _)
  | _ => exact ⟨rfl, rfl, rfl, rfl, rfl⟩

/-! ## The handler of BANG -/

theorem isAccepted_of_derivesSecret (hd : derivesSecret ec s pb env = true) :
    (checkBang pb).isAccepted = true := by
  unfold derivesSecret at hd
  split at hd
  · next hcheck =>
    rw [hcheck]
    rfl
  · cases hd

/-- The assertion fails. -/
theorem takionDataExpectBang_again (haccepted : (checkBang pb).isAccepted = true)
    (hsecret : s.ecdhSecret.isSome = true) :
    takionDataExpectBang ec s pb env = { s with takion := .fault .assertion } := by
  unfold takionDataExpectBang
  cases hcheck : checkBang pb with
  | accepted pubKey sig =>
    simp only [takionDataAcceptBang, hsecret, if_true]
  | _ =>
    rw [hcheck] at haccepted
    cases haccepted

/-- The secret is not derived. -/
theorem takionDataExpectBang_kept (hd : derivesSecret ec s pb env = false)
    (hfirst : (checkBang pb).isAccepted = true → s.ecdhSecret = none) :
    CryptKept s (takionDataExpectBang ec s pb env) ∧
      (takionDataExpectBang ec s pb env).takion = s.takion := by
  have hfail : CryptKept s s.fail := ⟨rfl, rfl, rfl, rfl, rfl⟩
  unfold takionDataExpectBang
  unfold derivesSecret at hd
  cases hcheck : checkBang pb with
  | undecodable => exact ⟨.refl s, rfl⟩
  | unexpected msg =>
    simp only
    split
    · exact takionDataHandleDisconnect_crypt s msg
    · exact ⟨.refl s, rfl⟩
  | refused => exact ⟨hfail, rfl⟩
  | accepted pubKey sig =>
    rw [hcheck] at hd hfirst
    simp only [takionDataAcceptBang, hfirst rfl, Option.isSome_none, Bool.false_eq_true, if_false]
    split
    · exact ⟨hfail, rfl⟩
    · next hmalloc =>
      cases hderive : ecdhDeriveSecret ec s.ecdh env.pointNew pubKey s.handshakeKey sig with
      | error err => exact ⟨hfail, rfl⟩
      | ok secret =>
        simp only [hderive, Except.isOk, Except.toBool, Bool.and_true] at hd
        simp only [hd, Bool.not_false, not_true_eq_false] at hmalloc

/-- The GKCrypts that are created are those that are held now, and those that were freed because another
one could not be had. -/
structure CryptCreated (s s' : StreamConnection P S) (lost : List Nat) : Prop where
  ecdhSecret : s'.ecdhSecret.isSome = true
  takion : s'.takion = s.takion
  created : createdGKCrypts s'.log = (lost ++ heldGKCrypts s') ++ createdGKCrypts s.log
  freed : freedGKCrypts s'.log = lost ++ freedGKCrypts s.log
  nodup : (lost ++ heldGKCrypts s').Nodup

theorem CryptCreated.kept {lost : List Nat} (h : CryptCreated s t lost) (hk : CryptKept t s')
    (htakion : s'.takion = t.takion) : CryptCreated s s' lost := by
  refine ⟨?_, htakion.trans h.takion, ?_, hk.freed.trans h.freed, ?_⟩
  · rw [hk.ecdhSecret]
    exact h.ecdhSecret
  · rw [hk.created, hk.held]
    exact h.created
  · rw [hk.held]
    exact h.nodup

theorem streamConnectionInitCrypt_created {secret : Bytes} (hsecret : s.ecdhSecret.isSome = true)
    (hremote : s.gkcryptRemote = none) :
    ∃ lost, CryptCreated s (streamConnectionInitCrypt s secret env).2 lost := by
  unfold streamConnectionInitCrypt
  by_cases hlocal : env.gkcryptLocal = true
  · by_cases hboth : env.gkcryptRemote = true
    · simp only [hlocal, hboth, Bool.not_true, Bool.false_eq_true, if_false]
      refine ⟨[], hsecret, rfl, rfl, rfl, ?_⟩
      show [3, 2].Nodup
      decide
    · simp only [hlocal, hboth, Bool.not_true, Bool.not_false, Bool.false_eq_true, if_false, if_true]
      refine ⟨[2], hsecret, rfl, rfl, rfl, ?_⟩
      show [2].Nodup
      decide
  · simp only [hlocal, Bool.not_false, if_true]
    have hheld : heldGKCrypts { s with gkcryptLocal := none } = [] := by
      simp [heldGKCrypts, hremote]
    refine ⟨[], hsecret, rfl, ?_, rfl, ?_⟩
    · rw [hheld]
      rfl
    · rw [hheld]
      decide

theorem takionDataExpectBang_created (hd : derivesSecret ec s pb env = true)
    (hsecret : s.ecdhSecret = none) (hremote : s.gkcryptRemote = none) :
    ∃ lost, CryptCreated s (takionDataExpectBang ec s pb env) lost := by
  unfold takionDataExpectBang
  unfold derivesSecret at hd
  cases hcheck : checkBang pb with
  | accepted pubKey sig =>
    rw [hcheck] at hd
    simp only [Bool.and_eq_true] at hd
    cases hderive : ecdhDeriveSecret ec s.ecdh env.pointNew pubKey s.handshakeKey sig with
    | error err =>
      rw [hderive] at hd
      cases hd.2
    | ok secret =>
      simp only [takionDataAcceptBang, hsecret, hderive, hd.1, Option.isSome_none, Bool.not_true,
        Bool.false_eq_true, if_false]
      obtain ⟨lost, hcreated⟩ := @streamConnectionInitCrypt_created P S
        { s with ecdhSecret := some secret } env secret rfl hremote
      have hcreated : CryptCreated s _ lost := ⟨hcreated.ecdhSecret, hcreated.takion,
        hcreated.created, hcreated.freed, hcreated.nodup⟩
      -- what comes behind does not matter any more
      refine ⟨lost, ?_⟩
      split
      · next hinit =>
        rw [hinit] at hcreated
        split
        · exact hcreated.kept ⟨rfl, rfl, rfl, rfl, rfl⟩ rfl
        · exact hcreated.kept ⟨rfl, rfl, rfl, rfl, rfl⟩ rfl
      · next hinit =>
        rw [hinit] at hcreated
        exact hcreated.kept ⟨rfl, rfl, rfl, rfl, rfl⟩ rfl
  | _ =>
    rw [hcheck] at hd
    cases hd

/-! ## The invariant -/

structure BangInvariant (ec : EcGroup P S) (s : StreamConnection P S) : Prop where
  secret : s.run ≠ .finished → s.ecdhSecret.isSome = secretDerived ec s
  fresh : s.run ≠ .finished → s.ecdhSecret = none → createdGKCrypts s.log = []
  created : (createdGKCrypts s.log).Nodup
  balance : (createdGKCrypts s.log).Perm (freedGKCrypts s.log ++ heldGKCrypts s)
  finished : s.run = .finished → heldGKCrypts s = []

/-- Nothing is held before BANG. -/
theorem BangInvariant.remote (h : BangInvariant ec s) (hrun : s.run ≠ .finished)
    (hsecret : s.ecdhSecret = none) : s.gkcryptRemote = none ∧ heldGKCrypts s = [] := by
  have hbalance := h.balance
  rw [h.fresh hrun hsecret, List.nil_perm, List.append_eq_nil_iff] at hbalance
  have hheld := hbalance.2
  refine ⟨?_, hheld⟩
  unfold heldGKCrypts at hheld
  cases hremote : s.gkcryptRemote with
  | none => rfl
  | some k =>
    rw [hremote] at hheld
    cases hheld

theorem bangInvariant_init (ecdh : Ecdh P S) (handshakeKey : Bytes) :
    BangInvariant ec (streamConnectionInit ecdh handshakeKey) :=
  ⟨fun _ => rfl, fun _ _ => rfl, .nil, .nil, fun _ => rfl⟩

theorem BangInvariant.kept (h : BangInvariant ec s) (hk : CryptKept s s')
    (hrun : s'.run = .finished ↔ s.run = .finished)
    (hderived : secretDerived ec s' = secretDerived ec s) : BangInvariant ec s' where
  secret := by
    rw [hk.ecdhSecret, hderived, Ne, hrun]
    exact h.secret
  fresh := by
    rw [hk.ecdhSecret, hk.created, Ne, hrun]
    exact h.fresh
  created := by
    rw [hk.created]
    exact h.created
  balance := by
    rw [hk.created, hk.freed, hk.held]
    exact h.balance
  finished := by
    rw [hrun, hk.held]
    exact h.finished

theorem BangInvariant.cryptCreated (h : BangInvariant ec s) {lost : List Nat}
    (hc : CryptCreated s s' lost) (hrun : s.run ≠ .finished) (hrun' : s'.run = s.run)
    (hsecret : s.ecdhSecret = none) (hderived : secretDerived ec s' = true) : BangInvariant ec s' := by
  have hcreated := hc.created
  have hfreed := hc.freed
  have hbalance := h.balance
  rw [h.fresh hrun hsecret, List.nil_perm, List.append_eq_nil_iff] at hbalance
  rw [h.fresh hrun hsecret, List.append_nil] at hcreated
  rw [hbalance.1, List.append_nil] at hfreed
  refine ⟨?_, ?_, ?_, ?_, ?_⟩
  · intro _
    rw [hc.ecdhSecret, hderived]
  · intro _ hnone
    have hsome := hc.ecdhSecret
    rw [hnone] at hsome
    cases hsome
  · rw [hcreated]
    exact hc.nodup
  · rw [hcreated, hfreed]
  · rw [hrun']
    exact fun hf => absurd hf hrun

/-- `chiaki_stream_connection_fini` frees what is held. -/
theorem BangInvariant.fini (h : BangInvariant ec s) : BangInvariant ec (streamConnectionFini s) := by
  have hcreated : createdGKCrypts (streamConnectionFini s).log = createdGKCrypts s.log := by
    rw [streamConnectionFini_log]
    cases s.gkcryptLocal <;> cases s.gkcryptRemote <;> rfl
  have hfreed : freedGKCrypts (streamConnectionFini s).log
      = (s.gkcryptLocal.toList ++ s.gkcryptRemote.toList).map (·.index) ++ freedGKCrypts s.log := by
    rw [streamConnectionFini_log]
    cases s.gkcryptLocal <;> cases s.gkcryptRemote <;> rfl
  have hrun : (streamConnectionFini s).run = .finished := rfl
  have hheld : heldGKCrypts (streamConnectionFini s) = [] := rfl
  refine ⟨fun hne => absurd hrun hne, fun hne => absurd hrun hne, ?_, ?_, fun _ => hheld⟩
  · rw [hcreated]
    exact h.created
  · rw [hcreated, hfreed, hheld, List.append_nil]
    refine h.balance.trans (List.perm_append_comm.trans (List.Perm.append_right _ ?_))
    exact (List.perm_append_comm).map _

/-! ## Steps -/

theorem derivesSecret_congr (hecdh : s'.ecdh = s.ecdh) (hkey : s'.handshakeKey = s.handshakeKey) :
    derivesSecret ec s' = derivesSecret ec s := by
  funext pb env
  unfold derivesSecret
  rw [hecdh, hkey]

theorem secretDerived_append (ec : EcGroup P S) (hecdh : s'.ecdh = s.ecdh) (hkey : s'.handshakeKey = s.handshakeKey)
    (hlog : s'.log = new ++ log) (hnew : ∀ e ∈ new, ∀ state pb env, e ≠ .handled state pb env) :
    secretDerived ec s' = secretDerived ec { s with log := log } := by
  unfold secretDerived
  rw [derivesSecret_congr hecdh hkey, hlog, List.any_append]
  refine Bool.or_eq_right_iff_imp.mpr fun hany => ?_
  obtain ⟨e, he, hd⟩ := List.any_eq_true.mp hany
  cases e with
  | handled state pb env => exact absurd rfl (hnew _ he state pb env)
  | _ => cases hd

theorem takionDataProtobuf_secretDerived (ec : EcGroup P S) (s : StreamConnection P S)
    (pb : Option TkprotoTakionMessage) (env : HandlerEnv) :
    secretDerived ec (takionDataProtobuf ec s pb env)
      = (decide (s.state = .expectBang) && derivesSecret ec s pb env || secretDerived ec s) := by
  have hframe := @takionDataProtobuf_frame P S ec s pb env
  obtain ⟨new, hlog, hof⟩ := takionDataProtobuf_log ec s pb env
  rw [secretDerived_append ec hframe.ecdh hframe.handshakeKey hlog fun e he => (hof e he).not_handled]
  show (_ || secretDerived ec s) = _
  congr 1
  show (match StreamEvent.handled s.state pb env with
    | .handled .expectBang pb env => derivesSecret ec s pb env
    | _ => false) = _
  cases s.state with
  | expectBang => rfl
  | _ => rfl

/-- A message: what it does to the secret, and whether the assertion fails. -/
theorem BangInvariant.deliver (h : BangInvariant ec s) (hrun : s.run ≠ .finished)
    (htakion : s.takion = .receive) :
    BangInvariant ec (takionDataProtobuf ec s pb env) ∧
      ((∀ f, (takionDataProtobuf ec s pb env).takion ≠ .fault f) ↔
        bangFirst ec s (.deliver pb env) = true) := by
  have hrun' : (takionDataProtobuf ec s pb env).run = s.run := (takionDataProtobuf_frame s pb env).run
  have hfinished : (takionDataProtobuf ec s pb env).run = .finished ↔ s.run = .finished := by
    rw [hrun']
  have hderived := takionDataProtobuf_secretDerived ec s pb env
  have hsecret := h.secret hrun
  by_cases hstate : s.state = .expectBang
  · rw [takionDataProtobuf_expectBang pb env hstate] at hderived hrun' hfinished ⊢
    simp only [hstate, decide_true, Bool.true_and] at hderived
    have hnote : CryptKept s (s.emit (.handled .expectBang pb env)) := ⟨rfl, rfl, rfl, rfl, rfl⟩
    by_cases hagain : (checkBang pb).isAccepted = true ∧ s.ecdhSecret.isSome = true
    · obtain ⟨haccepted, hsome⟩ := hagain
      have hold : secretDerived ec s = true := hsecret.symm.trans hsome
      have hfault := @takionDataExpectBang_again P S ec (s.emit (.handled .expectBang pb env)) pb env
        haccepted hsome
      rw [hfault] at hderived ⊢
      rw [hold, Bool.or_true] at hderived
      refine ⟨h.kept ⟨rfl, rfl, rfl, rfl, rfl⟩ .rfl (hderived.trans hold.symm), iff_of_false ?_ ?_⟩
      · exact fun hno => hno _ rfl
      · simp [bangFirst, hstate, haccepted, hold]
    · have hfirst : (checkBang pb).isAccepted = true → s.ecdhSecret = none := by
        intro haccepted
        simpa using fun hsome => hagain ⟨haccepted, hsome⟩
      have hcondition : bangFirst ec s (.deliver pb env) = true := by
        have hno : (checkBang pb).isAccepted = true → secretDerived ec s = false := by
          intro haccepted
          rw [← hsecret, hfirst haccepted]
          rfl
        cases haccepted : (checkBang pb).isAccepted with
        | false => simp [bangFirst, haccepted]
        | true => simp [bangFirst, hno haccepted]
      cases hd : derivesSecret ec s pb env with
      | false =>
        obtain ⟨hkept, hsame⟩ := takionDataExpectBang_kept
          (s := s.emit (.handled .expectBang pb env)) hd hfirst
        rw [hd, Bool.false_or] at hderived
        refine ⟨h.kept (hnote.trans hkept) hfinished hderived, iff_of_true ?_ hcondition⟩
        intro f hf
        cases htakion.symm.trans (hsame.symm.trans hf)
      | true =>
        have hnone := hfirst (isAccepted_of_derivesSecret hd)
        obtain ⟨lost, hcreated⟩ := takionDataExpectBang_created
          (s := s.emit (.handled .expectBang pb env)) hd hnone (h.remote hrun hnone).1
        rw [hd, Bool.true_or] at hderived
        have hc : CryptCreated s _ lost := ⟨hcreated.ecdhSecret, hcreated.takion,
          hcreated.created, hcreated.freed, hcreated.nodup⟩
        refine ⟨h.cryptCreated hc hrun hrun' hnone hderived, iff_of_true ?_ hcondition⟩
        intro f hf
        cases htakion.symm.trans (hcreated.takion.symm.trans hf)
  · obtain ⟨hkept, hsame⟩ := takionDataProtobuf_crypt ec pb env hstate
    refine ⟨h.kept hkept hfinished ?_, iff_of_true ?_ ?_⟩
    · rw [hderived]
      simp [hstate]
    · intro f hf
      rw [hsame, htakion] at hf
      cases hf
    · simp [bangFirst, hstate]

/-- The running thread is not at its end before `chiaki_stream_connection_fini`. -/
theorem streamRunMove_finished (hfini : l ≠ .fini) (hs : StreamRunMove s l s') :
    s'.run = .finished ↔ s.run = .finished := by
  have hproceed : ∀ {w err t}, StreamProceed s err w t → s.run ≠ .finished →
      (t.run = .finished ↔ s.run = .finished) := by
    intro w err t hp hrun
    exact iff_of_false (by cases hp <;> rintro ⟨⟩) hrun
  cases hs with
  | @begin result hrun =>
    rw [hrun]
    cases result <;> exact iff_of_false (by rintro ⟨⟩) (by rintro ⟨⟩)
  | pass hrun => exact hproceed (streamRunProceed_cases _ _ _ _) (by rw [hrun]; rintro ⟨⟩)
  | timeout hrun => exact hproceed (streamRunProceed_cases _ _ _ _) (by rw [hrun]; rintro ⟨⟩)
  | wake hrun => exact hproceed (streamRunProceed_cases _ _ _ _) (by rw [hrun]; rintro ⟨⟩)
  | fini => exact absurd rfl hfini
  | spurious => rfl
  | stop => rfl
  | wait hrun => exact iff_of_false (by rintro ⟨⟩) (by rw [hrun]; rintro ⟨⟩)
  | big hrun => exact iff_of_false (by rintro ⟨⟩) (by rw [hrun]; rintro ⟨⟩)
  | bigError hrun => exact iff_of_false (by rintro ⟨⟩) (by rw [hrun]; rintro ⟨⟩)
  | heartbeat hrun => exact iff_of_false (by rintro ⟨⟩) (by rw [hrun]; rintro ⟨⟩)
  | disconnect hrun => exact iff_of_false (by rintro ⟨⟩) (by rw [hrun]; rintro ⟨⟩)
  | relock hrun => exact iff_of_false (by rintro ⟨⟩) (by rw [hrun]; rintro ⟨⟩)
  | join hrun => exact iff_of_false (by rintro ⟨⟩) (by rw [hrun]; rintro ⟨⟩)

/-- No step but a message can fail the assertion. -/
theorem bangInvariant_step (hshape : StreamShape s) (h : BangInvariant ec s)
    (hs : streamStep ec s l = some s') :
    BangInvariant ec s' ∧ ((∀ f, s'.takion ≠ .fault f) ↔ bangFirst ec s l = true) := by
  by_cases hl : ∃ pb env, l = .deliver pb env
  · obtain ⟨pb, env, rfl⟩ := hl
    rcases (streamStep_cases hs).2 with hrun | htakion
    · cases hrun
    · cases htakion with
      | deliver _ htakion =>
        have hattached := hshape.attached (by rw [htakion]; decide) (by rw [htakion]; decide)
        refine h.deliver ?_ htakion
        intro hfinished
        rw [hfinished] at hattached
        cases hattached
  · have hl : ∀ pb env, l ≠ .deliver pb env := fun pb env he => hl ⟨pb, env, he⟩
    have hcondition : bangFirst ec s l = true := by
      unfold bangFirst
      split
      · exact absurd rfl (hl _ _)
      · rfl
    obtain ⟨new, hlog, hnotes⟩ := streamStep_notes hs
    have hhandled := fun e he => (hnotes e he).not_handled hl
    obtain ⟨hfault, hrun | htakion⟩ := streamStep_cases hs
    · have hframe := streamRunMove_frame hrun
      have hderived := secretDerived_append ec hframe.ecdh hframe.handshakeKey hlog hhandled
      refine ⟨?_, iff_of_true ?_ hcondition⟩
      · by_cases hfini : l = .fini
        · subst hfini
          cases hrun
          exact h.fini
        · exact h.kept (streamRunMove_crypt hfini hrun) (streamRunMove_finished hfini hrun) hderived
      · intro f hf
        rcases hframe.takion with hsame | ⟨-, hstart⟩
        · exact hfault f (hsame.symm.trans hf)
        · cases hstart.symm.trans hf
    · have hframe := streamTakionMove_frame htakion
      have hderived := secretDerived_append ec hframe.ecdh hframe.handshakeKey hlog hhandled
      refine ⟨?_, iff_of_true ?_ hcondition⟩
      · exact h.kept (streamTakionMove_crypt hl htakion) (by rw [hframe.run]) hderived
      · exact streamTakionMove_noFault hl htakion

theorem bangInvariant_invariant (ec : EcGroup P S) :
    (streamLts ec).Invariant fun s => StreamShape s ∧ BangInvariant ec s := by
  refine (streamShape_invariant ec).and_of ?_ ?_
  · rintro s ⟨ecdh, handshakeKey, rfl⟩
    exact bangInvariant_init ecdh handshakeKey
  · intro s l s' hshape h hs
    exact (bangInvariant_step hshape h hs).1

theorem BangInvariant.freed (h : BangInvariant ec s) : (freedGKCrypts s.log).Nodup := by
  have hnodup := h.balance.nodup_iff.mp h.created
  exact (List.nodup_append.mp hnodup).1

theorem BangInvariant.all_freed (h : BangInvariant ec s) (hfinished : s.run = .finished) :
    (freedGKCrypts s.log).Perm (createdGKCrypts s.log) := by
  have hbalance := h.balance
  rw [h.finished hfinished, List.append_nil] at hbalance
  exact hbalance.symm

theorem BangInvariant.once (h : BangInvariant ec s) : BangOnce s ↔ ∀ f, s.takion ≠ .fault f :=
  ⟨fun honce => honce.assertion, fun hassertion => ⟨hassertion, h.created, h.freed, h.all_freed⟩⟩

/-- A session that is stopped in the heartbeat loop. -/
def wholeSession : List StreamLabel :=
  runToHeartbeat ++ [.stop, .wake false .success, .send .success, .recvError, .event, .join, .fini]

theorem wholeSession_run :
    (Lts.runFun (Lts.guarded (streamStep generatorGroup) fun s l => bangFirst generatorGroup s l = true)
        zeroSession wholeSession).map
        (fun s => (s.run, createdGKCrypts s.log, freedGKCrypts s.log))
      = some (.finished, [3, 2], [2, 3]) := by
  decide +kernel

/-- A second BANG comes before the running thread has woken up. -/
def repeatedBang : List StreamLabel :=
  runToBang ++ [.deliver (generatorBang [1]) fineEnv, .deliver (generatorBang [1]) fineEnv]

theorem repeatedBang_run :
    (Lts.runFun (streamStep generatorGroup) zeroSession repeatedBang).map (fun s => s.takion)
      = some (.fault .assertion) := by
  decide +kernel

/-- The remote GKCrypt cannot be created, and the console tries again. -/
def retriedBang : List StreamLabel :=
  runToBang ++ [.deliver (generatorBang [1]) { fineEnv with gkcryptRemote := false },
    .deliver (generatorBang [1]) fineEnv]

theorem retriedBang_run :
    (Lts.runFun (streamStep generatorGroup) zeroSession retriedBang).map (fun s => s.takion)
      = some (.fault .assertion) := by
  decide +kernel

end Chiaki
