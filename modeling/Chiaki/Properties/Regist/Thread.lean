import Chiaki.Properties.Regist.Request
import Chiaki.Regist.Thread

/-!
# What a registration does

* `RegistPart` — what holds of each part of the log: what it leaves open, and that it does not call the callback
* `registThread_right` — what holds of all that the thread does
-/

namespace Chiaki

open Infra

variable {Addr : Type} {lib : CryptoLib} {info : RegistInfo} {env : RegistEnv Addr} {log log' : List (RegistAction Addr)}
  {result : RegistEnd} {addr : Addr}

/-! ## Parts of the log -/

/-- A resource is taken or given back. -/
def RegistAction.bracket : RegistAction Addr → Option (Bracket RegistResource)
  | .resource b => some b
  | _ => none

/-- The callback is called. -/
def RegistAction.event : RegistAction Addr → Option RegistFinished
  | .finished event => some event
  | _ => none

/-- A part of the log leaves open what is `held`, closes nothing else than it has opened, and does not call the
callback. -/
structure RegistPart (log : List (RegistAction Addr)) (held : Multiset RegistResource) : Prop where
  replay : Bracket.replay 0 (log.filterMap RegistAction.bracket) = some held
  quiet : log.filterMap RegistAction.event = []

theorem RegistPart.nil : RegistPart ([] : List (RegistAction Addr)) 0 := ⟨rfl, rfl⟩

/-- One part behind another. -/
theorem RegistPart.append {held held' : Multiset RegistResource} (h : RegistPart log held) (h' : RegistPart log' held') :
    RegistPart (log ++ log') (held + held') where
  replay := by
    have hmore := Bracket.replay_add h'.replay held
    rw [zero_add, add_comm] at hmore
    rw [List.filterMap_append, Bracket.replay_append, h.replay, Option.bind_some, hmore]
  quiet := by rw [List.filterMap_append, h.quiet, h'.quiet, List.append_nil]

/-- What is held is given back. -/
theorem RegistPart.close {r : RegistResource} (h : RegistPart log {r}) :
    RegistPart (log ++ [.resource (.closing r)]) 0 where
  replay := by
    rw [List.filterMap_append, Bracket.replay_append, h.replay, Option.bind_some]
    show (if r ∈ ({r} : Multiset RegistResource) then _ else _) = _
    rw [if_pos (Multiset.mem_singleton_self r), Multiset.erase_singleton]
    rfl
  quiet := by
    rw [List.filterMap_append, h.quiet]
    rfl

/-! ## The search -/

theorem registSearchSocket_part (info : RegistInfo) (ai : RegistAddrInfo Addr) :
    RegistPart (registSearchSocket info ai).1 (if (registSearchSocket info ai).2 then {.searchSocket} else 0) := by
  unfold registSearchSocket
  split
  · exact .nil
  · generalize (if info.broadcast then ai.setsockopt && ai.bind else ai.connect) = ok
    cases ok with
    | true => exact ⟨rfl, rfl⟩
    | false => exact ⟨rfl, rfl⟩

theorem registSearchConnect_part (info : RegistInfo) (sendAddrLen : Nat) (ais : List (RegistAddrInfo Addr)) :
    RegistPart (registSearchConnect info sendAddrLen ais).1
      (if (registSearchConnect info sendAddrLen ais).2.isSome then {.searchSocket} else 0) := by
  induction ais generalizing sendAddrLen with
  | nil => exact .nil
  | cons ai ais ih =>
    rw [registSearchConnect]
    split
    · exact ih sendAddrLen
    · split
      · exact ih sendAddrLen
      · have hsocket := registSearchSocket_part info ai
        generalize registSearchSocket info ai = opened at hsocket
        obtain ⟨log, ok⟩ := opened
        cases ok with
        | true => exact hsocket
        | false =>
          have hrest := hsocket.append (ih ai.addrLen)
          rw [if_neg Bool.false_ne_true, zero_add] at hrest
          exact hrest

/-- Who is found has answered in time, with the right text. -/
theorem registSearchLoop_ok {res : Bytes} {timeoutAbs : Nat} {rounds : List (RegistSearchRound Addr)}
    (h : registSearchLoop res timeoutAbs rounds = .ok addr) :
    ∃ round ∈ rounds, ∃ data, round.recvfrom = some (data, addr) ∧ res <+: data ∧ round.now ≤ timeoutAbs := by
  induction rounds with
  | nil => cases h
  | cons round rounds ih =>
    simp only [registSearchLoop] at h
    have hlater (h : registSearchLoop res timeoutAbs rounds = .ok addr) : ∃ round' ∈ round :: rounds, ∃ data,
        round'.recvfrom = some (data, addr) ∧ res <+: data ∧ round'.now ≤ timeoutAbs := by
      obtain ⟨round', hround, hright⟩ := ih h
      exact ⟨round', List.mem_cons_of_mem _ hround, hright⟩
    by_cases hlate : round.now > timeoutAbs
    · rw [if_pos hlate, if_pos (by decide)] at h
      cases h
    · rw [if_neg hlate] at h
      split at h
      · cases h
      · split at h
        · cases h
        · next data from_ hrecv =>
          split at h
          · cases h
          · split at h
            · next hprefix =>
              cases h
              exact ⟨round, List.mem_cons_self, data, hrecv,
                (List.isPrefixOf_iff_prefix.mp hprefix).trans (List.take_prefix _ _), Nat.le_of_not_lt hlate⟩
            · exact hlater h

/-- The search is canceled only by the stop pipe. -/
theorem registSearchLoop_canceled {res : Bytes} {timeoutAbs : Nat} {rounds : List (RegistSearchRound Addr)}
    (h : registSearchLoop res timeoutAbs rounds = .error .canceled) : ∃ round ∈ rounds, round.select = .canceled := by
  induction rounds with
  | nil => cases h
  | cons round rounds ih =>
    simp only [registSearchLoop] at h
    have hlater (h : registSearchLoop res timeoutAbs rounds = .error .canceled) :
        ∃ round' ∈ round :: rounds, round'.select = .canceled := by
      obtain ⟨round', hround, hright⟩ := ih h
      exact ⟨round', List.mem_cons_of_mem _ hround, hright⟩
    by_cases hlate : round.now > timeoutAbs
    · rw [if_pos hlate, if_pos (by decide)] at h
      cases h
    · rw [if_neg hlate] at h
      split at h
      · exact ⟨round, List.mem_cons_self, RegistResult.error.inj h⟩
      · split at h
        · cases h
        · split at h
          · cases h
          · split at h
            · cases h
            · exact hlater h

/-- The search leaves nothing open, unless it waits. -/
theorem registSearch_part {addrinfos : List (RegistAddrInfo Addr)} {found : RegistResult Addr}
    (h : registSearch info env addrinfos = (log, found)) : ∃ held, RegistPart log held ∧ (found ≠ .waiting → held = 0) := by
  unfold registSearch at h
  have hconnect := registSearchConnect_part info sizeofSockaddr addrinfos
  generalize registSearchConnect info sizeofSockaddr addrinfos = connected at h hconnect
  obtain ⟨opened, addr | addr⟩ := connected
  · cases h
    exact ⟨0, hconnect, fun _ => rfl⟩
  · have hsent : RegistPart (opened ++ [RegistAction.search (registSrc info.target ++ [0]) addr]) {.searchSocket} := by
      have hfree : RegistPart [RegistAction.search (registSrc info.target ++ [0]) addr] 0 := ⟨rfl, rfl⟩
      simpa using hconnect.append hfree
    simp only at h
    split at h
    · cases h
      exact ⟨0, hsent.close, fun _ => rfl⟩
    · split at h
      · cases h
        exact ⟨_, hsent, fun hne => absurd rfl hne⟩
      · cases h
        exact ⟨0, hsent.close, fun _ => rfl⟩

/-- Who is found has answered in time. -/
theorem registSearch_ok {addrinfos : List (RegistAddrInfo Addr)} (h : registSearch info env addrinfos = (log, .ok addr)) :
    ∃ round ∈ env.searchRounds, ∃ data, round.recvfrom = some (data, addr) ∧ registRes info.target <+: data ∧
      round.now ≤ env.now + registSearchTimeoutMs := by
  unfold registSearch at h
  split at h
  · cases (Prod.mk.inj h).2
  · split at h
    · cases (Prod.mk.inj h).2
    · split at h
      · cases (Prod.mk.inj h).2
      · exact registSearchLoop_ok (Prod.mk.inj h).2

theorem registSearch_canceled {addrinfos : List (RegistAddrInfo Addr)}
    (h : registSearch info env addrinfos = (log, .error .canceled)) :
    ∃ round ∈ env.searchRounds, round.select = .canceled := by
  unfold registSearch at h
  split at h
  · cases (Prod.mk.inj h).2
  · split at h
    · cases (Prod.mk.inj h).2
    · split at h
      · cases (Prod.mk.inj h).2
      · exact registSearchLoop_canceled (Prod.mk.inj h).2

/-! ## The request -/

theorem registRequestConnect_part (env : RegistEnv Addr) (addr : Addr) :
    RegistPart (registRequestConnect env addr).1 (if (registRequestConnect env addr).2 then {.requestSocket} else 0) := by
  unfold registRequestConnect
  split
  · exact .nil
  · split
    · exact ⟨rfl, rfl⟩
    · exact ⟨rfl, rfl⟩

/-- Who is asked for the request is who was found. -/
theorem registRequestConnect_true {env : RegistEnv Addr} (h : registRequestConnect env addr = (log, true)) :
    log = [.resource (.opening .requestSocket), .connect addr] := by
  unfold registRequestConnect at h
  split at h
  · cases (Prod.mk.inj h).2
  · split at h
    · cases (Prod.mk.inj h).2
    · exact (Prod.mk.inj h).1.symm

variable {header : Bytes} {payload : RegistRequestPayload}

/-- What the two sides say to each other once they are connected: nothing is opened, and what comes out is what came
from the other side. -/
theorem registExchange_ok (h : registExchange lib info env header payload = .ok (log, result)) :
    RegistPart log 0 ∧
      (∀ host, result = .success host → log = [.send header, .send (payload.buf.take payload.bufSize)] ∧
        registRecvResponse env.malloc env.mallocPayload (payload.crypt.cipher lib) info.target env.host
          (env.stack registBufSize) env.rounds = .ok (some (host, .success))) ∧
      (result = .canceled → ∃ host, registRecvResponse env.malloc env.mallocPayload (payload.crypt.cipher lib)
        info.target env.host (env.stack registBufSize) env.rounds = .ok (some (host, .canceled))) := by
  simp only [registExchange] at h
  split at h
  · cases h
    exact ⟨⟨rfl, rfl⟩, fun host h => RegistEnd.noConfusion h, fun h => RegistEnd.noConfusion h⟩
  · split at h
    · cases h
      exact ⟨⟨rfl, rfl⟩, fun host h => RegistEnd.noConfusion h, fun h => RegistEnd.noConfusion h⟩
    · generalize registRecvResponse env.malloc env.mallocPayload (payload.crypt.cipher lib) info.target env.host
        (env.stack registBufSize) env.rounds = received at h ⊢
      obtain err | answer := received
      · cases h
      obtain none | ⟨host, err⟩ := answer
      · cases h
        exact ⟨⟨rfl, rfl⟩, fun host h => RegistEnd.noConfusion h, fun h => RegistEnd.noConfusion h⟩
      · simp only [bind, Except.bind] at h
        split at h
        · next hsuccess =>
          cases h
          subst hsuccess
          refine ⟨⟨rfl, rfl⟩, fun host' h => ?_, fun h => RegistEnd.noConfusion h⟩
          cases h
          exact ⟨rfl, rfl⟩
        · split at h
          · next hcanceled =>
            cases h
            subst hcanceled
            exact ⟨⟨rfl, rfl⟩, fun host h => RegistEnd.noConfusion h, fun _ => ⟨host, rfl⟩⟩
          · cases h
            exact ⟨⟨rfl, rfl⟩, fun host h => RegistEnd.noConfusion h, fun h => RegistEnd.noConfusion h⟩

/-- What is done for the addresses that were found: nothing is left open unless it waits, a success has spoken to who was
found, and only the stop pipe cancels. -/
structure RegistConnected (lib : CryptoLib) (info : RegistInfo) (env : RegistEnv Addr) (header : Bytes)
    (payload : RegistRequestPayload) (log : List (RegistAction Addr)) (result : RegistEnd) : Prop where
  part : ∃ held, RegistPart log held ∧ (result ≠ .waiting → held = 0)
  success : ∀ host, result = .success host → ∃ front addr, log = front ++ [.resource (.opening .requestSocket),
      .connect addr, .send header, .send (payload.buf.take payload.bufSize), .resource (.closing .requestSocket)] ∧
    env.sleep = .timeout ∧
    (∃ round ∈ env.searchRounds, ∃ data, round.recvfrom = some (data, addr) ∧ registRes info.target <+: data ∧
      round.now ≤ env.now + registSearchTimeoutMs) ∧
    registRecvResponse env.malloc env.mallocPayload (payload.crypt.cipher lib) info.target env.host
      (env.stack registBufSize) env.rounds = .ok (some (host, .success))
  canceled : result = .canceled → env.sleep ≠ .timeout ∨ (∃ round ∈ env.searchRounds, round.select = .canceled) ∨
    ∃ host, registRecvResponse env.malloc env.mallocPayload (payload.crypt.cipher lib) info.target env.host
      (env.stack registBufSize) env.rounds = .ok (some (host, .canceled))

theorem registConnect_ok {addrinfos : List (RegistAddrInfo Addr)}
    (h : registConnect lib info env header payload addrinfos = .ok (log, result)) :
    RegistConnected lib info env header payload log result := by
  unfold registConnect at h
  rcases hsearch : registSearch info env addrinfos with ⟨searched, found⟩
  obtain ⟨held, hpart, hheld⟩ := registSearch_part hsearch
  rw [hsearch] at h
  cases found with
  | waiting =>
    cases h
    exact ⟨⟨held, hpart, fun hne => absurd rfl hne⟩, fun host h => RegistEnd.noConfusion h,
      fun h => RegistEnd.noConfusion h⟩
  | error err =>
    cases h
    refine ⟨⟨held, hpart, fun _ => hheld (by simp)⟩, fun host h => ?_, fun h => ?_⟩
    · split at h <;> cases h
    · by_cases hcanceled : err = .canceled
      · subst hcanceled
        exact .inr (.inl (registSearch_canceled hsearch))
      · rw [if_neg hcanceled] at h
        cases h
  | ok addr =>
    cases hheld (by simp)
    simp only at h
    split at h
    · next hsleep =>
      cases h
      exact ⟨⟨0, hpart, fun _ => rfl⟩, fun host h => RegistEnd.noConfusion h, fun _ => .inl hsleep⟩
    · next hsleep =>
      have hconnect := registRequestConnect_part env addr
      rcases hconnected : registRequestConnect env addr with ⟨opened, ok⟩
      rw [hconnected] at h hconnect
      have hopened := hpart.append hconnect
      rw [zero_add] at hopened
      cases ok with
      | false =>
        cases h
        exact ⟨⟨0, hopened, fun _ => rfl⟩, fun host h => RegistEnd.noConfusion h, fun h => RegistEnd.noConfusion h⟩
      | true =>
        simp only [bind, Except.bind] at h
        split at h
        · cases h
        · next spoken hexchange =>
          obtain ⟨exchanged, result'⟩ := spoken
          obtain ⟨hfree, hsuccess, hcanceled⟩ := registExchange_ok hexchange
          have hspoken := hopened.append hfree
          rw [add_zero] at hspoken
          split at h
          · next hwaiting =>
            cases h
            exact ⟨⟨_, hspoken, fun hne => absurd hwaiting hne⟩,
              fun host h => RegistEnd.noConfusion (h.symm.trans hwaiting),
              fun h => RegistEnd.noConfusion (h.symm.trans hwaiting)⟩
          · cases h
            refine ⟨⟨0, hspoken.close, fun _ => rfl⟩, fun host h => ?_, fun h => .inr (.inr (hcanceled h))⟩
            obtain ⟨hlog, hresponse⟩ := hsuccess host h
            refine ⟨searched, addr, ?_, not_not.mp hsleep, registSearch_ok hsearch, hresponse⟩
            rw [registRequestConnect_true hconnected, hlog]
            simp

/-! ## The whole thread -/

/-- What the thread has done when it comes to the label `fail`. -/
structure RegistRan (lib : CryptoLib) (info : RegistInfo) (env : RegistEnv Addr) (log : List (RegistAction Addr))
    (result : RegistEnd) : Prop where
  part : ∃ held, RegistPart log held ∧ (result ≠ .waiting → held = 0)
  success : ∀ host, result = .success host → ∃ ambassador payload header size front addr,
    env.randomBytes = .ok ambassador ∧
    registRequestPayloadFormat lib info.target ambassador (env.stack 0x400) 0x400 env.crypt info.psnOnlineId
      (some info.psnAccountId) info.pin = .ok payload ∧ payload.err = .success ∧
    registRequestHeaderFormat (env.stack 0x100) 0x100 payload.bufSize info.target = .ok (header, size) ∧
    log = front ++ [.resource (.opening .requestSocket), .connect addr, .send (header.take size.toNat),
      .send (payload.buf.take payload.bufSize), .resource (.closing .requestSocket), .resource (.closing .addrinfos)] ∧
    env.sleep = .timeout ∧
    (∃ round ∈ env.searchRounds, ∃ data, round.recvfrom = some (data, addr) ∧ registRes info.target <+: data ∧
      round.now ≤ env.now + registSearchTimeoutMs) ∧
    registRecvResponse env.malloc env.mallocPayload (payload.crypt.cipher lib) info.target env.host
      (env.stack registBufSize) env.rounds = .ok (some (host, .success))
  canceled : result = .canceled → env.sleep ≠ .timeout ∨ (∃ round ∈ env.searchRounds, round.select = .canceled) ∨
    ∃ cipher host, registRecvResponse env.malloc env.mallocPayload cipher info.target env.host
      (env.stack registBufSize) env.rounds = .ok (some (host, .canceled))

/-- Nothing has been done. -/
theorem RegistRan.failed : RegistRan lib info env [] .failed :=
  ⟨⟨0, .nil, fun _ => rfl⟩, fun _ h => RegistEnd.noConfusion h, fun h => RegistEnd.noConfusion h⟩

theorem registRun_ok (h : registRun lib info env = .ok (log, result)) : RegistRan lib info env log result := by
  unfold registRun at h
  rcases hrandom : env.randomBytes with err | ambassador
  · rw [hrandom] at h
    cases h
    exact .failed
  rw [hrandom] at h
  simp only [bind, Except.bind] at h
  split at h
  · cases h
  next payload hpayload =>
  split at h
  · cases h
    exact .failed
  next herr =>
  split at h
  · cases h
  next formatted hheader =>
  obtain ⟨header, size⟩ := formatted
  split at h
  · cases h
    exact .failed
  split at h
  · cases h
    exact .failed
  next addrinfos hinfos =>
  split at h
  · cases h
  next connected hconnect =>
  obtain ⟨part, result'⟩ := connected
  obtain ⟨⟨held, hpart, hheld⟩, hsuccess, hcanceled⟩ := registConnect_ok hconnect
  -- the addresses are held as long as the part runs
  have hopen : RegistPart [(RegistAction.resource (.opening .addrinfos) : RegistAction Addr)] {.addrinfos} := ⟨rfl, rfl⟩
  have hwhole := hopen.append hpart
  have hcanceled : result' = .canceled → env.sleep ≠ .timeout ∨
      (∃ round ∈ env.searchRounds, round.select = .canceled) ∨
      ∃ cipher host, registRecvResponse env.malloc env.mallocPayload cipher info.target env.host
        (env.stack registBufSize) env.rounds = .ok (some (host, .canceled)) := fun h =>
    (hcanceled h).imp_right (Or.imp_right fun ⟨host, hresponse⟩ => ⟨_, host, hresponse⟩)
  split at h
  · next hwaiting =>
    cases h
    exact ⟨⟨_, hwhole, fun hne => absurd hwaiting hne⟩, fun host h => RegistEnd.noConfusion (h.symm.trans hwaiting),
      hcanceled⟩
  · next hdone =>
    cases h
    cases hheld hdone
    rw [add_zero] at hwhole
    refine ⟨⟨0, hwhole.close, fun _ => rfl⟩, fun host h => ?_, hcanceled⟩
    obtain ⟨front, addr, rfl, hsleep, hround, hresponse⟩ := hsuccess host h
    refine ⟨ambassador, payload, header, size, .resource (.opening .addrinfos) :: front, addr, hrandom, hpayload,
      not_not.mp herr, hheader, ?_, hsleep, hround, hresponse⟩
    simp

/-- A console that answers a search, and whose cipher does nothing. -/
def exampleRegistLib : CryptoLib where
  hmac _ _ := some (List.replicate 0x20 0)
  aes _ _ := List.replicate 0x10 0
  evpFails := false

def exampleRegistInfo : RegistInfo := ⟨.ps51, false, none, Vector.replicate 8 3, 12345678⟩

/-- The answer of the console. -/
def exampleRegistResponse : Bytes :=
  ascii "HTTP/1.1 200 OK\r\nContent-Length: 90\r\n\r\n" ++ ascii "PS5-RegistKey: 30313233\r\n"
    ++ ascii "RP-Key: 00112233445566778899aabbccddeeff\r\n" ++ ascii "PS5-Mac: 001122334455\r\n"

def exampleRegistEnv : RegistEnv Nat where
  randomBytes := .ok (Vector.replicate 0x10 7)
  addrinfos := some [⟨.inet, 1, 16, true, true, true, true⟩]
  sent := 5
  now := 1000
  searchRounds := [⟨1200, .success, some (ascii "RES2", 3)⟩, ⟨1500, .success, some (ascii "RES3", 2)⟩]
  sleep := .timeout
  socket := true
  connect := true
  sentHeader := 0xb0
  sentPayload := 0x24b
  rounds := [⟨.success, .received exampleRegistResponse (by decide +kernel)⟩]
  malloc _ := true
  mallocPayload _ := true
  stack size := List.replicate size 0xcc
  length_stack size := List.length_replicate
  crypt := ⟨.ps51, Vector.replicate 0x10 0, Vector.replicate 0x10 0⟩
  host := .cleared .ps51

/-- The keys that are registered. -/
def exampleRegistHost : RegisteredHost :=
  { RegisteredHost.cleared .ps51 with
    serverMac := [0x00, 0x11, 0x22, 0x33, 0x44, 0x55]
    rpRegistKey := ascii "0123" ++ List.replicate 12 0
    rpKey := [0x00, 0x11, 0x22, 0x33, 0x44, 0x55, 0x66, 0x77, 0x88, 0x99, 0xaa, 0xbb, 0xcc, 0xdd, 0xee, 0xff] }

theorem exampleRegistThread_ok : ∃ log, registThreadFunc exampleRegistLib exampleRegistInfo exampleRegistEnv = .ok log ∧
    log.filterMap RegistAction.event = [.success exampleRegistHost] := by
  have hrun : (registThreadFunc exampleRegistLib exampleRegistInfo exampleRegistEnv).toOption.map
      (fun log => log.filterMap RegistAction.event) = some [.success exampleRegistHost] := by
    decide +kernel
  cases h : registThreadFunc exampleRegistLib exampleRegistInfo exampleRegistEnv with
  | error f =>
    rw [h] at hrun
    cases hrun
  | ok log =>
    rw [h] at hrun
    exact ⟨log, rfl, Option.some.inj hrun⟩

end Chiaki
