import Chiaki.Infra.Brackets
import Chiaki.Regist.Request

/-!
# A registration (`regist_thread_func`)

The thread searches for the console, connects to who has answered, sends the request and receives the response. At its
end it calls the callback. What it does is written to a log; what the functions answer that it calls is a parameter.
-/

namespace Chiaki

open Infra

variable {Addr : Type}

/-- `REGIST_SEARCH_TIMEOUT_MS` -/
def registSearchTimeoutMs : Nat := 3000

/-- `sizeof(buf)` in `regist_search`, without the last byte. -/
def registSearchBufSize : Nat := 0x100 - 1

/-- `sizeof(struct sockaddr)` -/
def sizeofSockaddr : Nat := 16

/-! ## What is done -/

/-- What has to be given back. -/
inductive RegistResource
  | addrinfos
  | searchSocket
  | requestSocket
  deriving DecidableEq

/-- `ChiakiRegistEvent` -/
inductive RegistFinished
  | canceled
  | failed
  | success (host : RegisteredHost)
  deriving DecidableEq

inductive RegistAction (Addr : Type)
  | resource (b : Bracket RegistResource)
  | search (text : Bytes) (addr : Addr)
  | connect (addr : Addr)
  | send (data : Bytes)
  | finished (event : RegistFinished)
  deriving DecidableEq

/-! ## Parameters -/

/-- `ChiakiRegistInfo` -/
structure RegistInfo where
  target : Target
  broadcast : Bool
  psnOnlineId : Option CString
  psnAccountId : Vector UInt8 psnAccountIdSize
  pin : Nat

/-- One address of the list, and what is answered for it. -/
structure RegistAddrInfo (Addr : Type) where
  saFamily : SaFamily
  addr : Addr
  addrLen : Nat
  socket : Bool
  setsockopt : Bool
  bind : Bool
  connect : Bool

/-- One turn of the loop of `regist_search`: the time, the result of the `select`, and what `recvfrom` has received,
with the address of the sender. -/
structure RegistSearchRound (Addr : Type) where
  now : Nat
  select : ErrorCode
  recvfrom : Option (Bytes × Addr)

/-- What is answered, and what an array of a size contains at first. -/
structure RegistEnv (Addr : Type) where
  randomBytes : Except ErrorCode RPKey
  addrinfos : Option (List (RegistAddrInfo Addr))
  sent : Int
  now : Nat
  searchRounds : List (RegistSearchRound Addr)
  sleep : ErrorCode
  socket : Bool
  connect : Bool
  sentHeader : Int
  sentPayload : Int
  rounds : List RecvRound
  malloc : Nat → Bool
  mallocPayload : Nat → Bool
  stack : Nat → Bytes
  length_stack : ∀ size, (stack size).length = size
  crypt : RPCryptKeys
  host : RegisteredHost

/-! ## The search -/

/-- A socket for one address, if it is not closed again. -/
def registSearchSocket (info : RegistInfo) (ai : RegistAddrInfo Addr) : List (RegistAction Addr) × Bool :=
  if ai.socket = false then ([], false)
  else
    let ok := if info.broadcast then ai.setsockopt && ai.bind else ai.connect
    if ok then ([.resource (.opening .searchSocket)], true)
    else ([.resource (.opening .searchSocket), .resource (.closing .searchSocket)], false)

/-- `regist_search_connect`: the loop over the addresses, with `*send_addr_len`. -/
def registSearchConnect (info : RegistInfo) : Nat → List (RegistAddrInfo Addr) →
    List (RegistAction Addr) × Option Addr
  | _, [] => ([], none)
  | sendAddrLen, ai :: ais =>
    if ai.saFamily ≠ .inet then registSearchConnect info sendAddrLen ais
    else if ai.addrLen > sendAddrLen then registSearchConnect info sendAddrLen ais
    else
      let (log, open_) := registSearchSocket info ai
      if open_ then (log, some ai.addr)
      else
        let (rest, addr) := registSearchConnect info ai.addrLen ais
        (log ++ rest, addr)

/-- The result of a function that may wait for another answer. -/
inductive RegistResult (α : Type)
  | waiting
  | error (err : ErrorCode)
  | ok (a : α)
  deriving DecidableEq

/-- The loop of `regist_search`, with who has answered. -/
def registSearchLoop (res : Bytes) (timeoutAbs : Nat) : List (RegistSearchRound Addr) → RegistResult Addr
  | [] => .waiting
  | round :: rounds =>
    let err := if round.now > timeoutAbs then .timeout else round.select
    if err ≠ .success then .error err
    else
      match round.recvfrom with
      | none => .error .network
      | some (data, addr) =>
        let buf := data.take registSearchBufSize
        if buf = [] then .error .network
        else if res.isPrefixOf buf then .ok addr
        else registSearchLoop res timeoutAbs rounds

/-- `src` -/
def registSrc (target : Target) : Bytes := if target.isPs5 then ascii "SRC3" else ascii "SRC2"

/-- `res` -/
def registRes (target : Target) : Bytes := if target.isPs5 then ascii "RES3" else ascii "RES2"

/-- `regist_search` -/
def registSearch (info : RegistInfo) (env : RegistEnv Addr) (addrinfos : List (RegistAddrInfo Addr)) :
    List (RegistAction Addr) × RegistResult Addr :=
  match registSearchConnect info sizeofSockaddr addrinfos with
  | (log, none) => (log, .error .network)
  | (log, some addr) =>
    let log := log ++ [.search (registSrc info.target ++ [0]) addr]
    if env.sent < 0 then (log ++ [.resource (.closing .searchSocket)], .error .network)
    else
      match registSearchLoop (registRes info.target) (env.now + registSearchTimeoutMs) env.searchRounds with
      | .waiting => (log, .waiting)
      | result => (log ++ [.resource (.closing .searchSocket)], result)

/-! ## The request -/

/-- `regist_request_connect` -/
def registRequestConnect (env : RegistEnv Addr) (addr : Addr) : List (RegistAction Addr) × Bool :=
  if env.socket = false then ([], false)
  else if env.connect = false then
    ([.resource (.opening .requestSocket), .connect addr, .resource (.closing .requestSocket)], false)
  else ([.resource (.opening .requestSocket), .connect addr], true)

/-- How a part of the thread ends: it waits, or it goes to the end with `canceled` or `success`. -/
inductive RegistEnd
  | waiting
  | canceled
  | failed
  | success (host : RegisteredHost)
  deriving DecidableEq

/-- `regist_thread_func` between the two labels for the socket. -/
def registExchange (lib : CryptoLib) (info : RegistInfo) (env : RegistEnv Addr) (header : Bytes)
    (payload : RegistRequestPayload) : Except Fault (List (RegistAction Addr) × RegistEnd) := do
  let log := [.send header]
  if env.sentHeader < 0 then return (log, .failed)
  else
    let log := log ++ [.send (payload.buf.take payload.bufSize)]
    if env.sentPayload < 0 then return (log, .failed)
    else
      let cipher := payload.crypt.cipher lib
      match ← registRecvResponse env.malloc env.mallocPayload cipher info.target env.host (env.stack registBufSize)
        env.rounds with
      | none => return (log, .waiting)
      | some (host, err) =>
        if err = .success then return (log, .success host)
        else if err = .canceled then return (log, .canceled)
        else return (log, .failed)

/-- `regist_thread_func` between the two labels for the addresses. -/
def registConnect (lib : CryptoLib) (info : RegistInfo) (env : RegistEnv Addr) (header : Bytes)
    (payload : RegistRequestPayload) (addrinfos : List (RegistAddrInfo Addr)) :
    Except Fault (List (RegistAction Addr) × RegistEnd) := do
  match registSearch info env addrinfos with
  | (log, .waiting) => return (log, .waiting)
  | (log, .error err) => return (log, if err = .canceled then .canceled else .failed)
  | (log, .ok addr) =>
    if env.sleep ≠ .timeout then return (log, .canceled)
    else
      match registRequestConnect env addr with
      | (opened, false) => return (log ++ opened, .failed)
      | (opened, true) =>
        let (exchanged, result) ← registExchange lib info env header payload
        if result = .waiting then return (log ++ opened ++ exchanged, result)
        else return (log ++ opened ++ exchanged ++ [.resource (.closing .requestSocket)], result)

/-- `regist_thread_func` in front of the label `fail`. -/
def registRun (lib : CryptoLib) (info : RegistInfo) (env : RegistEnv Addr) :
    Except Fault (List (RegistAction Addr) × RegistEnd) := do
  match env.randomBytes with
  | .error _ => return ([], .failed)
  | .ok ambassador =>
    let payload ← registRequestPayloadFormat lib info.target ambassador (env.stack 0x400) 0x400 env.crypt
      info.psnOnlineId (some info.psnAccountId) info.pin
    if payload.err ≠ .success then return ([], .failed)
    else
      let (requestHeader, size) ← registRequestHeaderFormat (env.stack 0x100) 0x100 payload.bufSize info.target
      if size < 0 ∨ size.toNat ≥ 0x100 then return ([], .failed)
      else
        match env.addrinfos with
        | none => return ([], .failed)
        | some addrinfos =>
          let (log, result) ← registConnect lib info env (requestHeader.take size.toNat) payload addrinfos
          let log := .resource (.opening .addrinfos) :: log
          if result = .waiting then return (log, result)
          else return (log ++ [.resource (.closing .addrinfos)], result)

/-- The event at the end. -/
def RegistEnd.event : RegistEnd → Option RegistFinished
  | .waiting => none
  | .canceled => some .canceled
  | .failed => some .failed
  | .success host => some (.success host)

/-- `regist_thread_func`: what it has done, until it has ended or waits. -/
def registThreadFunc (lib : CryptoLib) (info : RegistInfo) (env : RegistEnv Addr) :
    Except Fault (List (RegistAction Addr)) := do
  let (log, result) ← registRun lib info env
  return log ++ (result.event.map RegistAction.finished).toList

end Chiaki
