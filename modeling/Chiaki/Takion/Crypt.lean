import Chiaki.Infra.RecursiveMutex
import Chiaki.GKCrypt
import Chiaki.Takion.Send

/-!
# Local key positions (`takion.c`)

Any number `n` of threads send data messages, acknowledgements, congestion packets and feedback
packets, after `chiaki_takion_set_crypt`. All of them take their key position from
`key_pos_local`, under `gkcrypt_local_mutex`. A feedback packet keeps that mutex from before
`chiaki_takion_crypt_advance_key_pos` until it is encrypted and sent, and locks it a second time
in between.

A lock, an unlock, a read and a write of the counter are steps of their own. The log is a history,
newest first.
-/

namespace Chiaki

open Infra

variable {n : Nat}

/-- `CHIAKI_TAKION_CONGESTION_PACKET_SIZE` -/
def takionCongestionPacketSize : Nat := 0xf

/-- A buffer is an object of C, so its size is less than `PTRDIFF_MAX`. -/
abbrev CBuffer := { buf : Bytes // buf.length < 2 ^ 63 }

/-- What a thread sends. -/
inductive CryptSend
  | messageData (bufSize : Nat)
  | messageDataAck
  | congestion
  | feedback (payload : CBuffer)

/-- The size that `chiaki_takion_crypt_advance_key_pos` gets. -/
def CryptSend.dataSize : CryptSend → Nat
  | .messageData bufSize => bufSize
  | .messageDataAck => 1 + takionMessageHeaderSize + 0xc
  | .congestion => takionCongestionPacketSize
  | .feedback payload => (payload.val.length + gkcryptBlockSize) % 2 ^ 64

/-- Where a thread stands. `advance` is before the lock in `chiaki_takion_crypt_advance_key_pos`,
and `advanced` is behind its return. -/
inductive CryptPc
  | idle
  | feedback (payload : CBuffer)
  | advance (send : CryptSend)
  | checking (send : CryptSend)
  | adding (send : CryptSend) (keyPos next : Nat)
  | advanced (send : CryptSend) (keyPos : Nat)
  | sending
  | beach
  | fault (f : Fault)

/-- What happens to the key stream. `keyPos` is the position of the packet, and `out` is the
payload after its encryption. -/
inductive CryptEvent (n : Nat)
  | reserved (t : Fin n) (keyPos size : Nat)
  | refused (t : Fin n) (keyPosLocal size : Nat)
  | encrypted (t : Fin n) (keyPos : Nat) (payload out : Bytes)

/-- The fields of `ChiakiTakion` and of its `gkcrypt_local`, and the threads. -/
structure CryptState (n : Nat) where
  keyBase : Block
  iv : Block
  keyPosLocal : Nat
  mutex : RecMutex (Fin n)
  threads : Fin n → CryptPc
  log : List (CryptEvent n)

/-- What moves next. -/
inductive CryptLabel (n : Nat)
  | call (t : Fin n) (send : CryptSend)
  | lock (t : Fin n)
  | check (t : Fin n)
  | add (t : Fin n)
  | abandon (t : Fin n)
  | encrypt (t : Fin n) (malloc evp : Bool)
  | unlock (t : Fin n)

namespace CryptState

def setThread (s : CryptState n) (t : Fin n) (pc : CryptPc) : CryptState n :=
  { s with threads := fun u => if u = t then pc else s.threads u }

def emit (s : CryptState n) (e : CryptEvent n) : CryptState n := { s with log := e :: s.log }

def unlock (s : CryptState n) : CryptState n := { s with mutex := s.mutex.unlock }

end CryptState

open CryptState

/-- `chiaki_takion_connect`, and `chiaki_takion_set_crypt`. -/
def cryptInit (keyBase iv : Block) : CryptState n where
  keyBase := keyBase
  iv := iv
  keyPosLocal := 0
  mutex := none
  threads := fun _ => .idle
  log := []

/-- A send function is called. -/
def cryptCall (s : CryptState n) (t : Fin n) (send : CryptSend) : CryptState n :=
  match send with
  | .feedback payload => s.setThread t (.feedback payload)
  | _ => s.setThread t (.advance send)

/-- Where a thread goes with the mutex. The last case is the lock in `chiaki_takion_send`. -/
def CryptPc.locked : CryptPc → Option CryptPc
  | .feedback payload => some (.advance (.feedback payload))
  | .advance send => some (.checking send)
  | .advanced (.feedback _) _ => none
  | .advanced _ _ => some .sending
  | _ => none

/-- Where a thread goes when its position is refused. -/
def CryptSend.failed : CryptSend → CryptPc
  | .feedback _ => .beach
  | _ => .idle

/-- `chiaki_takion_crypt_advance_key_pos` up to the assignment to `key_pos_local`. -/
def cryptCheck (s : CryptState n) (t : Fin n) (send : CryptSend) : CryptState n :=
  match takionCryptAdvanceKeyPos (some ()) s.keyPosLocal send.dataSize with
  | .error _ => (s.emit (.refused t s.keyPosLocal send.dataSize)).unlock.setThread t send.failed
  | .ok (keyPos, next) => s.setThread t (.adding send keyPos next)

/-- The assignment, and the return. -/
def cryptAdd (s : CryptState n) (t : Fin n) (send : CryptSend) (keyPos next : Nat) : CryptState n :=
  ({ s with keyPosLocal := next }.emit (.reserved t keyPos send.dataSize)).unlock.setThread t
    (.advanced send keyPos)

variable (aes : Block → Equiv.Perm Block)

/-- `chiaki_gkcrypt_encrypt` for the payload of a feedback packet. The code and `send` that follow
do not touch the counter or the payload. -/
def cryptEncrypt (s : CryptState n) (t : Fin n) (payload : CBuffer) (keyPos : Nat)
    (malloc evp : Bool) : CryptState n :=
  match gkcryptDecrypt aes s.keyBase s.iv malloc evp ((keyPos + gkcryptBlockSize) % 2 ^ 64)
      payload.val with
  | .error f => s.setThread t (.fault f)
  | .ok (.error _) => s.setThread t .beach
  | .ok (.ok out) => (s.emit (.encrypted t keyPos payload.val out)).setThread t .beach

/-- One step of a thread. `abandon` is a `malloc` or a lock that fails before
`chiaki_takion_send`. -/
def cryptStep (s : CryptState n) : CryptLabel n → Option (CryptState n)
  | .call t send =>
    match s.threads t with
    | .idle => some (cryptCall s t send)
    | _ => none
  | .lock t =>
    match (s.threads t).locked, s.mutex.lock t with
    | some pc, some mutex => some ({ s with mutex := mutex }.setThread t pc)
    | _, _ => none
  | .check t =>
    match s.threads t with
    | .checking send => some (cryptCheck s t send)
    | _ => none
  | .add t =>
    match s.threads t with
    | .adding send keyPos next => some (cryptAdd s t send keyPos next)
    | _ => none
  | .abandon t =>
    match s.threads t with
    | .advanced (.feedback _) _ => none
    | .advanced _ _ => some (s.setThread t .idle)
    | _ => none
  | .encrypt t malloc evp =>
    match s.threads t with
    | .advanced (.feedback payload) keyPos => some (cryptEncrypt aes s t payload keyPos malloc evp)
    | _ => none
  | .unlock t =>
    match s.threads t with
    | .sending => some (s.unlock.setThread t .idle)
    | .beach => some (s.unlock.setThread t .idle)
    | _ => none

def cryptLts (n : Nat) : Lts (CryptState n) (CryptLabel n) :=
  Lts.ofFun (fun s => ∃ keyBase iv, s = cryptInit keyBase iv) (cryptStep aes)

end Chiaki
