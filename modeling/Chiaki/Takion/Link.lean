import Chiaki.Takion.Send
import Chiaki.Takion.Thread

/-!
# Two Takion endpoints and the network between them

One endpoint sends reliable messages (`Chiaki.Takion.Send`), the other one receives them
(`Chiaki.Takion.Thread`). UDP may lose, repeat and reorder datagrams in both directions: what
arrives stays in flight, and what is in flight may be lost.

A datagram that fails a check of the sender's Takion thread is one that never arrived.
-/

namespace Chiaki

open Infra

variable {κ : Type} {n : Nat}

structure TakionLink (κ : Type) (n : Nat) where
  sender : SendState κ n
  receiver : Takion κ
  toReceiver : List Bytes
  toSender : List Bytes

inductive TakionLinkLabel (κ : Type) (n : Nat)
  | sender (l : SendLabel κ n)
  | receiver (l : TakionLabel κ)
  | data (packet : Bytes) (mem : Bool)
  | ack (packet : Bytes)
  | loseData (packet : Bytes)
  | loseAck (packet : Bytes)

section

variable (gmac : κ → Nat → Bytes → Mac)

/-- The datagrams that a step of the sending side hands to the socket. -/
def sendDatagrams (s : SendState κ n) : SendLabel κ n → List Bytes
  | .transmit t ok =>
    match s.threads t, ok with
    | .reserved keyPos _ packet, true =>
      match takionPacketMac gmac s.gkcryptLocal packet.bytes keyPos with
      | .ok (buf, _, _) => [buf]
      | .error _ => []
    | _, _ => []
  | .resend now => (takionSendBufferResend s.sendBuffer now).2
  | _ => []

/-- The datagrams in a log of the Takion thread. -/
def sentDatagrams (log : List (TakionOutput κ)) : List Bytes :=
  log.filterMap fun
    | .send packet => some packet
    | _ => none

/-- The receiver has moved, and what it sent is in flight. -/
def TakionLink.withReceiver (s : TakionLink κ n) (receiver : Takion κ) : TakionLink κ n :=
  let events := receiver.log.take (receiver.log.length - s.receiver.log.length)
  { s with receiver := receiver, toSender := sentDatagrams events ++ s.toSender }

/-- One step of either endpoint or of the network. -/
def takionLinkStep (s : TakionLink κ n) : TakionLinkLabel κ n → Option (TakionLink κ n)
  | .sender (.ack _) => none
  | .sender l =>
    (sendStep gmac s.sender l).map fun sender =>
      { s with sender := sender, toReceiver := sendDatagrams gmac s.sender l ++ s.toReceiver }
  | .receiver (.recv _ _) => none
  | .receiver l => (takionStep gmac s.receiver l).map s.withReceiver
  | .data packet mem =>
    if packet ∈ s.toReceiver then (takionStep gmac s.receiver (.recv packet mem)).map s.withReceiver
    else none
  | .ack packet =>
    if packet ∈ s.toSender then
      (sendStep gmac s.sender (.ack (packet.drop 17))).map fun sender => { s with sender := sender }
    else none
  | .loseData packet => some { s with toReceiver := s.toReceiver.erase packet }
  | .loseAck packet => some { s with toSender := s.toSender.erase packet }

end

/-- After the handshake: each endpoint has the other one's tag. -/
def takionLinkInit (version : TakionVersion) (enableCrypt : Bool) (tagSender tagReceiver : Nat)
    (keyState : KeyState) (crypt : Option (κ × κ)) : TakionLink κ n where
  sender := sendInit tagSender tagReceiver
  receiver := takionInit version enableCrypt tagReceiver tagSender keyState crypt
  toReceiver := []
  toSender := []

def TakionLinkInitial (s : TakionLink κ n) : Prop :=
  ∃ version enableCrypt tagSender tagReceiver keyState crypt, tagSender < 2 ^ 32 ∧
    s = takionLinkInit version enableCrypt tagSender tagReceiver keyState crypt

def takionLinkLts (n : Nat) (gmac : κ → Nat → Bytes → Mac) :
    Lts (TakionLink κ n) (TakionLinkLabel κ n) :=
  Lts.ofFun TakionLinkInitial (takionLinkStep gmac)

end Chiaki
