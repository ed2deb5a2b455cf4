import Chiaki.Infra.Segment
import Chiaki.Common
import Chiaki.Seqnum

/-!
# The send buffer of Takion (`takionsendbuffer.c`)

The packets that no cumulative acknowledgement has covered yet, in an array of fixed size.
`chiaki_takion_send_buffer_ack` removes the covered ones in place, moving the packets
between two gaps down as soon as the second gap begins.

Each function runs under the mutex of the buffer from its first to its last line, so it is
one step here. Buffers on the heap have an id, which tells two packets of equal content
apart.
-/

namespace Chiaki

open Infra.Segment

/-- A heap buffer that holds a packet. -/
structure PacketBuf where
  id : Nat
  bytes : Bytes
  deriving DecidableEq, Repr

/-- `TAKION_DATA_RESEND_TIMEOUT_MS` -/
def takionDataResendTimeoutMs : Nat := 200

/-- `ChiakiTakionSendBufferPacket` -/
structure TakionSendBufferPacket where
  seqNum : Nat
  tries : Nat
  lastSendMs : Nat
  buf : PacketBuf
  deriving DecidableEq, Repr

/-- `ChiakiTakionSendBuffer`. `takion` says whether the pointer of that name is set. -/
structure TakionSendBuffer where
  takion : Bool
  packets : Nat → TakionSendBufferPacket
  packetsSize : Nat
  packetsCount : Nat

/-- The packets in the buffer, oldest first. -/
def TakionSendBuffer.contents (sb : TakionSendBuffer) : List TakionSendBufferPacket :=
  segment sb.packets 0 sb.packetsCount

/-- `chiaki_takion_send_buffer_init`. The array comes from `calloc`. -/
def takionSendBufferInit (takion : Bool) (size : Nat) : TakionSendBuffer where
  takion := takion
  packets := fun _ => { seqNum := 0, tries := 0, lastSendMs := 0, buf := ⟨0, []⟩ }
  packetsSize := size
  packetsCount := 0

/-! ## Push -/

/-- `chiaki_takion_send_buffer_push` at the time `now`. On an error `buf` is freed. -/
def takionSendBufferPush (sb : TakionSendBuffer) (seqNum : Nat) (buf : PacketBuf) (now : Nat) :
    TakionSendBuffer × ErrorCode :=
  if sb.packetsSize ≤ sb.packetsCount then (sb, .overflow)
  else if (List.range sb.packetsCount).any fun i => (sb.packets i).seqNum == seqNum then
    (sb, .invalidData)
  else
    let packet := { seqNum := seqNum, tries := 0, lastSendMs := now, buf := buf }
    ({ sb with
        packets := fun i => if i = sb.packetsCount then packet else sb.packets i
        packetsCount := sb.packetsCount + 1 }, .success)

/-! ## Acknowledgement -/

/-- Whether the cumulative number `ack` covers the packet. -/
def TakionSendBufferPacket.covered (p : TakionSendBufferPacket) (ack : Nat) : Bool :=
  p.seqNum == ack || seqNum32Lt p.seqNum ack

/-- The locals of `chiaki_takion_send_buffer_ack`; `shiftStart` is `none` for `SIZE_MAX`. -/
structure TakionSendBufferAck where
  packets : Nat → TakionSendBufferPacket
  acked : List TakionSendBufferPacket
  shift : Nat
  shiftStart : Option Nat

/-- One round of the loop in `chiaki_takion_send_buffer_ack`. -/
def takionSendBufferAckRound (seqNum : Nat) (s : TakionSendBufferAck) (i : Nat) :
    TakionSendBufferAck :=
  if (s.packets i).covered seqNum then
    let s := { s with acked := s.acked ++ [s.packets i] }
    match s.shiftStart with
    | none => { s with shiftStart := some i, shift := 1 }
    | some start =>
      if start + s.shift = i then { s with shift := s.shift + 1 }
      else
        -- a new gap begins: first move the packets behind the old one down
        { s with
          packets := memmove s.packets start (start + s.shift) (i - (start + s.shift))
          shiftStart := some (i - s.shift)
          shift := s.shift + 1 }
  else s

/-- The loop over all packets. -/
def takionSendBufferAckLoop (sb : TakionSendBuffer) (seqNum n : Nat) : TakionSendBufferAck :=
  (List.range n).foldl (takionSendBufferAckRound seqNum)
    { packets := sb.packets, acked := [], shift := 0, shiftStart := none }

/--
`chiaki_takion_send_buffer_ack`. The second component lists the packets whose buffers it
frees and whose numbers it writes to `acked_seq_nums`.
-/
def takionSendBufferAck (sb : TakionSendBuffer) (seqNum : Nat) :
    TakionSendBuffer × List TakionSendBufferPacket :=
  let s := takionSendBufferAckLoop sb seqNum sb.packetsCount
  match s.shiftStart with
  | none => ({ sb with packets := s.packets }, s.acked)
  | some start =>
    let packets :=
      if start + s.shift < sb.packetsCount then
        memmove s.packets start (start + s.shift) (sb.packetsCount - (start + s.shift))
      else s.packets
    ({ sb with packets := packets, packetsCount := sb.packetsCount - s.shift }, s.acked)

/-- `acked_seq_nums[(*acked_seq_nums_count)++] = seq_num` -/
def TakionSendBufferPacket.write (p : TakionSendBufferPacket) (out : (Nat → Nat) × Nat) :
    (Nat → Nat) × Nat :=
  (fun i => if i = out.2 then p.seqNum else out.1 i, out.2 + 1)

/-- `acked_seq_nums` and `*acked_seq_nums_count` after `chiaki_takion_send_buffer_ack`, for a caller
that passes the array `nums`. -/
def takionSendBufferAckedSeqNums (sb : TakionSendBuffer) (seqNum : Nat) (nums : Nat → Nat) :
    (Nat → Nat) × Nat :=
  (takionSendBufferAck sb seqNum).2.foldl (fun out p => p.write out) (nums, 0)

/-! ## Resending -/

/-- Whether the packet is due for another transmission. Times are `uint64_t`. -/
def TakionSendBufferPacket.due (p : TakionSendBufferPacket) (now : Nat) : Bool :=
  (now + 2 ^ 64 - p.lastSendMs) % 2 ^ 64 > takionDataResendTimeoutMs

/-- The packet after its turn in `takion_send_buffer_resend`. -/
def TakionSendBufferPacket.resent (p : TakionSendBufferPacket) (now : Nat) :
    TakionSendBufferPacket :=
  if p.due now then { p with lastSendMs := now, tries := p.tries + 1 } else p

/-- `takion_send_buffer_resend`: the new buffer and the datagrams handed to the socket. -/
def takionSendBufferResend (sb : TakionSendBuffer) (now : Nat) : TakionSendBuffer × List Bytes :=
  if !sb.takion then (sb, [])
  else
    ({ sb with
        packets := fun i => if i < sb.packetsCount then (sb.packets i).resent now else sb.packets i },
      (sb.contents.filter fun p => p.due now).map fun p => p.buf.bytes)

end Chiaki
