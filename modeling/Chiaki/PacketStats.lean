import Chiaki.FrameProcessor
import Chiaki.Seqnum

/-!
# Packet statistics (`packetstats.c`, `congestioncontrol.c`)

How many packets were received and lost, in generations of a known size and in sequences with
numbers. The congestion control reports both to the server and starts over.

Every function is one step, although `chiaki_packet_stats_push_seq` takes no lock.
-/

namespace Chiaki

/-- `ChiakiPacketStats`. The generations are a part of their own. -/
structure SeqPacketStats extends PacketStats where
  seqMin : UInt16
  seqMax : UInt16
  seqReceived : Nat
  deriving DecidableEq, Repr

/-- `chiaki_packet_stats_init` -/
def packetStatsInit : SeqPacketStats where
  genReceived := 0
  genLost := 0
  seqMin := 0
  seqMax := 0
  seqReceived := 0

/-- `reset_stats` -/
def packetStatsReset (stats : SeqPacketStats) : SeqPacketStats where
  genReceived := 0
  genLost := 0
  seqMin := stats.seqMax
  seqMax := stats.seqMax
  seqReceived := 0

/-- `chiaki_packet_stats_push_generation` -/
def SeqPacketStats.pushGeneration (stats : SeqPacketStats) (received lost : Nat) : SeqPacketStats :=
  { stats with toPacketStats := packetStatsPushGeneration stats.toPacketStats received lost }

/-- `chiaki_packet_stats_push_seq` -/
def packetStatsPushSeq (stats : SeqPacketStats) (seqNum : UInt16) : SeqPacketStats :=
  { stats with
    seqReceived := (stats.seqReceived + 1) % 2 ^ 64
    seqMax := if seqNum16Gt seqNum.toNat stats.seqMax.toNat then seqNum else stats.seqMax }

/-- What `chiaki_packet_stats_get` writes to `received` and `lost`. -/
structure PacketStatsReport where
  received : Nat
  lost : Nat
  deriving DecidableEq, Repr

/-- `seq_diff`: the numbers are subtracted as `int`, and the difference becomes an `uint64_t`. -/
def SeqPacketStats.seqDiff (stats : SeqPacketStats) : Nat :=
  (((stats.seqMax.toNat : Int) - stats.seqMin.toNat) % 2 ^ 64).toNat

/-- `seq_lost` -/
def SeqPacketStats.seqLost (stats : SeqPacketStats) : Nat :=
  if stats.seqReceived > stats.seqDiff then stats.seqDiff else stats.seqDiff - stats.seqReceived

/-- `chiaki_packet_stats_get` -/
def packetStatsGet (stats : SeqPacketStats) (reset : Bool) : SeqPacketStats × PacketStatsReport :=
  (if reset then packetStatsReset stats else stats,
    { received := (stats.genReceived + stats.seqReceived) % 2 ^ 64
      lost := (stats.genLost + stats.seqLost) % 2 ^ 64 })

/-- One turn of `congestion_control_thread_func`, with `received` and `lost` of the packet. -/
def congestionControlTurn (stats : SeqPacketStats) : SeqPacketStats × Nat × Nat :=
  let (stats, report) := packetStatsGet stats true
  (stats, report.received % 2 ^ 16, report.lost % 2 ^ 16)

end Chiaki
