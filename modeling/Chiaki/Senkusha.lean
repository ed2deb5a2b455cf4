import Chiaki.Infra.Bisection
import Chiaki.Takion.Packet

/-!
# The MTU tests of Senkusha (`senkusha.c`)

The searches for the greatest packet that comes in and that goes out. Both wait with `state_mutex`
for a callback of Takion to set `state_finished`; the callbacks that come while they wait are a list, and
the wait ends with a timeout if none of them has set it.

What the network does is a parameter: it is given everything that has been sent, and says whether sending
succeeds and which callbacks there are. So are the random tags of the pings.
-/

namespace Chiaki

open Infra

/-! ## The state -/

/-- `SenkushaState` -/
inductive SenkushaState
  | idle
  | takionConnect
  | expectBang
  | expectDataAck
  | expectPong
  | expectMtu
  | expectClientMtuCommand
  deriving DecidableEq, Repr

/-- What the tests use of a `ChiakiSenkusha`. -/
structure Senkusha where
  state : SenkushaState
  stateFinished : Bool
  shouldStop : Bool
  dataAckSeqNumExpected : Nat
  pingTestIndex : Nat
  pingIndex : Nat
  pingTag : Nat
  mtuId : Nat

/-- What is looked at of a message while a client MTU command is expected: the id of the command if the message
is one. -/
structure SenkushaMessage where
  clientMtuCommand : Option Nat
  deriving DecidableEq

/-- A callback of Takion: an AV packet with its buffer, a message, or an acknowledgement. -/
inductive SenkushaEvent
  | av (packet : TakionAVPacket) (buf : Bytes)
  | data (message : SenkushaMessage)
  | dataAck (seqNum : Nat)

/-- `senkusha_takion_av` -/
def senkushaTakionAv (s : Senkusha) (packet : TakionAVPacket) (buf : Bytes) : Senkusha :=
  match s.state with
  | .expectPong =>
    if packet.isVideo = true ∨ packet.frameIndex ≠ s.pingTestIndex ∨ packet.unitIndex ≠ s.pingIndex
        ∨ packet.dataSize < 8 then s
    else if u32At buf (packet.data + 4) ≠ s.pingTag then s
    else { s with stateFinished := true }
  | .expectMtu =>
    if packet.isVideo = false ∨ packet.frameIndex ≠ s.mtuId then s
    else { s with stateFinished := true }
  | _ => s

/-- `senkusha_takion_data` in the states of the tests. -/
def senkushaTakionData (s : Senkusha) (message : SenkushaMessage) : Senkusha :=
  match s.state with
  | .expectClientMtuCommand =>
    if message.clientMtuCommand = some s.mtuId then { s with stateFinished := true } else s
  | _ => s

/-- `senkusha_takion_data_ack` -/
def senkushaTakionDataAck (s : Senkusha) (seqNum : Nat) : Senkusha :=
  if s.state = .expectDataAck ∧ s.dataAckSeqNumExpected = seqNum then { s with stateFinished := true } else s

/-- `senkusha_takion_cb` -/
def senkushaTakionCb (s : Senkusha) : SenkushaEvent → Senkusha
  | .av packet buf => senkushaTakionAv s packet buf
  | .data message => senkushaTakionData s message
  | .dataAck seqNum => senkushaTakionDataAck s seqNum

/-- A new state is expected. -/
def Senkusha.expect (s : Senkusha) (state : SenkushaState) : Senkusha :=
  { s with state := state, stateFinished := false }

/-- `chiaki_cond_timedwait_pred` with `state_finished_cond_check`. -/
def senkushaWait (s : Senkusha) (events : List SenkushaEvent) : Senkusha × ErrorCode :=
  let s := events.foldl senkushaTakionCb s
  (s, if s.stateFinished || s.shouldStop then .success else .timeout)

/-- What comes of something that is sent. -/
structure SenkushaAnswer where
  sent : ErrorCode
  events : List SenkushaEvent

/-! ## Packets that come in -/

/-- `tkproto_SenkushaMtuCommand` -/
structure MtuCommand where
  id : Nat
  mtuReq : Nat
  num : Nat
  deriving DecidableEq, Repr

/-- The variables of `senkusha_run_mtu_in_test`, and what has been sent, the last command first. -/
structure MtuIn where
  senkusha : Senkusha
  requestId : Nat
  commands : List MtuCommand

/-- The loop over the attempts to receive a packet of size `cur`: whether it was received. -/
def mtuInTest (network : List MtuCommand → SenkushaAnswer) (cur : Nat) :
    Nat → MtuIn → MtuIn × Except ErrorCode Bool
  | 0, s => (s, .ok false)
  | retries + 1, s =>
    let requestId := (s.requestId + 1) % 2 ^ 32
    let senkusha := { s.senkusha.expect .expectMtu with mtuId := requestId }
    let commands := ⟨requestId, cur, 1⟩ :: s.commands
    let answer := network commands
    if answer.sent ≠ .success then (⟨senkusha, requestId, commands⟩, .error answer.sent)
    else
      let (senkusha, err) := senkushaWait senkusha answer.events
      let s := ⟨senkusha, requestId, commands⟩
      if senkusha.stateFinished = false ∧ err = .timeout then mtuInTest network cur retries s
      else if senkusha.stateFinished = false ∧ senkusha.shouldStop = true then (s, .error .canceled)
      else (s, .ok true)

/-- `senkusha_run_mtu_in_test`: the variables, the tests, and the bounds at the end. `*mtu` is the lower
one. -/
def senkushaRunMtuInTest (network : List MtuCommand → SenkushaAnswer) (s : Senkusha) (min max retries fuel : Nat) :
    Option (Bisection.Found MtuIn ErrorCode) :=
  Bisection.search (fun s cur => mtuInTest network cur retries s) fuel ⟨min, max, max⟩ ⟨s, 0, []⟩

/-! ## Packets that go out -/

/-- `MTU_UDP_PACKET_ADD` -/
def mtuUdpPacketAdd : Nat := 0x1c

/-- `MTU_AV_PACKET_ADD` -/
def mtuAvPacketAdd : Nat := takionV7AVHeaderSize false false

/-- `MTU_PING_DATA_ADD` -/
def mtuPingDataAdd : Nat := mtuUdpPacketAdd + mtuAvPacketAdd

/-- `tkproto_SenkushaClientMtuCommand` -/
structure ClientMtuCommand where
  id : Nat
  state : Bool
  mtuReq : Nat
  mtuDown : Nat
  deriving DecidableEq, Repr

/-- What the network does with the first command, with the pings, the last one first, and with the last
command, which gets a sequence number. -/
structure MtuNetwork where
  clientMtuCommand : ClientMtuCommand → SenkushaAnswer
  ping : List Bytes → SenkushaAnswer
  lastCommand : ClientMtuCommand → Nat × SenkushaAnswer

/-- How a loop over the pings ends that is not finished. -/
inductive MtuOutStop
  | fault (fault : Fault)
  | returned (err : ErrorCode)
  deriving DecidableEq

/-- The variables of the loop, and the pings that have been sent, the last one first. -/
structure MtuOut where
  senkusha : Senkusha
  packetBuf : Bytes
  pings : List Bytes

/-- `packet_buf` before the first ping. -/
def mtuPacketBuf (packetBufSize : Nat) : Bytes :=
  List.replicate (mtuAvPacketAdd + 8) 0
    ++ (List.range (packetBufSize - (mtuAvPacketAdd + 8))).map fun i => (ascii "CHIAKI").getD (i % 6) 0

/-- `av_packet` of a ping. -/
def mtuPingPacket (s : Senkusha) : TakionAVPacket where
  packetIndex := 0
  frameIndex := s.pingTestIndex
  usesNaluInfoStructs := false
  isVideo := false
  isHaptics := false
  unitIndex := s.pingIndex
  unitsInFrameTotal := 0x800
  unitsInFrameFec := 0
  codec := 0xff
  wordAt0x18 := 0
  adaptiveStreamIndex := 0
  byteAt0x2c := 0
  keyPos := 0
  data := 0
  dataSize := 0

/-- The ping is put into `packet_buf`. -/
def mtuWritePing (s : Senkusha) (packetBuf : Bytes) : Except MtuOutStop Bytes :=
  match takionV7AVPacketFormatHeader packetBuf (mtuPingPacket s) with
  | (packetBuf, headerSize, err) =>
    if err ≠ .success then .error (.returned err)
    else if headerSize ≠ mtuAvPacketAdd then .error (.fault .assertion)
    else if packetBuf.length < mtuAvPacketAdd + 8 then .error (.fault .outOfBounds)
    else .ok (splice (splice packetBuf mtuAvPacketAdd (be32 0)) (mtuAvPacketAdd + 4) (be32 s.pingTag))

/-- The loop over the attempts to send a packet of size `cur`, behind the first `attempt` ones: whether a pong
was received. -/
def mtuOutTest (random : Nat → Nat) (network : MtuNetwork) (cur : Nat) :
    Nat → Nat → MtuOut → MtuOut × Except MtuOutStop Bool
  | 0, _, s => (s, .ok false)
  | retries + 1, attempt, s =>
    let senkusha := { s.senkusha.expect .expectPong with
      pingTag := random s.pings.length % 2 ^ 32
      pingTestIndex := 0
      pingIndex := attempt % 2 ^ 16 }
    match mtuWritePing senkusha s.packetBuf with
    | .error stop => ({ s with senkusha := senkusha }, .error stop)
    | .ok packetBuf =>
      if packetBuf.length < cur - mtuUdpPacketAdd then
        ({ s with senkusha := senkusha }, .error (.fault .outOfBounds))
      else
        let pings := packetBuf.take (cur - mtuUdpPacketAdd) :: s.pings
        let answer := network.ping pings
        let (senkusha, err) :=
          if answer.sent ≠ .success then (senkusha, ErrorCode.timeout) else senkushaWait senkusha answer.events
        let s := ⟨senkusha, packetBuf, pings⟩
        if senkusha.stateFinished = false ∧ err = .timeout then mtuOutTest random network cur retries (attempt + 1) s
        else if senkusha.stateFinished = false ∧ senkusha.shouldStop = true then (s, .error (.returned .canceled))
        else (s, .ok true)

/-- `senkusha_send_client_mtu_command` for the last command, with `senkusha_send_data_wait_for_ack`. -/
def mtuLastCommand (network : MtuNetwork) (s : Senkusha) (command : ClientMtuCommand) : ErrorCode :=
  let (seqNum, answer) := network.lastCommand command
  if answer.sent ≠ .success then answer.sent
  else
    let (s, err) := senkushaWait { s.expect .expectDataAck with dataAckSeqNumExpected := seqNum } answer.events
    if s.stateFinished = false ∧ s.shouldStop = true then .canceled else err

/-- What `senkusha_run_mtu_out_test` returns, `*mtu` if it was written, and the tests. -/
structure MtuOutResult where
  err : Except Fault ErrorCode
  mtu : Option Nat
  tests : List (Nat × Except MtuOutStop Bool)

/-- The part of `senkusha_run_mtu_out_test` behind the first command. `malloc` is whether there is memory for
`packet_buf`. -/
def mtuOutSearch (random : Nat → Nat) (network : MtuNetwork) (malloc : Bool) (s : Senkusha)
    (mtuIn min max retries fuel : Nat) : Option MtuOutResult :=
  if malloc = false then some ⟨.ok .memory, none, []⟩
  else
    (Bisection.search (fun s cur => mtuOutTest random network cur retries 0 s) fuel ⟨min, max, mtuIn⟩
      ⟨s, mtuPacketBuf (max - mtuUdpPacketAdd), []⟩).map fun r =>
        match r.outcome with
        | .error (.fault fault) => ⟨.error fault, none, r.tests⟩
        | .error (.returned err) => ⟨.ok err, none, r.tests⟩
        | .ok b => ⟨.ok (mtuLastCommand network r.state.senkusha ⟨2, false, b.max, mtuIn⟩), some b.min, r.tests⟩

/-- `senkusha_run_mtu_out_test` -/
def senkushaRunMtuOutTest (random : Nat → Nat) (network : MtuNetwork) (malloc : Bool) (s : Senkusha)
    (mtuIn min max retries fuel : Nat) : Option MtuOutResult :=
  if min < 8 + mtuPingDataAdd ∨ max < min ∨ mtuIn < min ∨ mtuIn > max then some ⟨.ok .invalidData, none, []⟩
  else
    let s := { s.expect .expectClientMtuCommand with mtuId := 1 }
    let answer := network.clientMtuCommand ⟨1, true, mtuIn, mtuIn⟩
    if answer.sent ≠ .success then some ⟨.ok answer.sent, none, []⟩
    else
      let (s, err) := senkushaWait s answer.events
      if s.stateFinished = false then
        some ⟨.ok (if err = .timeout then .timeout else if s.shouldStop then .canceled else .unknown), none, []⟩
      else mtuOutSearch random network malloc s mtuIn min max retries fuel

end Chiaki
