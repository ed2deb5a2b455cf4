import Chiaki.Common

/-!
# The discovery service (`discoveryservice.c`)

The hosts that answered a ping, and the ping round in which each of them was last heard of, in two arrays of
`hosts_max` entries. One thread receives answers and the other one sends the pings, and both take `state_mutex`, so
each of them is one step.

A string is there or is `NULL`. There is always memory for a copy of it. Sending the pings themselves does not change
anything here.
-/

namespace Chiaki

/-! ## Hosts -/

/-- `ChiakiDiscoveryHostState` -/
inductive DiscoveryHostState
  | unknown
  | ready
  | standby
  deriving DecidableEq, Repr

/-- The names of `CHIAKI_DISCOVERY_HOST_STRING_FOREACH`. -/
inductive DiscoveryHostString
  | hostAddr
  | systemVersion
  | deviceDiscoveryProtocolVersion
  | hostName
  | hostType
  | hostId
  | runningAppTitleid
  | runningAppName
  deriving DecidableEq, Repr

/-- The order of `CHIAKI_DISCOVERY_HOST_STRING_FOREACH`. -/
def discoveryHostStrings : List DiscoveryHostString :=
  [.hostAddr, .systemVersion, .deviceDiscoveryProtocolVersion, .hostName, .hostType, .hostId, .runningAppTitleid,
    .runningAppName]

/-- `ChiakiDiscoveryHost` -/
@[ext] structure DiscoveryHost where
  state : DiscoveryHostState
  hostRequestPort : Nat
  string : DiscoveryHostString → Option Bytes

/-- A host of which all bytes are zero. -/
def discoveryHostZero : DiscoveryHost where
  state := .unknown
  hostRequestPort := 0
  string _ := none

/-! ## The service -/

/-- What is used of `ChiakiDiscoveryServiceOptions`. `cb` is whether there is a callback. -/
structure DiscoveryServiceOptions where
  hostsMax : Nat
  hostDropPings : Nat
  cb : Bool

/-- What is used of `ChiakiDiscoveryService`. `reports` are the lists that `cb` was called with, the last one first. -/
structure DiscoveryService where
  pingIndex : Nat
  hosts : List DiscoveryHost
  hostDiscoveryInfos : List Nat
  hostsCount : Nat
  reports : List (List DiscoveryHost)

variable (o : DiscoveryServiceOptions)

/-- `chiaki_discovery_service_init` -/
def discoveryServiceInit : DiscoveryService where
  pingIndex := 0
  hosts := List.replicate o.hostsMax discoveryHostZero
  hostDiscoveryInfos := List.replicate o.hostsMax 0
  hostsCount := 0
  reports := []

/-- The hosts that the user gets to see. -/
def DiscoveryService.visible (s : DiscoveryService) : List DiscoveryHost := s.hosts.take s.hostsCount

/-- `discovery_service_report_state` -/
def discoveryServiceReportState (s : DiscoveryService) : DiscoveryService :=
  if o.cb then { s with reports := s.visible :: s.reports } else s

/-! ## Pings -/

/-- `memmove` of the entries behind the one at `i`, which are `count - i - 1`, to its place. -/
def memmoveDown {α : Type} (l : List α) (i count : Nat) : List α :=
  l.take i ++ (l.drop (i + 1)).take (count - i - 1) ++ l.drop (count - 1)

/-- The entry at `i` is removed from both arrays. -/
def DiscoveryService.remove (s : DiscoveryService) (i : Nat) : DiscoveryService :=
  if i < s.hostsCount - 1 then
    { s with
      hostDiscoveryInfos := memmoveDown s.hostDiscoveryInfos i s.hostsCount
      hosts := memmoveDown s.hosts i s.hostsCount
      hostsCount := s.hostsCount - 1 }
  else { s with hostsCount := s.hostsCount - 1 }

/-- The loop of `discovery_service_drop_old_hosts` with `n` rounds left, which is `hosts_count - i`. -/
def discoveryServiceDropLoop : Nat → Nat → Bool → DiscoveryService → Except Fault (DiscoveryService × Bool)
  | 0, _, change, s => .ok (s, change)
  | n + 1, i, change, s =>
    match s.hostDiscoveryInfos[i]? with
    | none => .error .outOfBounds
    | some lastPingIndex =>
      if (lastPingIndex + o.hostDropPings) % 2 ^ 64 ≥ s.pingIndex then discoveryServiceDropLoop n (i + 1) change s
      else if s.hostDiscoveryInfos.length < s.hostsCount ∨ s.hosts.length < s.hostsCount then .error .outOfBounds
      -- `i` is decremented, and incremented again by the loop
      else discoveryServiceDropLoop n i true (s.remove i)

/-- `discovery_service_drop_old_hosts` -/
def discoveryServiceDropOldHosts (s : DiscoveryService) : Except Fault DiscoveryService := do
  let (s, change) ← discoveryServiceDropLoop o s.hostsCount 0 false s
  return if change then discoveryServiceReportState o s else s

/-- `discovery_service_ping` -/
def discoveryServicePing (s : DiscoveryService) : Except Fault DiscoveryService :=
  discoveryServiceDropOldHosts o { s with pingIndex := (s.pingIndex + 1) % 2 ^ 64 }

/-! ## Answers -/

/-- `UPDATE_STRING`: the string of the slot, and whether it is another one. -/
def updateString (slot host : Option Bytes) : Option Bytes × Bool :=
  match slot, host with
  | some a, some b => if a = b then (slot, false) else (host, true)
  | none, none => (slot, false)
  | _, _ => (host, true)

/-- `UPDATE_STRING` of one name, with `change`. -/
def DiscoveryHost.updateString (host : DiscoveryHost) (slot : DiscoveryHost × Bool) (name : DiscoveryHostString) :
    DiscoveryHost × Bool :=
  let (string, change) := Chiaki.updateString (slot.1.string name) (host.string name)
  ({ slot.1 with string := fun name' => if name' = name then string else slot.1.string name' }, slot.2 || change)

/-- The fields of a slot are updated, with `change` before that. -/
def discoveryHostUpdate (slot host : DiscoveryHost) (change : Bool) : DiscoveryHost × Bool :=
  let change := change || decide (slot.state ≠ host.state ∨ slot.hostRequestPort ≠ host.hostRequestPort)
  discoveryHostStrings.foldl host.updateString
    ({ slot with state := host.state, hostRequestPort := host.hostRequestPort }, change)

/-- The slot at `index` is written, and heard of in this round. -/
def DiscoveryService.store (s : DiscoveryService) (index : Nat) (slot : DiscoveryHost) : DiscoveryService :=
  { s with
    hostDiscoveryInfos := s.hostDiscoveryInfos.set index s.pingIndex
    hosts := s.hosts.set index slot }

/-- The host at `index` was heard of. -/
def discoveryServiceUpdate (s : DiscoveryService) (index : Nat) (host : DiscoveryHost) (change : Bool) :
    Except Fault DiscoveryService :=
  if s.hostDiscoveryInfos.length ≤ index then .error .outOfBounds
  else
    match s.hosts[index]? with
    | none => .error .outOfBounds
    | some slot =>
      let (slot, change) := discoveryHostUpdate slot host change
      let s := s.store index slot
      .ok (if change then discoveryServiceReportState o s else s)

/-- A slot of zeros comes last. -/
def DiscoveryService.extend (s : DiscoveryService) : DiscoveryService :=
  { s with hostsCount := s.hostsCount + 1, hosts := s.hosts.set s.hostsCount discoveryHostZero }

/-- `discovery_service_host_received` -/
def discoveryServiceHostReceived (s : DiscoveryService) (host : DiscoveryHost) : Except Fault DiscoveryService :=
  match host.string .hostId with
  | none => .ok s
  | some hostId =>
    match s.visible.findIdx? (·.string .hostId == some hostId) with
    | some index => discoveryServiceUpdate o s index host false
    | none =>
      if s.hostsCount = o.hostsMax then .ok s
      else
        let index := s.hostsCount
        if s.hosts.length ≤ index then .error .outOfBounds
        else discoveryServiceUpdate o s.extend index host true

/-! ## Runs -/

/-- What the two threads do. -/
inductive DiscoveryServiceLabel
  | received (host : DiscoveryHost)
  | ping

def discoveryServiceStep (s : DiscoveryService) : DiscoveryServiceLabel → Except Fault DiscoveryService
  | .received host => discoveryServiceHostReceived o s host
  | .ping => discoveryServicePing o s

/-- The service after some steps, the last one first. -/
def discoveryServiceRun : List DiscoveryServiceLabel → Except Fault DiscoveryService
  | [] => .ok (discoveryServiceInit o)
  | label :: before => do
    let s ← discoveryServiceRun before
    discoveryServiceStep o s label

end Chiaki
