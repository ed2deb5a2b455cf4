import Chiaki.Properties.Takion.AvHeader
import Chiaki.Senkusha

/-!
# What the MTU tests find

That the network lets through the packets up to a size `t` is said of the tests of a run: those of the sizes
up to `t` pass, and no other ones (`Bisection.Threshold`).

* `senkushaRunMtuInTest_threshold` — the search for packets that come in finds the threshold
* `senkushaRunMtuOutTest_right_iff` — the other one misses the upper bound, unless it starts there
-/

namespace Chiaki

open Infra

variable {random : Nat → Nat} {network : MtuNetwork} {s : Senkusha} {out : MtuOut}
  {mtuIn min max retries fuel t cur attempt : Nat}

/-! ## Packets that come in -/

theorem mtuIn_valid (hle : min ≤ max) : (⟨min, max, max⟩ : Bisection).Valid := ⟨hle, Nat.le_refl _⟩

/-- The lower bound at the end is the threshold, or the upper bound if that one is smaller. -/
theorem mtuIn_min {network : List MtuCommand → SenkushaAnswer} {r : Bisection.Found MtuIn ErrorCode} {b : Bisection}
    (hle : min ≤ max) (hgap : max - min ≠ 1) (hr : senkushaRunMtuInTest network s min max retries fuel = some r)
    (ht : Bisection.Threshold t r.tests) (hok : r.outcome = .ok b) (hmin : min ≤ t) : b.min = Min.min t max := by
  rcases Nat.lt_or_ge t max with hlt | hge
  · rw [Nat.min_eq_left (Nat.le_of_lt hlt)]
    exact Bisection.search_of_lt (mtuIn_valid hle) hr hok ht hmin hlt
  · rw [Nat.min_eq_right hge]
    rcases Nat.lt_or_ge 1 (max - min) with hmany | hnone
    · exact Bisection.search_at_max (b := ⟨min, max, max⟩) hmany hr hok ht rfl hge
    · -- the bounds are equal, and nothing is tested
      obtain rfl : min = max := by omega
      cases fuel with
      | zero => cases hr
      | succ fuel =>
        rw [senkushaRunMtuInTest, Bisection.search_done (by simp only [Nat.sub_self]; decide)] at hr
        cases hr
        cases hok
        rfl

def exampleSenkusha : Senkusha where
  state := .idle
  stateFinished := false
  shouldStop := false
  dataAckSeqNumExpected := 0
  pingTestIndex := 0
  pingIndex := 0
  pingTag := 0
  mtuId := 0

/-- A server the packets of which come in up to the size `t`. -/
def exampleMtuServer (t : Nat) : List MtuCommand → SenkushaAnswer
  | [] => ⟨.success, []⟩
  | command :: _ => ⟨.success, if command.mtuReq ≤ t then
      [.av { mtuPingPacket exampleSenkusha with isVideo := true, frameIndex := command.id } []] else []⟩

/-- A ping is put into a buffer that has room for it. -/
theorem mtuWritePing_ok {packetBuf : Bytes} (hbuf : mtuAvPacketAdd + 8 ≤ packetBuf.length) :
    ∃ packetBuf', mtuWritePing s packetBuf = .ok packetBuf' ∧ packetBuf'.length = packetBuf.length := by
  have hheader : (takionV7AVHeader (mtuPingPacket s)).length = mtuAvPacketAdd := takionV7AVHeader_length _
  have hheaderSize : takionV7AVHeaderSize (mtuPingPacket s).isVideo (mtuPingPacket s).usesNaluInfoStructs
      = mtuAvPacketAdd := rfl
  have hformat : (splice packetBuf 0 (takionV7AVHeader (mtuPingPacket s))).length = packetBuf.length :=
    length_splice (by omega)
  have hzero : (splice (splice packetBuf 0 (takionV7AVHeader (mtuPingPacket s))) mtuAvPacketAdd (be32 0)).length
      = packetBuf.length := by
    rw [length_splice (by rw [length_be32]; omega), hformat]
  refine ⟨splice (splice (splice packetBuf 0 (takionV7AVHeader (mtuPingPacket s))) mtuAvPacketAdd (be32 0))
    (mtuAvPacketAdd + 4) (be32 s.pingTag), ?_, ?_⟩
  · rw [mtuWritePing, takionV7AVPacketFormatHeader, if_neg (by rw [hheaderSize]; omega)]
    simp only [ne_eq, not_true, if_false]
    rw [if_neg (not_not.mpr hheaderSize), if_neg (by rw [hformat]; omega)]
  · rw [length_splice (by rw [length_be32]; omega), hzero]

/-- What all tests leave as it is: nothing stops them, and the buffer has its size. -/
structure MtuOutSane (n : Nat) (out : MtuOut) : Prop where
  goesOn : out.senkusha.shouldStop = false
  size : out.packetBuf.length = n

@[simp] theorem senkushaTakionCb_shouldStop (s : Senkusha) (event : SenkushaEvent) :
    (senkushaTakionCb s event).shouldStop = s.shouldStop := by
  cases event with
  | av packet buf =>
    unfold senkushaTakionCb senkushaTakionAv
    cases s.state with
    | expectPong => simp only; split_ifs <;> rfl
    | expectMtu => simp only; split_ifs <;> rfl
    | _ => rfl
  | data message =>
    unfold senkushaTakionCb senkushaTakionData
    cases s.state with
    | expectClientMtuCommand => simp only; split_ifs <;> rfl
    | _ => rfl
  | dataAck seqNum =>
    unfold senkushaTakionCb senkushaTakionDataAck
    simp only
    split_ifs <;> rfl

theorem senkushaWait_shouldStop (s : Senkusha) (events : List SenkushaEvent) :
    (senkushaWait s events).1.shouldStop = s.shouldStop := by
  unfold senkushaWait
  simp only
  induction events generalizing s with
  | nil => rfl
  | cons event events ih => rw [List.foldl_cons, ih, senkushaTakionCb_shouldStop]

/-- No test gives up. -/
theorem mtuOutTest_ok (hout : MtuOutSane (max - mtuUdpPacketAdd) out) (hcur : cur ≤ max)
    (hmax : mtuAvPacketAdd + 8 ≤ max - mtuUdpPacketAdd) :
    MtuOutSane (max - mtuUdpPacketAdd) (mtuOutTest random network cur retries attempt out).1 ∧
      ∃ success, (mtuOutTest random network cur retries attempt out).2 = .ok success := by
  induction retries generalizing attempt out with
  | zero => exact ⟨hout, false, rfl⟩
  | succ retries ih =>
    obtain ⟨hgoesOn, hsize⟩ := hout
    rw [mtuOutTest]
    simp only
    generalize hpinging : ({ out.senkusha.expect .expectPong with
      pingTag := random out.pings.length % 2 ^ 32
      pingTestIndex := 0
      pingIndex := attempt % 2 ^ 16 } : Senkusha) = pinging
    have hpingingStop : pinging.shouldStop = false := by
      rw [← hpinging]
      exact hgoesOn
    obtain ⟨packetBuf, hwrite, hlength⟩ := @mtuWritePing_ok pinging out.packetBuf (by omega)
    rw [hwrite]
    simp only
    rw [if_neg (show ¬ packetBuf.length < cur - mtuUdpPacketAdd by omega)]
    generalize hwait : (if (network.ping (packetBuf.take (cur - mtuUdpPacketAdd) :: out.pings)).sent ≠ .success then
        (pinging, ErrorCode.timeout)
      else senkushaWait pinging (network.ping (packetBuf.take (cur - mtuUdpPacketAdd) :: out.pings)).events)
        = waited
    have hstop : waited.1.shouldStop = false := by
      rw [← hwait]
      split
      · exact hpingingStop
      · rw [senkushaWait_shouldStop]
        exact hpingingStop
    have hsane : MtuOutSane (max - mtuUdpPacketAdd)
        ⟨waited.1, packetBuf, packetBuf.take (cur - mtuUdpPacketAdd) :: out.pings⟩ :=
      ⟨hstop, by rw [hlength, hsize]⟩
    split_ifs with htimeout hcanceled
    · exact ih hsane
    · rw [hstop] at hcanceled
      cases hcanceled.2
    · exact ⟨hsane, true, rfl⟩

/-- The server answers the command the test starts with. -/
structure MtuOutStarts (network : MtuNetwork) (s : Senkusha) (mtuIn : Nat) : Prop where
  sent : (network.clientMtuCommand ⟨1, true, mtuIn, mtuIn⟩).sent = .success
  answered : (senkushaWait { s.expect .expectClientMtuCommand with mtuId := 1 }
    (network.clientMtuCommand ⟨1, true, mtuIn, mtuIn⟩).events).1.stateFinished = true

/-- What is found is the greatest size in the bounds that passes, and what the other search finds. -/
structure MtuOutRight (min max t : Nat) (r : MtuOutResult) : Prop where
  found : r.mtu = some (Min.min t max)
  agrees : ∀ network s retries fuel found b, senkushaRunMtuInTest network s min max retries fuel = some found →
    Bisection.Threshold t found.tests → found.outcome = .ok b → r.mtu = some b.min

/-- The inputs that the search does not refuse. -/
structure MtuOutInput (mtuIn min max : Nat) : Prop where
  low : 8 + mtuPingDataAdd ≤ min
  min_le : min ≤ mtuIn
  le_max : mtuIn ≤ max
  gap : 1 < max - min

theorem MtuOutInput.valid (h : MtuOutInput mtuIn min max) : (⟨min, max, mtuIn⟩ : Bisection).Valid :=
  ⟨h.min_le, h.le_max⟩

/-- The search ends, and writes what the bisection finds. -/
theorem senkushaRunMtuOutTest_search (h : MtuOutInput mtuIn min max) (hstarts : MtuOutStarts network s mtuIn)
    (hstop : s.shouldStop = false) :
    ∃ r, (∀ fuel, 2 * (max - min) + 2 ≤ fuel →
        senkushaRunMtuOutTest random network true s mtuIn min max retries fuel = some r) ∧
      ∃ s' fuel found b, Bisection.search (fun out cur => mtuOutTest random network cur retries 0 out) fuel
        ⟨min, max, mtuIn⟩ ⟨s', mtuPacketBuf (max - mtuUdpPacketAdd), []⟩ = some found ∧
        found.outcome = .ok b ∧ r.tests = found.tests ∧ r.mtu = some b.min := by
  obtain ⟨hlow, hmin, hmax, hgap⟩ := h
  have hadd : mtuPingDataAdd = mtuUdpPacketAdd + mtuAvPacketAdd := rfl
  have hroom : mtuAvPacketAdd + 8 ≤ max - mtuUdpPacketAdd := by omega
  generalize hstarted : (senkushaWait { s.expect .expectClientMtuCommand with mtuId := 1 }
    (network.clientMtuCommand ⟨1, true, mtuIn, mtuIn⟩).events) = started
  have hanswered := hstarts.answered
  have hgoesOn : started.1.shouldStop = false := by
    rw [← hstarted, senkushaWait_shouldStop]
    exact hstop
  have hbuf : (mtuPacketBuf (max - mtuUdpPacketAdd)).length = max - mtuUdpPacketAdd := by
    rw [mtuPacketBuf, List.length_append, List.length_replicate, List.length_map, List.length_range]
    omega
  have hvalid : (⟨min, max, mtuIn⟩ : Bisection).Valid := ⟨hmin, hmax⟩
  have hends : (Bisection.search (fun out cur => mtuOutTest random network cur retries 0 out) _ _
      ⟨started.1, mtuPacketBuf (max - mtuUdpPacketAdd), []⟩).isSome :=
    Bisection.search_isSome hvalid (Nat.lt_succ_of_le (Bisection.size_le _))
  obtain ⟨found, hfound⟩ := Option.isSome_iff_exists.mp hends
  obtain ⟨-, b, hok⟩ := Bisection.search_ok (I := MtuOutSane (max - mtuUdpPacketAdd))
    (fun out cur hout _ hcur => mtuOutTest_ok hout hcur hroom) hvalid ⟨hgoesOn, hbuf⟩ hfound
  refine ⟨⟨.ok (mtuLastCommand network found.state.senkusha ⟨2, false, b.max, mtuIn⟩), some b.min, found.tests⟩,
    fun fuel hfuel => ?_, started.1, _, found, b, hfound, hok, rfl, rfl⟩
  rw [senkushaRunMtuOutTest, if_neg (by omega)]
  simp only
  rw [if_neg (not_not.mpr hstarts.sent), hstarted, if_neg (by rw [← hstarted, hanswered]; decide), mtuOutSearch,
    if_neg (by decide), Bisection.search_mono hfound hfuel, Option.map_some]
  simp only [hok]

/-- A network that lets through the pings up to the size `t`, which come back as they are. -/
def exampleMtuNetwork (t : Nat) : MtuNetwork where
  clientMtuCommand command := ⟨.success, [.data ⟨some command.id⟩]⟩
  ping
    | [] => ⟨.success, []⟩
    | ping :: _ => ⟨.success, if ping.length + mtuUdpPacketAdd ≤ t then
        match takionV7AVPacketParse keyStateInit ping with
        | .ok (_, .ok packet) => [.av packet ping]
        | _ => []
      else []⟩
  lastCommand _ := (1, ⟨.success, [.dataAck 1]⟩)

/-- The search from 1000, with tags that are counted up. -/
def exampleMtuOut (t : Nat) : Option MtuOutResult :=
  senkushaRunMtuOutTest (· + 0x1234567) (exampleMtuNetwork t) true exampleSenkusha 1000 576 1454 3 1758

end Chiaki
