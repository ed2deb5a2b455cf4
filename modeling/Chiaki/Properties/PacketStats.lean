import Chiaki.PacketStats
import Mathlib.Data.List.Induction

/-!
# The reports of the packet statistics

`packetStats_report_iff`: what was received is always counted right, and what was lost if the newest
number has not wrapped around since the last reset and no more packets came than numbers went by.

* A packet that comes twice, or the first number after the wrap, makes up losses
  (`not_packetStats_report`).
-/

namespace Chiaki

/-! ## What is pushed between two resets -/

/-- A packet of a sequence, by its position on the line that the numbers wrap around, or a whole
generation. -/
inductive StatsPush
  | seq (position : Int)
  | generation (received lost : Nat)
  deriving DecidableEq

def StatsPush.push (stats : SeqPacketStats) : StatsPush → SeqPacketStats
  | .seq position => packetStatsPushSeq stats (UInt16.ofInt position)
  | .generation received lost => stats.pushGeneration received lost

def pushAll (stats : SeqPacketStats) (pushes : List StatsPush) : SeqPacketStats :=
  pushes.foldl StatsPush.push stats

def StatsPush.position : StatsPush → Option Int
  | .seq position => some position
  | .generation _ _ => none

def positions (pushes : List StatsPush) : List Int := pushes.filterMap StatsPush.position

def StatsPush.genReceived : StatsPush → Nat
  | .seq _ => 0
  | .generation received _ => received

def StatsPush.genLost : StatsPush → Nat
  | .seq _ => 0
  | .generation _ lost => lost

/-- All packets that were received. -/
def pushedTotal (pushes : List StatsPush) : Nat :=
  (positions pushes).length + (pushes.map StatsPush.genReceived).sum

/-- The newest position, when `start` was the newest at the last reset. -/
def newest (start : Int) (pushes : List StatsPush) : Int := (positions pushes).foldl max start

/-- All positions are near each other. -/
def SpanBelow (start : Int) (pushes : List StatsPush) : Prop :=
  ∀ x ∈ start :: positions pushes, ∀ y ∈ start :: positions pushes, x - y < 2 ^ 15

/-- What should be reported: the numbers that went by without a packet are lost. -/
structure ReportRight (start : Int) (pushes : List StatsPush) (report : PacketStatsReport) : Prop where
  received : report.received = pushedTotal pushes % 2 ^ 64
  lost : report.lost = ((newest start pushes - start - (positions pushes).length).toNat
    + (pushes.map StatsPush.genLost).sum) % 2 ^ 64

/-- The newest number is not less than it was, and there are no more packets than new numbers. -/
def SpanCovers (start : Int) (pushes : List StatsPush) : Prop :=
  (UInt16.ofInt start).toNat ≤ (UInt16.ofInt (newest start pushes)).toNat ∧
    (((positions pushes).length : Int) ≤ newest start pushes - start ∨ newest start pushes = start)

instance (start : Int) (pushes : List StatsPush) : Decidable (SpanCovers start pushes) :=
  inferInstanceAs (Decidable (_ ∧ _))

variable {stats : SeqPacketStats} {start : Int} {pushes : List StatsPush} {p : StatsPush}

theorem positions_append (pushes : List StatsPush) (p : StatsPush) :
    positions (pushes ++ [p]) = positions pushes ++ p.position.toList := by
  unfold positions
  rw [List.filterMap_append]
  cases p <;> rfl

theorem foldl_max_mem (start : Int) (xs : List Int) : xs.foldl max start ∈ start :: xs := by
  induction xs generalizing start with
  | nil => exact List.mem_cons_self ..
  | cons x xs ih =>
    rw [List.foldl_cons]
    rcases List.mem_cons.mp (ih (max start x)) with h | h
    · rw [h]
      rcases max_choice start x with h | h <;> rw [h] <;> simp
    · exact List.mem_cons_of_mem _ (List.mem_cons_of_mem _ h)

theorem le_foldl_max (start : Int) (xs : List Int) : start ≤ xs.foldl max start := by
  induction xs generalizing start with
  | nil => exact le_refl start
  | cons x xs ih => exact le_trans (le_max_left start x) (ih (max start x))

theorem newest_mem (start : Int) (pushes : List StatsPush) :
    newest start pushes ∈ start :: positions pushes := foldl_max_mem start _

theorem SpanBelow.before (h : SpanBelow start (pushes ++ [p])) : SpanBelow start pushes := by
  have hsub : ∀ x ∈ start :: positions pushes, x ∈ start :: positions (pushes ++ [p]) := by
    intro x hx
    rw [positions_append, ← List.cons_append]
    exact List.mem_append_left _ hx
  exact fun x hx y hy => h x (hsub x hx) y (hsub y hy)

/-! ## What the statistics know -/

@[simp] theorem toNat_ofInt_seqNum (x : Int) : (UInt16.ofInt x).toNat = (x % 2 ^ 16).toNat := by
  show (UInt16.ofNat (x % 2 ^ 16).toNat).toNat = (x % 2 ^ 16).toNat
  rw [UInt16.toNat_ofNat']
  omega

/-- The fields after some pushes. -/
structure StatsAfter (start : Int) (pushes : List StatsPush) (stats : SeqPacketStats) : Prop where
  seqReceived : stats.seqReceived = (positions pushes).length % 2 ^ 64
  genReceived : stats.genReceived = (pushes.map StatsPush.genReceived).sum % 2 ^ 64
  genLost : stats.genLost = (pushes.map StatsPush.genLost).sum % 2 ^ 64
  seqMin : stats.seqMin = UInt16.ofInt start
  seqMax : SpanBelow start pushes → stats.seqMax = UInt16.ofInt (newest start pushes)

theorem statsAfter_push (h : StatsAfter start pushes stats) (p : StatsPush) :
    StatsAfter start (pushes ++ [p]) (p.push stats) := by
  cases p with
  | seq position =>
    have hpositions : positions (pushes ++ [.seq position]) = positions pushes ++ [position] :=
      positions_append pushes _
    refine ⟨?_, ?_, ?_, h.seqMin, fun hspan => ?_⟩
    · show (stats.seqReceived + 1) % 2 ^ 64 = _
      rw [hpositions, List.length_append, h.seqReceived, Nat.mod_add_mod]
      rfl
    · show stats.genReceived = _
      simpa [StatsPush.genReceived] using h.genReceived
    · show stats.genLost = _
      simpa [StatsPush.genLost] using h.genLost
    · have hnewest : newest start (pushes ++ [.seq position]) = max (newest start pushes) position := by
        unfold newest
        rw [hpositions, List.foldl_append]
        rfl
      have hold : newest start pushes ∈ start :: positions (pushes ++ [.seq position]) := by
        rw [hpositions, ← List.cons_append]
        exact List.mem_append_left _ (newest_mem start pushes)
      have hnew : position ∈ start :: positions (pushes ++ [.seq position]) := by
        rw [hpositions]
        simp
      -- the numbers compare as the positions, since all of them are near
      have hgt := seqNum16Gt_emod (hspan _ hnew _ hold) (hspan _ hold _ hnew)
      show (if seqNum16Gt (UInt16.ofInt position).toNat stats.seqMax.toNat then UInt16.ofInt position
        else stats.seqMax) = _
      rw [h.seqMax hspan.before, hnewest, toNat_ofInt_seqNum, toNat_ofInt_seqNum, hgt]
      by_cases hlt : newest start pushes < position
      · rw [if_pos (decide_eq_true hlt), max_eq_right hlt.le]
      · rw [if_neg (by rw [decide_eq_true_iff]; exact hlt), max_eq_left (not_lt.mp hlt)]
  | generation received lost =>
    have hpositions : positions (pushes ++ [.generation received lost]) = positions pushes :=
      (positions_append pushes _).trans (List.append_nil _)
    refine ⟨?_, ?_, ?_, h.seqMin, fun hspan => ?_⟩
    · rw [hpositions]
      exact h.seqReceived
    · show (stats.genReceived + received) % 2 ^ 64 = _
      rw [h.genReceived, Nat.mod_add_mod]
      simp [StatsPush.genReceived]
    · show (stats.genLost + lost) % 2 ^ 64 = _
      rw [h.genLost, Nat.mod_add_mod]
      simp [StatsPush.genLost]
    · unfold newest
      rw [hpositions]
      exact h.seqMax hspan.before

theorem statsAfter_pushAll (hstart : UInt16.ofInt start = stats.seqMax) (pushes : List StatsPush) :
    StatsAfter start pushes (pushAll (packetStatsReset stats) pushes) := by
  induction pushes using List.reverseRecOn with
  | nil => exact ⟨rfl, rfl, rfl, hstart.symm, fun _ => hstart.symm⟩
  | append_singleton pushes p ih =>
    unfold pushAll
    rw [List.foldl_append]
    exact statsAfter_push ih p

theorem exists_start (n : UInt16) : ∃ start : Int, UInt16.ofInt start = n := by
  refine ⟨n.toNat, UInt16.toNat_inj.mp ?_⟩
  have hlt := n.toNat_lt
  rw [toNat_ofInt_seqNum]
  omega

/-! ## The reports -/

theorem newest_bounds (hspan : SpanBelow start pushes) :
    start ≤ newest start pushes ∧ newest start pushes < start + 2 ^ 15 := by
  have hlt := hspan _ (newest_mem start pushes) start (List.mem_cons_self ..)
  exact ⟨le_foldl_max start _, by omega⟩

/-- The difference of the numbers is the one of the positions, or far too large after a wrap. -/
theorem StatsAfter.seqDiff (h : StatsAfter start pushes stats) (hspan : SpanBelow start pushes) :
    (stats.seqDiff : Int) = newest start pushes - start +
      if (UInt16.ofInt start).toNat ≤ (UInt16.ofInt (newest start pushes)).toNat then 0
      else 2 ^ 64 - 2 ^ 16 := by
  have hbounds := newest_bounds hspan
  unfold SeqPacketStats.seqDiff
  rw [h.seqMin, h.seqMax hspan, toNat_ofInt_seqNum, toNat_ofInt_seqNum]
  split <;> omega

theorem packetStatsGet_received (h : StatsAfter start pushes stats) (reset : Bool) :
    (packetStatsGet stats reset).2.received = pushedTotal pushes % 2 ^ 64 := by
  show (stats.genReceived + stats.seqReceived) % 2 ^ 64 = _
  rw [h.genReceived, h.seqReceived, ← Nat.add_mod, Nat.add_comm]
  rfl

/-- The generations that were lost are counted right. -/
theorem packetStatsGet_lost (h : StatsAfter start pushes stats) (reset : Bool) (n : Nat) :
    (packetStatsGet stats reset).2.lost = (n + (pushes.map StatsPush.genLost).sum) % 2 ^ 64 ↔
      stats.seqLost % 2 ^ 64 = n % 2 ^ 64 := by
  show (stats.genLost + stats.seqLost) % 2 ^ 64 = _ ↔ _
  rw [h.genLost, Nat.mod_add_mod, Nat.add_comm]
  exact ⟨fun he => Nat.ModEq.add_right_cancel' _ he, fun he => Nat.ModEq.add_right _ he⟩

/-- The reports of congestion control, which starts over each time. -/
def receivedReports : SeqPacketStats → List (List StatsPush) → List Nat
  | _, [] => []
  | stats, pushes :: rounds =>
    let turn := packetStatsGet (pushAll stats pushes) true
    turn.2.received :: receivedReports turn.1 rounds

/-- **Every packet is reported once**, in the report of the time in which it came. -/
theorem receivedReports_eq (stats : SeqPacketStats) (rounds : List (List StatsPush)) :
    receivedReports (packetStatsReset stats) rounds
      = rounds.map fun pushes => pushedTotal pushes % 2 ^ 64 := by
  induction rounds generalizing stats with
  | nil => rfl
  | cons pushes rounds ih =>
    obtain ⟨start, hstart⟩ := exists_start stats.seqMax
    rw [receivedReports, List.map_cons, packetStatsGet_received (statsAfter_pushAll hstart pushes)]
    exact congrArg _ (ih _)

theorem sum_receivedReports (stats : SeqPacketStats) (rounds : List (List StatsPush)) :
    (receivedReports (packetStatsReset stats) rounds).sum % 2 ^ 64
      = (rounds.map pushedTotal).sum % 2 ^ 64 := by
  rw [receivedReports_eq]
  induction rounds with
  | nil => rfl
  | cons pushes rounds ih =>
    simp only [List.map_cons, List.sum_cons]
    rw [Nat.mod_add_mod, Nat.add_mod, ih, ← Nat.add_mod]

/-- **A report is right if and only if the newest number has not wrapped around and there are no more
packets than numbers**; what was received adds up in any case. -/
theorem packetStats_report_iff (hstart : UInt16.ofInt start = stats.seqMax)
    (hspan : SpanBelow start pushes) (reset : Bool) :
    (SpanCovers start pushes →
      ReportRight start pushes (packetStatsGet (pushAll (packetStatsReset stats) pushes) reset).2) ∧
    ((positions pushes).length < 2 ^ 63 →
      ReportRight start pushes (packetStatsGet (pushAll (packetStatsReset stats) pushes) reset).2 →
      SpanCovers start pushes) ∧
    ∀ rounds : List (List StatsPush),
      (receivedReports (packetStatsReset stats) rounds).sum % 2 ^ 64
        = (rounds.map pushedTotal).sum % 2 ^ 64 := by
  have hafter := statsAfter_pushAll hstart pushes
  generalize pushAll (packetStatsReset stats) pushes = after at hafter ⊢
  have hreceived := packetStatsGet_received hafter reset
  have hlost := packetStatsGet_lost hafter reset
  have hdiff := hafter.seqDiff hspan
  have hcount := hafter.seqReceived
  have hbounds := newest_bounds hspan
  refine ⟨fun hcovers => ⟨hreceived, (hlost _).mpr ?_⟩, fun hfew hright => ?_,
    sum_receivedReports stats⟩
  · obtain ⟨hnowrap, hfew⟩ := hcovers
    rw [if_pos hnowrap] at hdiff
    unfold SeqPacketStats.seqLost
    split <;> omega
  · have heq := (hlost _).mp hright.lost
    unfold SeqPacketStats.seqLost at heq
    unfold SpanCovers
    split at hdiff <;> split at heq <;> omega

/-- Congestion control sends the lower 16 bits, which are right after a wrap, too, as long as there
are no more packets than numbers. -/
theorem congestionControlTurn_right (hstart : UInt16.ofInt start = stats.seqMax)
    (hspan : SpanBelow start pushes)
    (hfew : ((positions pushes).length : Int) ≤ newest start pushes - start) :
    (congestionControlTurn (pushAll (packetStatsReset stats) pushes)).2
      = (pushedTotal pushes % 2 ^ 16, ((newest start pushes - start - (positions pushes).length).toNat
          + (pushes.map StatsPush.genLost).sum) % 2 ^ 16) := by
  have hafter := statsAfter_pushAll hstart pushes
  generalize pushAll (packetStatsReset stats) pushes = after at hafter ⊢
  have hreceived := packetStatsGet_received hafter true
  have hlost := packetStatsGet_lost hafter true after.seqLost
  have hdiff := hafter.seqDiff hspan
  have hcount := hafter.seqReceived
  have hbounds := newest_bounds hspan
  have hseq : after.seqLost % 2 ^ 16
      = (newest start pushes - start - (positions pushes).length).toNat % 2 ^ 16 := by
    unfold SeqPacketStats.seqLost
    split at hdiff <;> split <;> omega
  unfold congestionControlTurn
  simp only [hreceived, hlost.mpr rfl, Prod.mk.injEq]
  constructor
  · omega
  · omega

/-! ### Reports -/

instance (start : Int) (pushes : List StatsPush) : Decidable (SpanBelow start pushes) :=
  inferInstanceAs (Decidable (∀ x ∈ start :: positions pushes, ∀ y ∈ start :: positions pushes, _))

/-- A number that was skipped, and a generation. -/
theorem packetStats_report_skipped :
    (packetStatsGet (pushAll (packetStatsReset packetStatsInit)
      [.seq 1, .generation 3 1, .seq 3]) true).2 = ⟨5, 2⟩ ∧
    ReportRight 0 [.seq 1, .generation 3 1, .seq 3] (packetStatsGet
      (pushAll (packetStatsReset packetStatsInit) [.seq 1, .generation 3 1, .seq 3]) true).2 :=
  ⟨by decide, (@packetStats_report_iff packetStatsInit 0 [.seq 1, .generation 3 1, .seq 3]
    (by decide) (by decide) true).1 (by decide)⟩

/-- Statistics whose newest number is the last one before the wrap. -/
def statsBeforeWrap : SeqPacketStats :=
  pushAll packetStatsInit [.seq 20000, .seq 40000, .seq 65535]

/-- **A packet that comes twice is reported as a loss, and so are 2 ^ 64 - 2 ^ 16 packets after the
wrap.** -/
theorem not_packetStats_report :
    (SpanBelow 0 [.seq 1, .seq 1] ∧
      (packetStatsGet (pushAll (packetStatsReset packetStatsInit) [.seq 1, .seq 1]) true).2 = ⟨2, 1⟩ ∧
      ¬ ReportRight 0 [.seq 1, .seq 1]
        (packetStatsGet (pushAll (packetStatsReset packetStatsInit) [.seq 1, .seq 1]) true).2) ∧
    (statsBeforeWrap.seqMax = 65535 ∧ SpanBelow 65535 [.seq 65536] ∧
      (packetStatsGet (pushAll (packetStatsReset statsBeforeWrap) [.seq 65536]) true).2
        = ⟨1, 2 ^ 64 - 2 ^ 16⟩ ∧
      ¬ ReportRight 65535 [.seq 65536]
        (packetStatsGet (pushAll (packetStatsReset statsBeforeWrap) [.seq 65536]) true).2) := by
  refine ⟨⟨by decide, by decide, fun hright => ?_⟩, by decide, by decide, by decide, fun hright => ?_⟩
  · exact absurd hright.lost (by decide)
  · exact absurd hright.lost (by decide)

end Chiaki
