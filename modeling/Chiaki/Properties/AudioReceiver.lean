import Chiaki.AudioReceiver
import Mathlib.Data.List.Chain

/-!
# The frames for the audio sinks

`audioReceiver_frames`: frames come in serial order, and every buffer is inside of the data of its
packet.

* `audioReceiver_redundancy_iff` — the units for the first time are handled before the repeated ones,
  so a frame that was missed is recovered if and only if nothing new comes with it
* `audioReceiver_startup_iff` — a stream is heard from its first packet on if and only if that has one
  of the first half of the frame numbers, but not 0
-/

namespace Chiaki

open Infra

variable {u : TakionAVUnit} {s : AudioReceiver} {log : List AudioFrame} {i j n m : Nat}

/-- `b` may come after `a`. -/
def AudioFrame.Newer (a b : AudioFrame) : Prop := seqNum16Gt b.frameIndex a.frameIndex = true

/-! ## Order -/

/-- What the frames that were handed to the sinks have to do with each other and the receiver. -/
structure AudioFramesRight (s : AudioReceiver) (log : List AudioFrame) : Prop where
  inOrder : log.IsChain AudioFrame.Newer
  last : ∀ f ∈ log.getLast?, f.frameIndex = s.frameIndexPrev
  inside : ∀ f ∈ log, f.off + f.size ≤ f.packet.packet.dataSize
  passed : ∀ f ∈ log, f.passed = s.hasFrameCb f.packet

/-- What every frame keeps is kept by the loop. -/
theorem audioReceiverUnits_keep {P : AudioReceiver → List AudioFrame → Prop}
    (hframe : ∀ s log j, i ≤ j → j < i + n → P s log →
      P (audioReceiverFrame s u (audioUnitFrame u j) (u.packet.audioUnitSize * j)
          u.packet.audioUnitSize).1
        (log ++ (audioReceiverFrame s u (audioUnitFrame u j) (u.packet.audioUnitSize * j)
          u.packet.audioUnitSize).2))
    (h : P s log) : P (audioReceiverUnits u n i s).1 (log ++ (audioReceiverUnits u n i s).2) := by
  induction n generalizing i s log with
  | zero => rwa [audioReceiverUnits, List.append_nil]
  | succ n ih =>
    have hrest := fun s log j (hij : i + 1 ≤ j) (hj : j < i + 1 + n) =>
      hframe s log j (by omega) (by omega)
    unfold audioReceiverUnits
    split
    · exact ih hrest h
    · simp only
      rw [← List.append_assoc]
      exact ih hrest (hframe s log i (Nat.le_refl i) (by omega) h)

theorem audioFramesRight_frame (h : AudioFramesRight s log) {frameIndex off size : Nat}
    (hinside : off + size ≤ u.packet.dataSize) :
    AudioFramesRight (audioReceiverFrame s u frameIndex off size).1
      (log ++ (audioReceiverFrame s u frameIndex off size).2) := by
  unfold audioReceiverFrame
  split
  · rwa [List.append_nil]
  · next hnewer =>
    rw [Bool.not_eq_true', Bool.not_eq_false] at hnewer
    refine ⟨?_, ?_, ?_, ?_⟩
    · refine List.isChain_append.mpr ⟨h.inOrder, List.isChain_singleton _, fun a ha b hb => ?_⟩
      cases Option.mem_some.mp hb
      rw [AudioFrame.Newer, h.last a ha]
      exact hnewer
    · intro f hf
      rw [List.getLast?_concat, Option.mem_some] at hf
      rw [← hf]
    · intro f hf
      rcases List.mem_append.mp hf with hf | hf
      · exact h.inside f hf
      · rw [List.mem_singleton.mp hf]
        exact hinside
    · intro f hf
      rcases List.mem_append.mp hf with hf | hf
      · exact h.passed f hf
      · rw [List.mem_singleton.mp hf]
        rfl

theorem audioFramesRight_avPacket (h : AudioFramesRight s log) (u : TakionAVUnit) :
    AudioFramesRight (audioReceiverAvPacket s u).1 (log ++ (audioReceiverAvPacket s u).2) := by
  unfold audioReceiverAvPacket
  split
  · rwa [List.append_nil]
  · next hwf =>
    simp only [audioWellFormed, Bool.not_eq_true', Bool.not_eq_false, Bool.and_eq_true,
      decide_eq_true_eq] at hwf
    obtain ⟨⟨-, hunits⟩, hsize⟩ := hwf
    simp only
    have hstart : AudioFramesRight { s with
        frameIndexStartup := if u.frameIndex > 2 ^ 15 then false else s.frameIndexStartup } log :=
      ⟨h.inOrder, h.last, h.inside, h.passed⟩
    have hend := @audioReceiverUnits_keep u _ log 0
      (u.packet.audioSourceUnitsCount + u.packet.audioFecUnitsCount) AudioFramesRight
      (fun s log j _ hj h => audioFramesRight_frame h ?_) hstart
    · exact ⟨hend.inOrder, hend.last, hend.inside, hend.passed⟩
    · -- unit `j` ends where the next one begins
      calc u.packet.audioUnitSize * j + u.packet.audioUnitSize
          = u.packet.audioUnitSize * (j + 1) := (Nat.mul_succ _ _).symm
        _ ≤ u.packet.audioUnitSize * u.packet.unitsInFrameTotal := Nat.mul_le_mul_left _ (by omega)
        _ = u.packet.dataSize := hsize.symm

theorem audioReceiver_invariant :
    audioReceiverLts.Invariant fun s => AudioFramesRight s.receiver s.log where
  init := by
    rintro s ⟨audioFrameCb, hapticsFrameCb, packetStats, rfl⟩
    exact ⟨List.IsChain.nil, fun f hf => (by cases hf), fun f hf => (by cases hf),
      fun f hf => (by cases hf)⟩
  step := by
    intro s u s' h hs
    cases hs
    exact audioFramesRight_avPacket h u

/-- All packets of a receiver are for the same sink, as `stream_connection_takion_av` has it. -/
def OneSink (log : List AudioFrame) : Prop :=
  ∀ f ∈ log, ∀ g ∈ log, f.packet.packet.isHaptics = g.packet.packet.isHaptics

/-- Unit `i` is handed to a sink that has a callback. -/
def Delivered (u : TakionAVUnit) (frames : List AudioFrame) (i : Nat) : Prop :=
  ∃ f ∈ frames, f.frameIndex = audioUnitFrame u i ∧ f.off = u.packet.audioUnitSize * i ∧
    f.passed = true

/-- The frame of unit `i` is serially greater than the last one. -/
def UnitNewer (s : AudioReceiver) (u : TakionAVUnit) (i : Nat) : Prop :=
  seqNum16Gt (audioUnitFrame u i) s.frameIndexPrev = true

instance (s : AudioReceiver) (u : TakionAVUnit) (i : Nat) : Decidable (UnitNewer s u i) :=
  inferInstanceAs (Decidable (_ = true))

/-- The units from `i` on are those of consecutive frames, and the start-up does not ignore one that
comes after one that it leaves. -/
structure Consecutive (s : AudioReceiver) (u : TakionAVUnit) (i n : Nat) : Prop where
  next : ∀ j, i ≤ j → j + 1 < i + n →
    audioUnitFrame u (j + 1) = (audioUnitFrame u j + 1) % 2 ^ 16
  ignored : ∀ j, i ≤ j → j + 1 < i + n → audioUnitIgnored s u (j + 1) = true →
    audioUnitIgnored s u j = true

theorem Consecutive.tail (h : Consecutive s u i (n + 1)) : Consecutive s u (i + 1) n :=
  ⟨fun j hij hj => h.next j (by omega) (by omega), fun j hij hj => h.ignored j (by omega) (by omega)⟩

theorem audioUnitFrame_lt (u : TakionAVUnit) (i : Nat) : audioUnitFrame u i < 2 ^ 16 := by
  unfold audioUnitFrame toSeqNum16
  simp only
  split <;> omega

theorem seqNum16Gt_succ {a : Nat} (ha : a < 2 ^ 16) : seqNum16Gt ((a + 1) % 2 ^ 16) a = true := by
  rw [seqNumGt_iff_lt]
  omega

theorem Delivered.mono {frames frames' : List AudioFrame} (h : Delivered u frames i)
    (hsub : ∀ f ∈ frames, f ∈ frames') : Delivered u frames' i := by
  obtain ⟨f, hf, hprops⟩ := h
  exact ⟨f, hsub f hf, hprops⟩

/-- The receiver behind a unit that is newer. -/
theorem audioReceiverFrame_newer (h : UnitNewer s u i) (off size : Nat) :
    audioReceiverFrame s u (audioUnitFrame u i) off size
      = ({ s with frameIndexPrev := audioUnitFrame u i },
          [⟨u, audioUnitFrame u i, off, size, s.hasFrameCb u⟩]) := by
  unfold audioReceiverFrame
  rw [h]
  rfl

theorem audioReceiverFrame_old (h : ¬ UnitNewer s u i) (off size : Nat) :
    audioReceiverFrame s u (audioUnitFrame u i) off size = (s, []) := by
  unfold audioReceiverFrame
  rw [Bool.eq_false_iff.mpr h]
  rfl

/-- Once a unit has been delivered, all units behind it are. -/
theorem audioReceiverUnits_following (hcb : s.hasFrameCb u = true) (hc : Consecutive s u i n)
    (hfirst : n ≠ 0 → audioUnitIgnored s u i = false ∧ UnitNewer s u i) :
    (n ≠ 0 → (audioReceiverUnits u n i s).1 = { s with
      frameIndexPrev := audioUnitFrame u (i + n - 1) }) ∧
    ∀ j, i ≤ j → j < i + n → Delivered u (audioReceiverUnits u n i s).2 j := by
  induction n generalizing i s with
  | zero => exact ⟨fun h => absurd rfl h, fun j hij hj => absurd hj (by omega)⟩
  | succ n ih =>
    obtain ⟨hkeep, hnewer⟩ := hfirst (Nat.succ_ne_zero n)
    unfold audioReceiverUnits
    rw [hkeep]
    simp only [Bool.false_eq_true, if_false, audioReceiverFrame_newer hnewer]
    have hrest := @ih { s with frameIndexPrev := audioUnitFrame u i } (i + 1) hcb
      ⟨hc.tail.next, hc.tail.ignored⟩ (fun hn => by
        refine ⟨?_, ?_⟩
        · -- start-up ignores no unit behind this one
          cases hnext : audioUnitIgnored s u (i + 1) with
          | false => exact hnext
          | true =>
            rw [hc.ignored i (Nat.le_refl i) (by omega) hnext] at hkeep
            cases hkeep
        · rw [UnitNewer, hc.next i (Nat.le_refl i) (by omega)]
          exact seqNum16Gt_succ (audioUnitFrame_lt u i))
    refine ⟨fun _ => ?_, fun j hij hj => ?_⟩
    · cases n with
      | zero => rfl
      | succ n =>
        rw [hrest.1 (Nat.succ_ne_zero n), show i + 1 + (n + 1) - 1 = i + (n + 1 + 1) - 1 by omega]
    · rcases Nat.eq_or_lt_of_le hij with rfl | hlt
      · exact ⟨_, List.mem_append_left _ (List.mem_singleton_self _), rfl, rfl, hcb⟩
      · exact (hrest.2 j hlt (by omega)).mono fun f hf => List.mem_append_right _ hf

/-- **Consecutive units**: none is newer and nothing happens, or the last one becomes the last frame
and every newer one is delivered, unless the start-up ignores it. -/
theorem audioReceiverUnits_spec (hcb : s.hasFrameCb u = true) (hc : Consecutive s u i n) :
    (audioReceiverUnits u n i s = (s, []) ∧
      ∀ j, i ≤ j → j < i + n → audioUnitIgnored s u j = false → ¬ UnitNewer s u j) ∨
    ((audioReceiverUnits u n i s).1 = { s with frameIndexPrev := audioUnitFrame u (i + n - 1) } ∧
      (∃ j, i ≤ j ∧ j < i + n ∧ audioUnitIgnored s u j = false ∧ UnitNewer s u j) ∧
      ∀ j, i ≤ j → j < i + n → audioUnitIgnored s u j = false → UnitNewer s u j →
        Delivered u (audioReceiverUnits u n i s).2 j) := by
  induction n generalizing i with
  | zero => exact Or.inl ⟨rfl, fun j hij hj => absurd hj (by omega)⟩
  | succ n ih =>
    by_cases hfirst : audioUnitIgnored s u i = false ∧ UnitNewer s u i
    · obtain ⟨hprev, hall⟩ := audioReceiverUnits_following hcb hc fun _ => hfirst
      exact Or.inr ⟨hprev (Nat.succ_ne_zero n), ⟨i, Nat.le_refl i, by omega, hfirst⟩,
        fun j hij hj _ _ => hall j hij hj⟩
    · -- the first unit changes nothing
      have hskip : audioReceiverUnits u (n + 1) i s = audioReceiverUnits u n (i + 1) s := by
        rw [audioReceiverUnits]
        split
        · rfl
        · next hkeep =>
          rw [Bool.not_eq_true] at hkeep
          have hold : ¬ UnitNewer s u i := fun hn => hfirst ⟨hkeep, hn⟩
          simp only [audioReceiverFrame_old hold, List.nil_append]
      rw [hskip]
      rcases ih hc.tail with ⟨hnone, hold⟩ | ⟨hprev, ⟨j, hij, hj, hsome⟩, hall⟩
      · refine Or.inl ⟨hnone, fun j hij hj hkeep hnewer => ?_⟩
        rcases Nat.eq_or_lt_of_le hij with rfl | hlt
        · exact hfirst ⟨hkeep, hnewer⟩
        · exact hold j hlt (by omega) hkeep hnewer
      · refine Or.inr ⟨?_, ⟨j, by omega, by omega, hsome⟩, fun j hij hj hkeep hnewer => ?_⟩
        · rw [hprev, show i + 1 + n - 1 = i + (n + 1) - 1 by omega]
        · rcases Nat.eq_or_lt_of_le hij with rfl | hlt
          · exact absurd ⟨hkeep, hnewer⟩ hfirst
          · exact hall j hlt (by omega) hkeep hnewer

/-- Frames come from the units that are handled. -/
theorem audioReceiverUnits_off {f : AudioFrame} (hf : f ∈ (audioReceiverUnits u n i s).2) :
    ∃ j, i ≤ j ∧ j < i + n ∧ f.off = u.packet.audioUnitSize * j ∧ audioUnitIgnored s u j = false := by
  induction n generalizing i s with
  | zero => cases hf
  | succ n ih =>
    unfold audioReceiverUnits at hf
    split at hf
    · obtain ⟨j, hij, hj, hrest⟩ := ih hf
      exact ⟨j, by omega, by omega, hrest⟩
    · next hkeep =>
      rw [Bool.not_eq_true] at hkeep
      by_cases hnewer : UnitNewer s u i
      · simp only [audioReceiverFrame_newer hnewer, List.mem_append, List.mem_singleton] at hf
        rcases hf with rfl | hf
        · exact ⟨i, Nat.le_refl i, by omega, rfl, hkeep⟩
        · obtain ⟨j, hij, hj, hrest⟩ := ih hf
          exact ⟨j, by omega, by omega, hrest⟩
      · simp only [audioReceiverFrame_old hnewer, List.nil_append] at hf
        obtain ⟨j, hij, hj, hrest⟩ := ih hf
        exact ⟨j, by omega, by omega, hrest⟩

theorem audioReceiverUnits_add (u : TakionAVUnit) (n m i : Nat) (s : AudioReceiver) :
    audioReceiverUnits u (n + m) i s =
      ((audioReceiverUnits u m (i + n) (audioReceiverUnits u n i s).1).1,
        (audioReceiverUnits u n i s).2
          ++ (audioReceiverUnits u m (i + n) (audioReceiverUnits u n i s).1).2) := by
  induction n generalizing i s with
  | zero => rw [Nat.zero_add]; rfl
  | succ n ih =>
    rw [show n + 1 + m = n + m + 1 by omega, audioReceiverUnits, audioReceiverUnits,
      show i + (n + 1) = i + 1 + n by omega]
    split
    · exact ih (i + 1) s
    · simp only [ih (i + 1), List.append_assoc]

/-! ## Repeated frames -/

/-- The receiver when the units of a packet are handled. -/
def AudioReceiver.atUnits (s : AudioReceiver) (u : TakionAVUnit) : AudioReceiver :=
  { s with frameIndexStartup := if u.frameIndex > 2 ^ 15 then false else s.frameIndexStartup }

theorem audioReceiverAvPacket_frames (hwf : audioWellFormed u = true) (s : AudioReceiver) :
    (audioReceiverAvPacket s u).2 = (audioReceiverUnits u
      (u.packet.audioSourceUnitsCount + u.packet.audioFecUnitsCount) 0 (s.atUnits u)).2 := by
  unfold audioReceiverAvPacket
  rw [hwf]
  rfl

theorem audioUnitSize_pos (hwf : audioWellFormed u = true) : 0 < u.packet.audioUnitSize := by
  simp only [audioWellFormed, Bool.and_eq_true, decide_eq_true_eq] at hwf
  rcases Nat.eq_zero_or_pos u.packet.audioUnitSize with h0 | hpos
  · rw [h0, Nat.zero_mul] at hwf
    exact absurd hwf.2 hwf.1.1.2
  · exact hpos

theorem audioSourceUnits_consecutive (s : AudioReceiver) (u : TakionAVUnit) :
    Consecutive s u 0 u.packet.audioSourceUnitsCount where
  next := by
    intro j _ hj
    unfold audioUnitFrame
    simp only
    rw [if_pos (by omega), if_pos (by omega)]
    omega
  ignored := by
    intro j _ hj hignored
    rw [audioUnitIgnored, Bool.and_eq_true, Bool.and_eq_true, decide_eq_true_eq] at hignored
    omega

theorem audioSourceUnit_kept (s : AudioReceiver) (h : i < u.packet.audioSourceUnitsCount) :
    audioUnitIgnored s u i = false := by
  rw [audioUnitIgnored, decide_eq_false (by omega)]
  rfl

theorem audioFecUnits_consecutive (s : AudioReceiver) (u : TakionAVUnit) :
    Consecutive s u u.packet.audioSourceUnitsCount u.packet.audioFecUnitsCount where
  next := by
    intro j hj _
    unfold audioUnitFrame toSeqNum16
    simp only
    rw [if_neg (by omega), if_neg (by omega)]
    omega
  ignored := by
    intro j hj _ hignored
    simp only [audioUnitIgnored, Bool.and_eq_true, decide_eq_true_eq] at hignored ⊢
    exact ⟨⟨hj, hignored.1.2⟩, by omega⟩

/-- A repeated frame is older than the frames that come for the first time. -/
theorem audioFecUnit_old {k : Nat} (hi : u.packet.audioSourceUnitsCount ≤ i)
    (hi' : i < u.packet.audioSourceUnitsCount + u.packet.audioFecUnitsCount)
    (hk : k < u.packet.audioSourceUnitsCount) :
    seqNum16Gt (audioUnitFrame u i) (audioUnitFrame u k) = false := by
  have hsource : u.packet.audioSourceUnitsCount < 2 ^ 4 := Nat.mod_lt _ (by decide)
  have hfec : u.packet.audioFecUnitsCount < 2 ^ 4 := Nat.mod_lt _ (by decide)
  have hnew : audioUnitFrame u k = (((u.frameIndex : Int) + k) % 2 ^ 16).toNat := by
    unfold audioUnitFrame
    simp only
    rw [if_pos hk]
    omega
  have hold : audioUnitFrame u i = (((u.frameIndex : Int) - u.packet.audioFecUnitsCount
      + (i - u.packet.audioSourceUnitsCount : Nat)) % 2 ^ 16).toNat := by
    unfold audioUnitFrame
    simp only
    rw [if_neg (by omega)]
    rfl
  rw [hnew, hold, seqNum16Gt_emod (by omega) (by omega), decide_eq_false_iff_not]
  omega

/-- **A repeated frame that was missed is delivered if and only if nothing in its packet is new** and
the start-up does not ignore it; what is new is always delivered. -/
theorem audioReceiver_redundancy_iff (hwf : audioWellFormed u = true)
    (hcb : s.hasFrameCb u = true) :
    (∀ i, i < u.packet.audioSourceUnitsCount + u.packet.audioFecUnitsCount → UnitNewer s u i →
      Delivered u (audioReceiverAvPacket s u).2 i) ↔
    ∀ i, u.packet.audioSourceUnitsCount ≤ i →
      i < u.packet.audioSourceUnitsCount + u.packet.audioFecUnitsCount → UnitNewer s u i →
      audioUnitIgnored (s.atUnits u) u i = false ∧
        ∀ k, k < u.packet.audioSourceUnitsCount → ¬ UnitNewer s u k := by
  have hsize := audioUnitSize_pos hwf
  rw [audioReceiverAvPacket_frames hwf, audioReceiverUnits_add, Nat.zero_add]
  have hsource := audioReceiverUnits_spec (s := s.atUnits u) hcb (audioSourceUnits_consecutive _ u)
  rw [Nat.zero_add] at hsource
  -- where the frame of a unit can come from
  have hfrom : ∀ {n k : Nat} {s' : AudioReceiver} {f : AudioFrame} {i : Nat},
      f ∈ (audioReceiverUnits u n k s').2 → f.off = u.packet.audioUnitSize * i →
      k ≤ i ∧ i < k + n ∧ audioUnitIgnored s' u i = false := by
    intro n k s' f i hf hoff
    obtain ⟨j, hkj, hj, hoff', hkeep⟩ := audioReceiverUnits_off hf
    have hij : j = i := Nat.eq_of_mul_eq_mul_left hsize (hoff'.symm.trans hoff)
    rw [← hij]
    exact ⟨hkj, hj, hkeep⟩
  rcases hsource with ⟨hnone, hold⟩ | ⟨hprev, ⟨k, -, hk, -, hnewer⟩, hall⟩
  · -- nothing is new: the repeated units meet the receiver as it was
    have hold : ∀ k, k < u.packet.audioSourceUnitsCount → ¬ UnitNewer s u k :=
      fun k hk => hold k (Nat.zero_le k) hk (audioSourceUnit_kept _ hk)
    have hfec := audioReceiverUnits_spec (s := s.atUnits u) hcb (audioFecUnits_consecutive _ u)
    rw [hnone, List.nil_append]
    constructor
    · intro h i hi hi' hnewer
      obtain ⟨f, hf, -, hoff, -⟩ := h i hi' hnewer
      exact ⟨(hfrom hf hoff).2.2, hold⟩
    · intro h i hi hnewer
      have hi' : u.packet.audioSourceUnitsCount ≤ i :=
        Nat.not_lt.mp fun hlt => hold i hlt hnewer
      obtain ⟨hkeep, -⟩ := h i hi' hi hnewer
      rcases hfec with ⟨-, hnot⟩ | ⟨-, -, hall⟩
      · exact absurd hnewer (hnot i hi' hi hkeep)
      · exact hall i hi' hi hkeep hnewer
  · -- something is new: no repeated unit is
    have hlost : (audioReceiverUnits u u.packet.audioFecUnitsCount u.packet.audioSourceUnitsCount
        (audioReceiverUnits u u.packet.audioSourceUnitsCount 0 (s.atUnits u)).1).2 = [] := by
      rw [hprev]
      rcases audioReceiverUnits_spec (s := { s.atUnits u with
          frameIndexPrev := audioUnitFrame u (u.packet.audioSourceUnitsCount - 1) }) hcb
        (audioFecUnits_consecutive _ u) with ⟨hnone, -⟩ | ⟨-, ⟨j, hj, hj', -, hnewer⟩, -⟩
      · rw [hnone]
      · rw [UnitNewer, audioFecUnit_old hj hj' (by omega)] at hnewer
        cases hnewer
    rw [hlost, List.append_nil]
    constructor
    · intro h i hi hi' hnewer'
      obtain ⟨f, hf, -, hoff, -⟩ := h i hi' hnewer'
      exact absurd (hfrom hf hoff).2.1 (by omega)
    · intro h i hi hnewer'
      by_cases hlt : i < u.packet.audioSourceUnitsCount
      · exact hall i (Nat.zero_le i) hlt (audioSourceUnit_kept _ hlt) hnewer'
      · exact absurd hnewer ((h i (Nat.not_lt.mp hlt) hi hnewer').2 k hk)

/-! ## The first packet -/

/-- Every frame that comes for the first time and is new is delivered. -/
theorem audioSourceUnit_delivered (hwf : audioWellFormed u = true) (hcb : s.hasFrameCb u = true)
    (hi : i < u.packet.audioSourceUnitsCount) (hnewer : UnitNewer s u i) :
    Delivered u (audioReceiverAvPacket s u).2 i := by
  rw [audioReceiverAvPacket_frames hwf, audioReceiverUnits_add]
  refine Delivered.mono ?_ fun f hf => List.mem_append_left _ hf
  rcases audioReceiverUnits_spec (s := s.atUnits u) hcb (audioSourceUnits_consecutive _ u) with
    ⟨-, hold⟩ | ⟨-, -, hall⟩
  · exact absurd hnewer (hold i (Nat.zero_le i) (by omega) (audioSourceUnit_kept _ hi))
  · exact hall i (Nat.zero_le i) (by omega) (audioSourceUnit_kept _ hi) hnewer

theorem audioFirstUnits_delivered (hwf : audioWellFormed u = true) (hcb : s.hasFrameCb u = true)
    (hfirst : UnitNewer s u 0) (hi : i < u.packet.audioSourceUnitsCount) :
    Delivered u (audioReceiverAvPacket s u).2 i := by
  rw [audioReceiverAvPacket_frames hwf, audioReceiverUnits_add]
  refine Delivered.mono ?_ fun f hf => List.mem_append_left _ hf
  exact (audioReceiverUnits_following (s := s.atUnits u) hcb (audioSourceUnits_consecutive _ u)
    fun _ => ⟨audioSourceUnit_kept _ (by omega), hfirst⟩).2 i (Nat.zero_le i) (by omega)

/-- A first unit that is not new is not delivered. -/
theorem audioFirstUnit_newer (hwf : audioWellFormed u = true)
    (h0 : 0 < u.packet.audioSourceUnitsCount)
    (h : Delivered u (audioReceiverAvPacket s u).2 0) : UnitNewer s u 0 := by
  by_contra hold
  obtain ⟨n, hn⟩ : ∃ n, u.packet.audioSourceUnitsCount + u.packet.audioFecUnitsCount = n + 1 :=
    ⟨u.packet.audioSourceUnitsCount + u.packet.audioFecUnitsCount - 1, by omega⟩
  obtain ⟨f, hf, -, hoff, -⟩ := h
  have hold : ¬ UnitNewer (s.atUnits u) u 0 := hold
  rw [audioReceiverAvPacket_frames hwf, hn, audioReceiverUnits, audioSourceUnit_kept _ h0] at hf
  simp only [Bool.false_eq_true, if_false, audioReceiverFrame_old hold, List.nil_append] at hf
  obtain ⟨j, hj, -, hoff', -⟩ := audioReceiverUnits_off hf
  have hpos : 0 < u.packet.audioUnitSize * j := Nat.mul_pos (audioUnitSize_pos hwf) hj
  omega

theorem audioUnitFrame_zero (h0 : 0 < u.packet.audioSourceUnitsCount) :
    audioUnitFrame u 0 = u.frameIndex := by
  have hlt : u.frameIndex < 2 ^ 16 := Nat.mod_lt _ (by decide)
  unfold audioUnitFrame
  simp only
  rw [if_pos h0]
  omega

/-- **A stream is heard from its first packet on if and only if that carries no new frame or begins
with one between 1 and 2 ^ 15 - 1**; after the first frame, everything new is. -/
theorem audioReceiver_startup_iff {audioFrameCb hapticsFrameCb : Bool}
    {packetStats : Option SeqPacketStats} (hwf : audioWellFormed u = true)
    (hcb : (audioReceiverInit audioFrameCb hapticsFrameCb packetStats).hasFrameCb u = true) :
    ((∀ i, i < u.packet.audioSourceUnitsCount → Delivered u
        (audioReceiverAvPacket (audioReceiverInit audioFrameCb hapticsFrameCb packetStats) u).2 i) ↔
      u.packet.audioSourceUnitsCount = 0 ∨ 0 < u.frameIndex ∧ u.frameIndex < 2 ^ 15) ∧
    ∀ (r : AudioReceiverRun) (v : TakionAVUnit), audioReceiverLts.Reachable r →
      audioWellFormed v = true → r.receiver.hasFrameCb v = true →
      (∀ f ∈ r.log, f.packet.packet.isHaptics = v.packet.isHaptics) →
      ∀ last ∈ (r.log.filter AudioFrame.passed).getLast?, ∀ i, i < v.packet.audioSourceUnitsCount →
        seqNum16Gt (audioUnitFrame v i) last.frameIndex = true →
        Delivered v (audioReceiverAvPacket r.receiver v).2 i := by
  constructor
  · have hfirst : 0 < u.packet.audioSourceUnitsCount →
        (UnitNewer (audioReceiverInit audioFrameCb hapticsFrameCb packetStats) u 0 ↔
          0 < u.frameIndex ∧ u.frameIndex < 2 ^ 15) := by
      intro h0
      rw [UnitNewer, audioUnitFrame_zero h0]
      show seqNum16Gt u.frameIndex 0 = true ↔ _
      rw [seqNumGt_iff_lt]
      omega
    constructor
    · intro h
      rcases Nat.eq_zero_or_pos u.packet.audioSourceUnitsCount with h0 | h0
      · exact Or.inl h0
      · exact Or.inr ((hfirst h0).mp (audioFirstUnit_newer hwf h0 (h 0 h0)))
    · rintro (h0 | hfits) i hi
      · omega
      · exact audioFirstUnits_delivered hwf hcb ((hfirst (by omega)).mpr hfits) hi
  · intro r v hr hvwf hvcb hkind last hlast i hi hnewer
    have h := audioReceiver_invariant.reachable hr
    have hpassed : ∀ f ∈ r.log, f.passed = true := by
      intro f hf
      rw [h.passed f hf, ← hvcb]
      unfold AudioReceiver.hasFrameCb
      rw [hkind f hf]
    rw [List.filter_eq_self.mpr hpassed] at hlast
    rw [h.last last hlast] at hnewer
    exact audioSourceUnit_delivered hvwf hvcb hi hnewer

/-! ### Runs -/

/-- A packet with some new units, and some repeated ones. -/
def audioPacket (frameIndex source fec : Nat) : TakionAVUnit where
  packet := ⟨0, frameIndex, false, false, false, 0, source + fec, 2 ^ 8 + 2 ^ 4 * fec + source, 5, 0, 0,
    0, 0, 0, source + fec⟩
  bytes := List.replicate (source + fec) 0
  length_bytes := List.length_replicate

def newAudioReceiver : AudioReceiverRun := ⟨audioReceiverInit true false none, []⟩

/-- Frames far apart, and one that comes again. -/
def audioPackets : List TakionAVUnit :=
  [audioPacket 1 2 0, audioPacket 20000 1 0, audioPacket 40000 1 1, audioPacket 39999 1 0,
    audioPacket 40001 1 1]

theorem audioPackets_run :
    (Lts.runFun audioReceiverStep newAudioReceiver audioPackets).map
        (fun r => r.log.map fun f => (f.frameIndex, f.off, f.passed))
      = some [(1, 0, true), (2, 1, true), (20000, 0, true), (40000, 0, true), (40001, 0, true)] := by
  decide +kernel

/-- A receiver that got frame 40000. -/
def laterAudioReceiver : AudioReceiver := { audioReceiverInit true false none with
  frameIndexPrev := 40000
  frameIndexStartup := false }

/-- The next frame is delivered, and the repeated one is not needed. -/
theorem audioReceiver_redundancy_next :
    UnitNewer laterAudioReceiver (audioPacket 40001 1 1) 0 ∧ Delivered (audioPacket 40001 1 1)
      (audioReceiverAvPacket laterAudioReceiver (audioPacket 40001 1 1)).2 0 := by
  have hiff := @audioReceiver_redundancy_iff (audioPacket 40001 1 1) laterAudioReceiver (by decide) rfl
  have hnewer : UnitNewer laterAudioReceiver (audioPacket 40001 1 1) 0 := by decide
  refine ⟨hnewer, hiff.mpr (fun i hi hi' hnewer => ?_) 0 (by decide) hnewer⟩
  have hi1 : 1 ≤ i := hi
  have hi2 : i < 1 + 1 := hi'
  obtain rfl : i = 1 := by omega
  exact absurd hnewer (by decide)

/-- **A frame that was lost is not recovered from the next packet**: frame 40001 comes with frame
40002, but after it. -/
theorem not_audioReceiver_redundancy : ∃ r : AudioReceiverRun, audioReceiverLts.Reachable r ∧
    r.receiver.frameIndexStartup = false ∧ audioWellFormed (audioPacket 40002 1 1) = true ∧
    r.receiver.hasFrameCb (audioPacket 40002 1 1) = true ∧
    audioUnitFrame (audioPacket 40002 1 1) 1 = 40001 ∧
    UnitNewer r.receiver (audioPacket 40002 1 1) 1 ∧
    ¬ Delivered (audioPacket 40002 1 1)
      (audioReceiverAvPacket r.receiver (audioPacket 40002 1 1)).2 1 := by
  have hrun : (Lts.runFun audioReceiverStep newAudioReceiver
      [audioPacket 1 2 0, audioPacket 20000 1 0, audioPacket 40000 1 1]).map
      AudioReceiverRun.receiver = some laterAudioReceiver := by
    decide +kernel
  obtain ⟨r, hrun, hreceiver⟩ := Option.map_eq_some_iff.mp hrun
  refine ⟨r, Lts.Reachable.runFun (.init ⟨true, false, none, rfl⟩) hrun, ?_⟩
  rw [hreceiver]
  refine ⟨rfl, by decide, by decide, by decide, by decide, ?_⟩
  rintro ⟨f, hf, hindex, -⟩
  have hframes : ((audioReceiverAvPacket laterAudioReceiver (audioPacket 40002 1 1)).2).map
      AudioFrame.frameIndex = [40002] := by
    decide +kernel
  have hmem := List.mem_map_of_mem hf (f := AudioFrame.frameIndex)
  rw [hframes, hindex] at hmem
  exact absurd hmem (by decide)

theorem audioReceiver_startup_fifth :
    Delivered (audioPacket 5 2 0) (audioReceiverAvPacket (audioReceiverInit true false none)
      (audioPacket 5 2 0)).2 0 ∧
    Delivered (audioPacket 5 2 0) (audioReceiverAvPacket (audioReceiverInit true false none)
      (audioPacket 5 2 0)).2 1 := by
  have hstartup := @audioReceiver_startup_iff (audioPacket 5 2 0) true false none (by decide) rfl
  have hall := hstartup.1.mpr (Or.inr (by decide))
  exact ⟨hall 0 (by decide), hall 1 (by decide)⟩

/-- **Nothing is heard of a stream that begins with frame 0**, and of one that begins with frame
40000. -/
theorem not_audioReceiver_startup :
    audioWellFormed (audioPacket 0 1 0) = true ∧ audioWellFormed (audioPacket 40000 1 0) = true ∧
    (audioReceiverAvPacket (audioReceiverInit true true none) (audioPacket 0 1 0)).2 = [] ∧
    (audioReceiverAvPacket (audioReceiverInit true true none) (audioPacket 40000 1 0)).2 = [] ∧
    ¬ (∀ i, i < (audioPacket 0 1 0).packet.audioSourceUnitsCount → Delivered (audioPacket 0 1 0)
      (audioReceiverAvPacket (audioReceiverInit true true none) (audioPacket 0 1 0)).2 i) ∧
    ¬ (∀ i, i < (audioPacket 40000 1 0).packet.audioSourceUnitsCount →
      Delivered (audioPacket 40000 1 0)
        (audioReceiverAvPacket (audioReceiverInit true true none) (audioPacket 40000 1 0)).2 i) := by
  have hzero : (audioReceiverAvPacket (audioReceiverInit true true none) (audioPacket 0 1 0)).2 = [] := by
    decide +kernel
  have hlate : (audioReceiverAvPacket (audioReceiverInit true true none)
      (audioPacket 40000 1 0)).2 = [] := by
    decide +kernel
  refine ⟨by decide, by decide, hzero, hlate, fun h => ?_, fun h => ?_⟩
  · obtain ⟨f, hf, -⟩ := h 0 (by decide)
    rw [hzero] at hf
    cases hf
  · obtain ⟨f, hf, -⟩ := h 0 (by decide)
    rw [hlate] at hf
    cases hf

end Chiaki
