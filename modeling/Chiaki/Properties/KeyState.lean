import Chiaki.KeyState
import Mathlib.Data.List.Chain

/-!
# The high half of a key position

`keyStateRequestPos_recovers` says that the guess is right as long as the positions move by less than
`2 ^ 31` at a time.
-/

namespace Chiaki

/-! ## Positions -/

theorem keyStatePos_mod (state : KeyState) {low : Nat} (h : low < 2 ^ 32) :
    keyStatePos state low % 2 ^ 32 = low := by
  unfold keyStatePos
  simp only
  omega

/-- The low word of the last position stands for the last position. -/
theorem keyStatePos_prev (state : KeyState) : keyStatePos state (state.prev % 2 ^ 32) = state.prev := by
  unfold keyStatePos
  simp only [Nat.lt_irrefl, gt_iff_lt, decide_false, Bool.and_false, Bool.false_and, Bool.false_eq_true,
    if_false]
  omega

/-- A position that has been committed is found again from its low word. -/
theorem keyStatePos_idem (state : KeyState) {low : Nat} (h : low < 2 ^ 32) :
    keyStatePos ⟨keyStatePos state low⟩ low = keyStatePos state low := by
  have hprev := keyStatePos_prev ⟨keyStatePos state low⟩
  simp only [keyStatePos_mod state h] at hprev
  exact hprev

/-- A packet moves the state unless its low word is the one that is there. -/
theorem keyStatePos_eq_prev_iff (state : KeyState) {low : Nat} (h : low < 2 ^ 32) :
    keyStatePos state low = state.prev ↔ low = state.prev % 2 ^ 32 := by
  constructor
  · intro hpos
    rw [← hpos, keyStatePos_mod state h]
  · intro hlow
    rw [hlow, keyStatePos_prev]

/-! ## Recovery -/

/-- The positions are less than half of the low word's range apart. -/
def KeyPosNear (prev p : Nat) : Prop := p < prev + 2 ^ 31 ∧ prev < p + 2 ^ 31

instance (prev p : Nat) : Decidable (KeyPosNear prev p) := inferInstanceAs (Decidable (_ ∧ _))

theorem keyStatePos_of_near {prev p : Nat} (hp : p < 2 ^ 64) (hnear : KeyPosNear prev p) :
    keyStatePos ⟨prev⟩ (p % 2 ^ 32) = p := by
  obtain ⟨hup, hdown⟩ := hnear
  unfold keyStatePos
  simp only [Bool.and_eq_true, decide_eq_true_eq, seqNumLt_eq_gt, seqNumGt_iff_lt]
  -- the high words are the same, or next to each other on one of the two sides
  rcases Nat.lt_trichotomy (prev / 2 ^ 32) (p / 2 ^ 32) with hnext | hsame | hbefore
  · rw [if_pos (by omega)]
    omega
  · rw [if_neg (by omega), if_neg (by omega)]
    omega
  · rw [if_neg (by omega), if_pos (by omega)]
    omega

theorem keyStateRequests_of_near {prev : Nat} {ps : List Nat} (hps : ∀ p ∈ ps, p < 2 ^ 64)
    (hnear : (prev :: ps).IsChain KeyPosNear) :
    keyStateRequests ⟨prev⟩ (ps.map fun p => p % 2 ^ 32) = ps := by
  induction ps generalizing prev with
  | nil => rfl
  | cons p ps ih =>
    obtain ⟨hp, hchain⟩ := List.isChain_cons_cons.mp hnear
    have hpos := keyStatePos_of_near (hps p List.mem_cons_self) hp
    have hrest := ih (fun x hx => hps x (List.mem_cons_of_mem _ hx)) hchain
    simp only [List.map_cons, keyStateRequests, keyStateRequestPos, hpos, if_true, hrest]

/-- **A position near the last one is found from its low word**, and so is every sequence of committed
positions that are each near the one before. -/
theorem keyStateRequestPos_recovers {prev p : Nat} (hp : p < 2 ^ 64) (hnear : KeyPosNear prev p) :
    keyStateRequestPos ⟨prev⟩ (p % 2 ^ 32) true = (⟨p⟩, p) ∧
      keyStateRequestPos ⟨prev⟩ (p % 2 ^ 32) false = (⟨prev⟩, p) ∧
      ∀ ps : List Nat, (∀ p' ∈ ps, p' < 2 ^ 64) → (p :: ps).IsChain KeyPosNear →
        keyStateRequests ⟨prev⟩ ((p :: ps).map fun p' => p' % 2 ^ 32) = p :: ps := by
  have hpos := keyStatePos_of_near hp hnear
  refine ⟨by simp only [keyStateRequestPos, hpos, if_true],
    by simp only [keyStateRequestPos, hpos, Bool.false_eq_true, if_false], ?_⟩
  intro ps hps hchain
  refine keyStateRequests_of_near ?_ (List.isChain_cons_cons.mpr ⟨hnear, hchain⟩)
  intro p' hp'
  rcases List.mem_cons.mp hp' with rfl | hmem
  · exact hp
  · exact hps p' hmem

/-- The low word wraps around, goes back, and wraps around again. -/
theorem keyStateRequestPos_recovers_wrap :
    keyStateRequests ⟨0xffffff00⟩ [0x10, 0xfffffff0, 0x70000000, 0xe0000000, 0x40000000]
      = [0x100000010, 0xfffffff0, 0x170000000, 0x1e0000000, 0x240000000] := by
  have hnear : KeyPosNear 0xffffff00 0x100000010 := by decide
  have hrest := (keyStateRequestPos_recovers (by decide) hnear).2.2
  exact hrest [0xfffffff0, 0x170000000, 0x1e0000000, 0x240000000] (by decide) (by decide)

end Chiaki
