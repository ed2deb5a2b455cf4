import Mathlib.Data.Int.ModEq
import Mathlib.Tactic.Linarith

/-!
# Serial number arithmetic (RFC 1982)

Numbers on a circle of `2 * h` values, compared by the shorter way around.

The theorems that use serial numbers reason about positions on the unwrapped line of
integers. `gt_emod` and `gt_iff` are the bridge: wrapped numbers compare as the positions they
stand for, and positions less than `h` apart as integers do.
-/

namespace Infra.Serial

variable {h x y : Int}

/-- How far `a` lies ahead of `b` on the circle of `2 * h` numbers. -/
def ahead (h a b : Int) : Int := (a - b) % (2 * h)

/-- `a` is serially greater than `b`. -/
def Gt (h a b : Int) : Prop := 0 < ahead h a b ∧ ahead h a b < h

instance (h a b : Int) : Decidable (Gt h a b) := inferInstanceAs (Decidable (_ ∧ _))

/-- The distance does not see which representatives are compared. -/
theorem ahead_emod (h x y : Int) : ahead h (x % (2 * h)) (y % (2 * h)) = ahead h x y := by
  unfold ahead
  rw [← Int.sub_emod]

/-- Nor does it see how both are moved. -/
theorem ahead_add_right (h x y c : Int) : ahead h (x + c) (y + c) = ahead h x y := by
  unfold ahead
  rw [add_sub_add_right_eq_sub]

theorem gt_add_right (h x y c : Int) : Gt h (x + c) (y + c) ↔ Gt h x y := by
  unfold Gt
  rw [ahead_add_right]

theorem ahead_nonneg (h0 : 0 < h) (x y : Int) : 0 ≤ ahead h x y := Int.emod_nonneg _ (by omega)

theorem ahead_lt (h0 : 0 < h) (x y : Int) : ahead h x y < 2 * h := Int.emod_lt_of_pos _ (by omega)

/-- The two ways around are the whole circle. -/
theorem ahead_swap (h0 : 0 < h) (hne : ahead h x y ≠ 0) : ahead h y x = 2 * h - ahead h x y := by
  have hpos := ahead_nonneg h0 x y
  have hlt := ahead_lt h0 x y
  have hneg : y - x = -(x - y) := by omega
  unfold ahead at *
  rw [hneg, Int.neg_emod, if_neg (fun hdvd => hne (Int.emod_eq_zero_of_dvd hdvd)), Int.natAbs_of_nonneg (by omega)]

theorem not_gt_of_gt (h0 : 0 < h) (hgt : Gt h x y) : ¬ Gt h y x := by
  intro hgt'
  have hswap := ahead_swap h0 (x := x) (y := y) hgt.1.ne'
  unfold Gt at *
  omega

/-- One of two different numbers is the greater one, if they are not opposite. -/
theorem gt_or_gt (h0 : 0 < h) (hne : ahead h x y ≠ 0) (hopp : ahead h x y ≠ h) : Gt h x y ∨ Gt h y x := by
  have hpos := ahead_nonneg h0 x y
  have hlt := ahead_lt h0 x y
  have hswap := ahead_swap h0 hne
  unfold Gt
  omega

theorem gt_iff (h1 : x - y < h) (h2 : y - x < h) : Gt h x y ↔ y < x := by
  unfold Gt ahead
  constructor
  · rintro ⟨hpos, hlt⟩
    by_contra hle
    have hne : x - y ≠ 0 := by
      intro h0
      rw [h0] at hpos
      simp at hpos
    have hwrap : (x - y) % (2 * h) = x - y + 2 * h := by
      rw [← Int.add_emod_right]
      exact Int.emod_eq_of_lt (by omega) (by omega)
    omega
  · intro hlt
    rw [Int.emod_eq_of_lt (by omega) (by omega)]
    omega

/-- Opposite numbers are not comparable. -/
theorem not_gt_of_opposite (h0 : 0 < h) (hxy : x = y + h ∨ y = x + h) : ¬ Gt h x y := by
  unfold Gt ahead
  have hmod : (x - y) % (2 * h) = h := by
    rcases hxy with rfl | rfl
    · rw [show y + h - y = h by omega]
      exact Int.emod_eq_of_lt (by omega) (by omega)
    · rw [← Int.add_emod_right, show x - (x + h) + 2 * h = h by omega]
      exact Int.emod_eq_of_lt (by omega) (by omega)
  omega

theorem gt_emod (h x y : Int) : Gt h (x % (2 * h)) (y % (2 * h)) ↔ Gt h x y := by
  unfold Gt
  rw [ahead_emod]

/-- On an arc of less than half of the circle, numbers compare as their distances from its start do. -/
theorem gt_iff_of_arc {base : Int} (h0 : 0 < h) (hx : ahead h x base < h) (hy : ahead h y base < h) :
    Gt h x y ↔ ahead h y base < ahead h x base := by
  have hgt : Gt h x y ↔ Gt h (ahead h x base) (ahead h y base) := by
    unfold ahead
    rw [gt_emod, sub_eq_add_neg, sub_eq_add_neg, gt_add_right]
  have hxpos := ahead_nonneg h0 x base
  have hypos := ahead_nonneg h0 y base
  rw [hgt, gt_iff (by omega) (by omega)]

end Infra.Serial
