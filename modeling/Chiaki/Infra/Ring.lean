import Mathlib.Data.Nat.ModEq
import Mathlib.Tactic.Ring

/-!
# Ring buffers that hold a part of a stream

`Holds buf size start count stream pos`: from the cell `start` on, around the end of the
buffer, `count` cells hold the stream from position `pos` on.

* `Holds.of_free` — writing into the free cells keeps it
* `Holds.append` — the free cells behind the contents become part of them
* `Holds.advance` — the oldest cells are given up
* `Holds.cons` — the cell in front of the contents becomes the first one
* `Holds.snoc` — the cell behind the contents becomes the last one
-/

namespace Infra.Ring

variable {α : Type*} {buf buf' : Nat → α} {size start count len off i k pos : Nat}
  {stream : Nat → α}

def Holds (buf : Nat → α) (size start count : Nat) (stream : Nat → α) (pos : Nat) : Prop :=
  ∀ off, off < count → buf ((start + off) % size) = stream (pos + off)

theorem holds_zero (buf : Nat → α) (size start : Nat) (stream : Nat → α) (pos : Nat) :
    Holds buf size start 0 stream pos := fun off h => absurd h (Nat.not_lt_zero off)

/-- Different places of the ring are different cells. -/
theorem idx_inj {j : Nat} (hi : i < size) (hj : j < size)
    (h : (start + i) % size = (start + j) % size) : i = j :=
  Nat.ModEq.eq_of_lt_of_lt (Nat.ModEq.add_left_cancel' start h) hi hj

/-- The free cells behind the contents, if they do not go around the end. -/
theorem idx_free (hlen : (start + count) % size + len ≤ size) (hi : i < len) :
    (start + (count + i)) % size = (start + count) % size + i := by
  rw [← Nat.add_assoc, Nat.add_mod, Nat.add_mod_mod]
  exact Nat.mod_eq_of_lt (by omega)

theorem idx_ne_free (hoff : off < count) (hfit : count + len ≤ size)
    (hlen : (start + count) % size + len ≤ size) (hi : i < len) :
    (start + off) % size ≠ (start + count) % size + i := by
  intro he
  rw [← idx_free hlen hi] at he
  have := idx_inj (by omega) (by omega) he
  omega

theorem Holds.of_free (h : Holds buf size start count stream pos) (hfit : count + len ≤ size)
    (hlen : (start + count) % size + len ≤ size)
    (hsame : ∀ j, (∀ i, i < len → j ≠ (start + count) % size + i) → buf' j = buf j) :
    Holds buf' size start count stream pos := by
  intro off hoff
  rw [hsame _ fun i hi => idx_ne_free hoff hfit hlen hi, h off hoff]

theorem Holds.append (h : Holds buf size start count stream pos)
    (hlen : (start + count) % size + len ≤ size)
    (hdata : ∀ i, i < len → buf ((start + count) % size + i) = stream (pos + count + i)) :
    Holds buf size start (count + len) stream pos := by
  intro off hoff
  rcases Nat.lt_or_ge off count with hlt | hge
  · exact h off hlt
  · obtain ⟨i, rfl⟩ := Nat.exists_eq_add_of_le hge
    rw [idx_free hlen (by omega), hdata i (by omega), Nat.add_assoc]

theorem Holds.advance (h : Holds buf size start count stream pos) (hk : k ≤ count) :
    Holds buf size ((start + k) % size) (count - k) stream (pos + k) := by
  intro off hoff
  rw [Nat.mod_add_mod, Nat.add_assoc, Nat.add_assoc]
  exact h (k + off) (by omega)

theorem Holds.take (h : Holds buf size start count stream pos) (hk : k ≤ count) :
    Holds buf size start k stream pos := fun off hoff => h off (by omega)

/-- The places behind the cell in front of the contents are those of the contents. -/
theorem idx_front (hsize : 0 < size) :
    ((start + size - 1) % size + (off + 1)) % size = (start + off) % size := by
  rw [Nat.mod_add_mod, show start + size - 1 + (off + 1) = start + off + size by omega,
    Nat.add_mod_right]

theorem Holds.cons {stream' : Nat → α} (h : Holds buf size start count stream pos)
    (hfit : count + 1 ≤ size) (hself : buf' ((start + size - 1) % size) = stream' 0)
    (hsame : ∀ j, j ≠ (start + size - 1) % size → buf' j = buf j)
    (hstream : ∀ off, off < count → stream' (off + 1) = stream (pos + off)) :
    Holds buf' size ((start + size - 1) % size) (count + 1) stream' 0 := by
  intro off hoff
  rw [Nat.zero_add]
  cases off with
  | zero => rw [Nat.add_zero, Nat.mod_mod, hself]
  | succ off =>
    rw [idx_front (by omega), hstream off (by omega), ← h off (by omega)]
    refine hsame _ fun he => ?_
    have hplace : (start + off) % size = (start + (size - 1)) % size := by
      rw [he, Nat.add_sub_assoc (by omega)]
    have := idx_inj (by omega) (by omega) hplace
    omega

theorem Holds.snoc {stream' : Nat → α} (h : Holds buf size start count stream pos)
    (hfit : count + 1 ≤ size) (hself : buf' ((start + count) % size) = stream' (pos + count))
    (hsame : ∀ j, j ≠ (start + count) % size → buf' j = buf j)
    (hstream : ∀ off, off < count → stream' (pos + off) = stream (pos + off)) :
    Holds buf' size start (count + 1) stream' pos := by
  intro off hoff
  rcases Nat.lt_or_eq_of_le (Nat.le_of_lt_succ hoff) with hlt | rfl
  · rw [hstream off hlt, ← h off hlt]
    refine hsame _ fun he => ?_
    have := idx_inj (by omega) (by omega) he
    omega
  · exact hself

end Infra.Ring
