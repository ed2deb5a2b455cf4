import Mathlib.Algebra.Group.Nat.Defs
import Mathlib.Data.List.Basic
import Mathlib.Data.List.Induction

/-!
# Bytes as numbers of six bits

Three bytes are four numbers. Of one or two bytes that are left, the last number is filled up with
zeros.

* `ofSextets_toSextets` — the bytes come back
* `ofSextets_append` — whole groups of four can be read apart from the rest
-/

namespace Infra.Sextet

/-- Numbers of six bits, the most significant one first. -/
def value (sextets : List Nat) : Nat := sextets.foldl (fun n sextet => n * 2 ^ 6 + sextet) 0

/-- The four numbers of 24 bits. -/
def group (n : Nat) : List Nat := [n / 2 ^ 18 % 2 ^ 6, n / 2 ^ 12 % 2 ^ 6, n / 2 ^ 6 % 2 ^ 6, n % 2 ^ 6]

def toSextets : List UInt8 → List Nat
  | [] => []
  | [a] => (group (a.toNat * 2 ^ 16)).take 2
  | [a, b] => (group (a.toNat * 2 ^ 16 + b.toNat * 2 ^ 8)).take 3
  | a :: b :: c :: rest => group (a.toNat * 2 ^ 16 + b.toNat * 2 ^ 8 + c.toNat) ++ toSextets rest

/-- One number alone has no whole byte. -/
def ofSextets : List Nat → List UInt8
  | p :: q :: r :: s :: rest =>
    [UInt8.ofNat (value [p, q, r, s] / 2 ^ 16), UInt8.ofNat (value [p, q, r, s] / 2 ^ 8),
      UInt8.ofNat (value [p, q, r, s])] ++ ofSextets rest
  | [p, q, r] => [UInt8.ofNat (value [p, q, r] / 2 ^ 10), UInt8.ofNat (value [p, q, r] / 2 ^ 2)]
  | [p, q] => [UInt8.ofNat (value [p, q] / 2 ^ 4)]
  | _ => []

/-! ## Values -/

@[simp] theorem value_nil : value [] = 0 := rfl

theorem value_append_singleton (l : List Nat) (sextet : Nat) :
    value (l ++ [sextet]) = value l * 2 ^ 6 + sextet := by
  rw [value, List.foldl_append]
  rfl

theorem value_lt {l : List Nat} (h : ∀ s ∈ l, s < 2 ^ 6) : value l < 2 ^ (6 * l.length) := by
  induction l using List.reverseRecOn with
  | nil => exact Nat.one_pos
  | append_singleton l s ih =>
    have hl := ih fun t ht => h t (List.mem_append_left _ ht)
    have hs := h s (List.mem_append_right _ (List.mem_singleton_self s))
    rw [value_append_singleton, List.length_append, List.length_singleton, Nat.mul_succ, Nat.pow_add]
    omega

theorem group_lt (n : Nat) : ∀ s ∈ group n, s < 2 ^ 6 := by
  intro s hs
  simp only [group, List.mem_cons, List.not_mem_nil, or_false] at hs
  rcases hs with rfl | rfl | rfl | rfl <;> exact Nat.mod_lt _ (by decide)

theorem toSextets_lt : ∀ (bytes : List UInt8), ∀ s ∈ toSextets bytes, s < 2 ^ 6
  | [] => fun _ hs => absurd hs List.not_mem_nil
  | [_] => fun s hs => group_lt _ s (List.mem_of_mem_take hs)
  | [_, _] => fun s hs => group_lt _ s (List.mem_of_mem_take hs)
  | _ :: _ :: _ :: rest => fun s hs => by
    rcases List.mem_append.mp hs with hs | hs
    · exact group_lt _ s hs
    · exact toSextets_lt rest s hs

/-! ## Lengths -/

theorem length_toSextets : ∀ bytes : List UInt8, (toSextets bytes).length = (4 * bytes.length + 2) / 3
  | [] => rfl
  | [_] => by simp [toSextets, group]
  | [_, _] => by simp [toSextets, group]
  | a :: b :: c :: rest => by
    rw [toSextets, List.length_append, length_toSextets rest]
    simp only [group, List.length_cons, List.length_nil]
    omega

theorem length_ofSextets : ∀ l : List Nat, (ofSextets l).length = 3 * (l.length / 4) + (l.length % 4 - 1)
  | [] => rfl
  | [_] => by simp [ofSextets]
  | [_, _] => by simp [ofSextets]
  | [_, _, _] => by simp [ofSextets]
  | p :: q :: r :: s :: rest => by
    rw [ofSextets, List.length_append, length_ofSextets rest]
    simp only [List.length_cons, List.length_nil]
    omega

/-! ## Back and forth -/

/-- Four numbers of 24 bits are put together again. -/
theorem value_group {n : Nat} (h : n < 2 ^ 24) : value (group n) = n := by
  simp only [value, group, List.foldl_cons, List.foldl_nil]
  omega

theorem ofNat_toNat_div (b : UInt8) {n k : Nat} (h : n / k % 2 ^ 8 = b.toNat) : UInt8.ofNat (n / k) = b :=
  UInt8.toNat.inj (UInt8.toNat_ofNat'.trans h)

theorem take_group_two (n : Nat) : (group n).take 2 = [n / 2 ^ 18 % 2 ^ 6, n / 2 ^ 12 % 2 ^ 6] := rfl

theorem take_group_three (n : Nat) :
    (group n).take 3 = [n / 2 ^ 18 % 2 ^ 6, n / 2 ^ 12 % 2 ^ 6, n / 2 ^ 6 % 2 ^ 6] := rfl

theorem ofSextets_two (p q : Nat) : ofSextets [p, q] = [UInt8.ofNat ((p * 2 ^ 6 + q) / 2 ^ 4)] := by
  simp [ofSextets, value]

theorem ofSextets_three (p q r : Nat) : ofSextets [p, q, r]
    = [UInt8.ofNat (((p * 2 ^ 6 + q) * 2 ^ 6 + r) / 2 ^ 10),
      UInt8.ofNat (((p * 2 ^ 6 + q) * 2 ^ 6 + r) / 2 ^ 2)] := by
  simp [ofSextets, value]

theorem ofSextets_group {n : Nat} (h : n < 2 ^ 24) (rest : List Nat) : ofSextets (group n ++ rest)
    = [UInt8.ofNat (n / 2 ^ 16), UInt8.ofNat (n / 2 ^ 8), UInt8.ofNat n] ++ ofSextets rest := by
  have hvalue := value_group h
  simp only [group] at hvalue
  simp only [group, List.cons_append, List.nil_append, ofSextets, hvalue]

/-- **The bytes come back.** -/
theorem ofSextets_toSextets : ∀ bytes : List UInt8, ofSextets (toSextets bytes) = bytes
  | [] => rfl
  | [a] => by
    have ha := a.toNat_lt
    rw [toSextets, take_group_two, ofSextets_two, ofNat_toNat_div a (by omega)]
  | [a, b] => by
    have ha := a.toNat_lt
    have hb := b.toNat_lt
    rw [toSextets, take_group_three, ofSextets_three, ofNat_toNat_div a (by omega), ofNat_toNat_div b (by omega)]
  | a :: b :: c :: rest => by
    have ha := a.toNat_lt
    have hb := b.toNat_lt
    have hc := c.toNat_lt
    rw [toSextets, ofSextets_group (by omega), ofNat_toNat_div a (by omega), ofNat_toNat_div b (by omega),
      ofSextets_toSextets rest]
    exact congrArg (fun x => a :: b :: x :: rest) (UInt8.toNat.inj (UInt8.toNat_ofNat'.trans (by omega)))

/-- Whole groups in front do not change how the rest is read. -/
theorem ofSextets_append : ∀ (l rest : List Nat), l.length % 4 = 0 →
    ofSextets (l ++ rest) = ofSextets l ++ ofSextets rest
  | [], _, _ => rfl
  | [_], _, h => absurd h (by simp)
  | [_, _], _, h => absurd h (by simp)
  | [_, _, _], _, h => absurd h (by simp)
  | p :: q :: r :: s :: l, rest, h => by
    have hl : l.length % 4 = 0 := by
      simp only [List.length_cons] at h
      omega
    simp only [List.cons_append, ofSextets, List.nil_append, ofSextets_append l rest hl]

end Infra.Sextet
