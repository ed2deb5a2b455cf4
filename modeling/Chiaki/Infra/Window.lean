import Mathlib.Data.List.Basic

/-!
# Reordering windows

What a reordering buffer is for, without its memory layout: the list of the places from
the next element that is due. A place is `none` while its element has not arrived.

* `put` — an element arrives at a distance from the next one due
* `take` — the next element leaves, if it is there
* `slideBy` — how far the window moves when it has to make room for an element beyond it
* `Stored` — which element stands at which distance
* `elems` — all elements that have arrived and not left
* `labelled` — the same with the names of their places
-/

namespace Infra.Window

variable {α : Type*} {w : List (Option α)} {size d i : Nat} {x y : α}

/-- `y` stands at distance `i`. -/
def Stored (w : List (Option α)) (i : Nat) (y : α) : Prop := w[i]? = some (some y)

/-- An element arrives for the place at distance `d`. The flag says whether it was kept:
it is not if the place is taken or lies beyond the capacity. -/
def put (size : Nat) (w : List (Option α)) (d : Nat) (x : α) : List (Option α) × Bool :=
  match w[d]? with
  | some none => (w.set d (some x), true)
  | some (some _) => (w, false)
  | none =>
    if d < size then (w ++ List.replicate (d - w.length) none ++ [some x], true) else (w, false)

/-- The next element leaves. -/
def take : List (Option α) → Option (α × List (Option α))
  | some x :: rest => some (x, rest)
  | _ => none

/-- How far the window moves for the place at distance `d`: until that place is the last one, or, if
nothing would be left, until it is the first one. -/
def slideBy (size : Nat) (w : List (Option α)) (d : Nat) : Nat :=
  if w.length ≤ d + 1 - size then d else d + 1 - size

/-- The elements in the window, by distance. -/
def elems (w : List (Option α)) : List α := w.filterMap id

/-- The elements in the window with the names of their places. -/
def labelled {ι : Type*} : (Nat → ι) → List (Option α) → List (ι × α)
  | _, [] => []
  | f, none :: w => labelled (fun i => f (i + 1)) w
  | f, some x :: w => (f 0, x) :: labelled (fun i => f (i + 1)) w

theorem mem_elems : x ∈ elems w ↔ ∃ i, Stored w i x := by
  unfold elems Stored
  constructor
  · intro h
    obtain ⟨o, ho, rfl⟩ := List.mem_filterMap.mp h
    obtain ⟨i, hi⟩ := List.mem_iff_getElem?.mp ho
    exact ⟨i, hi⟩
  · rintro ⟨i, hi⟩
    exact List.mem_filterMap.mpr ⟨some x, List.mem_of_getElem? hi, rfl⟩

/-! ## Elements and their places -/

section Labelled

variable {ι : Type*} {f : Nat → ι}

theorem elems_eq_labelled (f : Nat → ι) (w : List (Option α)) :
    elems w = (labelled f w).map Prod.snd := by
  induction w generalizing f with
  | nil => rfl
  | cons o w ih =>
    cases o with
    | none => exact ih _
    | some x => exact congrArg (x :: ·) (ih _)

theorem labelled_append (f : Nat → ι) (u w : List (Option α)) :
    labelled f (u ++ w) = labelled f u ++ labelled (fun i => f (u.length + i)) w := by
  induction u generalizing f with
  | nil => simp [labelled]
  | cons o u ih =>
    have hshift : (fun i => f (u.length + i + 1)) = fun i => f ((o :: u).length + i) := by
      funext i
      rw [List.length_cons]
      congr 1
      omega
    cases o with
    | none => rw [List.cons_append, labelled, labelled, ih, hshift]
    | some x => rw [List.cons_append, labelled, labelled, ih, hshift, List.cons_append]

theorem labelled_replicate_none (f : Nat → ι) (n : Nat) :
    labelled f (List.replicate n (none : Option α)) = [] := by
  induction n generalizing f with
  | zero => rfl
  | succ n ih => exact ih _

/-- What leaves in front and what stays is all there is. -/
theorem labelled_take_append_drop (f : Nat → ι) (w : List (Option α)) (k : Nat) :
    labelled f (w.take k) ++ labelled (fun i => f (k + i)) (w.drop k) = labelled f w := by
  conv_rhs => rw [← List.take_append_drop k w, labelled_append]
  rcases Nat.le_total k w.length with hle | hge
  · rw [List.length_take_of_le hle]
  · rw [List.drop_of_length_le hge]
    rfl

theorem mem_labelled {p : ι × α} : p ∈ labelled f w ↔ ∃ i, Stored w i p.2 ∧ p.1 = f i := by
  unfold Stored
  induction w generalizing f with
  | nil => simp [labelled]
  | cons o w ih =>
    have hcons : (∃ i, (o :: w)[i]? = some (some p.2) ∧ p.1 = f i) ↔
        (o = some p.2 ∧ p.1 = f 0) ∨ ∃ i, w[i]? = some (some p.2) ∧ p.1 = f (i + 1) := by
      constructor
      · rintro ⟨i, hi, hp⟩
        cases i with
        | zero => exact Or.inl ⟨by simpa using hi, hp⟩
        | succ i => exact Or.inr ⟨i, by simpa using hi, hp⟩
      · rintro (⟨ho, hp⟩ | ⟨i, hi, hp⟩)
        · exact ⟨0, by simp [ho], hp⟩
        · exact ⟨i + 1, by simpa using hi, hp⟩
    rw [hcons]
    cases o with
    | none =>
      rw [labelled, ih]
      simp
    | some x =>
      rw [labelled, List.mem_cons, ih, Prod.ext_iff]
      simp only [Option.some.injEq]
      exact or_congr_left ⟨fun ⟨h1, h2⟩ => ⟨h2.symm, h1⟩, fun ⟨h1, h2⟩ => ⟨h2, h1.symm⟩⟩

end Labelled

/-! ## Elements after an arrival -/

theorem put_of_beyond (hw : w.length ≤ d) (hd : d < size) :
    put size w d x = (w ++ List.replicate (d - w.length) none ++ [some x], true) := by
  unfold put
  rw [List.getElem?_eq_none hw]
  exact if_pos hd

theorem put_of_full (hw : w.length ≤ d) (hd : size ≤ d) : put size w d x = (w, false) := by
  unfold put
  rw [List.getElem?_eq_none hw]
  exact if_neg (Nat.not_lt.mpr hd)

/-- An element that is not kept changes nothing. -/
theorem put_of_not_kept (h : (put size w d x).2 = false) : (put size w d x).1 = w := by
  unfold put at *
  split at h
  · cases h
  · rfl
  · split at h
    · cases h
    · next hge => rw [if_neg hge]

/-- An element that is kept joins the others, at its place. -/
theorem labelled_put {ι : Type*} {f : Nat → ι} (h : (put size w d x).2 = true) :
    (labelled f (put size w d x).1).Perm ((f d, x) :: labelled f w) := by
  unfold put at *
  split at h
  · next hget =>
    obtain ⟨hlt, hd⟩ := List.getElem?_eq_some_iff.mp hget
    have hw : w = w.take d ++ none :: w.drop (d + 1) := by
      rw [← hd, ← List.drop_eq_getElem_cons hlt, List.take_append_drop]
    have hlen : (w.take d).length = d := List.length_take_of_le (Nat.le_of_lt hlt)
    rw [List.set_eq_take_append_cons_drop, if_pos hlt, labelled_append, hlen]
    conv_rhs => rw [hw, labelled_append, hlen]
    rw [labelled, labelled]
    exact List.perm_middle
  · cases h
  · next hget =>
    have hlen : w.length ≤ d := List.getElem?_eq_none_iff.mp hget
    split at h
    · next hlt =>
      rw [if_pos hlt, labelled_append, labelled_append, labelled_replicate_none, List.append_nil,
        List.length_append, List.length_replicate, Nat.add_sub_of_le hlen]
      exact List.perm_append_comm
    · cases h

/-- An element that is kept joins the others. -/
theorem elems_put (h : (put size w d x).2 = true) :
    (elems (put size w d x).1).Perm (x :: elems w) := by
  rw [elems_eq_labelled id, elems_eq_labelled id w]
  exact (labelled_put h).map Prod.snd

/-! ## A window that moves -/

theorem slideBy_le (hd : size ≤ d) (h0 : 0 < size) : slideBy size w d ≤ d := by
  unfold slideBy
  split <;> omega

/-- The place is beyond what is left of the window, and within its capacity. -/
theorem slideBy_room (hw : w.length ≤ size) (hd : size ≤ d) (h0 : 0 < size) :
    (w.drop (slideBy size w d)).length ≤ d - slideBy size w d ∧ d - slideBy size w d < size := by
  rw [List.length_drop]
  unfold slideBy
  split <;> omega

theorem put_stored (h : Stored (put size w d x).1 i y) : (i = d ∧ y = x) ∨ Stored w i y := by
  unfold put at h
  unfold Stored at *
  split at h
  · by_cases hid : i = d
    · subst hid
      next hget =>
      have hlt : i < w.length := (List.getElem?_eq_some_iff.mp hget).1
      rw [List.getElem?_set_self hlt] at h
      exact Or.inl ⟨rfl, by simpa using h.symm⟩
    · rw [List.getElem?_set_ne (fun he => hid he.symm)] at h
      exact Or.inr h
  · exact Or.inr h
  · next hget =>
    have hlen : w.length ≤ d := List.getElem?_eq_none_iff.mp hget
    split at h
    · rcases Nat.lt_trichotomy i d with hlt | heq | hgt
      · by_cases hw : i < w.length
        · rw [List.append_assoc, List.getElem?_append_left hw] at h
          exact Or.inr h
        · rw [List.getElem?_append_left (by simp; omega),
            List.getElem?_append_right (by omega), List.getElem?_replicate] at h
          split at h <;> simp at h
      · subst heq
        rw [List.getElem?_append_right (by simp; omega)] at h
        refine Or.inl ⟨rfl, ?_⟩
        simpa [hlen] using h.symm
      · rw [List.getElem?_eq_none (by simp; omega)] at h
        simp at h
    · exact Or.inr h

/-! ## Elements after a departure -/

theorem take_stored {rest : List (Option α)} (h : take w = some (x, rest)) :
    Stored w 0 x ∧ w = some x :: rest := by
  unfold take at h
  split at h
  · simp only [Option.some.injEq, Prod.mk.injEq] at h
    obtain ⟨rfl, rfl⟩ := h
    exact ⟨rfl, rfl⟩
  · simp at h

theorem elems_of_take {rest : List (Option α)} (h : take w = some (x, rest)) :
    elems w = x :: elems rest := by
  rw [(take_stored h).2]
  rfl

theorem stored_succ_of_take {rest : List (Option α)} (h : take w = some (x, rest)) :
    Stored rest i y ↔ Stored w (i + 1) y := by
  rw [(take_stored h).2]
  rfl

end Infra.Window
