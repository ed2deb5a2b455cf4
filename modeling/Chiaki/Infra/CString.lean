import Mathlib.Data.List.TakeWhile

/-!
# Strings that end with a NUL

* `CString` — the bytes in front of the NUL
* `Holds` — a string stands in memory, with its NUL
-/

namespace Infra

/-- The bytes of a string, of which none is a NUL. -/
@[ext] structure CString where
  bytes : List UInt8
  noNul : 0 ∉ bytes
  deriving DecidableEq

namespace CString

variable {mem : List UInt8} {off i : Nat} {s : CString}

/-- The string at a pointer, if the memory has a NUL behind it. -/
def read (mem : List UInt8) (off : Nat) : Option CString :=
  if 0 ∈ mem.drop off then
    some ⟨(mem.drop off).takeWhile fun c => c ≠ 0, fun h => by simpa using List.mem_takeWhile_imp h⟩
  else none

/-- The string stands at a pointer. -/
def Holds (mem : List UInt8) (off : Nat) (s : CString) : Prop := s.bytes ++ [0] <+: mem.drop off

theorem takeWhile_append_nul (s : CString) (rest : List UInt8) :
    (s.bytes ++ 0 :: rest).takeWhile (fun c => c ≠ 0) = s.bytes := by
  rw [List.takeWhile_append_of_pos]
  · simp
  · intro c hc
    have hne : c ≠ 0 := fun h => s.noNul (h ▸ hc)
    simpa using hne

/-- A string that stands in memory is read. -/
theorem Holds.read_eq (h : Holds mem off s) : read mem off = some s := by
  obtain ⟨rest, hrest⟩ := h
  rw [List.append_assoc, List.singleton_append] at hrest
  have hmem : 0 ∈ mem.drop off := hrest ▸ List.mem_append_right _ (List.mem_cons_self ..)
  obtain ⟨bytes, noNul⟩ := s
  rw [read, if_pos hmem]
  simp only [← hrest, takeWhile_append_nul ⟨bytes, noNul⟩ rest]

/-- What is written behind a string leaves it. -/
theorem Holds.set (h : Holds mem off s) (hi : off + s.bytes.length < i) (c : UInt8) :
    Holds (mem.set i c) off s := by
  unfold Holds at *
  rw [List.drop_set, if_neg (by omega)]
  obtain ⟨rest, hrest⟩ := h
  have hlen : (s.bytes ++ [0]).length ≤ i - off := by
    rw [List.length_append, List.length_singleton]
    omega
  rw [← hrest, List.set_append_right _ _ hlen]
  exact List.prefix_append _ _

/-- The NUL behind some bytes makes a string of them. -/
theorem holds_set (h : s.bytes <+: mem.drop off) (hlt : off + s.bytes.length < mem.length) :
    Holds (mem.set (off + s.bytes.length) 0) off s := by
  unfold Holds
  obtain ⟨rest, hrest⟩ := h
  rw [List.drop_set, if_neg (by omega), ← hrest, List.set_append_right _ _ (by omega)]
  have hne : 0 < rest.length := by
    have hlen := congrArg List.length hrest
    rw [List.length_append, List.length_drop] at hlen
    omega
  obtain ⟨c, rest', rfl⟩ := List.exists_cons_of_length_pos hne
  rw [show off + s.bytes.length - off - s.bytes.length = 0 by omega, List.set_cons_zero]
  exact ⟨rest', by simp⟩

end CString

end Infra
