import Chiaki.Seqnum

/-!
# Key positions of received packets (`ChiakiKeyState`, gkcrypt.c)

Packets carry the low 32 bits of their 64-bit key position. The state is the last position
seen, from which the high half is guessed.
-/

namespace Chiaki

/-- `ChiakiKeyState` -/
structure KeyState where
  prev : Nat
  deriving DecidableEq, Repr

/-- `chiaki_key_state_init` -/
def keyStateInit : KeyState := ⟨0⟩

/-- The 64-bit position that `chiaki_key_state_request_pos` computes. -/
def keyStatePos (state : KeyState) (low : Nat) : Nat :=
  let prevLow := state.prev % 2 ^ 32
  let high := state.prev / 2 ^ 32
  let high :=
    if seqNum32Gt low prevLow && low < prevLow then (high + 1) % 2 ^ 32
    else if seqNum32Lt low prevLow && low > prevLow && high ≠ 0 then high - 1
    else high
  high * 2 ^ 32 + low

/-- `chiaki_key_state_commit` -/
def keyStateCommit (_state : KeyState) (prev : Nat) : KeyState := ⟨prev⟩

/-- `chiaki_key_state_request_pos` -/
def keyStateRequestPos (state : KeyState) (low : Nat) (commit : Bool) : KeyState × Nat :=
  let res := keyStatePos state low
  (if commit then ⟨res⟩ else state, res)

/-- The positions that requests with `commit` return one after the other. -/
def keyStateRequests : KeyState → List Nat → List Nat
  | _, [] => []
  | state, low :: lows =>
    let r := keyStateRequestPos state low true
    r.2 :: keyStateRequests r.1 lows

end Chiaki
