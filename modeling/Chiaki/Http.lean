import Chiaki.Common
import Mathlib.Algebra.Group.Int.Defs

/-!
# Receiving an HTTP header (`http.c`)

`chiaki_recv_http_header` receives until an empty line has ended the header, and counts how much it
has received. What the stop pipe and the socket answer in each round of its loop is a parameter. A
call of `recv` appears in the list of calls with the place that it writes to.
-/

namespace Chiaki

/-- What `recv` returns. The number of bytes is stored in an `int`; it is 0 at the end of the
stream. -/
inductive RecvResult
  | failed
  | received (data : Bytes) (int : data.length < 2 ^ 31)

/-- One round of the loop. Without a stop pipe nobody asks for the result of its `select`. -/
structure RecvRound where
  select : ErrorCode
  recv : RecvResult

/-- A call of `recv`: how far from the beginning of the buffer it writes, how many bytes it may
write, and how many it has written. -/
structure RecvCall where
  off : Nat
  size : Int
  written : Nat
  deriving DecidableEq, Repr

/-- The variables of `chiaki_recv_http_header`. `buf` is the distance that the pointer has moved. -/
structure RecvHttpHeader where
  buf : Nat
  nlState : Nat
  receivedSize : Nat
  calls : List RecvCall
  deriving DecidableEq, Repr

/-- How far the function has come: it waits for another result, or it has returned. -/
inductive RecvHttpHeaderResult
  | waiting
  | error (err : ErrorCode)
  | success (headerSize : Nat)
  deriving DecidableEq, Repr

/-- `transitions_r` -/
def transitionsR : List Nat := [1, 1, 3, 1]

/-- `transitions_n` -/
def transitionsN : List Nat := [0, 2, 0, 4]

/-- The `switch` over one byte. -/
def nlTransition (nlState : Nat) (c : UInt8) : Nat :=
  if c = 0x0d then transitionsR.getD nlState 0
  else if c = 0x0a then transitionsN.getD nlState 0
  else 0

/-- The loop over what was received: the state after it, and how many bytes are left. -/
def scanNewlines : Nat → Bytes → Nat × Nat
  | nlState, [] => (nlState, 0)
  | nlState, c :: rest =>
    let nlState := nlTransition nlState c
    if nlState = 4 then (nlState, rest.length) else scanNewlines nlState rest

/-- `(int)buf_size` -/
def recvSize (bufSize : Nat) : Int :=
  if bufSize % 2 ^ 32 < 2 ^ 31 then (bufSize % 2 ^ 32 : Nat) else (bufSize % 2 ^ 32 : Nat) - 2 ^ 32

/-- The loop of `chiaki_recv_http_header`. -/
def recvHttpHeaderLoop (stopPipe : Bool) (bufSize : Nat) :
    RecvHttpHeader → List RecvRound → RecvHttpHeader × RecvHttpHeaderResult
  | s, [] => (s, .waiting)
  | s, round :: rounds =>
    if stopPipe ∧ round.select ≠ .success then (s, .error round.select)
    else
      match round.recv with
      | .failed => ({ s with calls := s.calls ++ [⟨s.buf, recvSize bufSize, 0⟩] }, .error .network)
      | .received data _ =>
        let s := { s with calls := s.calls ++ [⟨s.buf, recvSize bufSize, data.length⟩] }
        if data.length = 0 then (s, .error .disconnected)
        else
          let s := { s with receivedSize := (s.receivedSize + data.length) % 2 ^ 64 }
          let (nlState, left) := scanNewlines s.nlState data
          if nlState = 4 then (s, .success (s.receivedSize - left))
          else
            recvHttpHeaderLoop stopPipe bufSize
              { s with buf := s.buf + data.length, nlState := nlState } rounds

/-- `chiaki_recv_http_header` -/
def recvHttpHeader (stopPipe : Bool) (bufSize : Nat) (rounds : List RecvRound) :
    RecvHttpHeader × RecvHttpHeaderResult :=
  recvHttpHeaderLoop stopPipe bufSize ⟨0, 0, 0, []⟩ rounds

/-- The data of the calls of `recv` is written. -/
def recvWrite : Bytes → List RecvCall → List RecvRound → Except Fault Bytes
  | buf, call :: calls, round :: rounds =>
    match round.recv with
    | .failed => recvWrite buf calls rounds
    | .received data _ =>
      if buf.length < call.off + data.length then .error .outOfBounds
      else recvWrite (splice buf call.off data) calls rounds
  | buf, _, _ => .ok buf

end Chiaki
