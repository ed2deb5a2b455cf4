import Chiaki.Common
import Chiaki.Infra.Transition
import Chiaki.Seqnum
import Mathlib.Data.Nat.Bitwise

/-!
# The reorder queue (`reorderqueue.c`)

A ring of `2 ^ size_exp` slots, addressed by the low bits of the sequence number, of which
the `count` slots from `begin` on are in use.

The functions are the ones of the source, in its order of tests. Each call of `drop_cb`
appears in the list that a function returns next to the new queue. Two things are kept as
they are there: `chiaki_reorder_queue_peek` writes through its out-pointers without a test,
and `chiaki_reorder_queue_drop` hands an element to `drop_cb` without clearing its `set`.
-/

namespace Chiaki

/-- The function pointers of the queue. All of them take `uint64_t` and narrow it. -/
structure SeqNumOps where
  gt : Nat → Nat → Bool
  lt : Nat → Nat → Bool
  add : Nat → Nat → Nat

/-- `REORDER_QUEUE_INIT(16)`. The sum of two `uint16_t` is an `int`: it is not reduced. -/
def seqNum16Ops : SeqNumOps where
  gt a b := seqNum16Gt (a % 2 ^ 16) (b % 2 ^ 16)
  lt a b := seqNum16Lt (a % 2 ^ 16) (b % 2 ^ 16)
  add a b := a % 2 ^ 16 + b % 2 ^ 16

/-- `REORDER_QUEUE_INIT(32)` -/
def seqNum32Ops : SeqNumOps where
  gt a b := seqNum32Gt (a % 2 ^ 32) (b % 2 ^ 32)
  lt a b := seqNum32Lt (a % 2 ^ 32) (b % 2 ^ 32)
  add a b := (a % 2 ^ 32 + b % 2 ^ 32) % 2 ^ 32

/-- `ChiakiReorderQueueDropStrategy` -/
inductive ReorderQueueDropStrategy
  | begin
  | end
  deriving DecidableEq, Repr

/-- `ChiakiReorderQueueEntry` -/
structure ReorderQueueEntry (α : Type) where
  user : α
  set : Bool

/-- `ChiakiReorderQueue`. `queue` is the array, only ever indexed below `2 ^ sizeExp`. -/
structure ReorderQueue (α : Type) where
  sizeExp : Nat
  queue : Nat → ReorderQueueEntry α
  begin : Nat
  count : Nat
  ops : SeqNumOps
  dropStrategy : ReorderQueueDropStrategy
  dropCb : Bool

namespace ReorderQueue

variable {α : Type}

/-- `QUEUE_SIZE` -/
def size (q : ReorderQueue α) : Nat := 2 ^ q.sizeExp

/-- `idx(seq_num)` -/
def idx (q : ReorderQueue α) (seqNum : Nat) : Nat := seqNum &&& (2 ^ q.sizeExp - 1)

/-- `ge(a, b)` -/
def ge (q : ReorderQueue α) (a b : Nat) : Bool := a == b || q.ops.gt a b

/-- `&queue->queue[idx(seq_num)]` -/
def entry (q : ReorderQueue α) (seqNum : Nat) : ReorderQueueEntry α := q.queue (q.idx seqNum)

def setEntry (q : ReorderQueue α) (seqNum : Nat) (e : ReorderQueueEntry α) : ReorderQueue α :=
  { q with queue := fun i => if i = q.idx seqNum then e else q.queue i }

/-- The call of `drop_cb`, if there is one to call. -/
def callDropCb (q : ReorderQueue α) (seqNum : Nat) (user : α) : List (Nat × α) :=
  if q.dropCb then [(seqNum, user)] else []

end ReorderQueue

open ReorderQueue

variable {α : Type}

/-- `chiaki_reorder_queue_init`. The array comes from `calloc`. -/
def reorderQueueInit [Inhabited α] (sizeExp seqNumStart : Nat) (ops : SeqNumOps) :
    ReorderQueue α where
  sizeExp := sizeExp
  queue := fun _ => { user := default, set := false }
  begin := seqNumStart
  count := 0
  ops := ops
  dropStrategy := .end
  dropCb := false

/-- `chiaki_reorder_queue_init_16` -/
def reorderQueueInit16 [Inhabited α] (sizeExp seqNumStart : Nat) : ReorderQueue α :=
  reorderQueueInit sizeExp seqNumStart seqNum16Ops

/-- `chiaki_reorder_queue_init_32` -/
def reorderQueueInit32 [Inhabited α] (sizeExp seqNumStart : Nat) : ReorderQueue α :=
  reorderQueueInit sizeExp seqNumStart seqNum32Ops

/-- `chiaki_reorder_queue_set_drop_cb` -/
def reorderQueueSetDropCb (q : ReorderQueue α) : ReorderQueue α := { q with dropCb := true }

/-- `chiaki_reorder_queue_set_drop_strategy` -/
def reorderQueueSetDropStrategy (q : ReorderQueue α) (s : ReorderQueueDropStrategy) :
    ReorderQueue α := { q with dropStrategy := s }

/-! ## Push -/

/-- "drop first until empty or enough space". `end_` stays what it was before the loop. -/
def reorderQueueDropFirst (end_ newEnd : Nat) :
    Nat → ReorderQueue α → Nat → ReorderQueue α × List (Nat × α)
  | 0, q, _ => (q, [])
  | n + 1, q, totalEnd =>
    if q.ops.lt totalEnd newEnd then
      let e := q.entry q.begin
      let dropped := if e.set then q.callDropCb q.begin e.user else []
      let q' := { q with begin := q.ops.add q.begin 1, count := q.count - 1 }
      let r := reorderQueueDropFirst end_ newEnd n q' (q'.ops.add end_ (q'.size - q'.count))
      (r.1, dropped ++ r.2)
    else (q, [])

/--
"move end until new_end". The first argument is the number of free slots: when it is used
up, one more round fails the assertion at the end of the loop body.
-/
def reorderQueueExtend (newEnd : Nat) : Nat → ReorderQueue α → Except Fault (ReorderQueue α)
  | 0, q => if q.ops.lt (q.ops.add q.begin q.count) newEnd then .error .assertion else .ok q
  | free + 1, q =>
    let end_ := q.ops.add q.begin q.count
    if q.ops.lt end_ newEnd then
      let q' := q.setEntry end_ { q.entry end_ with set := false }
      reorderQueueExtend newEnd free { q' with count := q'.count + 1 }
    else .ok q

/-- The end of `chiaki_reorder_queue_push`: make room up to the new element and store it. -/
def reorderQueueStore (q : ReorderQueue α) (seqNum : Nat) (user : α) :
    Except Fault (ReorderQueue α) := do
  let q ← reorderQueueExtend (q.ops.add seqNum 1) (q.size - q.count) q
  return q.setEntry seqNum { user := user, set := true }

/-- `chiaki_reorder_queue_push` -/
def reorderQueuePush (q : ReorderQueue α) (seqNum : Nat) (user : α) :
    Except Fault (ReorderQueue α × List (Nat × α)) :=
  if q.size < q.count then .error .assertion
  else
    let end_ := q.ops.add q.begin q.count
    if q.ge seqNum q.begin && q.ops.lt seqNum end_ then
      if (q.entry seqNum).set then .ok (q, q.callDropCb seqNum user)
      else .ok (q.setEntry seqNum { user := user, set := true }, [])
    else if q.ops.lt seqNum q.begin then .ok (q, q.callDropCb seqNum user)
    else if !q.ge seqNum end_ then .error .assertion
    else
      let newEnd := q.ops.add seqNum 1
      let totalEnd := q.ops.add end_ (q.size - q.count)
      if q.ops.lt totalEnd newEnd then
        match q.dropStrategy with
        | .end => .ok (q, q.callDropCb seqNum user)
        | .begin => do
          let r := reorderQueueDropFirst end_ newEnd q.count q totalEnd
          let q' := if r.1.count = 0 then { r.1 with begin := seqNum } else r.1
          let q'' ← reorderQueueStore q' seqNum user
          return (q'', r.2)
      else do
        let q' ← reorderQueueStore q seqNum user
        return (q', [])

/-! ## Pull, peek, drop and fini -/

/-- `chiaki_reorder_queue_pull` -/
def reorderQueuePull (q : ReorderQueue α) : Option (Nat × α × ReorderQueue α) :=
  if q.count = 0 then none
  else
    let e := q.entry q.begin
    if !e.set then none
    else some (q.begin, e.user, { q with begin := q.ops.add q.begin 1, count := q.count - 1 })

/--
`chiaki_reorder_queue_peek`. The flag says whether the caller passes a `seq_num` to write
to; the write itself is not conditional.
-/
def reorderQueuePeek (q : ReorderQueue α) (index : Nat) (seqNumOut : Bool) :
    Except Fault (Option (Nat × α)) :=
  if q.count ≤ index then .ok none
  else
    let seqNumVal := q.ops.add q.begin index
    let e := q.entry seqNumVal
    if !e.set then .ok none
    else if !seqNumOut then .error .nullPointer
    else .ok (some (seqNumVal, e.user))

/-- "reduce count if necessary": `entry` runs back from the end while it is not set. -/
def reorderQueueTrim : Nat → ReorderQueue α → Nat → ReorderQueue α
  | 0, q, _ => q
  | n + 1, q, seqNum =>
    if (q.entry seqNum).set then q
    else
      let q' := { q with count := q.count - 1 }
      if q'.count = 0 then q'
      else reorderQueueTrim n q' (q'.ops.add q'.begin (q'.count - 1))

/-- `chiaki_reorder_queue_drop` -/
def reorderQueueDrop (q : ReorderQueue α) (index : Nat) : ReorderQueue α × List (Nat × α) :=
  if q.count ≤ index then (q, [])
  else
    let seqNum := q.ops.add q.begin index
    let e := q.entry seqNum
    if !e.set then (q, [])
    else
      let dropped := q.callDropCb seqNum e.user
      if index = q.count - 1 then (reorderQueueTrim q.count q seqNum, dropped)
      else (q, dropped)

/-- The calls of `drop_cb` by `chiaki_reorder_queue_fini`. -/
def reorderQueueFini (q : ReorderQueue α) : List (Nat × α) :=
  (List.range q.count).flatMap fun i =>
    let seqNum := q.ops.add q.begin i
    let e := q.entry seqNum
    if e.set then q.callDropCb seqNum e.user else []

/-! ## Sequences of calls -/

/-- The type of the sequence numbers of a queue. -/
inductive SeqNumWidth
  | bits16
  | bits32
  deriving DecidableEq, Repr

def SeqNumWidth.bits : SeqNumWidth → Nat
  | .bits16 => 16
  | .bits32 => 32

/-- `chiaki_reorder_queue_init_16` or `chiaki_reorder_queue_init_32` -/
def SeqNumWidth.init [Inhabited α] (width : SeqNumWidth) : Nat → Nat → ReorderQueue α :=
  match width with
  | .bits16 => reorderQueueInit16
  | .bits32 => reorderQueueInit32

/-- A pulled element, and how far `begin` had moved since the last one was pulled. -/
structure PulledElement (α : Type) where
  seqNum : Nat
  user : α
  moved : Nat

/-- A queue in use, with what was pushed, pulled and dropped so far. `moved` is how far `begin` has
moved since the last element was pulled, `alwaysEnd` that the strategy never was another one. -/
structure ReorderQueueRun (α : Type) where
  queue : ReorderQueue α
  fault : Option Fault
  pushed : List (Nat × α)
  pulled : List (PulledElement α)
  dropped : List (Nat × α)
  moved : Nat
  alwaysEnd : Bool

inductive ReorderQueueLabel (α : Type)
  | push (seqNum : Nat) (user : α)
  | pull
  | setDropStrategy (s : ReorderQueueDropStrategy)

/-- How far `begin` moves from `b` to `b'`. -/
def beginMoved (width : SeqNumWidth) (b b' : Nat) : Nat :=
  (b' + 2 ^ width.bits - b % 2 ^ width.bits) % 2 ^ width.bits

def reorderQueueStep (width : SeqNumWidth) (s : ReorderQueueRun α) :
    ReorderQueueLabel α → Option (ReorderQueueRun α)
  | l =>
    match s.fault with
    | some _ => none
    | none =>
      match l with
      | .push seqNum user =>
        let s := { s with pushed := s.pushed ++ [(seqNum, user)] }
        match reorderQueuePush s.queue seqNum user with
        | .error f => some { s with fault := some f }
        | .ok (q, dropped) =>
          some { s with
            queue := q
            dropped := s.dropped ++ dropped
            moved := s.moved + beginMoved width s.queue.begin q.begin }
      | .pull =>
        match reorderQueuePull s.queue with
        | none => some s
        | some (seqNum, user, q) =>
          some { s with
            queue := q
            pulled := s.pulled ++ [⟨seqNum, user, s.moved⟩]
            moved := 1 }
      | .setDropStrategy strategy =>
        some { s with
          queue := reorderQueueSetDropStrategy s.queue strategy
          alwaysEnd := s.alwaysEnd && decide (strategy = .end) }

/-- A new queue with a drop callback. -/
def reorderQueueStart [Inhabited α] (width : SeqNumWidth) (sizeExp seqNumStart : Nat) :
    ReorderQueueRun α where
  queue := reorderQueueSetDropCb (width.init sizeExp seqNumStart)
  fault := none
  pushed := []
  pulled := []
  dropped := []
  moved := 0
  alwaysEnd := true

def reorderQueueLts [Inhabited α] (width : SeqNumWidth) (sizeExp seqNumStart : Nat) :
    Infra.Lts (ReorderQueueRun α) (ReorderQueueLabel α) :=
  Infra.Lts.ofFun (fun s => s = reorderQueueStart width sizeExp seqNumStart)
    (reorderQueueStep width)

/-! ## Any calls -/

/-- A call on a queue between `init` and `fini`. -/
inductive ReorderQueueCall (α : Type)
  | push (seqNum : Nat) (user : α)
  | pull
  | peek (index : Nat)
  | drop (index : Nat)
  | setDropStrategy (s : ReorderQueueDropStrategy)
  | setDropCb

/-- The queue after a call, and the elements that it returned or passed to `drop_cb`. -/
def reorderQueueCall (q : ReorderQueue α) :
    ReorderQueueCall α → Except Fault (ReorderQueue α × List (Nat × α))
  | .push seqNum user => reorderQueuePush q seqNum user
  | .pull =>
    match reorderQueuePull q with
    | none => .ok (q, [])
    | some (seqNum, user, q') => .ok (q', [(seqNum, user)])
  | .peek index => do
    let e ← reorderQueuePeek q index true
    return (q, e.toList)
  | .drop index => .ok (reorderQueueDrop q index)
  | .setDropStrategy strategy => .ok (reorderQueueSetDropStrategy q strategy, [])
  | .setDropCb => .ok (reorderQueueSetDropCb q, [])

/-- One call after the other. -/
def reorderQueueCalls : ReorderQueue α → List (ReorderQueueCall α) →
    Except Fault (ReorderQueue α × List (Nat × α))
  | q, [] => .ok (q, [])
  | q, call :: calls => do
    let r ← reorderQueueCall q call
    let r' ← reorderQueueCalls r.1 calls
    return (r'.1, r.2 ++ r'.2)

/-- A failed assertion ends the run. -/
def reorderQueueCallStep (s : Except Fault (ReorderQueue α)) (call : ReorderQueueCall α) :
    Option (Except Fault (ReorderQueue α)) :=
  match s with
  | .error _ => none
  | .ok q => some ((reorderQueueCall q call).map Prod.fst)

def reorderQueueCallLts [Inhabited α] (width : SeqNumWidth) (sizeExp seqNumStart : Nat) :
    Infra.Lts (Except Fault (ReorderQueue α)) (ReorderQueueCall α) :=
  Infra.Lts.ofFun (fun s => s = .ok (width.init sizeExp seqNumStart)) reorderQueueCallStep

end Chiaki
