import Chiaki.Infra.Simulation

/-!
# Queues that act at once

A queue for one thread that adds and one that removes. Between a call and its return the operation acts on the queue
once, all at once. What such a queue shows are the calls and the returns.

* `atomicQueueLts` — the queue, for given operations
* `boundedOffer`, `poll` — the operations of a queue with a bound
-/

namespace Infra

variable {α : Type*}

/-- What is seen of a queue. -/
inductive QueueEvent (α : Type*)
  | callPush (item : α)
  | retPush (success : Bool)
  | callPop
  | retPop (item : Option α)
  deriving DecidableEq

/-- A thread that adds. -/
inductive QueuePush (α : Type*)
  | idle
  | called (item : α)
  | done (success : Bool)
  deriving DecidableEq

/-- A thread that removes. -/
inductive QueuePop (α : Type*)
  | idle
  | called
  | done (item : Option α)
  deriving DecidableEq

structure AtomicQueue (α : Type*) where
  queue : List α
  push : QueuePush α
  pop : QueuePop α

/-- An event, or an operation that acts. -/
inductive QueueLabel (α : Type*)
  | event (e : QueueEvent α)
  | push
  | pop

def QueueLabel.shown : QueueLabel α → Option (QueueEvent α)
  | .event e => some e
  | _ => none

/-- An item comes to the end, if there is room. -/
def boundedOffer (size : Nat) (queue : List α) (item : α) : Option (List α) :=
  if queue.length < size then some (queue ++ [item]) else none

/-- The first item leaves, if there is one. -/
def poll : List α → Option (α × List α)
  | [] => none
  | item :: queue => some (item, queue)

/-- The steps of a queue with these operations. -/
inductive AtomicQueue.Step (offer : List α → α → Option (List α)) (poll : List α → Option (α × List α)) :
    AtomicQueue α → QueueLabel α → AtomicQueue α → Prop
  | callPush (queue : List α) (pop : QueuePop α) (item : α) :
    Step offer poll ⟨queue, .idle, pop⟩ (.event (.callPush item)) ⟨queue, .called item, pop⟩
  | push (queue queue' : List α) (pop : QueuePop α) (item : α) (h : offer queue item = some queue') :
    Step offer poll ⟨queue, .called item, pop⟩ .push ⟨queue', .done true, pop⟩
  | full (queue : List α) (pop : QueuePop α) (item : α) (h : offer queue item = none) :
    Step offer poll ⟨queue, .called item, pop⟩ .push ⟨queue, .done false, pop⟩
  | retPush (queue : List α) (pop : QueuePop α) (success : Bool) :
    Step offer poll ⟨queue, .done success, pop⟩ (.event (.retPush success)) ⟨queue, .idle, pop⟩
  | callPop (queue : List α) (push : QueuePush α) :
    Step offer poll ⟨queue, push, .idle⟩ (.event .callPop) ⟨queue, push, .called⟩
  | pop (queue queue' : List α) (push : QueuePush α) (item : α) (h : poll queue = some (item, queue')) :
    Step offer poll ⟨queue, push, .called⟩ .pop ⟨queue', push, .done (some item)⟩
  | empty (queue : List α) (push : QueuePush α) (h : poll queue = none) :
    Step offer poll ⟨queue, push, .called⟩ .pop ⟨queue, push, .done none⟩
  | retPop (queue : List α) (push : QueuePush α) (item : Option α) :
    Step offer poll ⟨queue, push, .done item⟩ (.event (.retPop item)) ⟨queue, push, .idle⟩

/-- The queue, empty at first. -/
def atomicQueueLts (offer : List α → α → Option (List α)) (poll : List α → Option (α × List α)) :
    Lts (AtomicQueue α) (QueueLabel α) where
  init := fun s => s = ⟨[], .idle, .idle⟩
  step := AtomicQueue.Step offer poll

theorem boundedOffer_of_lt {size : Nat} {queue : List α} {item : α} (h : queue.length < size) :
    boundedOffer size queue item = some (queue ++ [item]) := if_pos h

theorem boundedOffer_of_le {size : Nat} {queue : List α} {item : α} (h : size ≤ queue.length) :
    boundedOffer size queue item = none := if_neg (Nat.not_lt.mpr h)

end Infra
