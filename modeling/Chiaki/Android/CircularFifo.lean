import Chiaki.Android.CircularBuffer
import Chiaki.Infra.AtomicQueue

/-!
# The queue of the circular buffer (`circular-fifo.hpp`)

One thread calls `push` and another one calls `pop`, and a step of a thread is one access to `_tail`, to `_head` or to
`_array`.

`_tail` and `_head` are all the values that were stored, in their order. A load with `memory_order_acquire` may see
any of them, except those that are older than what the thread has seen before. What it sees makes the accesses to
`_array` visible that the other thread has made before the store. An access to an element of `_array` that is not in
order with the last access of the other thread is a data race.
-/

namespace Chiaki

open Infra

variable {α : Type}

/-! ## Memory -/

/-- A store with `memory_order_release`: its value, and how often its thread has accessed `_array` before it. -/
structure ReleaseStore where
  value : Nat
  accesses : Nat
  deriving DecidableEq

/-- `_tail` or `_head`: the stores of the thread that owns it, the first of them by the constructor, and which one of
them the other thread has seen. -/
structure AtomicIndex where
  stores : List ReleaseStore
  seen : Nat
  seen_lt : seen < stores.length

theorem AtomicIndex.ne_nil (x : AtomicIndex) : x.stores ≠ [] :=
  List.length_pos_iff.mp (Nat.zero_lt_of_lt x.seen_lt)

/-- The initialisation with 0. -/
def AtomicIndex.zero : AtomicIndex := ⟨[⟨0, 0⟩], 0, Nat.zero_lt_one⟩

/-- `load(memory_order_relaxed)` by the thread that owns the index. -/
def AtomicIndex.loadRelaxed (x : AtomicIndex) : Nat := (x.stores.getLast x.ne_nil).value

/-- `load(memory_order_acquire)` by the other thread, if it can see this store. -/
def AtomicIndex.loadAcquire (x : AtomicIndex) (i : Nat) : Option (ReleaseStore × AtomicIndex) :=
  if h : x.seen ≤ i ∧ i < x.stores.length then some (x.stores.get ⟨i, h.2⟩, ⟨x.stores, i, h.2⟩) else none

/-- `store(value, memory_order_release)` -/
def AtomicIndex.storeRelease (x : AtomicIndex) (value accesses : Nat) : AtomicIndex where
  stores := x.stores ++ [⟨value, accesses⟩]
  seen := x.seen
  seen_lt := by
    rw [List.length_append]
    exact Nat.lt_add_right _ x.seen_lt

/-- An element of `_array`, with the number of the last access of each thread. -/
structure FifoSlot (α : Type) where
  item : α
  written : Nat
  read : Nat
  deriving DecidableEq

/-- What a thread does that the language does not define. -/
inductive FifoFault
  | outOfBounds
  | dataRace
  deriving DecidableEq

/-! ## The state -/

/-- Where `push` stands: in front of an access, or with its result. -/
inductive FifoPush (α : Type)
  | idle
  | loadTail (item : α)
  | loadHead (item : α) (currentTail : Nat)
  | write (item : α) (currentTail nextTail : Nat)
  | store (item : α) (nextTail : Nat)
  | ret (success : Bool)
  | fault (f : FifoFault)
  deriving DecidableEq

/-- Where `pop` stands. -/
inductive FifoPop (α : Type)
  | idle
  | loadHead
  | loadTail (currentHead : Nat)
  | read (currentHead : Nat)
  | store (item : α) (currentHead : Nat)
  | ret (item : Option α)
  | fault (f : FifoFault)
  deriving DecidableEq

/-- `CircularFifo` with its two threads: for each of them how often it has accessed `_array`, and how many accesses
of the other one are visible to it. `pushed` and `popped` are the items whose index has been stored. -/
structure CircularFifo (α : Type) where
  tail : AtomicIndex
  array : List (FifoSlot α)
  head : AtomicIndex
  push : FifoPush α
  pop : FifoPop α
  writes : Nat
  reads : Nat
  visibleReads : Nat
  visibleWrites : Nat
  pushed : List α
  popped : List α

/-- The constructor. `_array` is not initialised. -/
def circularFifoInit (memory : List α) : CircularFifo α where
  tail := .zero
  array := memory.map fun item => ⟨item, 0, 0⟩
  head := .zero
  push := .idle
  pop := .idle
  writes := 0
  reads := 0
  visibleReads := 0
  visibleWrites := 0
  pushed := []
  popped := []

/-- `Capacity` -/
def fifoCapacity (size : Nat) : Nat := size + 1

/-- `increment` -/
def fifoIncrement (size idx : Nat) : Nat := (idx + 1) % fifoCapacity size

/-! ## Steps -/

/-- A step of `push` other than the load of `_head`. -/
def fifoPushStep (s : CircularFifo α) : Option (CircularFifo α) :=
  match s.push with
  | .loadTail item => some { s with push := .loadHead item s.tail.loadRelaxed }
  | .write item currentTail nextTail =>
    match s.array[currentTail]? with
    | none => some { s with push := .fault .outOfBounds }
    | some slot =>
      if slot.read ≤ s.visibleReads then
        some { s with
          array := s.array.set currentTail { slot with item := item, written := s.writes + 1 }
          writes := s.writes + 1
          push := .store item nextTail }
      else some { s with push := .fault .dataRace }
  | .store item nextTail =>
    some { s with
      tail := s.tail.storeRelease nextTail s.writes
      pushed := s.pushed ++ [item]
      push := .ret true }
  | _ => none

/-- The load of `_head` in `push`. -/
def fifoPushLoad (size : Nat) (s : CircularFifo α) (i : Nat) : Option (CircularFifo α) :=
  match s.push with
  | .loadHead item currentTail =>
    match s.head.loadAcquire i with
    | none => none
    | some (store, head) =>
      some { s with
        head := head
        visibleReads := max s.visibleReads store.accesses
        push := if fifoIncrement size currentTail ≠ store.value then
            .write item currentTail (fifoIncrement size currentTail)
          else .ret false }
  | _ => none

/-- A step of `pop` other than the load of `_tail`. -/
def fifoPopStep (size : Nat) (s : CircularFifo α) : Option (CircularFifo α) :=
  match s.pop with
  | .loadHead => some { s with pop := .loadTail s.head.loadRelaxed }
  | .read currentHead =>
    match s.array[currentHead]? with
    | none => some { s with pop := .fault .outOfBounds }
    | some slot =>
      if slot.written ≤ s.visibleWrites then
        some { s with
          array := s.array.set currentHead { slot with read := s.reads + 1 }
          reads := s.reads + 1
          pop := .store slot.item currentHead }
      else some { s with pop := .fault .dataRace }
  | .store item currentHead =>
    some { s with
      head := s.head.storeRelease (fifoIncrement size currentHead) s.reads
      popped := s.popped ++ [item]
      pop := .ret (some item) }
  | _ => none

/-- The load of `_tail` in `pop`. -/
def fifoPopLoad (s : CircularFifo α) (i : Nat) : Option (CircularFifo α) :=
  match s.pop with
  | .loadTail currentHead =>
    match s.tail.loadAcquire i with
    | none => none
    | some (store, tail) =>
      some { s with
        tail := tail
        visibleWrites := max s.visibleWrites store.accesses
        pop := if currentHead = store.value then .ret none else .read currentHead }
  | _ => none

/-! ## Runs -/

/-- A call, a step of a thread, or a return. A load of the index of the other thread comes with the number of the
store that it sees. -/
inductive FifoLabel (α : Type)
  | callPush (item : α)
  | pushLoad (i : Nat)
  | pushStep
  | retPush (success : Bool)
  | callPop
  | popLoad (i : Nat)
  | popStep
  | retPop (item : Option α)
  deriving DecidableEq

/-- The step for a label, if it is possible. -/
def circularFifoStep [DecidableEq α] (size : Nat) (s : CircularFifo α) : FifoLabel α → Option (CircularFifo α)
  | .callPush item => if s.push = .idle then some { s with push := .loadTail item } else none
  | .pushLoad i => fifoPushLoad size s i
  | .pushStep => fifoPushStep s
  | .retPush success => if s.push = .ret success then some { s with push := .idle } else none
  | .callPop => if s.pop = .idle then some { s with pop := .loadHead } else none
  | .popLoad i => fifoPopLoad s i
  | .popStep => fifoPopStep size s
  | .retPop item => if s.pop = .ret item then some { s with pop := .idle } else none

/-- A queue of `size` elements with its two threads, from its constructor on. -/
def circularFifoLts [DecidableEq α] (size : Nat) : Lts (CircularFifo α) (FifoLabel α) :=
  Lts.ofFun (fun s => ∃ memory : List α, memory.length = fifoCapacity size ∧ s = circularFifoInit memory)
    (circularFifoStep size)

/-- The calls and the returns are what is seen. -/
def FifoLabel.shown : FifoLabel α → Option (QueueEvent α)
  | .callPush item => some (.callPush item)
  | .retPush success => some (.retPush success)
  | .callPop => some .callPop
  | .retPop item => some (.retPop item)
  | _ => none

/-- A load sees the last store. -/
def FifoLabel.Fresh (s : CircularFifo α) : FifoLabel α → Prop
  | .pushLoad i => i + 1 = s.head.stores.length
  | .popLoad i => i + 1 = s.tail.stores.length
  | _ => True

instance (s : CircularFifo α) : DecidablePred (FifoLabel.Fresh s)
  | .callPush _ => isTrue trivial
  | .pushLoad i => inferInstanceAs (Decidable (i + 1 = s.head.stores.length))
  | .pushStep => isTrue trivial
  | .retPush _ => isTrue trivial
  | .callPop => isTrue trivial
  | .popLoad i => inferInstanceAs (Decidable (i + 1 = s.tail.stores.length))
  | .popStep => isTrue trivial
  | .retPop _ => isTrue trivial

/-- The items in `_array` from `_head` on, up to `_tail`. -/
def CircularFifo.content (size : Nat) (s : CircularFifo α) : List α :=
  (List.range ((s.tail.loadRelaxed + fifoCapacity size - s.head.loadRelaxed) % fifoCapacity size)).filterMap
    fun off => (s.array[(s.head.loadRelaxed + off) % fifoCapacity size]?).map FifoSlot.item

end Chiaki
