import Chiaki.Android.CircularFifo
import Chiaki.Infra.Ring

/-!
# The queue with its two threads

With `n` items pushed and `m` items popped, `_tail` is `n % Capacity` and `_head` is `m % Capacity`
(`AtomicIndex.Counts`). A thread may see an old value of the other index. It then takes the queue for fuller, or for
emptier, than it is, and never touches an element that the other one may touch (`FifoInv`).

* `FifoMove` — what a step can do if the invariant holds
* `circularFifo_inv` — what holds in every run
* `circularFifo_simulates` — with loads that see the last store, the queue is an atomic one
-/

namespace Chiaki

open Infra

variable {α : Type} {size : Nat} {s s' : CircularFifo α} {l : FifoLabel α} {x : AtomicIndex} {n i j : Nat}

/-! ## Indices -/

/-- The stores of an index that has been incremented `n` times, each of them after one access to `_array`. -/
def AtomicIndex.Counts (size n : Nat) (x : AtomicIndex) : Prop :=
  x.stores = (List.range (n + 1)).map fun i => ⟨i % fifoCapacity size, i⟩

theorem AtomicIndex.counts_zero : AtomicIndex.zero.Counts size 0 := by
  simp [Counts, zero, fifoCapacity]

theorem AtomicIndex.Counts.length (h : x.Counts size n) : x.stores.length = n + 1 := by
  rw [h, List.length_map, List.length_range]

theorem AtomicIndex.Counts.loadRelaxed (h : x.Counts size n) : x.loadRelaxed = n % fifoCapacity size := by
  have hlast : x.stores.getLast? = some ⟨n % fifoCapacity size, n⟩ := by
    rw [h, List.range_succ, List.map_append]
    exact List.getLast?_concat
  rw [List.getLast?_eq_some_getLast x.ne_nil] at hlast
  rw [AtomicIndex.loadRelaxed, Option.some.inj hlast]

/-- What a load sees. -/
theorem AtomicIndex.Counts.loadAcquire (h : x.Counts size n) {store : ReleaseStore} {x' : AtomicIndex}
    (hload : x.loadAcquire i = some (store, x')) :
    x.seen ≤ i ∧ i ≤ n ∧ store = ⟨i % fifoCapacity size, i⟩ ∧ ∃ hi, x' = ⟨x.stores, i, hi⟩ := by
  unfold AtomicIndex.loadAcquire at hload
  split at hload
  · next hbounds =>
    cases hload
    obtain ⟨hseen, hi⟩ := hbounds
    have hle : i < n + 1 := by rwa [h.length] at hi
    have hstore : x.stores[i]? = some ⟨i % fifoCapacity size, i⟩ := by
      rw [h, List.getElem?_map, List.getElem?_range hle, Option.map_some]
    rw [List.getElem?_eq_getElem hi] at hstore
    exact ⟨hseen, Nat.le_of_lt_succ hle, Option.some.inj hstore, hi, rfl⟩
  · cases hload

theorem AtomicIndex.Counts.storeRelease (h : x.Counts size n) :
    (x.storeRelease ((n + 1) % fifoCapacity size) (n + 1)).Counts size (n + 1) := by
  show x.stores ++ [_] = _
  rw [h, List.range_succ (n := n + 1), List.map_append, List.map_singleton]

theorem fifoIncrement_mod : fifoIncrement size (n % fifoCapacity size) = (n + 1) % fifoCapacity size := by
  rw [fifoIncrement, Nat.mod_add_mod]

/-- The indices look the same only if the queue is full. -/
theorem fifo_full_iff (hle : i ≤ n) (hroom : n ≤ i + size) :
    (n + 1) % fifoCapacity size = i % fifoCapacity size ↔ n = i + size := by
  constructor
  · intro heq
    by_contra hne
    have hoff : n + 1 = i + (n + 1 - i) := by omega
    rw [hoff, ← Nat.add_zero i, Nat.add_assoc, Nat.zero_add] at heq
    have hlt : n + 1 - i < fifoCapacity size := by
      rw [fifoCapacity]
      omega
    have := Ring.idx_inj hlt (Nat.succ_pos size) heq
    omega
  · rintro rfl
    exact Nat.add_mod_right i (fifoCapacity size)

theorem fifo_empty_iff (hle : i ≤ n) (hroom : n ≤ i + size) :
    i % fifoCapacity size = n % fifoCapacity size ↔ i = n := by
  constructor
  · intro heq
    obtain ⟨off, rfl⟩ := Nat.exists_eq_add_of_le hle
    have hlt : off < fifoCapacity size := by
      rw [fifoCapacity]
      omega
    have := Ring.idx_inj (Nat.succ_pos size) hlt (by rw [Nat.add_zero]; exact heq)
    omega
  · rintro rfl
    rfl

/-! ## The invariant -/

/-- The item that is in `_array` already, with its index not stored yet. -/
def FifoPush.written : FifoPush α → List α
  | .store item _ => [item]
  | _ => []

/-- The item that has been read already. -/
def FifoPop.taken : FifoPop α → List α
  | .store item _ => [item]
  | _ => []

/-- What `push` knows. -/
def FifoPush.Sane (size n seen : Nat) : FifoPush α → Prop
  | .loadHead _ currentTail => currentTail = n % fifoCapacity size
  | .write _ currentTail nextTail =>
    currentTail = n % fifoCapacity size ∧ nextTail = (n + 1) % fifoCapacity size ∧ n < seen + size
  | .store _ nextTail => nextTail = (n + 1) % fifoCapacity size ∧ n < seen + size
  | .fault _ => False
  | _ => True

/-- What `pop` knows. -/
def FifoPop.Sane (size m seen : Nat) : FifoPop α → Prop
  | .loadTail currentHead => currentHead = m % fifoCapacity size
  | .read currentHead => currentHead = m % fifoCapacity size ∧ m < seen
  | .store _ currentHead => currentHead = m % fifoCapacity size ∧ m < seen
  | .fault _ => False
  | _ => True

/-- The last accesses to an element are accesses that have been made, and to this element. -/
structure FifoSlot.Ordered (size j writes reads : Nat) (slot : FifoSlot α) : Prop where
  written : ∀ i, slot.written = i + 1 → i < writes ∧ i % fifoCapacity size = j
  read : ∀ i, slot.read = i + 1 → i < reads ∧ i % fifoCapacity size = j

/-- All items that have been written to `_array`. -/
def CircularFifo.inputs (s : CircularFifo α) : List α := s.pushed ++ s.push.written

/-- All items that have been read from `_array`. -/
def CircularFifo.outputs (s : CircularFifo α) : List α := s.popped ++ s.pop.taken

structure FifoInv (size : Nat) (s : CircularFifo α) : Prop where
  tail : s.tail.Counts size s.pushed.length
  head : s.head.Counts size s.popped.length
  visibleReads : s.visibleReads = s.head.seen
  visibleWrites : s.visibleWrites = s.tail.seen
  writes : s.writes = s.inputs.length
  reads : s.reads = s.outputs.length
  length : s.array.length = fifoCapacity size
  room : s.pushed.length ≤ s.head.seen + size
  held : s.popped.length ≤ s.tail.seen
  ordered : ∀ j (slot : FifoSlot α), s.array[j]? = some slot → slot.Ordered size j s.writes s.reads
  holds : Ring.Holds (fun j => (s.array[j]?).map FifoSlot.item) (fifoCapacity size)
    (s.popped.length % fifoCapacity size) (s.inputs.length - s.popped.length) (fun i => s.inputs[i]?) s.popped.length
  fifo : s.outputs <+: s.pushed
  push : s.push.Sane size s.pushed.length s.head.seen
  pop : s.pop.Sane size s.popped.length s.tail.seen

theorem FifoInv.head_seen_le (h : FifoInv size s) : s.head.seen ≤ s.popped.length := by
  have hlt := s.head.seen_lt
  rw [h.head.length] at hlt
  omega

theorem FifoInv.tail_seen_le (h : FifoInv size s) : s.tail.seen ≤ s.pushed.length := by
  have hlt := s.tail.seen_lt
  rw [h.tail.length] at hlt
  omega

/-- Not more is written than fits behind what `push` has seen of `_head`. -/
theorem FifoInv.writes_le (h : FifoInv size s) : s.writes ≤ s.head.seen + size := by
  have hsane := h.push
  have hroom := h.room
  rw [h.writes, CircularFifo.inputs, List.length_append]
  cases hpush : s.push with
  | store item nextTail =>
    rw [hpush] at hsane
    exact hsane.2
  | _ => exact hroom

/-- The element for the next item exists, and every access of the other thread to it is visible. -/
theorem FifoInv.write_slot (h : FifoInv size s) (hlt : s.pushed.length < s.head.seen + size) :
    ∃ slot, s.array[s.pushed.length % fifoCapacity size]? = some slot ∧ slot.read ≤ s.visibleReads := by
  have hindex : s.pushed.length % fifoCapacity size < s.array.length := by
    rw [h.length]
    exact Nat.mod_lt _ (Nat.succ_pos size)
  refine ⟨_, List.getElem?_eq_getElem hindex, ?_⟩
  obtain ⟨-, hread⟩ := h.ordered _ _ (List.getElem?_eq_getElem hindex)
  generalize s.array[s.pushed.length % fifoCapacity size].read = read at hread
  -- the last read of the element was at least one round ago
  cases read with
  | zero => exact Nat.zero_le _
  | succ i =>
    obtain ⟨hi, hmod⟩ := hread i rfl
    have hout : s.reads ≤ s.pushed.length := by
      rw [h.reads]
      exact h.fifo.length_le
    rw [h.visibleReads]
    by_contra hnew
    obtain ⟨off, hoff⟩ := Nat.exists_eq_add_of_le (show i ≤ s.pushed.length by omega)
    have hsmall : off < fifoCapacity size := by
      rw [fifoCapacity]
      omega
    rw [hoff] at hmod
    have := Ring.idx_inj (Nat.succ_pos size) hsmall (by rw [Nat.add_zero]; exact hmod)
    omega

/-- The element of the next item exists, holds it, and every access of the other thread to it is visible. -/
theorem FifoInv.read_slot (h : FifoInv size s) (hlt : s.popped.length < s.tail.seen) :
    ∃ slot, s.array[s.popped.length % fifoCapacity size]? = some slot ∧ slot.written ≤ s.visibleWrites ∧
      s.pushed[s.popped.length]? = some slot.item := by
  have hindex : s.popped.length % fifoCapacity size < s.array.length := by
    rw [h.length]
    exact Nat.mod_lt _ (Nat.succ_pos size)
  have hseen := h.tail_seen_le
  have hhead := h.head_seen_le
  have hwrites := h.writes_le
  have hinputs : s.inputs.length = s.pushed.length + s.push.written.length := List.length_append
  refine ⟨_, List.getElem?_eq_getElem hindex, ?_, ?_⟩
  · obtain ⟨hwritten, -⟩ := h.ordered _ _ (List.getElem?_eq_getElem hindex)
    generalize s.array[s.popped.length % fifoCapacity size].written = written at hwritten
    -- the last write to the element is the one of this item
    cases written with
    | zero => exact Nat.zero_le _
    | succ i =>
      obtain ⟨hi, hmod⟩ := hwritten i rfl
      rw [h.visibleWrites]
      by_contra hnew
      obtain ⟨off, rfl⟩ := Nat.exists_eq_add_of_le (show s.popped.length ≤ i by omega)
      have hsmall : off < fifoCapacity size := by
        rw [fifoCapacity]
        omega
      have := Ring.idx_inj hsmall (Nat.succ_pos size) (by rw [Nat.add_zero]; exact hmod)
      omega
  · have hitem := h.holds 0 (by omega)
    simp only [Nat.add_zero, Nat.mod_mod] at hitem
    rw [List.getElem?_eq_getElem hindex, Option.map_some, CircularFifo.inputs,
      List.getElem?_append_left (by omega)] at hitem
    exact hitem.symm

/-! ## Steps -/

/-- What a step can do. -/
inductive FifoMove (size : Nat) (s : CircularFifo α) : FifoLabel α → CircularFifo α → Prop
  | callPush (item : α) (hpush : s.push = .idle) : FifoMove size s (.callPush item) { s with push := .loadTail item }
  | loadTail (item : α) (hpush : s.push = .loadTail item) :
    FifoMove size s .pushStep { s with push := .loadHead item (s.pushed.length % fifoCapacity size) }
  | seeRoom (item : α) (i : Nat) (hi : i < s.head.stores.length)
    (hpush : s.push = .loadHead item (s.pushed.length % fifoCapacity size))
    (hseen : s.head.seen ≤ i) (hroom : s.pushed.length < i + size) :
    FifoMove size s (.pushLoad i) { s with
      head := ⟨s.head.stores, i, hi⟩
      visibleReads := i
      push := .write item (s.pushed.length % fifoCapacity size) ((s.pushed.length + 1) % fifoCapacity size) }
  | seeFull (item : α) (i : Nat) (hi : i < s.head.stores.length)
    (hpush : s.push = .loadHead item (s.pushed.length % fifoCapacity size))
    (hseen : s.head.seen ≤ i) (hfull : s.pushed.length = i + size) :
    FifoMove size s (.pushLoad i)
      { s with head := ⟨s.head.stores, i, hi⟩, visibleReads := i, push := .ret false }
  | write (item : α) (slot : FifoSlot α)
    (hpush : s.push = .write item (s.pushed.length % fifoCapacity size)
      ((s.pushed.length + 1) % fifoCapacity size))
    (hroom : s.pushed.length < s.head.seen + size)
    (hslot : s.array[s.pushed.length % fifoCapacity size]? = some slot) :
    FifoMove size s .pushStep { s with
      array := s.array.set (s.pushed.length % fifoCapacity size) ⟨item, s.writes + 1, slot.read⟩
      writes := s.writes + 1
      push := .store item ((s.pushed.length + 1) % fifoCapacity size) }
  | storeTail (item : α) (hpush : s.push = .store item ((s.pushed.length + 1) % fifoCapacity size))
    (hroom : s.pushed.length < s.head.seen + size) :
    FifoMove size s .pushStep { s with
      tail := s.tail.storeRelease ((s.pushed.length + 1) % fifoCapacity size) s.writes
      pushed := s.pushed ++ [item]
      push := .ret true }
  | retPush (success : Bool) (hpush : s.push = .ret success) :
    FifoMove size s (.retPush success) { s with push := .idle }
  | callPop (hpop : s.pop = .idle) : FifoMove size s .callPop { s with pop := .loadHead }
  | loadHead (hpop : s.pop = .loadHead) :
    FifoMove size s .popStep { s with pop := .loadTail (s.popped.length % fifoCapacity size) }
  | seeItem (i : Nat) (hi : i < s.tail.stores.length)
    (hpop : s.pop = .loadTail (s.popped.length % fifoCapacity size))
    (hseen : s.tail.seen ≤ i) (hitem : s.popped.length < i) :
    FifoMove size s (.popLoad i) { s with
      tail := ⟨s.tail.stores, i, hi⟩
      visibleWrites := i
      pop := .read (s.popped.length % fifoCapacity size) }
  | seeEmpty (i : Nat) (hi : i < s.tail.stores.length)
    (hpop : s.pop = .loadTail (s.popped.length % fifoCapacity size))
    (hseen : s.tail.seen ≤ i) (hempty : s.popped.length = i) :
    FifoMove size s (.popLoad i)
      { s with tail := ⟨s.tail.stores, i, hi⟩, visibleWrites := i, pop := .ret none }
  | read (slot : FifoSlot α) (hpop : s.pop = .read (s.popped.length % fifoCapacity size))
    (hheld : s.popped.length < s.tail.seen)
    (hslot : s.array[s.popped.length % fifoCapacity size]? = some slot)
    (hitem : s.pushed[s.popped.length]? = some slot.item) :
    FifoMove size s .popStep { s with
      array := s.array.set (s.popped.length % fifoCapacity size) ⟨slot.item, slot.written, s.reads + 1⟩
      reads := s.reads + 1
      pop := .store slot.item (s.popped.length % fifoCapacity size) }
  | storeHead (item : α) (hpop : s.pop = .store item (s.popped.length % fifoCapacity size))
    (hheld : s.popped.length < s.tail.seen) :
    FifoMove size s .popStep { s with
      head := s.head.storeRelease ((s.popped.length + 1) % fifoCapacity size) s.reads
      popped := s.popped ++ [item]
      pop := .ret (some item) }
  | retPop (item : Option α) (hpop : s.pop = .ret item) :
    FifoMove size s (.retPop item) { s with pop := .idle }

theorem fifoPushStep_move (h : FifoInv size s) (hstep : fifoPushStep s = some s') : FifoMove size s .pushStep s' := by
  have hsane := h.push
  unfold fifoPushStep at hstep
  split at hstep
  · next item hpush =>
    cases hstep
    rw [h.tail.loadRelaxed]
    exact .loadTail item hpush
  · next item currentTail nextTail hpush =>
    rw [hpush] at hsane
    obtain ⟨rfl, rfl, hroom⟩ := hsane
    obtain ⟨slot, hslot, hvisible⟩ := h.write_slot hroom
    rw [hslot] at hstep
    simp only [hvisible, if_true] at hstep
    cases hstep
    exact .write item slot hpush hroom hslot
  · next item nextTail hpush =>
    rw [hpush] at hsane
    obtain ⟨rfl, hroom⟩ := hsane
    cases hstep
    exact .storeTail item hpush hroom
  · cases hstep

theorem fifoPushLoad_move (h : FifoInv size s) (hstep : fifoPushLoad size s i = some s') :
    FifoMove size s (.pushLoad i) s' := by
  have hsane := h.push
  have hheld := h.tail_seen_le.trans' h.held
  have hroom := h.room
  unfold fifoPushLoad at hstep
  split at hstep
  · next item currentTail hpush =>
    rw [hpush] at hsane
    obtain rfl : currentTail = _ := hsane
    cases hload : s.head.loadAcquire i with
    | none =>
      rw [hload] at hstep
      cases hstep
    | some loaded =>
      obtain ⟨store, head⟩ := loaded
      obtain ⟨hseen, hle, rfl, hi, rfl⟩ := h.head.loadAcquire hload
      rw [hload] at hstep
      cases hstep
      rw [fifoIncrement_mod, h.visibleReads, Nat.max_eq_right hseen]
      by_cases hfull : s.pushed.length = i + size
      · rw [if_neg fun hne => hne ((fifo_full_iff (by omega) (by omega)).mpr hfull)]
        exact .seeFull item i hi hpush hseen hfull
      · rw [if_pos fun heq => hfull ((fifo_full_iff (by omega) (by omega)).mp heq)]
        exact .seeRoom item i hi hpush hseen (by omega)
  · cases hstep

theorem fifoPopStep_move (h : FifoInv size s) (hstep : fifoPopStep size s = some s') :
    FifoMove size s .popStep s' := by
  have hsane := h.pop
  unfold fifoPopStep at hstep
  split at hstep
  · next hpop =>
    cases hstep
    rw [h.head.loadRelaxed]
    exact .loadHead hpop
  · next currentHead hpop =>
    rw [hpop] at hsane
    obtain ⟨rfl, hheld⟩ := hsane
    obtain ⟨slot, hslot, hvisible, hitem⟩ := h.read_slot hheld
    rw [hslot] at hstep
    simp only [hvisible, if_true] at hstep
    cases hstep
    exact .read slot hpop hheld hslot hitem
  · next item currentHead hpop =>
    rw [hpop] at hsane
    obtain ⟨rfl, hheld⟩ := hsane
    cases hstep
    rw [fifoIncrement_mod]
    exact .storeHead item hpop hheld
  · cases hstep

theorem fifoPopLoad_move (h : FifoInv size s) (hstep : fifoPopLoad s i = some s') :
    FifoMove size s (.popLoad i) s' := by
  have hsane := h.pop
  have hheld := h.held
  have hhead := h.head_seen_le
  have hroom := h.room
  unfold fifoPopLoad at hstep
  split at hstep
  · next currentHead hpop =>
    rw [hpop] at hsane
    obtain rfl : currentHead = _ := hsane
    cases hload : s.tail.loadAcquire i with
    | none =>
      rw [hload] at hstep
      cases hstep
    | some loaded =>
      obtain ⟨store, tail⟩ := loaded
      obtain ⟨hseen, hle, rfl, hi, rfl⟩ := h.tail.loadAcquire hload
      rw [hload] at hstep
      cases hstep
      rw [h.visibleWrites, Nat.max_eq_right hseen]
      by_cases hempty : s.popped.length = i
      · rw [if_pos ((fifo_empty_iff (by omega) (by omega)).mpr hempty)]
        exact .seeEmpty i hi hpop hseen hempty
      · rw [if_neg fun heq => hempty ((fifo_empty_iff (by omega) (by omega)).mp heq)]
        exact .seeItem i hi hpop hseen (by omega)
  · cases hstep

/-- No step leads to a fault. -/
theorem circularFifoStep_move [DecidableEq α] (h : FifoInv size s) (hstep : circularFifoStep size s l = some s') :
    FifoMove size s l s' := by
  cases l with
  | callPush item =>
    obtain ⟨hidle, ⟨⟩⟩ := Option.ite_none_right_eq_some.mp hstep
    exact .callPush item hidle
  | pushLoad i => exact fifoPushLoad_move h hstep
  | pushStep => exact fifoPushStep_move h hstep
  | retPush success =>
    obtain ⟨hret, ⟨⟩⟩ := Option.ite_none_right_eq_some.mp hstep
    exact .retPush success hret
  | callPop =>
    obtain ⟨hidle, ⟨⟩⟩ := Option.ite_none_right_eq_some.mp hstep
    exact .callPop hidle
  | popLoad i => exact fifoPopLoad_move h hstep
  | popStep => exact fifoPopStep_move h hstep
  | retPop item =>
    obtain ⟨hret, ⟨⟩⟩ := Option.ite_none_right_eq_some.mp hstep
    exact .retPop item hret

/-! ## Every step keeps the invariant -/

theorem FifoInv.setPush (h : FifoInv size s) {push : FifoPush α} (hwritten : push.written = s.push.written)
    (hsane : push.Sane size s.pushed.length s.head.seen) : FifoInv size { s with push := push } := by
  have hinputs : CircularFifo.inputs { s with push := push } = s.inputs := by
    rw [CircularFifo.inputs, CircularFifo.inputs, hwritten]
  refine { h with writes := ?_, holds := ?_, push := hsane }
  · rw [hinputs]
    exact h.writes
  · rw [hinputs]
    exact h.holds

theorem FifoInv.setPop (h : FifoInv size s) {pop : FifoPop α} (htaken : pop.taken = s.pop.taken)
    (hsane : pop.Sane size s.popped.length s.tail.seen) : FifoInv size { s with pop := pop } := by
  have houtputs : CircularFifo.outputs { s with pop := pop } = s.outputs := by
    rw [CircularFifo.outputs, CircularFifo.outputs, htaken]
  refine { h with reads := ?_, fifo := ?_, pop := hsane }
  · rw [houtputs]
    exact h.reads
  · rw [houtputs]
    exact h.fifo

/-- `push` sees a newer `_head`. -/
theorem FifoInv.seeHead (h : FifoInv size s) (hi : i < s.head.stores.length) (hseen : s.head.seen ≤ i)
    (hidle : ∀ item nextTail, s.push ≠ .store item nextTail) :
    FifoInv size { s with head := ⟨s.head.stores, i, hi⟩, visibleReads := i, push := .idle } := by
  have hwritten : s.push.written = [] := by
    cases hpush : s.push with
    | store item nextTail => exact absurd hpush (hidle item nextTail)
    | _ => rfl
  have hset := @FifoInv.setPush _ _ _ h .idle hwritten.symm trivial
  have hroom : s.pushed.length ≤ i + size := h.room.trans (Nat.add_le_add_right hseen size)
  exact { hset with head := h.head, visibleReads := rfl, room := hroom, push := trivial }

/-- `pop` sees a newer `_tail`. -/
theorem FifoInv.seeTail (h : FifoInv size s) (hi : i < s.tail.stores.length) (hseen : s.tail.seen ≤ i)
    (hidle : ∀ item currentHead, s.pop ≠ .store item currentHead) :
    FifoInv size { s with tail := ⟨s.tail.stores, i, hi⟩, visibleWrites := i, pop := .idle } := by
  have htaken : s.pop.taken = [] := by
    cases hpop : s.pop with
    | store item currentHead => exact absurd hpop (hidle item currentHead)
    | _ => rfl
  have hset := @FifoInv.setPop _ _ _ h .idle htaken.symm trivial
  have hheld : s.popped.length ≤ i := h.held.trans hseen
  exact { hset with tail := h.tail, visibleWrites := rfl, held := hheld, pop := trivial }

/-- The item comes to the free element behind the others. -/
theorem FifoInv.write (h : FifoInv size s) {item : α} {currentTail nextTail : Nat} {slot : FifoSlot α}
    (hpush : s.push = .write item currentTail nextTail) (hroom : s.pushed.length < s.head.seen + size)
    (hslot : s.array[s.pushed.length % fifoCapacity size]? = some slot) :
    FifoInv size { s with
      array := s.array.set (s.pushed.length % fifoCapacity size) ⟨item, s.writes + 1, slot.read⟩
      writes := s.writes + 1
      push := .store item ((s.pushed.length + 1) % fifoCapacity size) } := by
  have hinputs : s.inputs = s.pushed := by
    rw [CircularFifo.inputs, hpush]
    exact List.append_nil _
  have hwrites : s.writes = s.pushed.length := by rw [h.writes, hinputs]
  have hle := h.held.trans h.tail_seen_le
  have hseen := h.head_seen_le
  have hfit : s.pushed.length - s.popped.length + 1 ≤ fifoCapacity size := by
    rw [fifoCapacity]
    omega
  have hindex : s.pushed.length % fifoCapacity size < s.array.length := by
    rw [h.length]
    exact Nat.mod_lt _ (Nat.succ_pos size)
  have hplace : (s.popped.length % fifoCapacity size + (s.pushed.length - s.popped.length)) % fifoCapacity size
      = s.pushed.length % fifoCapacity size := by
    rw [Nat.mod_add_mod, Nat.add_sub_cancel' hle]
  have hholds := h.holds
  rw [hinputs] at hholds
  refine { h with writes := ?_, length := ?_, ordered := ?_, holds := ?_, push := ⟨rfl, hroom⟩ }
  · show s.writes + 1 = (s.pushed ++ [item]).length
    rw [hwrites, List.length_append, List.length_singleton]
  · rw [List.length_set, h.length]
  · intro j slot' hslot'
    rcases eq_or_ne (s.pushed.length % fifoCapacity size) j with rfl | hne
    · rw [List.getElem?_set_self hindex] at hslot'
      cases hslot'
      refine ⟨fun i hi => ?_, (h.ordered _ _ hslot).read⟩
      obtain rfl : s.writes = i := Nat.succ.inj hi
      exact ⟨Nat.lt_succ_self _, by rw [hwrites]⟩
    · rw [List.getElem?_set_ne hne] at hslot'
      obtain ⟨hwritten, hread⟩ := h.ordered _ _ hslot'
      exact ⟨fun i hi => ⟨Nat.lt_succ_of_lt (hwritten i hi).1, (hwritten i hi).2⟩, hread⟩
  · show Ring.Holds _ _ _ ((s.pushed ++ [item]).length - s.popped.length) (fun i => (s.pushed ++ [item])[i]?) _
    rw [List.length_append, List.length_singleton, Nat.sub_add_comm hle]
    refine hholds.snoc hfit ?_ (fun j hj => ?_) fun off hoff => ?_
    · rw [hplace, Nat.add_sub_cancel' hle]
      simp only [List.getElem?_set_self hindex, Option.map_some, List.getElem?_concat_length]
    · rw [hplace] at hj
      simp only [List.getElem?_set_ne hj.symm]
    · exact List.getElem?_append_left (by omega)

theorem FifoInv.storeTail (h : FifoInv size s) {item : α} {nextTail : Nat} (hpush : s.push = .store item nextTail)
    (hroom : s.pushed.length < s.head.seen + size) :
    FifoInv size { s with
      tail := s.tail.storeRelease ((s.pushed.length + 1) % fifoCapacity size) s.writes
      pushed := s.pushed ++ [item]
      push := .ret true } := by
  have hinputs : s.inputs = s.pushed ++ [item] := by rw [CircularFifo.inputs, hpush, FifoPush.written]
  have hwrites : s.writes = s.pushed.length + 1 := by
    rw [h.writes, hinputs, List.length_append, List.length_singleton]
  have hlength : (s.pushed ++ [item]).length = s.pushed.length + 1 := List.length_append
  have hsame : (s.pushed ++ [item]) ++ (FifoPush.ret true : FifoPush α).written = s.inputs := by
    rw [hinputs]
    exact List.append_nil _
  refine { h with tail := ?_, writes := ?_, room := ?_, holds := ?_, fifo := ?_, push := trivial }
  · rw [hlength, hwrites]
    exact h.tail.storeRelease
  · rw [CircularFifo.inputs, hsame]
    exact h.writes
  · rw [hlength]
    exact hroom
  · rw [CircularFifo.inputs, hsame]
    exact h.holds
  · exact h.fifo.trans (List.prefix_append _ _)

/-- Reading does not change what the elements hold. -/
theorem FifoInv.read (h : FifoInv size s) {currentHead : Nat} {slot : FifoSlot α} (hpop : s.pop = .read currentHead)
    (hheld : s.popped.length < s.tail.seen) (hslot : s.array[s.popped.length % fifoCapacity size]? = some slot)
    (hitem : s.pushed[s.popped.length]? = some slot.item) :
    FifoInv size { s with
      array := s.array.set (s.popped.length % fifoCapacity size) ⟨slot.item, slot.written, s.reads + 1⟩
      reads := s.reads + 1
      pop := .store slot.item (s.popped.length % fifoCapacity size) } := by
  have houtputs : s.outputs = s.popped := by
    rw [CircularFifo.outputs, hpop]
    exact List.append_nil _
  have hreads : s.reads = s.popped.length := by rw [h.reads, houtputs]
  have hindex : s.popped.length % fifoCapacity size < s.array.length := by
    rw [h.length]
    exact Nat.mod_lt _ (Nat.succ_pos size)
  have hfifo := h.fifo
  rw [houtputs] at hfifo
  refine { h with
    reads := ?_, length := ?_, ordered := ?_, holds := ?_, fifo := ?_, pop := ⟨rfl, hheld⟩ }
  · show s.reads + 1 = (s.popped ++ [slot.item]).length
    rw [hreads, List.length_append, List.length_singleton]
  · rw [List.length_set, h.length]
  · intro j slot' hslot'
    rcases eq_or_ne (s.popped.length % fifoCapacity size) j with rfl | hne
    · rw [List.getElem?_set_self hindex] at hslot'
      cases hslot'
      refine ⟨(h.ordered _ _ hslot).written, fun i hi => ?_⟩
      obtain rfl : s.reads = i := Nat.succ.inj hi
      exact ⟨Nat.lt_succ_self _, by rw [hreads]⟩
    · rw [List.getElem?_set_ne hne] at hslot'
      obtain ⟨hwritten, hread⟩ := h.ordered _ _ hslot'
      exact ⟨hwritten, fun i hi => ⟨Nat.lt_succ_of_lt (hread i hi).1, (hread i hi).2⟩⟩
  · intro off hoff
    have hold := h.holds off hoff
    generalize (s.popped.length % fifoCapacity size + off) % fifoCapacity size = j at hold ⊢
    rcases eq_or_ne (s.popped.length % fifoCapacity size) j with rfl | hne
    · simp only [hslot, Option.map_some] at hold
      simp only [List.getElem?_set_self hindex, Option.map_some]
      exact hold
    · simp only [List.getElem?_set_ne hne]
      exact hold
  · obtain ⟨rest, hrest⟩ := hfifo
    cases rest with
    | nil =>
      rw [List.append_nil] at hrest
      rw [← hrest, List.getElem?_eq_none (Nat.le_refl _)] at hitem
      cases hitem
    | cons head rest =>
      rw [← hrest, List.getElem?_append_right (Nat.le_refl _), Nat.sub_self] at hitem
      cases hitem
      exact ⟨rest, by rw [← hrest, CircularFifo.outputs, FifoPop.taken, List.append_assoc, List.singleton_append]⟩

theorem FifoInv.storeHead (h : FifoInv size s) {item : α} {currentHead : Nat} (hpop : s.pop = .store item currentHead)
    (hheld : s.popped.length < s.tail.seen) :
    FifoInv size { s with
      head := s.head.storeRelease ((s.popped.length + 1) % fifoCapacity size) s.reads
      popped := s.popped ++ [item]
      pop := .ret (some item) } := by
  have houtputs : s.outputs = s.popped ++ [item] := by rw [CircularFifo.outputs, hpop, FifoPop.taken]
  have hreads : s.reads = s.popped.length + 1 := by
    rw [h.reads, houtputs, List.length_append, List.length_singleton]
  have hlength : (s.popped ++ [item]).length = s.popped.length + 1 := List.length_append
  have hsame : (s.popped ++ [item]) ++ (FifoPop.ret (some item) : FifoPop α).taken = s.outputs := by
    rw [houtputs]
    exact List.append_nil _
  have hcount : s.popped.length + 1 ≤ s.inputs.length := by
    have hseen := h.tail_seen_le
    rw [CircularFifo.inputs, List.length_append]
    omega
  refine { h with head := ?_, reads := ?_, held := ?_, holds := ?_, fifo := ?_, pop := trivial }
  · rw [hlength, hreads]
    exact h.head.storeRelease
  · rw [CircularFifo.outputs, hsame]
    exact h.reads
  · rw [hlength]
    exact hheld
  · have hnext := h.holds.advance (k := 1) (by omega)
    rw [hlength, ← Nat.sub_sub, ← Nat.mod_add_mod]
    exact hnext
  · rw [CircularFifo.outputs, hsame]
    exact h.fifo

/-- Every step keeps the invariant. -/
theorem FifoMove.inv (h : FifoInv size s) (hmove : FifoMove size s l s') : FifoInv size s' := by
  cases hmove with
  | callPush item hpush => exact h.setPush (by rw [hpush]; rfl) trivial
  | loadTail item hpush => exact h.setPush (by rw [hpush]; rfl) rfl
  | seeRoom item i hi hpush hseen hroom =>
    exact (h.seeHead hi hseen (by simp [hpush])).setPush rfl ⟨rfl, rfl, hroom⟩
  | seeFull item i hi hpush hseen hfull =>
    exact (h.seeHead hi hseen (by simp [hpush])).setPush rfl trivial
  | write item slot hpush hroom hslot => exact h.write hpush hroom hslot
  | storeTail item hpush hroom => exact h.storeTail hpush hroom
  | retPush success hpush => exact h.setPush (by rw [hpush]; rfl) trivial
  | callPop hpop => exact h.setPop (by rw [hpop]; rfl) trivial
  | loadHead hpop => exact h.setPop (by rw [hpop]; rfl) rfl
  | seeItem i hi hpop hseen hitem =>
    exact (h.seeTail hi hseen (by simp [hpop])).setPop rfl ⟨rfl, hitem⟩
  | seeEmpty i hi hpop hseen hempty =>
    exact (h.seeTail hi hseen (by simp [hpop])).setPop rfl trivial
  | read slot hpop hheld hslot hitem => exact h.read hpop hheld hslot hitem
  | storeHead item hpop hheld => exact h.storeHead hpop hheld
  | retPop item hpop => exact h.setPop (by rw [hpop]; rfl) trivial

theorem circularFifo_init_inv {memory : List α} (hmemory : memory.length = fifoCapacity size) :
    FifoInv size (circularFifoInit memory) where
  tail := AtomicIndex.counts_zero
  head := AtomicIndex.counts_zero
  visibleReads := rfl
  visibleWrites := rfl
  writes := rfl
  reads := rfl
  length := by
    rw [← hmemory]
    exact List.length_map _
  room := Nat.zero_le _
  held := Nat.zero_le _
  ordered := by
    intro j slot hslot
    obtain ⟨item, -, rfl⟩ := List.mem_map.mp (List.mem_of_getElem? hslot)
    exact ⟨fun i hi => absurd hi (Nat.zero_ne_add_one i), fun i hi => absurd hi (Nat.zero_ne_add_one i)⟩
  holds := Ring.holds_zero _ _ _ _ _
  fifo := List.nil_prefix
  push := trivial
  pop := trivial

theorem circularFifo_inv [DecidableEq α] : (circularFifoLts (α := α) size).Invariant (FifoInv size) where
  init := by
    rintro _ ⟨memory, hmemory, rfl⟩
    exact circularFifo_init_inv hmemory
  step := fun _ _ _ h hstep => (circularFifoStep_move h hstep).inv h

/-! ## What is in the queue -/

theorem filterMap_range_getElem? {l : List α} {f : Nat → Option α} (h : ∀ i, i < l.length → f i = l[i]?) :
    (List.range l.length).filterMap f = l := by
  induction l generalizing f with
  | nil => rfl
  | cons a l ih =>
    have hhead : f 0 = some a := h 0 (Nat.zero_lt_succ _)
    have htail : (List.range l.length).filterMap (fun i => f (i + 1)) = l :=
      ih fun i hi => h (i + 1) (Nat.succ_lt_succ hi)
    rw [List.length_cons, List.range_succ_eq_map, List.filterMap_cons_some hhead, List.filterMap_map]
    exact congrArg (a :: ·) htail

/-- `_array` from `_head` to `_tail` holds what has been pushed and not popped. -/
theorem FifoInv.content_eq (h : FifoInv size s) : s.content size = s.pushed.drop s.popped.length := by
  have hle := h.held.trans h.tail_seen_le
  have hlt : s.pushed.length - s.popped.length < fifoCapacity size := by
    have hroom := h.room
    have hseen := h.head_seen_le
    rw [fifoCapacity]
    omega
  have hcount : (s.pushed.length % fifoCapacity size + fifoCapacity size - s.popped.length % fifoCapacity size)
      % fifoCapacity size = s.pushed.length - s.popped.length := by
    obtain ⟨d, hd⟩ := Nat.exists_eq_add_of_le hle
    have hbelow : s.popped.length % fifoCapacity size < fifoCapacity size := Nat.mod_lt _ (Nat.succ_pos size)
    rw [hd, Nat.add_sub_cancel_left] at hlt ⊢
    rw [Nat.add_mod s.popped.length d, Nat.mod_eq_of_lt hlt]
    generalize s.popped.length % fifoCapacity size = start at hbelow ⊢
    rcases Nat.lt_or_ge (start + d) (fifoCapacity size) with hsum | hsum
    · rw [Nat.mod_eq_of_lt hsum, show start + d + fifoCapacity size - start = d + fifoCapacity size by omega,
        Nat.add_mod_right, Nat.mod_eq_of_lt hlt]
    · rw [Nat.mod_eq_sub_mod hsum, Nat.mod_eq_of_lt (show start + d - fifoCapacity size < fifoCapacity size by omega),
        show start + d - fifoCapacity size + fifoCapacity size - start = d by omega, Nat.mod_eq_of_lt hlt]
  unfold CircularFifo.content
  rw [h.tail.loadRelaxed, h.head.loadRelaxed, hcount, ← List.length_drop]
  refine filterMap_range_getElem? fun off hoff => ?_
  rw [List.length_drop] at hoff
  have hinputs : s.inputs.length = s.pushed.length + s.push.written.length := List.length_append
  have hitem := h.holds off (by omega)
  simp only at hitem
  rw [hitem, CircularFifo.inputs, List.getElem?_append_left (by omega), List.getElem?_drop]

/-- **Without a lock, and even if the threads see old indices, no access to the array is a race, and the items come
out in the order in which they went in, each of them once.** -/
theorem circularFifo_safe [DecidableEq α] (hr : (circularFifoLts size).Reachable s) :
    (∀ f, s.push ≠ .fault f) ∧ (∀ f, s.pop ≠ .fault f) ∧
      s.pushed = s.popped ++ s.content size ∧ (s.content size).length ≤ size := by
  have h := circularFifo_inv.reachable hr
  have hpopped : s.popped <+: s.pushed := (List.prefix_append _ _).trans h.fifo
  refine ⟨fun f hf => ?_, fun f hf => ?_, ?_, ?_⟩
  · have hsane := h.push
    rw [hf] at hsane
    exact hsane
  · have hsane := h.pop
    rw [hf] at hsane
    exact hsane
  · rw [h.content_eq]
    obtain ⟨rest, hrest⟩ := hpopped
    rw [← hrest, List.drop_left]
  · have hroom := h.room
    have hseen := h.head_seen_le
    rw [h.content_eq, List.length_drop]
    omega

/-- One item is pushed and popped, and a second one is pushed behind a load of `_head` that sees this. -/
def exampleFifoRun : List (FifoLabel Nat) :=
  [.callPush 7, .pushStep, .pushLoad 0, .pushStep, .pushStep, .retPush true,
    .callPop, .popStep, .popLoad 1, .popStep, .callPush 8, .pushStep, .popStep, .pushLoad 1, .pushStep, .pushStep]

theorem circularFifo_safe_twice : ∃ s, Lts.runFun (circularFifoStep 1) (circularFifoInit [0, 0]) exampleFifoRun = some s ∧
    s.pushed = [7, 8] ∧ s.popped = [7] ∧ s.content 1 = [8] := by
  have hrun : (Lts.runFun (circularFifoStep 1) (circularFifoInit [0, 0]) exampleFifoRun).map
      (fun s => (s.pushed, s.popped)) = some ([7, 8], [7]) := by
    decide +kernel
  obtain ⟨s, hs, hitems⟩ := Option.map_eq_some_iff.mp hrun
  obtain ⟨hpushed, hpopped⟩ := Prod.mk.inj hitems
  have hinit : (circularFifoLts 1).Reachable (circularFifoInit [0, 0]) := .init ⟨[0, 0], rfl, rfl⟩
  have hr : (circularFifoLts 1).Reachable s := hinit.runFun hs
  have hcontent := (circularFifo_safe hr).2.2.1
  rw [hpushed, hpopped] at hcontent
  exact ⟨s, hs, hpushed, hpopped, List.append_cancel_left (hcontent.symm.trans rfl)⟩

/-! ## The queue that it stands for -/

def FifoPush.abstract : FifoPush α → QueuePush α
  | .idle => .idle
  | .loadTail item => .called item
  | .loadHead item _ => .called item
  | .write item _ _ => .called item
  | .store item _ => .called item
  | .ret success => .done success
  | .fault _ => .idle

def FifoPop.abstract : FifoPop α → QueuePop α
  | .idle => .idle
  | .loadHead => .called
  | .loadTail _ => .called
  | .read _ => .called
  | .store _ _ => .called
  | .ret item => .done item
  | .fault _ => .idle

def CircularFifo.abstract (s : CircularFifo α) : AtomicQueue α :=
  ⟨s.pushed.drop s.popped.length, s.push.abstract, s.pop.abstract⟩

/-- `push` acts with its store to `_tail`, or, if the queue is full, with its load of `_head`. -/
theorem FifoMove.push_acts (h : FifoInv size s) (hmove : FifoMove size s l s') (hfresh : l.Fresh s)
    (hl : l = .pushStep ∨ l = .pushLoad i) :
    s'.abstract = s.abstract ∨ AtomicQueue.Step (boundedOffer size) poll s.abstract .push s'.abstract := by
  have hle := h.held.trans h.tail_seen_le
  have hseen := h.head_seen_le
  cases hmove with
  | loadTail item hpush =>
    left
    simp [CircularFifo.abstract, hpush, FifoPush.abstract]
  | seeRoom item i hi hpush hseen hroom =>
    left
    simp [CircularFifo.abstract, hpush, FifoPush.abstract]
  | seeFull item i hi hpush hseen hfull =>
    right
    have hlast : i = s.popped.length := by
      have hlength := h.head.length
      have hnewest : i + 1 = s.head.stores.length := hfresh
      omega
    have hbound : size ≤ (s.pushed.drop s.popped.length).length := by
      rw [List.length_drop]
      omega
    simp only [CircularFifo.abstract, hpush]
    exact .full _ _ item (boundedOffer_of_le hbound)
  | write item slot hpush hroom hslot =>
    left
    simp [CircularFifo.abstract, hpush, FifoPush.abstract]
  | storeTail item hpush hroom =>
    right
    have hbound : (s.pushed.drop s.popped.length).length < size := by
      rw [List.length_drop]
      omega
    simp only [CircularFifo.abstract, hpush, List.drop_append_of_le_length hle]
    exact .push _ _ _ item (boundedOffer_of_lt hbound)
  | _ => rcases hl with hl | hl <;> cases hl

/-- `pop` acts with its store to `_head`, or, if the queue is empty, with its load of `_tail`. -/
theorem FifoMove.pop_acts (h : FifoInv size s) (hmove : FifoMove size s l s') (hfresh : l.Fresh s)
    (hl : l = .popStep ∨ l = .popLoad i) :
    s'.abstract = s.abstract ∨ AtomicQueue.Step (boundedOffer size) poll s.abstract .pop s'.abstract := by
  cases hmove with
  | loadHead hpop =>
    left
    simp [CircularFifo.abstract, hpop, FifoPop.abstract]
  | seeItem i hi hpop hseen hitem =>
    left
    simp [CircularFifo.abstract, hpop, FifoPop.abstract]
  | seeEmpty i hi hpop hseen hempty =>
    right
    have hlast : s.pushed.length ≤ s.popped.length := by
      have hlength := h.tail.length
      have hnewest : i + 1 = s.tail.stores.length := hfresh
      omega
    simp only [CircularFifo.abstract, hpop, List.drop_eq_nil_of_le hlast]
    exact .empty _ _ rfl
  | read slot hpop hheld hslot hitem =>
    left
    simp [CircularFifo.abstract, hpop, FifoPop.abstract]
  | storeHead item hpop hheld =>
    right
    obtain ⟨rest, hrest⟩ := h.fifo
    rw [CircularFifo.outputs, hpop, FifoPop.taken, List.append_assoc] at hrest
    have hnow : s.pushed.drop s.popped.length = item :: rest := by
      rw [← hrest]
      exact List.drop_left
    have hnext : s.pushed.drop (s.popped ++ [item]).length = rest := by
      rw [← hrest, ← List.append_assoc]
      exact List.drop_left
    simp only [CircularFifo.abstract, hpop, hnow, hnext]
    exact .pop _ _ _ item rfl
  | _ => rcases hl with hl | hl <;> cases hl

/-- A call or a return is one of the queue. -/
theorem FifoMove.event (hmove : FifoMove size s l s') {e : QueueEvent α} (he : l.shown = some e) :
    AtomicQueue.Step (boundedOffer size) poll s.abstract (.event e) s'.abstract := by
  cases hmove with
  | callPush item hpush =>
    cases he
    simp only [CircularFifo.abstract, hpush]
    exact .callPush _ _ item
  | retPush success hpush =>
    cases he
    simp only [CircularFifo.abstract, hpush]
    exact .retPush _ _ success
  | callPop hpop =>
    cases he
    simp only [CircularFifo.abstract, hpop]
    exact .callPop _ _
  | retPop item hpop =>
    cases he
    simp only [CircularFifo.abstract, hpop]
    exact .retPop _ _ item
  | _ => cases he

theorem circularFifo_simulates [DecidableEq α] :
    Lts.Simulates ((circularFifoLts (α := α) size).restrict fun s l => l.Fresh s)
      (atomicQueueLts (boundedOffer size) poll) FifoLabel.shown QueueLabel.shown
      fun s a => FifoInv size s ∧ a = s.abstract where
  init := by
    rintro _ ⟨memory, hmemory, rfl⟩
    exact ⟨_, rfl, circularFifo_init_inv hmemory, rfl⟩
  step := by
    rintro s _ l s' ⟨h, rfl⟩ ⟨hfresh, hstep⟩
    have hmove := circularFifoStep_move h hstep
    refine ⟨s'.abstract, ?_, hmove.inv h, rfl⟩
    -- an operation that acts is not seen, and a step before or after that changes nothing
    have hsilent {k : QueueLabel α} (hk : k.shown = none)
        (hacts : s'.abstract = s.abstract ∨ AtomicQueue.Step (boundedOffer size) poll s.abstract k s'.abstract) :
        (atomicQueueLts (boundedOffer size) poll).Steps QueueLabel.shown s.abstract [] s'.abstract := by
      rcases hacts with hsame | hacts
      · rw [hsame]
        exact .refl
      · exact .of_step hacts (by rw [hk]; rfl)
    cases l with
    | pushLoad i => exact hsilent rfl (hmove.push_acts h hfresh (.inr rfl))
    | pushStep => exact hsilent rfl (hmove.push_acts (i := 0) h hfresh (.inl rfl))
    | popLoad i => exact hsilent rfl (hmove.pop_acts h hfresh (.inr rfl))
    | popStep => exact hsilent rfl (hmove.pop_acts (i := 0) h hfresh (.inl rfl))
    | callPush item => exact .of_step (hmove.event rfl) rfl
    | retPush success => exact .of_step (hmove.event rfl) rfl
    | callPop => exact .of_step (hmove.event rfl) rfl
    | retPop item => exact .of_step (hmove.event rfl) rfl

/-- **If every load sees the last store, the queue is one that acts at once:** all that its callers can see, in
whatever order the threads take their steps, they could see of it. -/
theorem circularFifo_linearizable [DecidableEq α] {trace : List (QueueEvent α)}
    (hrun : ((circularFifoLts size).restrict fun s l => l.Fresh s).Run FifoLabel.shown trace s) :
    ∃ a, (atomicQueueLts (boundedOffer size) poll).Run QueueLabel.shown trace a := by
  obtain ⟨a, ha, -⟩ := circularFifo_simulates.run hrun
  exact ⟨a, ha⟩

/-- `pop` finds nothing while `push` has not stored its index, and the next `push` finds no room. -/
theorem circularFifo_linearizable_interleaved :
    ∃ a, (atomicQueueLts (boundedOffer 1) poll).Run QueueLabel.shown
      [.callPush 5, .callPop, .retPop none, .retPush true, .callPush 6, .retPush false] a := by
  have hinit : ((circularFifoLts 1).restrict fun s l => l.Fresh s).Run FifoLabel.shown []
      (circularFifoInit [0, 0]) := .init ⟨[0, 0], rfl, rfl⟩
  have hsteps : ∃ s, Lts.runFun (Lts.guarded (circularFifoStep 1) fun s l => l.Fresh s) (circularFifoInit [0, 0])
      [.callPush 5, .pushStep, .pushLoad 0, .callPop, .popStep, .pushStep, .popLoad 0, .pushStep, .retPop none,
        .retPush true, .callPush 6, .pushStep, .pushLoad 0, .retPush false] = some s := ⟨_, rfl⟩
  obtain ⟨s, hs⟩ := hsteps
  exact circularFifo_linearizable (hinit.runGuarded hs)

/-! ## The queues of the circular buffer -/

theorem circularFifoPush_eq {chunksCount : Nat} :
    (circularFifoPush : List (Fin chunksCount) → _) = boundedOffer chunksCount := rfl

theorem circularFifoPop_eq {chunksCount : Nat} : (circularFifoPop : List (Fin chunksCount) → _) = poll := by
  funext queue
  cases queue with
  | nil => rfl
  | cons chunk queue => rfl

/-- The operations of `full_queue` and `free_queue` may be taken for single steps. -/
theorem circularFifo_run_chunks {chunksCount : Nat} {s : CircularFifo (Fin chunksCount)}
    {trace : List (QueueEvent (Fin chunksCount))}
    (hrun : ((circularFifoLts chunksCount).restrict fun s l => l.Fresh s).Run FifoLabel.shown trace s) :
    (atomicQueueLts circularFifoPush circularFifoPop).Run QueueLabel.shown trace s.abstract := by
  rw [circularFifoPush_eq, circularFifoPop_eq]
  obtain ⟨_, ha, -, rfl⟩ := circularFifo_simulates.run hrun
  exact ha

end Chiaki
