import Chiaki.Properties.ReorderQueue.Window
import Mathlib.Order.Bounds.Basic

/-!
# A dropped element stays in the reorder queue

`chiaki_reorder_queue_drop` passes an element to `drop_cb` and then looks for slots at the end that
are not set. It never clears the slot of the element itself.

* `DropRight` — what the callers rely on: the element is gone, the others are where they were
* `reorderQueueDrop_queue` — the queue after the call is the queue before it
* `reorderQueueDrop_never` — hence the call does what it is for in no queue
-/

namespace Chiaki

open ReorderQueue

variable {α : Type} {q : ReorderQueue α} {index : Nat}

/-- The element that `peek` finds at `index`. -/
def ReorderQueue.elementAt (q : ReorderQueue α) (index : Nat) : Nat × α :=
  (q.ops.add q.begin index, (q.entry (q.ops.add q.begin index)).user)

/-- The element at `index` leaves the queue. -/
structure DropRight (bits : Nat) (q : ReorderQueue α) (index : Nat) : Prop where
  /-- Whatever is called later, the element is neither returned nor passed to `drop_cb`, not even by
  `fini`, unless it is pushed again. -/
  gone : ∀ calls q' handed,
    (∀ seqNum user, .push seqNum user ∈ calls →
      narrow bits (seqNum, user) ≠ narrow bits (q.elementAt index)) →
    reorderQueueCalls (reorderQueueDrop q index).1 calls = .ok (q', handed) →
    ∀ p ∈ handed ++ reorderQueueFini q', narrow bits p ≠ narrow bits (q.elementAt index)
  begin : (reorderQueueDrop q index).1.begin = q.begin
  others : ∀ i, i ≠ index →
    reorderQueuePeek (reorderQueueDrop q index).1 i true = reorderQueuePeek q i true
  /-- Without the last element the queue ends after the last one that remains. -/
  trimmed : index + 1 = q.count →
    IsLeast {n | ∀ i < q.count, i ≠ index → q.slotAt i ≠ none → i < n}
      (reorderQueueDrop q index).1.count

/-- The loop that reduces the count stops at the dropped element. -/
theorem reorderQueueTrim_of_set {n seqNum : Nat} (hset : (q.entry seqNum).set = true) :
    reorderQueueTrim n q seqNum = q := by
  cases n with
  | zero => rfl
  | succ n => simp [reorderQueueTrim, hset]

theorem reorderQueueDrop_queue (q : ReorderQueue α) (index : Nat) :
    (reorderQueueDrop q index).1 = q := by
  unfold reorderQueueDrop
  split
  · rfl
  · cases hset : (q.entry (q.ops.add q.begin index)).set with
    | false => simp [hset]
    | true =>
      simp only [hset, Bool.not_true, Bool.false_eq_true, if_false]
      split
      · exact reorderQueueTrim_of_set hset
      · rfl

theorem reorderQueuePeek_elementAt (hindex : index < q.count)
    (hset : (q.entry (q.ops.add q.begin index)).set = true) :
    reorderQueuePeek q index true = .ok (some (q.elementAt index)) := by
  unfold reorderQueuePeek
  rw [if_neg (Nat.not_le_of_lt hindex)]
  simp [hset, elementAt]

/-- **The element can be peeked at, pulled and dropped as before.** -/
theorem reorderQueueDrop_never (bits : Nat) (hindex : index < q.count)
    (hset : (q.entry (q.ops.add q.begin index)).set = true) :
    (reorderQueueDrop q index).1 = q ∧ ¬ DropRight bits q index := by
  have hqueue := reorderQueueDrop_queue q index
  refine ⟨hqueue, ?_⟩
  intro h
  -- a peek right after the drop hands the element out
  have hcalls : reorderQueueCalls (reorderQueueDrop q index).1 [.peek index]
      = .ok (q, [q.elementAt index]) := by
    simp [hqueue, reorderQueueCalls, reorderQueueCall, reorderQueuePeek_elementAt hindex hset,
      bind, Except.bind, pure, Except.pure]
  exact h.gone [.peek index] q _ (by simp) hcalls (q.elementAt index) (by simp) rfl

/-- The queue of the example is filled, then its second element is dropped twice, then both are
pulled. -/
def pushesTwo : List (ReorderQueueCall Nat) := [.setDropCb, .push 42 7, .push 43 8]

def dropsTwice : List (ReorderQueueCall Nat) := [.drop 1, .drop 1, .pull, .pull]

theorem pushesTwo_run :
    ((Infra.Lts.runFun reorderQueueCallStep (.ok (reorderQueueInit32 4 42)) pushesTwo).bind
      Except.toOption).map (fun q => (q.count, (q.entry (q.ops.add q.begin 1)).set, q.elementAt 1,
        (reorderQueueCalls q dropsTwice).toOption.map Prod.snd))
      = some (2, true, (43, 8), some [(43, 8), (43, 8), (42, 7), (43, 8)]) := by
  decide +kernel

theorem pushesTwo_reachable : ∃ q : ReorderQueue Nat,
    (reorderQueueCallLts .bits32 4 42).Reachable (.ok q) ∧ q.count = 2 ∧
      (q.entry (q.ops.add q.begin 1)).set = true ∧ q.elementAt 1 = (43, 8) ∧
      ∃ q', reorderQueueCalls q dropsTwice = .ok (q', [(43, 8), (43, 8), (42, 7), (43, 8)]) := by
  obtain ⟨q, hq, hobs⟩ := Option.map_eq_some_iff.mp pushesTwo_run
  obtain ⟨s, hrun, hs⟩ := Option.bind_eq_some_iff.mp hq
  simp only [Prod.mk.injEq, Option.map_eq_some_iff] at hobs
  obtain ⟨hcount, hset, helement, r, hr, hhanded⟩ := hobs
  have hok : s = .ok q := by
    cases s with
    | error f => cases hs
    | ok q1 =>
      cases hs
      rfl
  refine ⟨q, .runFun (.init rfl) (hok ▸ hrun), hcount, hset, helement, r.1, ?_⟩
  cases hcalls : reorderQueueCalls q dropsTwice with
  | error f =>
    rw [hcalls] at hr
    cases hr
  | ok r1 =>
    rw [hcalls] at hr
    cases hr
    rw [← hhanded]

theorem reorderQueueDrop_never_pushesTwo :
    ∃ q : ReorderQueue Nat, (reorderQueueCallLts .bits32 4 42).Reachable (.ok q) ∧
      (reorderQueueDrop q 1).1 = q ∧ ¬ DropRight 32 q 1 := by
  obtain ⟨q, hr, hcount, hset, -⟩ := pushesTwo_reachable
  exact ⟨q, hr, reorderQueueDrop_never 32 (by omega) hset⟩

/-- **A second drop passes the element to `drop_cb` again, and then it is pulled.** -/
theorem not_dropRight :
    ∃ q : ReorderQueue Nat, (reorderQueueCallLts .bits32 4 42).Reachable (.ok q) ∧ 1 < q.count ∧
      (q.entry (q.ops.add q.begin 1)).set = true ∧
      (∃ q', reorderQueueCalls q dropsTwice = .ok (q', [(43, 8), (43, 8), (42, 7), (43, 8)])) ∧
      ¬ DropRight 32 q 1 := by
  obtain ⟨q, hr, hcount, hset, helement, q', hcalls⟩ := pushesTwo_reachable
  refine ⟨q, hr, by omega, hset, ⟨q', hcalls⟩, ?_⟩
  intro h
  -- nothing is pushed between the drops and the pulls
  have hpulled := h.gone dropsTwice q' _ (by simp [dropsTwice])
    (by rw [reorderQueueDrop_queue]; exact hcalls) (43, 8) (by simp)
  exact hpulled (by rw [helement])

end Chiaki
