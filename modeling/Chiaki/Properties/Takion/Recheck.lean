import Chiaki.Properties.ReorderQueue.Window
import Chiaki.Properties.Takion.Authentication

/-!
# The re-check of the packets in the queue

When the keys are there, the thread goes through the queue and checks the MACs of the packets that
arrived before. It asks `chiaki_reorder_queue_peek` for each of them without a place for the number.

* `takionRecheckLoop_empty` — over empty slots the loop runs to its end
* `takionRecheckLoop_stored` — it does not get past an element
-/

namespace Chiaki

open Infra

variable {κ : Type} {gmac : κ → Nat → Bytes → Mac} {t t' : Takion κ} {i : Nat}

/-! ## The loop -/

/-- The element that the next round passes to `takion_handle_packet_mac`, and what comes back. -/
def takionRecheckMac (gmac : κ → Nat → Bytes → Mac) (t : Takion κ) :
    Option (Nat × TakionDataPacketEntry × ErrorCode) :=
  match t.pc with
  | .recheck i =>
    match reorderQueuePeek t.dataQueue i false with
    | .ok (some (seqNum, entry)) =>
      if entry.packetBuf.bytes.length = 0 then none
      else some (seqNum, entry, (takionHandlePacketMac gmac t entry.packetBuf).2.2)
    | _ => none
  | _ => none

/-- `n` steps of the thread, with the elements that were checked. -/
def takionRecheckLoop (gmac : κ → Nat → Bytes → Mac) :
    Nat → Takion κ → Takion κ × List (Nat × TakionDataPacketEntry × ErrorCode)
  | 0, t => (t, [])
  | n + 1, t =>
    match takionRun gmac t true none with
    | none => (t, [])
    | some t' =>
      let r := takionRecheckLoop gmac n t'
      (r.1, (takionRecheckMac gmac t).toList ++ r.2)

/-- What the loop is for: it comes to its end, has checked each element of the queue once, and leaves
those whose MAC was right. -/
structure TakionRechecked (t t' : Takion κ)
    (checked : List (Nat × TakionDataPacketEntry × ErrorCode)) : Prop where
  done : t'.pc = .postponed
  once : (checked.map fun c => (c.1, c.2.1)).Perm (t.dataQueue.stored 32)
  right : (t'.dataQueue.stored 32).Perm
    ((checked.filter fun c => c.2.2 = .success).map fun c => (c.1, c.2.1))

/-! ## One round -/

theorem stored_eq_nil_iff {α : Type} [Inhabited α] (q : ReorderQueue α) (bits : Nat) :
    q.stored bits = [] ↔ ∀ i x, ¬ Window.Stored q.window i x := by
  have helems : Window.elems q.window = (q.stored bits).map Prod.snd := Window.elems_eq_labelled _ _
  constructor
  · intro hnil i x hx
    have hmem : x ∈ Window.elems q.window := Window.mem_elems.mpr ⟨i, hx⟩
    rw [helems, hnil] at hmem
    cases hmem
  · intro hno
    rw [← List.map_eq_nil_iff, ← helems, List.eq_nil_iff_forall_not_mem]
    intro x hx
    obtain ⟨i, hi⟩ := Window.mem_elems.mp hx
    exact hno i x hi

theorem takionRun_recheckDue (hpc : t.pc = .loop) (hdue : t.recheckDue) (mem : Bool)
    (installed : Option (κ × κ)) :
    takionRun gmac t mem installed = some ({ t with cryptAvailable := true }.goto (.recheck 0)) := by
  obtain ⟨henable, havailable, hremote⟩ := hdue
  simp [takionRun, hpc, henable, havailable, hremote]

theorem takionRun_recheck (hpc : t.pc = .recheck i) (mem : Bool) (installed : Option (κ × κ)) :
    takionRun gmac t mem installed = some (takionRecheck gmac t i) := by
  simp only [takionRun, hpc]

theorem takionRecheck_end (h : t.dataQueue.count ≤ i) : takionRecheck gmac t i = t.goto .postponed :=
  if_pos h

theorem takionRecheck_empty (h : i < t.dataQueue.count)
    (hempty : ∀ x, ¬ Window.Stored t.dataQueue.window i x) :
    takionRecheck gmac t i = t.goto (.recheck (i + 1)) := by
  rcases reorderQueuePeek_false t.dataQueue i with ⟨hpeek, -⟩ | ⟨-, x, hx⟩
  · rw [takionRecheck, if_neg (by omega), hpeek]
  · exact absurd hx (hempty x)

theorem takionRecheck_stored {x : TakionDataPacketEntry}
    (hx : Window.Stored t.dataQueue.window i x) :
    takionRecheck gmac t i = t.goto (.fault .nullPointer) := by
  have hlt : i < t.dataQueue.count := by
    rw [← ReorderQueue.length_window t.dataQueue]
    exact (List.getElem?_eq_some_iff.mp hx).1
  rcases reorderQueuePeek_false t.dataQueue i with ⟨-, hempty⟩ | ⟨hpeek, -⟩
  · exact absurd hx (hempty x)
  · rw [takionRecheck, if_neg (by omega), hpeek]

/-- No round hands an element on: there is none, or the pointer is missing. -/
theorem takionRecheckMac_eq_none (t : Takion κ) : takionRecheckMac gmac t = none := by
  unfold takionRecheckMac
  cases t.pc with
  | recheck i =>
    rcases reorderQueuePeek_false t.dataQueue i with ⟨hpeek, -⟩ | ⟨hpeek, -⟩
    · simp only [hpeek]
    · simp only [hpeek]
  | _ => rfl

/-! ## The whole loop -/

/-- **Over empty slots the loop runs to its end.** -/
theorem takionRecheckLoop_empty {d : Nat} (hpc : t.pc = .recheck i) (hd : i + d = t.dataQueue.count)
    (hempty : ∀ i x, ¬ Window.Stored t.dataQueue.window i x) :
    takionRecheckLoop gmac (d + 1) t = (t.goto .postponed, []) := by
  induction d generalizing t i with
  | zero =>
    rw [takionRecheckLoop, takionRun_recheck hpc, takionRecheck_end (by omega),
      takionRecheckMac_eq_none]
    rfl
  | succ d ih =>
    rw [takionRecheckLoop, takionRun_recheck hpc, takionRecheck_empty (by omega) (hempty i),
      takionRecheckMac_eq_none]
    have hrest := ih (t := t.goto (.recheck (i + 1))) rfl
      (show i + 1 + d = t.dataQueue.count by omega) hempty
    simp only [hrest]
    rfl

/-- In front of the element at distance `k`, or past the write through the missing pointer. -/
structure RecheckBlocked (k : Nat) (t : Takion κ) : Prop where
  stored : ∃ x, Window.Stored t.dataQueue.window k x
  pc : (t.pc = .loop ∧ t.recheckDue) ∨ (∃ i ≤ k, t.pc = .recheck i) ∨ t.pc = .fault .nullPointer

theorem RecheckBlocked.run {k : Nat} (h : RecheckBlocked k t) {mem : Bool}
    {installed : Option (κ × κ)} (hrun : takionRun gmac t mem installed = some t') :
    RecheckBlocked k t' := by
  obtain ⟨⟨x, hx⟩, ⟨hloop, hdue⟩ | ⟨i, hi, hpc⟩ | hfault⟩ := h
  · rw [takionRun_recheckDue hloop hdue] at hrun
    cases hrun
    exact ⟨⟨x, hx⟩, Or.inr (Or.inl ⟨0, Nat.zero_le k, rfl⟩)⟩
  · rw [takionRun_recheck hpc] at hrun
    cases hrun
    rcases Nat.lt_or_ge i k with hlt | hge
    · -- another slot comes first
      by_cases hslot : ∃ y, Window.Stored t.dataQueue.window i y
      · obtain ⟨y, hy⟩ := hslot
        rw [takionRecheck_stored hy]
        exact ⟨⟨x, hx⟩, Or.inr (Or.inr rfl)⟩
      · have hcount : k < t.dataQueue.count := by
          rw [← ReorderQueue.length_window t.dataQueue]
          exact (List.getElem?_eq_some_iff.mp hx).1
        rw [takionRecheck_empty (by omega) fun y hy => hslot ⟨y, hy⟩]
        exact ⟨⟨x, hx⟩, Or.inr (Or.inl ⟨i + 1, hlt, rfl⟩)⟩
    · obtain rfl : i = k := by omega
      rw [takionRecheck_stored hx]
      exact ⟨⟨x, hx⟩, Or.inr (Or.inr rfl)⟩
  · -- the thread does not go on after a fault
    simp [takionRun, hfault] at hrun

/-- **The loop does not get past an element.** -/
theorem takionRecheckLoop_stored {k : Nat} (h : RecheckBlocked k t) (n : Nat) :
    RecheckBlocked k (takionRecheckLoop gmac n t).1 := by
  induction n generalizing t with
  | zero => exact h
  | succ n ih =>
    rw [takionRecheckLoop]
    cases hrun : takionRun gmac t true none with
    | none => exact h
    | some t1 => exact ih (h.run hrun)

theorem RecheckBlocked.not_rechecked {k : Nat} (h : RecheckBlocked k t) {t0 : Takion κ}
    {checked : List (Nat × TakionDataPacketEntry × ErrorCode)} : ¬ TakionRechecked t0 t checked := by
  intro hdone
  rcases h.pc with ⟨hloop, -⟩ | ⟨i, -, hpc⟩ | hfault
  · rw [hdone.done] at hloop
    cases hloop
  · rw [hdone.done] at hpc
    cases hpc
  · rw [hdone.done] at hfault
    cases hfault

/-- The thread in front of the loop, with something in the queue. -/
theorem takionRecheck_blocked (hpc : t.pc = .loop) (hdue : t.recheckDue)
    (hstored : t.dataQueue.stored 32 ≠ []) (n : Nat) :
    ¬ TakionRechecked t (takionRecheckLoop gmac n t).1 (takionRecheckLoop gmac n t).2 := by
  have hsome : ∃ i x, Window.Stored t.dataQueue.window i x := by
    by_contra hno
    refine hstored ((stored_eq_nil_iff _ _).mpr ?_)
    intro i x hx
    exact hno ⟨i, x, hx⟩
  obtain ⟨k, hx⟩ := hsome
  exact (takionRecheckLoop_stored ⟨hx, Or.inl ⟨hpc, hdue⟩⟩ n).not_rechecked

/-- **The packets in the queue are re-checked just when there are none.** An element at any distance ends
the loop with a write through the missing pointer. -/
theorem takionRecheck_rechecks_iff (hpc : t.pc = .loop) (hdue : t.recheckDue) :
    (∃ n, TakionRechecked t (takionRecheckLoop gmac n t).1 (takionRecheckLoop gmac n t).2)
      ↔ t.dataQueue.stored 32 = [] := by
  constructor
  · rintro ⟨n, hdone⟩
    by_contra hstored
    exact takionRecheck_blocked hpc hdue hstored n hdone
  · intro hnil
    -- the switch itself, a round for each slot, and the one that sees the end
    have hloop := @takionRecheckLoop_empty _ gmac ({ t with cryptAvailable := true }.goto (.recheck 0)) 0
      t.dataQueue.count rfl (Nat.zero_add _) ((stored_eq_nil_iff _ 32).mp hnil)
    refine ⟨t.dataQueue.count + 1 + 1, ?_⟩
    rw [takionRecheckLoop, takionRun_recheckDue hpc hdue]
    simp only [hloop, takionRecheckMac_eq_none]
    refine ⟨rfl, ?_, ?_⟩
    · rw [hnil]
      exact .nil
    · show (t.dataQueue.stored 32).Perm []
      rw [hnil]

/-- The keys are installed with nothing behind the packet that brings them. -/
theorem takionRecheck_rechecks_iff_keysFirst :
    ∃ t : Takion UInt8, (takionLts keyGmac).Reachable t ∧ t.recheckDue ∧
      ∃ n, TakionRechecked t (takionRecheckLoop keyGmac n t).1 (takionRecheckLoop keyGmac n t).2 := by
  have hrun : (Lts.runFun (takionStep keyGmac) exampleTakion (toRecv ++
      [.recv (exampleData 0 5 0 [1]) true, .run true (some (7, 7)), .run true none])).map
        (fun t => (t.pc, t.enableCrypt, t.cryptAvailable, t.gkcryptRemote.isSome,
          (t.dataQueue.stored 32).length)) = some (.loop, true, false, true, 0) := by
    decide +kernel
  obtain ⟨t, hrun, hobs⟩ := Option.map_eq_some_iff.mp hrun
  simp only [Prod.mk.injEq, List.length_eq_zero_iff] at hobs
  obtain ⟨hpc, henable, havailable, hremote, hnil⟩ := hobs
  have hdue : t.recheckDue := ⟨henable, havailable, hremote⟩
  exact ⟨t, .runFun (.init exampleTakion_initial) hrun, hdue,
    (takionRecheck_rechecks_iff hpc hdue).mpr hnil⟩

/-- A packet waits for one that is missing when the keys are installed. -/
theorem not_takionRecheck_rechecks :
    ¬ ∀ t : Takion UInt8, (takionLts keyGmac).Reachable t → t.pc = .loop → t.recheckDue →
      ∃ n, TakionRechecked t (takionRecheckLoop keyGmac n t).1 (takionRecheckLoop keyGmac n t).2 := by
  intro hall
  have hrun : (Lts.runFun (takionStep keyGmac) exampleTakion (toRecv ++
      [.recv (exampleData 7 7 0 [2]) true, .run true none] ++ toRecv ++
      [.recv (exampleData 0 5 0 [1]) true, .run true (some (7, 7)), .run true none])).map
        (fun t => (t.pc, t.enableCrypt, t.cryptAvailable, t.gkcryptRemote.isSome,
          (t.dataQueue.stored 32).map Prod.fst)) = some (.loop, true, false, true, [7]) := by
    decide +kernel
  obtain ⟨t, hrun, hobs⟩ := Option.map_eq_some_iff.mp hrun
  simp only [Prod.mk.injEq] at hobs
  obtain ⟨hpc, henable, havailable, hremote, hseven⟩ := hobs
  have hdue : t.recheckDue := ⟨henable, havailable, hremote⟩
  obtain ⟨n, hdone⟩ := hall t (.runFun (.init exampleTakion_initial) hrun) hpc hdue
  refine takionRecheck_blocked hpc hdue ?_ n hdone
  intro hnil
  rw [hnil] at hseven
  cases hseven

end Chiaki
