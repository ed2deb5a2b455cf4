import Chiaki.Properties.Takion.Thread

/-!
# Authentication of data

Once the keys are installed, every DATA event carries a packet whose MAC was checked with them.
This holds as long as the keys are installed while no other packet waits in the data queue
(`takionAuthentic_of_empty`). What waits there came without a check, and is delivered without
one when it directly follows the packet whose callback installs the keys
(`not_takionAuthentic`): the loop that re-checks the MACs only starts after the queue is flushed.
The loop itself writes through a null pointer at the first packet that it finds.
-/

namespace Chiaki

open Infra Infra.History

variable {κ : Type} {gmac : κ → Nat → Bytes → Mac} {t t' : Takion κ} {l : TakionLabel κ}

/-! ## The property -/

/-- A DATA event with keys carries a verified packet, and no freed entry is read. -/
def TakionOutput.Allowed : TakionOutput κ → List (TakionOutput κ) → Prop
  | .data (some k) _ buf, earlier => ∃ packet, .macVerified k packet ∈ earlier ∧ buf = packet.drop 26
  | .use id, earlier => .freeEntry id ∉ earlier
  | _, _ => True

/--
Every DATA event that is given to the callback while `gkcrypt_remote` is `k` carries the bytes
of a packet whose MAC was verified with `k`; no queue entry is read after it was freed; and the
re-check loop does not write through a null pointer.
-/
structure TakionAuthentic (t : Takion κ) : Prop where
  data : ∀ later earlier k dataType buf, Occurs t.log (.data (some k) dataType buf) later earlier →
    ∃ packet, .macVerified k packet ∈ earlier ∧ buf = packet.drop 26
  use : ∀ later earlier id, Occurs t.log (.use id) later earlier → .freeEntry id ∉ earlier
  recheck : t.pc ≠ .fault .nullPointer

/-- Whether the step runs the callback for a pulled element, which installs keys. -/
def installs (t : Takion κ) : TakionLabel κ → Bool
  | .run _ (some _) =>
    match t.pc, reorderQueuePull t.dataQueue with
    | .flushDataQueue .., some _ => true
    | _, _ => false
  | _ => false

/-- When keys are installed, no packet waits in the queue behind the one that is handled. -/
def KeysOnEmptyQueue (t : Takion κ) (l : TakionLabel κ) : Prop :=
  installs t l = true → ∀ x ∈ t.dataQueue.window.tail, x.isNone = true

/-! ## The invariant -/

/-- The entries that wait in the data queue. -/
def Takion.stored (t : Takion κ) : List TakionDataPacketEntry := Window.elems t.dataQueue.window

/-- Where the thread can be while a re-check is due. -/
def TakionPc.beforeRecheck : TakionPc → Bool
  | .loop => true
  | .flushDataQueue .recv _ _ => true
  | _ => false

/-- Inside the loop over the postponed packets. -/
def TakionPc.inPostponed : TakionPc → Bool
  | .flushPostponed _ => true
  | .flushDataQueue (.postponed _) _ _ => true
  | _ => false

/-- What a stored entry is: part of a verified packet, and still allocated. -/
structure EntryOk (t : Takion κ) (e : TakionDataPacketEntry) : Prop where
  payload : e.payloadBytes = e.packetBuf.bytes.drop 17
  verified : ∀ k, t.gkcryptRemote = some k → .macVerified k e.packetBuf.bytes ∈ t.log
  id_lt : e.packetBuf.id < t.nextBuf
  live : t.pc ≠ .exited → .freeEntry e.packetBuf.id ∉ t.log

structure AuthInvariant (t : Takion κ) : Prop where
  entry : ∀ e ∈ t.stored, EntryOk t e
  nodup : (t.stored.map (·.packetBuf.id)).Nodup
  freed_lt : ∀ id, .freeEntry id ∈ t.log → id < t.nextBuf
  due : t.recheckDue → t.pc.beforeRecheck = true ∧ t.stored = []
  recheck : ∀ i, t.pc = .recheck i → t.stored = []
  postponed : t.pc.inPostponed = true → t.gkcryptRemote.isSome = true
  fault : t.pc ≠ .fault .nullPointer
  log : Always TakionOutput.Allowed t.log

/-- An entry stays good while the log grows and the keys are the same, if it is not freed. -/
theorem EntryOk.mono {e : TakionDataPacketEntry} (h : EntryOk t e)
    (hkeys : ∀ k, t'.gkcryptRemote = some k → t.gkcryptRemote = some k) (hmem : ∀ o ∈ t.log, o ∈ t'.log)
    (hnext : t.nextBuf ≤ t'.nextBuf)
    (hlive : t'.pc ≠ .exited → .freeEntry e.packetBuf.id ∈ t'.log →
      t.pc ≠ .exited ∧ .freeEntry e.packetBuf.id ∈ t.log) : EntryOk t' e where
  payload := h.payload
  verified := fun k hk => hmem _ (h.verified k (hkeys k hk))
  id_lt := Nat.lt_of_lt_of_le h.id_lt hnext
  live := fun hne hfree => h.live (hlive hne hfree).1 (hlive hne hfree).2

theorem TakionOutput.allowed_of_isQuiet {e : TakionOutput κ} (h : e.isQuiet = true)
    (earlier : List (TakionOutput κ)) : e.Allowed earlier := by
  cases e <;> trivial

theorem Quiet.mem_log (h : Quiet t t') {e : TakionOutput κ} (he : e ∈ t.log) : e ∈ t'.log := by
  obtain ⟨events, hlog, -⟩ := h.log
  rw [hlog]
  exact List.mem_append_right _ he

theorem Quiet.freeEntry_mem (h : Quiet t t') {id : Nat} (he : .freeEntry id ∈ t'.log) :
    .freeEntry id ∈ t.log := by
  obtain ⟨events, hlog, hquiet⟩ := h.log
  rw [hlog] at he
  rcases List.mem_append.mp he with he | he
  · exact absurd (hquiet _ he) (by simp [TakionOutput.isQuiet])
  · exact he

theorem Quiet.stored (h : Quiet t t') : t'.stored = t.stored := by
  unfold Takion.stored
  rw [h.dataQueue]

theorem Quiet.recheckDue (h : Quiet t t') (hd : t'.recheckDue) : t.recheckDue := by
  unfold Takion.recheckDue at *
  rwa [h.enableCrypt, h.cryptAvailable, h.gkcryptRemote] at hd

/-- The thread goes somewhere else, and nothing happens to the queue. -/
theorem AuthInvariant.of_quiet (h : AuthInvariant t) (hq : Quiet t t')
    (hexit : t'.pc ≠ .exited → t.pc ≠ .exited)
    (hdue : t.recheckDue → t'.pc.beforeRecheck = true)
    (hrecheck : ∀ i, t'.pc = .recheck i → t.stored = [])
    (hpost : t'.pc.inPostponed = true → t.gkcryptRemote.isSome = true)
    (hfault : t'.pc ≠ .fault .nullPointer) : AuthInvariant t' := by
  obtain ⟨events, hlog, hquiet⟩ := hq.log
  constructor
  · intro e he
    rw [hq.stored] at he
    refine (h.entry e he).mono (fun k hk => ?_) (fun _ => hq.mem_log) (Nat.le_of_eq hq.nextBuf.symm)
      fun hne hfree => ⟨hexit hne, hq.freeEntry_mem hfree⟩
    rw [hq.gkcryptRemote] at hk
    exact hk
  · rw [hq.stored]
    exact h.nodup
  · intro id hid
    rw [hq.nextBuf]
    exact h.freed_lt id (hq.freeEntry_mem hid)
  · intro hd
    rw [hq.stored]
    exact ⟨hdue (hq.recheckDue hd), (h.due (hq.recheckDue hd)).2⟩
  · intro i hi
    rw [hq.stored]
    exact hrecheck i hi
  · intro hp
    rw [hq.gkcryptRemote]
    exact hpost hp
  · exact hfault
  · rw [hlog]
    exact h.log.append fun e he _ => TakionOutput.allowed_of_isQuiet (hquiet e he) _

/-! ## A packet is handled -/

theorem mem_freeEvents {dropped : List (Nat × TakionDataPacketEntry)} {id : Nat}
    (h : TakionOutput.freeEntry (κ := κ) id ∈ freeEvents dropped) :
    ∃ d ∈ dropped, d.2.packetBuf.id = id := by
  unfold freeEvents at h
  obtain ⟨d, hd, hmem⟩ := List.mem_flatMap.mp h
  simp only [List.mem_cons, TakionOutput.freeEntry.injEq, List.not_mem_nil, or_false,
    reduceCtorEq] at hmem
  exact ⟨d, List.mem_reverse.mp hd, hmem.symm⟩

theorem allowed_freeEvents {dropped : List (Nat × TakionDataPacketEntry)} :
    ∀ e ∈ (freeEvents dropped : List (TakionOutput κ)), ∀ earlier, e.Allowed earlier := by
  intro e he earlier
  unfold freeEvents at he
  obtain ⟨d, -, hmem⟩ := List.mem_flatMap.mp he
  simp only [List.mem_cons, List.not_mem_nil, or_false] at hmem
  rcases hmem with rfl | rfl <;> trivial

/-- The packet is new to the queue: neither is it in there, nor was its entry freed. -/
def Takion.Fresh (t : Takion κ) (buf : PacketBuf) : Prop :=
  buf.id < t.nextBuf ∧ (∀ e ∈ t.stored, e.packetBuf.id ≠ buf.id) ∧ .freeEntry buf.id ∉ t.log

/-- A data packet is pushed: what waits afterwards are the old entries, and the new one or none. -/
theorem AuthInvariant.pushed {buf : PacketBuf} {caller : TakionCaller} {t1 : Takion κ}
    {entry : TakionDataPacketEntry} {q : ReorderQueue TakionDataPacketEntry}
    {dropped : List (Nat × TakionDataPacketEntry)} (h : AuthInvariant t) (hb : TakionBasic t)
    (hpc : t.pc ≠ .exited) (hdue : ¬ t.recheckDue)
    (hcaller : (∃ n, caller = .postponed n) → t.gkcryptRemote.isSome = true) (hfresh : t.Fresh buf)
    (hpacket : entry.packetBuf = buf) (hpayload : entry.payloadBytes = buf.bytes.drop 17)
    (hpush : reorderQueuePush t.dataQueue (u32At buf.bytes 17) entry = .ok (q, dropped)) (hq : Quiet t t1)
    (hver : ∀ k, t.gkcryptRemote = some k → .macVerified k buf.bytes ∈ t1.log)
    (hres : t' = { t1 with
      dataQueue := q
      pc := .flushDataQueue caller false 0
      log := freeEvents dropped ++ t1.log }) : AuthInvariant t' := by
  obtain ⟨hlt, hnew, hlive⟩ := hfresh
  obtain ⟨events, hlog, hquiet⟩ := hq.log
  rcases reorderQueuePush_result hb.wf hb.strategy (by rw [hb.size]; decide)
    (u32At_lt buf.bytes 17) entry with herr | ⟨q', dropped', hpush', hwf, hframe, hout⟩
  · rw [hpush] at herr
    cases herr
  rw [hpush] at hpush'
  cases hpush'
  -- in either case the entries are old ones or the new one, and only the new one is freed
  have hstored : t'.stored.Perm (entry :: t.stored) ∧ dropped = [] ∨
      t'.stored = t.stored ∧ ∀ d ∈ dropped, d.2 = entry := by
    subst hres
    rcases hout with ⟨hd, hperm⟩ | ⟨hd, hw⟩
    · exact Or.inl ⟨hperm, hd⟩
    · refine Or.inr ⟨congrArg Window.elems hw, ?_⟩
      rw [hd]
      unfold ReorderQueue.callDropCb
      split <;> simp
  have hpc' : t'.pc = .flushDataQueue caller false 0 := by rw [hres]
  have hlog' : t'.log = freeEvents dropped ++ (events ++ t.log) := by rw [hres, ← hlog]
  have hremote : t'.gkcryptRemote = t.gkcryptRemote := by rw [hres]; exact hq.gkcryptRemote
  have hnext : t'.nextBuf = t.nextBuf := by rw [hres]; exact hq.nextBuf
  have hmem : ∀ e ∈ t.log, e ∈ t'.log := by
    intro e he
    rw [hlog']
    exact List.mem_append_right _ (List.mem_append_right _ he)
  have hfreed : ∀ id, .freeEntry id ∈ t'.log →
      (∃ d ∈ dropped, d.2.packetBuf.id = id) ∨ .freeEntry id ∈ t.log := by
    intro id hid
    rw [hlog'] at hid
    rcases List.mem_append.mp hid with hid | hid
    · exact Or.inl (mem_freeEvents hid)
    · rw [← hlog] at hid
      exact Or.inr (hq.freeEntry_mem hid)
  have hold : ∀ e ∈ t.stored, EntryOk t' e := by
    intro e he
    refine (h.entry e he).mono (fun k hk => ?_) hmem (Nat.le_of_eq hnext.symm) fun _ hid => ?_
    · rw [hremote] at hk
      exact hk
    · rcases hfreed _ hid with ⟨d, hd, hdid⟩ | hid
      · rcases hstored with ⟨-, rfl⟩ | ⟨-, hall⟩
        · cases hd
        · rw [hall d hd, hpacket] at hdid
          exact absurd hdid.symm (hnew e he)
      · exact ⟨hpc, hid⟩
  constructor
  · intro e he
    rcases hstored with ⟨hperm, hd⟩ | ⟨heq, -⟩
    · rcases List.mem_cons.mp (hperm.mem_iff.mp he) with rfl | he
      · refine ⟨by rw [hpayload, hpacket], ?_, by rw [hnext, hpacket]; exact hlt, ?_⟩
        · intro k hk
          rw [hremote] at hk
          have hm := hver k hk
          rw [hlog] at hm
          rw [hlog', hpacket]
          exact List.mem_append_right _ hm
        · intro _ hid
          rw [hpacket] at hid
          rcases hfreed _ hid with ⟨d, hdm, -⟩ | hid
          · rw [hd] at hdm
            cases hdm
          · exact hlive hid
      · exact hold e he
    · rw [heq] at he
      exact hold e he
  · rcases hstored with ⟨hperm, -⟩ | ⟨heq, -⟩
    · refine (hperm.map _).nodup_iff.mpr (List.nodup_cons.mpr ⟨?_, h.nodup⟩)
      intro hid
      obtain ⟨e, he, hid⟩ := List.mem_map.mp hid
      exact hnew e he (by rw [← hpacket]; exact hid)
    · rw [heq]
      exact h.nodup
  · intro id hid
    rw [hnext]
    rcases hfreed id hid with ⟨d, hd, rfl⟩ | hid
    · rcases hstored with ⟨-, rfl⟩ | ⟨-, hall⟩
      · cases hd
      · rw [hall d hd, hpacket]
        exact hlt
    · exact h.freed_lt id hid
  · intro hd
    refine absurd (hq.recheckDue ?_) hdue
    rw [hres] at hd
    exact hd
  · intro i hi
    rw [hpc'] at hi
    cases hi
  · intro hp
    rw [hremote]
    rw [hpc'] at hp
    cases caller with
    | recv => cases hp
    | postponed n => exact hcaller ⟨n, rfl⟩
  · rw [hpc']
    simp
  · rw [hlog']
    refine Always.append (h.log.append ?_) allowed_freeEvents
    exact fun e he _ => TakionOutput.allowed_of_isQuiet (hquiet e he) _

theorem AuthInvariant.handled {buf : PacketBuf} {caller : TakionCaller} (h : AuthInvariant t)
    (hb : TakionBasic t) (hpc : t.pc ≠ .exited) (hdue : ¬ t.recheckDue)
    (hcaller : (∃ n, caller = .postponed n) → t.gkcryptRemote.isSome = true)
    (hfresh : IsDataMessage t.tagLocal buf.bytes → t.Fresh buf)
    (hh : Handled t buf caller t') : AuthInvariant t' := by
  have hpcCaller : ∀ pc, pc = caller.pc →
      (∀ i, pc ≠ .recheck i) ∧ (pc.inPostponed = true → t.gkcryptRemote.isSome = true) ∧
        pc ≠ .fault .nullPointer := by
    rintro pc rfl
    cases caller with
    | recv => exact ⟨by simp [TakionCaller.pc], by simp [TakionCaller.pc, TakionPc.inPostponed],
        by simp [TakionCaller.pc]⟩
    | postponed n =>
      exact ⟨by simp [TakionCaller.pc], fun _ => hcaller ⟨n, rfl⟩, by simp [TakionCaller.pc]⟩
  cases hh with
  | fault f hf hpc' hq _ =>
    refine h.of_quiet hq (fun _ => hpc) (fun hd => absurd hd hdue) ?_ ?_ ?_ <;> rw [hpc']
    · simp
    · simp [TakionPc.inPostponed]
    · simpa using hf
  | ignored hpc' hq _ =>
    obtain ⟨h1, h2, h3⟩ := hpcCaller t'.pc hpc'
    exact h.of_quiet hq (fun _ => hpc) (fun hd => absurd hd hdue) (fun i hi => absurd hi (h1 i)) h2 h3
  | pushed t1 entry q dropped hdata hpacket hpayload _ hpush hq hpost hver hres =>
    exact h.pushed hb hpc hdue hcaller (hfresh hdata) hpacket hpayload hpush hq hver hres

/-! ## A packet is pulled -/

theorem AuthInvariant.flushEntry {caller : TakionCaller} {ack mem : Bool} {last seqNum : Nat}
    {entry : TakionDataPacketEntry} {q : ReorderQueue TakionDataPacketEntry}
    {installed : Option (κ × κ)} (h : AuthInvariant t) (hb : TakionBasic t)
    (hG : KeysOnEmptyQueue t (.run mem installed))
    (hpc : t.pc = .flushDataQueue caller ack last)
    (hpull : reorderQueuePull t.dataQueue = some (seqNum, entry, q))
    (hf : FlushedEntry (t.pulled caller seqNum entry q) entry installed t') : AuthInvariant t' := by
  obtain ⟨-, htake, -⟩ := reorderQueuePull_some hb.wf hpull
  obtain ⟨hqueue, -, hpc', hcrypt, havail, hnext, -, -⟩ := hf.frame
  obtain ⟨events, hlog, hevents, hremote⟩ := hf.effect
  have hstored : t.stored = entry :: t'.stored := by
    unfold Takion.stored
    rw [hqueue]
    exact Window.elems_of_take htake
  have hentry : EntryOk t entry := h.entry entry (by rw [hstored]; exact List.mem_cons_self ..)
  have hpcEq : t'.pc = .flushDataQueue caller true seqNum := hpc'
  have hexited : t.pc ≠ .exited := by
    rw [hpc]
    simp
  have hnodup : entry.packetBuf.id ∉ t'.stored.map (·.packetBuf.id) ∧
      (t'.stored.map (·.packetBuf.id)).Nodup := by
    have := h.nodup
    rw [hstored] at this
    exact List.nodup_cons.mp this
  -- the keys are the old ones, or nothing is left in the queue
  have hkeys : t'.gkcryptRemote = t.gkcryptRemote ∨ t'.stored = [] := by
    rcases hremote with hsame | ⟨kl, kr, rfl, -⟩
    · exact Or.inl hsame
    · right
      have hinstalls : installs t (.run mem (some (kl, kr))) = true := by
        unfold installs
        simp only [hpc, hpull]
      have htail := hG hinstalls
      rw [(Window.take_stored htake).2] at htail
      unfold Takion.stored
      rw [hqueue]
      refine List.filterMap_eq_nil_iff.mpr fun x hx => ?_
      exact Option.isNone_iff_eq_none.mp (htail x hx)
  have hfreed : ∀ id, .freeEntry id ∈ t'.log → id = entry.packetBuf.id ∨ .freeEntry id ∈ t.log := by
    intro id hid
    rw [hlog] at hid
    rcases hevents with ⟨rfl, -⟩ | ⟨ty, rfl, -⟩ <;> simpa using hid
  have hmem : ∀ e ∈ t.log, e ∈ t'.log := by
    intro e he
    rw [hlog]
    refine List.mem_cons_of_mem _ (List.mem_cons_of_mem _ (List.mem_append_right _ ?_))
    exact List.mem_cons_of_mem _ (List.mem_cons_of_mem _ he)
  constructor
  · intro e he
    have hold : EntryOk t e := h.entry e (by rw [hstored]; exact List.mem_cons_of_mem _ he)
    refine hold.mono (fun k hk => ?_) hmem (Nat.le_of_eq hnext.symm) fun _ hid => ?_
    · rcases hkeys with hsame | hnil
      · rw [hsame] at hk
        exact hk
      · rw [hnil] at he
        cases he
    · rcases hfreed _ hid with heq | hid
      · exact absurd (heq ▸ List.mem_map_of_mem he) hnodup.1
      · exact ⟨hexited, hid⟩
  · exact hnodup.2
  · intro id hid
    rw [hnext]
    rcases hfreed id hid with rfl | hid
    · exact hentry.id_lt
    · exact h.freed_lt id hid
  · intro hd
    rcases hkeys with hsame | hnil
    · -- a re-check that was due before leaves no entry to pull
      have hd' : t.recheckDue := by
        unfold Takion.recheckDue at *
        rw [hcrypt, havail, hsame] at hd
        exact hd
      have := (h.due hd').2
      rw [hstored] at this
      cases this
    · refine ⟨?_, hnil⟩
      rw [hpcEq]
      cases caller with
      | recv => rfl
      | postponed n =>
        have hsome : t.gkcryptRemote.isSome = true := h.postponed (by rw [hpc]; rfl)
        have hd' : t.recheckDue := by
          unfold Takion.recheckDue at *
          rw [hcrypt, havail] at hd
          exact ⟨hd.1, hd.2.1, hsome⟩
        have := (h.due hd').2
        rw [hstored] at this
        cases this
  · intro i hi
    rw [hpcEq] at hi
    cases hi
  · intro hp
    rw [hpcEq] at hp
    cases caller with
    | recv => cases hp
    | postponed n =>
      have hsome : t.gkcryptRemote.isSome = true := h.postponed (by rw [hpc]; rfl)
      rcases hremote with hsame | ⟨kl, kr, -, hnew⟩
      · rw [hsame]
        exact hsome
      · rw [hnew]
        rfl
  · rw [hpcEq]
    simp
  · have huse : Always TakionOutput.Allowed
        (.consumed seqNum entry.payloadBytes :: .use entry.packetBuf.id :: t.log) :=
      always_cons.mpr ⟨trivial, always_cons.mpr ⟨hentry.live hexited, h.log⟩⟩
    rw [hlog]
    refine always_cons.mpr ⟨trivial, always_cons.mpr ⟨trivial, ?_⟩⟩
    rcases hevents with ⟨rfl, -⟩ | ⟨ty, rfl, -⟩
    · exact huse
    · refine always_cons.mpr ⟨?_, huse⟩
      cases hk : t.gkcryptRemote with
      | none => trivial
      | some k =>
        refine ⟨entry.packetBuf.bytes, ?_, ?_⟩
        · exact List.mem_cons_of_mem _ (List.mem_cons_of_mem _ (hentry.verified k hk))
        · rw [hentry.payload, List.drop_drop]

/-! ## Every run -/

theorem authInvariant_init (h : TakionInitial t) : AuthInvariant t := by
  obtain ⟨version, enableCrypt, tagLocal, tagRemote, keyState, crypt, htag, rfl⟩ := h
  constructor
  · intro e he
    cases he
  · exact List.nodup_nil
  · intro id hid
    cases hid
  · rintro ⟨-, havail, hremote⟩
    cases crypt with
    | none => cases hremote
    | some k => cases havail
  · intro i hi
    cases hi
  · intro hp
    cases hp
  · simp [takionInit]
  · exact always_nil

/-- The keys are not checked again before the loop is at that place. -/
theorem AuthInvariant.not_due {pc : TakionPc} (h : AuthInvariant t) (hpc : t.pc = pc)
    (hbefore : pc.beforeRecheck = false) : ¬ t.recheckDue := by
  subst hpc
  exact fun hd => absurd (hbefore.symm.trans (h.due hd).1) Bool.false_ne_true

theorem AuthInvariant.recheckBegin (h : AuthInvariant t) (hdue : t.recheckDue) :
    AuthInvariant { t with cryptAvailable := true, pc := .recheck 0 } := by
  obtain ⟨-, hnil⟩ := h.due hdue
  constructor
  · intro e he
    rw [show Takion.stored { t with cryptAvailable := true, pc := .recheck 0 } = t.stored from rfl,
      hnil] at he
    cases he
  · exact h.nodup
  · exact h.freed_lt
  · rintro ⟨-, havail, -⟩
    cases havail
  · exact fun _ _ => hnil
  · intro hp
    cases hp
  · simp
  · exact h.log

/-- Between the parts of the loop nothing is handled. -/
theorem AuthInvariant.idle (h : AuthInvariant t) (hq : Quiet t t')
    (hpc : (t.pc = .loop ∧ ¬ t.recheckDue ∧ t'.pc = .postponed) ∨
      (∃ i, t.pc = .recheck i ∧ (t'.pc = .recheck (i + 1) ∨ t'.pc = .postponed)) ∨
      (t.pc = .postponed ∧
        ((t'.pc = .flushPostponed 0 ∧ t.gkcryptRemote.isSome = true) ∨ t'.pc = .recv)) ∨
      (∃ i, t.pc = .flushPostponed i ∧ t'.pc = .recv)) : AuthInvariant t' := by
  rcases hpc with ⟨hpc, hdue, hpc'⟩ | ⟨i, hpc, hpc'⟩ | ⟨hpc, hpc'⟩ | ⟨i, hpc, hpc'⟩
  · refine h.of_quiet hq (by simp [hpc]) (fun hd => absurd hd hdue) ?_ ?_ ?_ <;>
      simp [hpc', TakionPc.inPostponed]
  · have hnd := h.not_due hpc rfl
    rcases hpc' with hpc' | hpc'
    · refine h.of_quiet hq (by simp [hpc]) (fun hd => absurd hd hnd) ?_ ?_ ?_
      · exact fun _ _ => h.recheck i hpc
      · simp [hpc', TakionPc.inPostponed]
      · simp [hpc']
    · refine h.of_quiet hq (by simp [hpc]) (fun hd => absurd hd hnd) ?_ ?_ ?_ <;>
        simp [hpc', TakionPc.inPostponed]
  · have hnd := h.not_due hpc rfl
    rcases hpc' with ⟨hpc', hsome⟩ | hpc'
    · refine h.of_quiet hq (by simp [hpc]) (fun hd => absurd hd hnd) ?_ (fun _ => hsome) ?_ <;>
        simp [hpc']
    · refine h.of_quiet hq (by simp [hpc]) (fun hd => absurd hd hnd) ?_ ?_ ?_ <;>
        simp [hpc', TakionPc.inPostponed]
  · have hnd := h.not_due hpc rfl
    refine h.of_quiet hq (by simp [hpc]) (fun hd => absurd hd hnd) ?_ ?_ ?_ <;>
      simp [hpc', TakionPc.inPostponed]

/-- The acknowledgement concerns no entry. -/
theorem AuthInvariant.acknowledged {ack : Bool} {seqNum : Nat} {sent : Option Bytes} (h : AuthInvariant t) :
    AuthInvariant (t.acknowledged ack (seqNum % 2 ^ 32) sent) := by
  have hacks : ∀ e ∈ (sent.map .send).toList ++ [.sendDataAck (seqNum % 2 ^ 32)],
      (∀ id, e ≠ TakionOutput.freeEntry (κ := κ) id) ∧ ∀ earlier, e.Allowed earlier := by
    intro e he
    cases sent with
    | none =>
      rw [List.mem_singleton.mp he]
      exact ⟨by simp, fun _ => trivial⟩
    | some packet =>
      rcases List.mem_cons.mp he with rfl | he
      · exact ⟨by simp, fun _ => trivial⟩
      · rw [List.mem_singleton.mp he]
        exact ⟨by simp, fun _ => trivial⟩
  cases ack with
  | false => exact h
  | true =>
    have hlog : (t.acknowledged true (seqNum % 2 ^ 32) sent).log
        = ((sent.map .send).toList ++ [.sendDataAck (seqNum % 2 ^ 32)]) ++ t.log := by
      simp [Takion.acknowledged]
    have hfree : ∀ id, .freeEntry id ∈ (t.acknowledged true (seqNum % 2 ^ 32) sent).log →
        .freeEntry id ∈ t.log := by
      intro id hid
      rw [hlog] at hid
      rcases List.mem_append.mp hid with hid | hid
      · exact absurd rfl ((hacks _ hid).1 id)
      · exact hid
    refine ⟨fun e he => ?_, h.nodup, fun id hid => h.freed_lt id (hfree id hid), h.due, h.recheck,
      h.postponed, h.fault, ?_⟩
    · obtain ⟨hep, hev, helt, helive⟩ := h.entry e he
      refine ⟨hep, fun k hk => ?_, helt, fun hne hid => helive hne (hfree _ hid)⟩
      rw [hlog]
      exact List.mem_append_right _ (hev k hk)
    · rw [hlog]
      exact h.log.append fun e he earlier => (hacks e he).2 earlier

theorem AuthInvariant.stop (h : AuthInvariant t) (hnd : ¬ t.recheckDue) :
    AuthInvariant { t with
      pc := .exited
      log := .disconnect :: (freeEvents (reorderQueueFini t.dataQueue) ++ t.log) } := by
  constructor
  · intro e he
    obtain ⟨hep, hev, helt, -⟩ := h.entry e he
    refine ⟨hep, fun k hk => ?_, helt, fun hne => absurd rfl hne⟩
    exact List.mem_cons_of_mem _ (List.mem_append_right _ (hev k hk))
  · exact h.nodup
  · intro id hid
    rcases List.mem_cons.mp hid with hid | hid
    · cases hid
    · rcases List.mem_append.mp hid with hid | hid
      · obtain ⟨d, hd, rfl⟩ := mem_freeEvents hid
        exact (h.entry _ (mem_reorderQueueFini hd)).id_lt
      · exact h.freed_lt id hid
  · exact fun hd => absurd hd hnd
  · intro i hi
    cases hi
  · intro hp
    cases hp
  · simp
  · exact always_cons.mpr ⟨trivial, h.log.append allowed_freeEvents⟩

theorem authInvariant_step (hb : TakionBasic t) (h : AuthInvariant t) (hG : KeysOnEmptyQueue t l)
    (hs : (takionLts gmac).step t l t') : AuthInvariant t' := by
  cases takionStep_move hs with
  | other hpc hq _ =>
    refine h.of_quiet hq (by rw [hpc]; exact fun h => h) ?_ ?_ ?_ ?_ <;> rw [hpc]
    · exact fun hd => (h.due hd).1
    · exact h.recheck
    · exact h.postponed
    · exact h.fault
  | recheckBegin hpc hdue hres =>
    subst hres
    exact h.recheckBegin hdue
  | recheckFault i hpc hstored _ =>
    -- the queue is empty here
    obtain ⟨e, he⟩ := hstored
    have hmem : e ∈ t.stored := Window.mem_elems.mpr ⟨i, he⟩
    rw [h.recheck i hpc] at hmem
    cases hmem
  | idle hpc hq _ => exact h.idle hq hpc
  | postponed i packet hpc hmem hh =>
    have hnd := h.not_due hpc rfl
    refine h.handled hb (by simp [hpc]) hnd (fun _ => h.postponed (by rw [hpc]; rfl)) ?_ hh
    exact fun hdata => absurd hdata (hb.postponed packet hmem).not_isDataMessage
  | recv packet mem _ hpc hh =>
    have hnd := h.not_due hpc rfl
    have h1 : AuthInvariant { t with nextBuf := t.nextBuf + 1 } := by
      refine ⟨fun e he => ?_, h.nodup, fun id hid => ?_, h.due, h.recheck, h.postponed, h.fault, h.log⟩
      · exact (h.entry e he).mono (fun _ hk => hk) (fun _ ho => ho) (Nat.le_succ _) fun hne hid => ⟨hne, hid⟩
      · exact Nat.lt_succ_of_lt (h.freed_lt id hid)
    have hb1 : TakionBasic { t with nextBuf := t.nextBuf + 1 } := hb.of_quiet rfl hb.postponed
    refine h1.handled hb1 (by simp [hpc]) hnd (by simp) (fun _ => ⟨Nat.lt_succ_self _, ?_, ?_⟩) hh
    · intro e he hid
      exact absurd (h.entry e he).id_lt (by rw [hid]; exact Nat.lt_irrefl _)
    · intro hid
      exact absurd (h.freed_lt _ hid) (Nat.lt_irrefl _)
  | flushEnd caller ack seqNum sent hpc hpc' _ _ hq _ =>
    have h1 : AuthInvariant (t.acknowledged ack (seqNum % 2 ^ 32) sent) := h.acknowledged
    have hpc1 : (t.acknowledged ack (seqNum % 2 ^ 32) sent).pc
        = .flushDataQueue caller ack seqNum := by
      cases ack <;> exact hpc
    refine h1.of_quiet hq (fun _ => by rw [hpc1]; simp) ?_ ?_ ?_ ?_
    · intro hd
      have := (h1.due hd).1
      rw [hpc1] at this
      rw [hpc']
      cases caller with
      | recv => rfl
      | postponed n => cases this
    · rw [hpc']
      cases caller <;> simp [TakionCaller.pc]
    · rw [hpc']
      cases caller with
      | recv => simp [TakionCaller.pc, TakionPc.inPostponed]
      | postponed n => exact fun _ => h1.postponed (by rw [hpc1]; rfl)
    · rw [hpc']
      cases caller <;> simp [TakionCaller.pc]
  | flushEntry caller ack last seqNum entry q mem installed hl hpc hpull hf =>
    subst hl
    exact h.flushEntry hb hG hpc hpull hf
  | stop hpc hres =>
    subst hres
    exact h.stop (h.not_due hpc rfl)

theorem authInvariant_invariant (gmac : κ → Nat → Bytes → Mac) :
    ((takionLts gmac).restrict KeysOnEmptyQueue).Invariant
      fun t => TakionBasic t ∧ AuthInvariant t :=
  (takionBasic_invariant gmac).restrict.and_of (fun _ h => authInvariant_init h)
    fun _ _ _ hb h hs => authInvariant_step hb h hs.1 hs.2

/-- **Data is authenticated in every run that installs keys on an empty queue**, whatever
datagrams arrive in whatever order. -/
theorem takionAuthentic_of_empty (gmac : κ → Nat → Bytes → Mac)
    (hr : ((takionLts gmac).restrict KeysOnEmptyQueue).Reachable t) : TakionAuthentic t := by
  obtain ⟨-, h⟩ := (authInvariant_invariant gmac).reachable hr
  exact ⟨fun later earlier k ty buf ho => h.log later earlier _ ho,
    fun later earlier id ho => h.log later earlier _ ho, h.fault⟩

/-! ### The keys on an empty queue, and in front of a forged packet -/

/-- A message for tag 1 with a data chunk of the given number, type and content. Its MAC is
`mac` four times. -/
def exampleData (mac : UInt8) (seqNum : Nat) (dataType : UInt8) (content : Bytes) : Bytes :=
  [0] ++ be32 1 ++ List.replicate 4 mac ++ be32 0 ++ [0, 1] ++ be16 (13 + content.length)
    ++ be32 seqNum ++ be16 0 ++ [0, 0] ++ [dataType] ++ content

/-- A MAC that only consists of the key. -/
def keyGmac (k : UInt8) (_ : Nat) (_ : Bytes) : Mac := ⟨#[k, k, k, k], rfl⟩

/-- The thread until it waits for the next datagram, with nothing in the queue. -/
def toRecv : List (TakionLabel UInt8) := [.run true none, .run true none]

/-- The packet that installs the keys, and then one that the keys authenticate. -/
def keysThenData : List (TakionLabel UInt8) :=
  toRecv ++ [.recv (exampleData 0 5 0 [1]) true, .run true (some (7, 7)), .run true none,
    .run true none, .run true none] ++ toRecv.drop 1
    ++ [.recv (exampleData 7 6 0 [2]) true, .run true none]

instance (t : Takion κ) (l : TakionLabel κ) : Decidable (KeysOnEmptyQueue t l) :=
  inferInstanceAs (Decidable (_ → ∀ x ∈ t.dataQueue.window.tail, x.isNone = true))

/-- The thread of the example, with local tag 1 and remote tag 5. -/
def exampleTakion : Takion UInt8 := takionInit .v9 true 1 5 keyStateInit none

theorem exampleTakion_initial : TakionInitial exampleTakion :=
  ⟨.v9, true, 1, 5, keyStateInit, none, by decide, rfl⟩

theorem keysThenData_run :
    (Lts.runFun (Lts.guarded (takionStep keyGmac) KeysOnEmptyQueue) exampleTakion keysThenData).map
        (fun t => t.log.take 6)
      = some [.freeEntry 1, .free 1, .data (some 7) .protobuf [2],
          .consumed 6 (be32 6 ++ [0, 0, 0, 0, 0, 2]), .use 1,
          .macVerified 7 (exampleData 7 6 0 [2])] := by
  decide +kernel

theorem takionAuthentic_keysThenData : ∃ t : Takion UInt8,
    .data (some 7) .protobuf [2] ∈ t.log ∧ TakionAuthentic t := by
  obtain ⟨t, hrun, hlog⟩ := Option.map_eq_some_iff.mp keysThenData_run
  refine ⟨t, ?_, takionAuthentic_of_empty keyGmac ?_⟩
  · refine List.mem_of_mem_take (i := 6) ?_
    rw [hlog]
    simp
  · exact Lts.Reachable.runGuarded (.init exampleTakion_initial) hrun

/-- A forged packet waits for the one before it, whose callback installs the keys. -/
def forgedThenKeys : List (TakionLabel UInt8) :=
  toRecv ++ [.recv (exampleData 0 6 0 [0xff]) true, .run true none] ++ toRecv
    ++ [.recv (exampleData 0 5 0 [1]) true, .run true (some (7, 7)), .run true none]

theorem forgedThenKeys_run :
    (Lts.runFun (takionStep keyGmac) exampleTakion forgedThenKeys).map
        (fun t => (t.enableCrypt, t.log))
      = some (true, [.freeEntry 0, .free 0, .data (some 7) .protobuf [0xff],
          .consumed 6 (be32 6 ++ [0, 0, 0, 0, 0, 0xff]), .use 0,
          .freeEntry 1, .free 1, .data none .protobuf [1],
          .consumed 5 (be32 5 ++ [0, 0, 0, 0, 0, 1]), .use 1]) := by
  decide +kernel

/-- The forged packet is delivered with the keys in place, and no MAC was ever verified. -/
theorem not_takionAuthentic : ¬ ∀ t, (takionLts keyGmac).Reachable t → t.enableCrypt = true →
    ∀ later earlier k dataType buf, Occurs t.log (.data (some k) dataType buf) later earlier →
      ∃ packet, .macVerified k packet ∈ earlier ∧ buf = packet.drop 26 := by
  intro hall
  obtain ⟨t, hrun, hobs⟩ := Option.map_eq_some_iff.mp forgedThenKeys_run
  simp only [Prod.mk.injEq] at hobs
  obtain ⟨hcrypt, hlog⟩ := hobs
  have hreach : (takionLts keyGmac).Reachable t :=
    Lts.Reachable.runFun (.init exampleTakion_initial) hrun
  have hocc : Occurs t.log (.data (some 7) .protobuf [0xff]) (t.log.take 2) (t.log.drop 3) := by
    rw [hlog]
    rfl
  obtain ⟨packet, hmem, -⟩ := hall t hreach hcrypt _ _ _ _ _ hocc
  rw [hlog] at hmem
  simp at hmem

end Chiaki
