import Chiaki.Properties.Takion.Send

/-!
# Acknowledgements and the packets they release

A packet is in one place at a time: owned by the thread that sends it, in the send buffer, among
the numbers that still wait for their DATA_ACK event, or behind such an event (`Placed`). Under
the condition that no acknowledgement overtakes the push of a packet it covers, a transmitted
packet moves through these places in that order (`Tracked`).
-/

namespace Chiaki

open Infra Infra.History

variable {κ : Type} {k : Nat} {gmac : κ → Nat → Bytes → Mac} {s s' : SendState κ k} {l : SendLabel κ k}

/-! ## Every packet is in one place -/

/-- The packets whose DATA_ACK events have been raised. -/
def dataAckIds (log : List SendEvent) : List Nat :=
  log.filterMap fun
    | .dataAck _ id => some id
    | _ => none

/-- The packets that no sending thread owns any more. -/
def SendState.handedOver (s : SendState κ k) : List Nat :=
  s.sendBuffer.contents.map (·.buf.id) ++ s.takionThread.acked.map (·.buf.id) ++ dataAckIds s.log

structure Placed (s : SendState κ k) : Prop where
  thread_lt : ∀ t b, (s.threads t).packetId = some b → b < s.nextBuf
  handedOver_lt : ∀ b ∈ s.handedOver, b < s.nextBuf
  thread_inj : ∀ t u b, (s.threads t).packetId = some b → (s.threads u).packetId = some b → t = u
  thread_disjoint : ∀ t b, (s.threads t).packetId = some b → b ∉ s.handedOver
  nodup : s.handedOver.Nodup

theorem placed_init (tagLocal tagRemote : Nat) :
    Placed (sendInit tagLocal tagRemote : SendState κ k) where
  thread_lt := fun _ _ h => by cases h
  handedOver_lt := fun _ h => by cases h
  thread_inj := fun _ _ _ h => by cases h
  thread_disjoint := fun _ _ h => by cases h
  nodup := List.nodup_nil

/-- A thread moves, and owns afterwards at most what it owned before. -/
theorem Placed.of_thread (h : Placed s) {t : Fin k} {pc : SendPc}
    (hthreads : s'.threads = fun u => if u = t then pc else s.threads u)
    (hpacket : ∀ b, pc.packetId = some b → (s.threads t).packetId = some b)
    (hover : s'.handedOver = s.handedOver) (hnext : s'.nextBuf = s.nextBuf) : Placed s' := by
  have hown : ∀ u b, (s'.threads u).packetId = some b → (s.threads u).packetId = some b := by
    intro u b hb
    rw [hthreads] at hb
    by_cases hu : u = t
    · subst hu
      simp only [if_true] at hb
      exact hpacket b hb
    · simpa [hu] using hb
  constructor
  · intro u b hb
    rw [hnext]
    exact h.thread_lt u b (hown u b hb)
  · rw [hover, hnext]
    exact h.handedOver_lt
  · intro u v b hu hv
    exact h.thread_inj u v b (hown u b hu) (hown v b hv)
  · intro u b hb
    rw [hover]
    exact h.thread_disjoint u b (hown u b hb)
  · rw [hover]
    exact h.nodup

/-- The packets behind the threads are only rearranged. -/
theorem Placed.of_perm (h : Placed s) (hthreads : s'.threads = s.threads)
    (hover : s'.handedOver.Perm s.handedOver) (hnext : s'.nextBuf = s.nextBuf) : Placed s' := by
  constructor
  · rw [hthreads, hnext]
    exact h.thread_lt
  · intro b hb
    rw [hnext]
    exact h.handedOver_lt b (hover.mem_iff.mp hb)
  · rw [hthreads]
    exact h.thread_inj
  · intro t b hb hmem
    rw [hthreads] at hb
    exact h.thread_disjoint t b hb (hover.mem_iff.mp hmem)
  · exact hover.nodup_iff.mpr h.nodup

theorem dataAckIds_cons_of_isLocal {e : SendEvent} (h : e.isLocal = true) (log : List SendEvent) :
    dataAckIds (e :: log) = dataAckIds log := by
  cases e <;> first | rfl | simp [SendEvent.isLocal] at h

theorem handedOver_of_local (hsb : s'.sendBuffer = s.sendBuffer)
    (htt : s'.takionThread = s.takionThread)
    (hlog : s'.log = s.log ∨ ∃ e : SendEvent, e.isLocal = true ∧ s'.log = e :: s.log) :
    s'.handedOver = s.handedOver := by
  unfold SendState.handedOver
  rw [hsb, htt]
  rcases hlog with hlog | ⟨e, he, hlog⟩
  · rw [hlog]
  · rw [hlog, dataAckIds_cons_of_isLocal he]

/-- A thread allocates a packet. -/
theorem Placed.malloc (h : Placed s) {t : Fin k} {pc : SendPc}
    (hthreads : s'.threads = fun u => if u = t then pc else s.threads u) (hpacket : pc.packetId = some s.nextBuf)
    (hover : s'.handedOver = s.handedOver) (hnext : s'.nextBuf = s.nextBuf + 1) : Placed s' := by
  have hown : ∀ u b, (s'.threads u).packetId = some b →
      (u = t ∧ b = s.nextBuf) ∨ (u ≠ t ∧ (s.threads u).packetId = some b) := by
    intro u b hb
    rw [hthreads] at hb
    by_cases hu : u = t
    · subst hu
      simp only [if_true, hpacket, Option.some.injEq] at hb
      exact Or.inl ⟨rfl, hb.symm⟩
    · exact Or.inr ⟨hu, by simpa [hu] using hb⟩
  constructor
  · intro u b hb
    rcases hown u b hb with ⟨-, rfl⟩ | ⟨-, hb⟩
    · omega
    · have := h.thread_lt u b hb
      omega
  · intro b hb
    rw [hover] at hb
    have := h.handedOver_lt b hb
    omega
  · intro u v b hu hv
    rcases hown u b hu with ⟨rfl, rfl⟩ | ⟨hne, hu⟩
    · rcases hown v _ hv with ⟨rfl, -⟩ | ⟨-, hv⟩
      · rfl
      · exact absurd (h.thread_lt v _ hv) (Nat.lt_irrefl _)
    · rcases hown v b hv with ⟨rfl, rfl⟩ | ⟨-, hv⟩
      · exact absurd (h.thread_lt u _ hu) (Nat.lt_irrefl _)
      · exact h.thread_inj u v b hu hv
  · intro u b hb hmem
    rw [hover] at hmem
    rcases hown u b hb with ⟨-, rfl⟩ | ⟨-, hb⟩
    · exact absurd (h.handedOver_lt _ hmem) (Nat.lt_irrefl _)
    · exact h.thread_disjoint u b hb hmem
  · rw [hover]
    exact h.nodup

/-- A thread hands its packet over. -/
theorem Placed.push (h : Placed s) {t : Fin k} {pc : SendPc} {id : Nat}
    (hthreads : s'.threads = fun u => if u = t then pc else s.threads u) (hpacket : pc.packetId = none)
    (hid : (s.threads t).packetId = some id) (hover : s'.handedOver.Perm (id :: s.handedOver))
    (hnext : s'.nextBuf = s.nextBuf) : Placed s' := by
  -- the packet changes hands: first forget that the thread owns it
  have hown : ∀ u b, (s'.threads u).packetId = some b →
      (s.threads u).packetId = some b ∧ b ≠ id := by
    intro u b hb
    rw [hthreads] at hb
    by_cases hu : u = t
    · simp [hu, hpacket] at hb
    · have hb' : (s.threads u).packetId = some b := by simpa [hu] using hb
      refine ⟨hb', ?_⟩
      rintro rfl
      exact hu (h.thread_inj u t _ hb' hid)
  constructor
  · intro u b hb
    rw [hnext]
    exact h.thread_lt u b (hown u b hb).1
  · intro b hb
    rw [hnext]
    rcases List.mem_cons.mp (hover.mem_iff.mp hb) with rfl | hmem
    · exact h.thread_lt t _ hid
    · exact h.handedOver_lt b hmem
  · intro u v b hu hv
    exact h.thread_inj u v b (hown u b hu).1 (hown v b hv).1
  · intro u b hb hmem
    rcases List.mem_cons.mp (hover.mem_iff.mp hmem) with he | hmem
    · exact (hown u b hb).2 he
    · exact h.thread_disjoint u b (hown u b hb).1 hmem
  · exact hover.nodup_iff.mpr (List.nodup_cons.mpr ⟨h.thread_disjoint t _ hid, h.nodup⟩)

theorem placed_step (h : Placed s) (hs : (sendLts k gmac).step s l s') : Placed s' := by
  cases sendStep_move hs with
  | thread t pc hthreads hsb htt hnext hlog _ _ hpacket =>
    exact h.of_thread hthreads hpacket (handedOver_of_local hsb htt hlog) hnext
  | malloc t pc hthreads hsb htt hnext hlog _ _ hpacket =>
    have hover : s'.handedOver = s.handedOver := handedOver_of_local hsb htt (Or.inl hlog)
    exact h.malloc hthreads hpacket hover hnext
  | transmit t keyPos seqNum packet packet' hbefore hid hthreads hsb htt hnext hlog =>
    refine h.of_thread hthreads ?_ ?_ hnext
    · intro b hb
      rw [hbefore]
      rw [← hb]
      exact congrArg some hid.symm
    · unfold SendState.handedOver
      rw [hsb, htt, hlog]
      rfl
  | push t now n packet _ hpc hthreads hsb htt hnext hlog =>
    have hdata : dataAckIds s'.log = dataAckIds s.log := by rw [hlog]; rfl
    by_cases ha : s.sendBuffer.accepts n
    · obtain ⟨sb', hpush, hcontents, -⟩ := takionSendBufferPush_ok ha packet now
      rw [hpush] at hsb
      have hid : (s.threads t).packetId = some packet.id := by rw [hpc]; rfl
      have hover : s'.handedOver.Perm (packet.id :: s.handedOver) := by
        unfold SendState.handedOver
        rw [hsb, hcontents, htt, hdata, List.map_append, List.append_assoc, List.append_assoc,
          List.append_assoc]
        exact List.perm_middle
      exact h.push hthreads rfl hid hover hnext
    · rw [(takionSendBufferPush_error ha packet now).1] at hsb
      refine h.of_thread hthreads (fun b hb => by cases hb) ?_ hnext
      unfold SendState.handedOver
      rw [hsb, htt, hdata]
  | ack payload c _ _ hidle hthreads hsb htt hnext hlog =>
    refine h.of_perm hthreads ?_ hnext
    obtain ⟨hcontents, hacked, -⟩ := takionSendBufferAck_eq s.sendBuffer c
    unfold SendState.handedOver
    rw [hsb, htt, hlog, hidle, hcontents]
    show (_ ++ (takionSendBufferAck s.sendBuffer c).2.map (·.buf.id) ++ dataAckIds s.log).Perm
      (_ ++ [] ++ dataAckIds s.log)
    rw [hacked, List.append_nil, ← List.map_append]
    refine List.Perm.append_right _ (List.Perm.map _ ?_)
    exact (List.perm_append_comm).trans (List.filter_append_perm _ _)
  | raise n p rest hbefore hthreads hsb htt hnext hlog =>
    refine h.of_perm hthreads ?_ hnext
    unfold SendState.handedOver
    rw [hsb, htt, hlog, hbefore, List.append_assoc, List.append_assoc]
    exact List.Perm.append_left _ List.perm_middle
  | ackDone n hbefore hthreads hsb htt hnext hlog =>
    refine h.of_perm hthreads ?_ hnext
    unfold SendState.handedOver
    rw [hsb, htt, hlog, hbefore]
    exact List.Perm.refl _
  | resend now e hthreads hsb htt hnext he hlog =>
    refine h.of_perm hthreads ?_ hnext
    have hmap := congrArg (List.map fun r => r.2.id) (takionSendBufferResend_eq s.sendBuffer now).1
    simp only [List.map_map] at hmap
    unfold SendState.handedOver
    rw [hsb, htt, hlog, dataAckIds_cons_of_isLocal he]
    exact List.Perm.of_eq (congrArg (fun ids => ids ++ _ ++ _) hmap)
  | ignored hthreads hsb htt hnext hlog =>
    refine h.of_perm hthreads (List.Perm.of_eq ?_) hnext
    exact handedOver_of_local hsb htt (Or.inl hlog)

theorem placed_invariant (gmac : κ → Nat → Bytes → Mac) : (sendLts k gmac).Invariant Placed where
  init := by
    rintro s ⟨tagLocal, tagRemote, -, rfl⟩
    exact placed_init tagLocal tagRemote
  step := fun _ _ _ h hs => placed_step h hs

/-! ## A transmitted packet waits for its acknowledgement -/

/-- A cumulative number that covers `seqNum` was processed, and all its events were raised. -/
def Settled (events : List SendEvent) (seqNum : Nat) : Prop :=
  ∃ c after before, Occurs events (.ackDone c) after before ∧ .ack c ∈ before ∧
    (seqNum = c ∨ seqNum32Lt seqNum c = true)

/--
Once a cumulative number that covers a transmitted packet has been processed, the packet is not
in the send buffer, and exactly one DATA_ACK event has been raised for it.
-/
def AckComplete (s : SendState κ k) : Prop :=
  ∀ later earlier seqNum id, Occurs s.log (.transmit seqNum id) later earlier →
    Settled later seqNum →
      (∀ p ∈ s.sendBuffer.contents, p.buf.id ≠ id) ∧ s.log.count (.dataAck seqNum id) = 1

/-- The cumulative number that the step processes. -/
def acking : SendLabel κ k → Option Nat
  | .ack payload => takionDataAckSeqNum payload
  | _ => none

/-- No thread is between the transmission and the push of a packet that the number covers. -/
def AckOrdered (s : SendState κ k) (l : SendLabel κ k) : Prop :=
  ∀ c ∈ acking l, ∀ t, ∀ n ∈ (s.threads t).transmittedSeqNum, ¬ (n = c ∨ seqNum32Lt n c = true)

/-- Pushes find room, and acknowledgements come after the push. -/
def SendOrdered (s : SendState κ k) (l : SendLabel κ k) : Prop := PushAccepted s l ∧ AckOrdered s l

theorem Settled.ackedIn {events : List SendEvent} {n : Nat} (h : Settled events n) :
    AckedIn events n := by
  obtain ⟨c, after, before, ho, hc, hcov⟩ := h
  refine ⟨c, ?_, hcov⟩
  rw [ho]
  exact List.mem_append_right _ (List.mem_cons_of_mem _ hc)

theorem settled_cons {e : SendEvent} {events : List SendEvent} {n : Nat} :
    Settled (e :: events) n ↔
      (∃ c, e = .ackDone c ∧ .ack c ∈ events ∧ (n = c ∨ seqNum32Lt n c = true)) ∨
        Settled events n := by
  constructor
  · rintro ⟨c, after, before, ho, hc, hcov⟩
    rcases occurs_cons.mp ho with ⟨-, rfl, rfl⟩ | ⟨after', -, ho'⟩
    · exact Or.inl ⟨c, rfl, hc, hcov⟩
    · exact Or.inr ⟨c, after', before, ho', hc, hcov⟩
  · rintro (⟨c, rfl, hc, hcov⟩ | ⟨c, after, before, ho, hc, hcov⟩)
    · exact ⟨c, [], events, rfl, hc, hcov⟩
    · exact ⟨c, e :: after, before, occurs_cons.mpr (Or.inr ⟨after, rfl, ho⟩), hc, hcov⟩

theorem ackedIn_cons_of_ne {e : SendEvent} {events : List SendEvent} {n : Nat}
    (hne : ∀ c, e ≠ .ack c) : AckedIn (e :: events) n ↔ AckedIn events n := by
  constructor
  · rintro ⟨c, hc, hcov⟩
    rcases List.mem_cons.mp hc with he | hc
    · exact absurd he.symm (hne c)
    · exact ⟨c, hc, hcov⟩
  · exact fun h => h.cons e

theorem settled_cons_of_ne {e : SendEvent} {events : List SendEvent} {n : Nat}
    (hne : ∀ c, e ≠ .ackDone c) : Settled (e :: events) n ↔ Settled events n := by
  rw [settled_cons]
  constructor
  · rintro (⟨c, he, -⟩ | h)
    · exact absurd he (hne c)
    · exact h
  · exact Or.inr

/-- Where a transmitted packet is: with its thread, in the buffer, waiting for its event, or
behind it. -/
inductive TransmittedPlace (s : SendState κ k) (later : List SendEvent) (n id : Nat) : Prop
  | thread (t : Fin k) (packet : PacketBuf) (at_ : s.threads t = .transmitted n packet)
      (same : packet.id = id) (open_ : ¬ AckedIn later n)
  | buffer (at_ : InSendBuffer s n id) (open_ : ¬ AckedIn later n)
  | raising (p : TakionSendBufferPacket) (at_ : p ∈ s.takionThread.acked) (number : p.seqNum = n)
      (same : p.buf.id = id) (open_ : ¬ Settled later n)
  | raised (event : .dataAck n id ∈ s.log)

def Tracked (s : SendState κ k) : Prop :=
  ∀ later earlier n id, Occurs s.log (.transmit n id) later earlier → TransmittedPlace s later n id

/-- A step that leaves the Takion thread and the packets of the buffer where they are, and logs
neither a transmission nor an acknowledgement. -/
theorem TransmittedPlace.mono {later : List SendEvent} {n id : Nat}
    (h : TransmittedPlace s later n id)
    (hthreads : ∀ t packet, s.threads t = .transmitted n packet →
      s'.threads t = .transmitted n packet)
    (hkeep : InSendBuffer s n id → InSendBuffer s' n id) (htt : s'.takionThread = s.takionThread)
    (hlog : ∀ e ∈ s.log, e ∈ s'.log) : TransmittedPlace s' later n id := by
  cases h with
  | thread t packet hat hsame hopen => exact .thread t packet (hthreads t packet hat) hsame hopen
  | buffer hat hopen => exact .buffer (hkeep hat) hopen
  | raising p hat hnum hsame hopen => exact .raising p (by rw [htt]; exact hat) hnum hsame hopen
  | raised hev => exact .raised (hlog _ hev)

/-- An event that is no acknowledgement does not move the packet. -/
theorem TransmittedPlace.cons {later : List SendEvent} {n id : Nat} {e : SendEvent}
    (h : TransmittedPlace s later n id) (hack : ∀ c, e ≠ .ack c) (hdone : ∀ c, e ≠ .ackDone c) :
    TransmittedPlace s (e :: later) n id := by
  cases h with
  | thread t packet hat hsame hopen =>
    exact .thread t packet hat hsame (by rwa [ackedIn_cons_of_ne hack])
  | buffer hat hopen => exact .buffer hat (by rwa [ackedIn_cons_of_ne hack])
  | raising p hat hnum hsame hopen =>
    exact .raising p hat hnum hsame (by rwa [settled_cons_of_ne hdone])
  | raised hev => exact .raised hev

theorem SendEvent.isLocal_ne {e : SendEvent} (h : e.isLocal = true) :
    (∀ c, e ≠ .ack c) ∧ (∀ c, e ≠ .ackDone c) ∧ ∀ n id, SendEvent.transmit n id ≠ e := by
  refine ⟨?_, ?_, ?_⟩ <;> intros <;> rintro rfl <;> simp [SendEvent.isLocal] at h

/-- The common part of the steps that track no packet. -/
theorem Tracked.of_local (h : Tracked s)
    (hthreads : ∀ t n packet, s.threads t = .transmitted n packet →
      s'.threads t = .transmitted n packet)
    (hkeep : ∀ n id, InSendBuffer s n id → InSendBuffer s' n id)
    (htt : s'.takionThread = s.takionThread)
    (hlog : s'.log = s.log ∨ ∃ e : SendEvent, e.isLocal = true ∧ s'.log = e :: s.log) :
    Tracked s' := by
  intro later earlier n id ho
  rcases hlog with hlog | ⟨e, he, hlog⟩
  · rw [hlog] at ho
    exact (h later earlier n id ho).mono (fun t => hthreads t n) (hkeep n id) htt
      (by rw [hlog]; exact fun _ hm => hm)
  · obtain ⟨hack, hdone, htransmit⟩ := SendEvent.isLocal_ne he
    rw [hlog, occurs_cons_of_ne (htransmit n id)] at ho
    obtain ⟨before, rfl, ho⟩ := ho
    exact ((h before earlier n id ho).mono (fun t => hthreads t n) (hkeep n id) htt
      (by rw [hlog]; exact fun _ hm => List.mem_cons_of_mem _ hm)).cons hack hdone

theorem transmitted_of_ne {t : Fin k} {pc : SendPc}
    (hthreads : s'.threads = fun u => if u = t then pc else s.threads u)
    (hbefore : (s.threads t).transmittedSeqNum = none) {u : Fin k} {n : Nat} {packet : PacketBuf}
    (hat : s.threads u = .transmitted n packet) : s'.threads u = .transmitted n packet := by
  have hne : u ≠ t := by
    rintro rfl
    rw [hat] at hbefore
    cases hbefore
  rw [hthreads]
  simp [hne, hat]

/-- A transmitted packet is pushed. -/
theorem Tracked.push (hI : Tracked s) {t : Fin k} {m now : Nat} {packet : PacketBuf}
    (hpc : s.threads t = .transmitted m packet) (haccepts : s.sendBuffer.accepts m)
    (hthreads : s'.threads = fun u => if u = t then .pushed m packet.id else s.threads u)
    (hsb : s'.sendBuffer = (takionSendBufferPush s.sendBuffer m packet now).1)
    (htt : s'.takionThread = s.takionThread) (hlog : s'.log = .push m packet.id :: s.log) : Tracked s' := by
  obtain ⟨sb', hpush, hcontents, -⟩ := takionSendBufferPush_ok haccepts packet now
  rw [hpush] at hsb
  have hnew : InSendBuffer s' m packet.id := by
    unfold InSendBuffer
    rw [hsb, hcontents]
    exact ⟨_, List.mem_append_right _ (List.mem_singleton.mpr rfl), rfl, rfl⟩
  have hkeep : ∀ n id, InSendBuffer s n id → InSendBuffer s' n id := by
    rintro n id ⟨p, hp, hp'⟩
    unfold InSendBuffer
    rw [hsb, hcontents]
    exact ⟨p, List.mem_append_left _ hp, hp'⟩
  intro later earlier n id ho
  rw [hlog, occurs_cons_of_ne (by simp)] at ho
  obtain ⟨before, rfl, ho⟩ := ho
  refine TransmittedPlace.cons ?_ (by simp) (by simp)
  cases hI before earlier n id ho with
  | thread u packet' hat hsame hopen =>
    by_cases hu : u = t
    · -- this is the packet that is pushed
      subst hu
      rw [hpc] at hat
      cases hat
      exact .buffer (hsame ▸ hnew) hopen
    · exact .thread u packet' (by rw [hthreads]; simp [hu, hat]) hsame hopen
  | buffer hat hopen => exact .buffer (hkeep n id hat) hopen
  | raising p hat hnum hsame hopen => exact .raising p (by rw [htt]; exact hat) hnum hsame hopen
  | raised hev => exact .raised (by rw [hlog]; exact List.mem_cons_of_mem _ hev)

/-- An acknowledgement that comes behind the pushes of what it covers. -/
theorem Tracked.ack (hI : Tracked s) {c : Nat}
    (hordered : ∀ t, ∀ n ∈ (s.threads t).transmittedSeqNum, ¬ (n = c ∨ seqNum32Lt n c = true))
    (hidle : s.takionThread = .idle) (hthreads : s'.threads = s.threads)
    (hsb : s'.sendBuffer = (takionSendBufferAck s.sendBuffer c).1)
    (htt : s'.takionThread = .raising c (takionSendBufferAck s.sendBuffer c).2)
    (hlog : s'.log = .ack c :: s.log) : Tracked s' := by
  obtain ⟨hcontents, hacked, -⟩ := takionSendBufferAck_eq s.sendBuffer c
  intro later earlier n id ho
  rw [hlog, occurs_cons_of_ne (by simp)] at ho
  obtain ⟨before, rfl, ho⟩ := ho
  have hstill : ¬ (n = c ∨ seqNum32Lt n c = true) → ¬ AckedIn before n →
      ¬ AckedIn (.ack c :: before) n := by
    rintro hcov hopen ⟨c', hc', hcov'⟩
    rcases List.mem_cons.mp hc' with he | hc'
    · cases he
      exact hcov hcov'
    · exact hopen ⟨c', hc', hcov'⟩
  cases hI before earlier n id ho with
  | thread t packet hat hsame hopen =>
    refine .thread t packet (by rw [hthreads]; exact hat) hsame (hstill ?_ hopen)
    exact hordered t n (by rw [hat]; rfl)
  | buffer hat hopen =>
    obtain ⟨p, hp, rfl, hid⟩ := hat
    cases hc : p.covered c with
    | true =>
      refine .raising p ?_ rfl hid ?_
      · rw [htt]
        show p ∈ (takionSendBufferAck s.sendBuffer c).2
        rw [hacked]
        exact List.mem_filter.mpr ⟨hp, hc⟩
      · rw [settled_cons_of_ne (by simp)]
        exact fun h => hopen h.ackedIn
    | false =>
      refine .buffer ⟨p, ?_, rfl, hid⟩ (hstill ?_ hopen)
      · rw [hsb, hcontents]
        exact List.mem_filter.mpr ⟨hp, by simp [hc]⟩
      · rw [← covered_iff, hc]
        simp
  | raising p hat hnum hsame hopen =>
    rw [hidle] at hat
    cases hat
  | raised hev => exact .raised (by rw [hlog]; exact List.mem_cons_of_mem _ hev)

theorem tracked_step (hI : Tracked s) (hG : SendOrdered s l) (hs : (sendLts k gmac).step s l s') :
    Tracked s' := by
  cases sendStep_move hs with
  | thread t pc hthreads hsb htt _ hlog hbefore =>
    exact hI.of_local (fun _ _ _ => transmitted_of_ne hthreads hbefore) (fun _ _ => .of_eq hsb)
      htt hlog
  | malloc t pc hthreads hsb htt _ hlog hbefore =>
    exact hI.of_local (fun _ _ _ => transmitted_of_ne hthreads hbefore) (fun _ _ => .of_eq hsb)
      htt (Or.inl hlog)
  | transmit t keyPos m packet packet' hbefore hid hthreads hsb htt _ hlog =>
    intro later earlier n id ho
    rw [hlog, occurs_cons] at ho
    rcases ho with ⟨rfl, he, -⟩ | ⟨before, rfl, ho⟩
    · cases he
      refine .thread t packet' (by rw [hthreads]; simp) hid ?_
      rintro ⟨c, hc, -⟩
      cases hc
    · exact ((hI before earlier n id ho).mono
        (fun _ _ => transmitted_of_ne hthreads (by rw [hbefore]; rfl)) (.of_eq hsb) htt
        (by rw [hlog]; exact fun _ hm => List.mem_cons_of_mem _ hm)).cons (by simp) (by simp)
  | push t now m packet hl hpc hthreads hsb htt _ hlog =>
    have haccepts : s.sendBuffer.accepts m := by
      refine hG.1 m ?_
      rw [hl, pushing, hpc]
      rfl
    exact hI.push hpc haccepts hthreads hsb htt hlog
  | ack payload c hl hparsed hidle hthreads hsb htt _ hlog =>
    refine hI.ack (fun t n hn => ?_) hidle hthreads hsb htt hlog
    exact hG.2 c (by rw [hl]; exact hparsed) t n hn
  | raise c q rest hbefore hthreads hsb htt _ hlog =>
    intro later earlier n id ho
    rw [hlog, occurs_cons_of_ne (by simp)] at ho
    obtain ⟨before, rfl, ho⟩ := ho
    refine TransmittedPlace.cons ?_ (by simp) (by simp)
    cases hI before earlier n id ho with
    | thread t packet hat hsame hopen =>
      exact .thread t packet (by rw [hthreads]; exact hat) hsame hopen
    | buffer hat hopen => exact .buffer (hat.of_eq hsb) hopen
    | raising p hat hnum hsame hopen =>
      rw [hbefore] at hat
      rcases List.mem_cons.mp hat with rfl | hat
      · exact .raised (by rw [hlog, hnum, hsame]; exact List.mem_cons_self ..)
      · exact .raising p (by rw [htt]; exact hat) hnum hsame hopen
    | raised hev => exact .raised (by rw [hlog]; exact List.mem_cons_of_mem _ hev)
  | ackDone c hbefore hthreads hsb htt _ hlog =>
    intro later earlier n id ho
    rw [hlog, occurs_cons_of_ne (by simp)] at ho
    obtain ⟨before, rfl, ho⟩ := ho
    cases hI before earlier n id ho with
    | thread t packet hat hsame hopen =>
      exact .thread t packet (by rw [hthreads]; exact hat) hsame
        (by rwa [ackedIn_cons_of_ne (by simp)])
    | buffer hat hopen => exact .buffer (hat.of_eq hsb) (by rwa [ackedIn_cons_of_ne (by simp)])
    | raising p hat hnum hsame hopen =>
      rw [hbefore] at hat
      cases hat
    | raised hev => exact .raised (by rw [hlog]; exact List.mem_cons_of_mem _ hev)
  | resend now e hthreads hsb htt _ he hlog =>
    exact hI.of_local (by rw [hthreads]; exact fun _ _ _ h => h) (fun _ _ => .resend hsb) htt
      (Or.inr ⟨e, he, hlog⟩)
  | ignored hthreads hsb htt _ hlog =>
    exact hI.of_local (by rw [hthreads]; exact fun _ _ _ h => h) (fun _ _ => .of_eq hsb) htt
      (Or.inl hlog)

theorem sendTracked_invariant (gmac : κ → Nat → Bytes → Mac) :
    ((sendLts k gmac).restrict SendOrdered).Invariant fun s => Placed s ∧ Tracked s := by
  refine Lts.Invariant.and_of (placed_invariant gmac).restrict ?_ ?_
  · rintro s ⟨tagLocal, tagRemote, -, rfl⟩ later earlier n id ho
    have hmem := ho.mem
    simp [sendInit] at hmem
  · intro s l s' _ hI hs
    exact tracked_step hI hs.1 hs.2

theorem mem_dataAckIds {log : List SendEvent} {n id : Nat} (h : .dataAck n id ∈ log) :
    id ∈ dataAckIds log := List.mem_filterMap.mpr ⟨_, h, rfl⟩

/-- Events of one packet are counted by its id. -/
theorem count_dataAck_le (log : List SendEvent) (n id : Nat) :
    log.count (.dataAck n id) ≤ (dataAckIds log).count id := by
  induction log with
  | nil => simp
  | cons e log ih =>
    rw [List.count_cons]
    by_cases he : e = .dataAck n id
    · subst he
      simpa [dataAckIds] using ih
    · have hle : (dataAckIds log).count id ≤ (dataAckIds (e :: log)).count id :=
        List.Sublist.count_le _ ((List.sublist_cons_self e log).filterMap _)
      simp only [beq_iff_eq, he, if_false]
      omega

/-- **An acknowledgement that does not overtake the push releases the packet and raises exactly
one event**, in any interleaving. -/
theorem ackComplete_of_ordered (gmac : κ → Nat → Bytes → Mac)
    (hr : ((sendLts k gmac).restrict SendOrdered).Reachable s) : AckComplete s := by
  intro later earlier n id ho hsettled
  obtain ⟨hplaced, htracked⟩ := (sendTracked_invariant gmac).reachable hr
  have hev : .dataAck n id ∈ s.log := by
    cases htracked later earlier n id ho with
    | thread _ _ _ _ hopen => exact absurd hsettled.ackedIn hopen
    | buffer _ hopen => exact absurd hsettled.ackedIn hopen
    | raising _ _ _ _ hopen => exact absurd hsettled hopen
    | raised hev => exact hev
  have hid := mem_dataAckIds hev
  have hnodup := hplaced.nodup
  unfold SendState.handedOver at hnodup
  obtain ⟨-, hdata, hdisjoint⟩ := List.nodup_append.mp hnodup
  constructor
  · rintro p hp rfl
    exact hdisjoint _ (List.mem_append_left _ (List.mem_map_of_mem hp)) _ hid rfl
  · have hpos : 0 < s.log.count (.dataAck n id) := List.count_pos_iff.mpr hev
    have hle := count_dataAck_le s.log n id
    have hone : (dataAckIds s.log).count id ≤ 1 := List.nodup_iff_count.mp hdata id
    omega

/-! ### Runs with the acknowledgement behind and in front of the push -/

instance (s : SendState κ k) (l : SendLabel κ k) : Decidable (AckOrdered s l) :=
  inferInstanceAs (Decidable (∀ c ∈ acking l, ∀ t, ∀ n ∈ (s.threads t).transmittedSeqNum, _))

instance (s : SendState κ k) (l : SendLabel κ k) : Decidable (SendOrdered s l) :=
  inferInstanceAs (Decidable (_ ∧ _))

/-- The payload of a DATA_ACK for the first number. -/
def firstDataAck : Bytes := be32 0x4823 ++ be32 0x19000 ++ be16 0 ++ be16 0

def sendThenAck : List (SendLabel Unit 1) := sendOneMessage ++ [.ack firstDataAck, .raise, .raise]

theorem sendThenAck_run :
    (Lts.runFun (Lts.guarded (sendStep zeroGmac) SendOrdered) (sendInit 0x4823 1)
        sendThenAck).map (fun s => s.log)
      = some [.ackDone 0x4823, .dataAck 0x4823 0, .ack 0x4823, .returnedSuccess 0x4823 0,
          .push 0x4823 0, .transmit 0x4823 0, .reserve 0x4823 0] := by
  decide +kernel

theorem ackComplete_sendThenAck : ∃ s : SendState Unit 1,
    s.log.head? = some (.ackDone 0x4823) ∧ AckComplete s := by
  obtain ⟨s, hrun, hlog⟩ := Option.map_eq_some_iff.mp sendThenAck_run
  refine ⟨s, by rw [hlog]; rfl, ackComplete_of_ordered zeroGmac ?_⟩
  exact Lts.Reachable.runGuarded (.init ⟨0x4823, 1, by decide, rfl⟩) hrun

/-- The acknowledgement is handled while the sender is still on its way to the buffer. -/
def ackBeforePush : List (SendLabel Unit 1) :=
  let t : Fin 1 := ⟨0, Nat.one_pos⟩
  [.call t ⟨1, 8, []⟩, .malloc t true, .reserve t, .transmit t true, .ack firstDataAck, .raise,
    .push t 0, .ret t]

theorem ackBeforePush_run :
    (Lts.runFun (sendStep zeroGmac) (sendInit 0x4823 1) ackBeforePush).map
        (fun s => (s.sendBuffer.contents.map (·.buf.id), s.log))
      = some ([0], [.returnedSuccess 0x4823 0, .push 0x4823 0, .ackDone 0x4823, .ack 0x4823,
          .transmit 0x4823 0, .reserve 0x4823 0]) := by
  decide +kernel

/-- The packet is in the buffer after all, and no event was raised for it. -/
theorem not_ackComplete : ¬ ∀ s, (sendLts 1 zeroGmac).Reachable s → AckComplete s := by
  intro hall
  obtain ⟨s, hrun, hobs⟩ := Option.map_eq_some_iff.mp ackBeforePush_run
  simp only [Prod.mk.injEq] at hobs
  obtain ⟨hids, hlog⟩ := hobs
  have hreach : (sendLts 1 zeroGmac).Reachable s :=
    Lts.Reachable.runFun (.init ⟨0x4823, 1, by decide, rfl⟩) hrun
  have hocc : Occurs s.log (.transmit 0x4823 0)
      [.returnedSuccess 0x4823 0, .push 0x4823 0, .ackDone 0x4823, .ack 0x4823]
      [.reserve 0x4823 0] := hlog
  have hsettled : Settled
      [.returnedSuccess 0x4823 0, .push 0x4823 0, .ackDone 0x4823, .ack 0x4823] 0x4823 :=
    ⟨0x4823, [.returnedSuccess 0x4823 0, .push 0x4823 0], [.ack 0x4823], rfl, by simp, Or.inl rfl⟩
  have hcount := (hall s hreach _ _ _ _ hocc hsettled).2
  rw [hlog] at hcount
  exact absurd hcount (by decide)

end Chiaki
