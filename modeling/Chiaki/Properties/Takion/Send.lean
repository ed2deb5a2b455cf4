import Chiaki.Infra.History
import Chiaki.Properties.Takion.SendBuffer
import Chiaki.Takion.Send

/-!
# Reliable sending: what is kept, and what is acknowledged

`sendStep_move` says once what a step can do to the packets: where they are and which events
are logged. Two facts about every run follow from it.

* `noSilentLoss_of_accepted` — a message whose push finds room stays until it is acknowledged
* `ackComplete_of_ordered` — an acknowledgement that does not overtake the push raises one event

Both need their condition: `not_noSilentLoss` and `not_ackComplete` are runs without it.
-/

namespace Chiaki

open Infra Infra.History

variable {κ : Type} {k : Nat} {gmac : κ → Nat → Bytes → Mac} {s s' : SendState κ k} {l : SendLabel κ k}

/-! ## What a step can do -/

/-- The heap buffer that a thread owns. -/
def SendPc.packetId : SendPc → Option Nat
  | .idle => none
  | .advanced .. => none
  | .allocated _ _ id => some id
  | .reserved _ _ packet => some packet.id
  | .transmitted _ packet => some packet.id
  | .pushed .. => none

/-- The number of the packet that a thread has transmitted and not pushed yet. -/
def SendPc.transmittedSeqNum : SendPc → Option Nat
  | .transmitted seqNum _ => some seqNum
  | _ => none

/-- The packets that still wait for their DATA_ACK event. -/
def AckPc.acked : AckPc → List TakionSendBufferPacket
  | .idle => []
  | .raising _ acked => acked

/-- Events that say nothing about where a packet is. -/
def SendEvent.isLocal : SendEvent → Bool
  | .reserve .. | .returned .. | .returnedSuccess .. | .resend .. => true
  | _ => false

/-- What a step changes, by who moves. The fields about keys and numbers are left out. -/
inductive SendMove (s : SendState κ k) (l : SendLabel κ k) (s' : SendState κ k) : Prop
  | thread (t : Fin k) (pc : SendPc)
      (threads : s'.threads = fun u => if u = t then pc else s.threads u)
      (sendBuffer : s'.sendBuffer = s.sendBuffer) (takionThread : s'.takionThread = s.takionThread)
      (nextBuf : s'.nextBuf = s.nextBuf)
      (log : s'.log = s.log ∨ ∃ e : SendEvent, e.isLocal = true ∧ s'.log = e :: s.log)
      (before : (s.threads t).transmittedSeqNum = none) (after : pc.transmittedSeqNum = none)
      (packet : ∀ b, pc.packetId = some b → (s.threads t).packetId = some b)
  | malloc (t : Fin k) (pc : SendPc)
      (threads : s'.threads = fun u => if u = t then pc else s.threads u)
      (sendBuffer : s'.sendBuffer = s.sendBuffer) (takionThread : s'.takionThread = s.takionThread)
      (nextBuf : s'.nextBuf = s.nextBuf + 1) (log : s'.log = s.log)
      (before : (s.threads t).transmittedSeqNum = none) (after : pc.transmittedSeqNum = none)
      (packet : pc.packetId = some s.nextBuf)
  | transmit (t : Fin k) (keyPos seqNum : Nat) (packet packet' : PacketBuf)
      (before : s.threads t = .reserved keyPos seqNum packet) (id : packet'.id = packet.id)
      (threads : s'.threads = fun u => if u = t then .transmitted seqNum packet' else s.threads u)
      (sendBuffer : s'.sendBuffer = s.sendBuffer) (takionThread : s'.takionThread = s.takionThread)
      (nextBuf : s'.nextBuf = s.nextBuf) (log : s'.log = .transmit seqNum packet.id :: s.log)
  | push (t : Fin k) (now seqNum : Nat) (packet : PacketBuf) (label : l = .push t now)
      (before : s.threads t = .transmitted seqNum packet)
      (threads : s'.threads = fun u => if u = t then .pushed seqNum packet.id else s.threads u)
      (sendBuffer : s'.sendBuffer = (takionSendBufferPush s.sendBuffer seqNum packet now).1)
      (takionThread : s'.takionThread = s.takionThread)
      (nextBuf : s'.nextBuf = s.nextBuf) (log : s'.log = .push seqNum packet.id :: s.log)
  | ack (payload : Bytes) (seqNum : Nat) (label : l = .ack payload)
      (parsed : takionDataAckSeqNum payload = some seqNum) (before : s.takionThread = .idle)
      (threads : s'.threads = s.threads)
      (sendBuffer : s'.sendBuffer = (takionSendBufferAck s.sendBuffer seqNum).1)
      (takionThread : s'.takionThread = .raising seqNum (takionSendBufferAck s.sendBuffer seqNum).2)
      (nextBuf : s'.nextBuf = s.nextBuf) (log : s'.log = .ack seqNum :: s.log)
  | raise (seqNum : Nat) (p : TakionSendBufferPacket) (rest : List TakionSendBufferPacket)
      (before : s.takionThread = .raising seqNum (p :: rest))
      (threads : s'.threads = s.threads) (sendBuffer : s'.sendBuffer = s.sendBuffer)
      (takionThread : s'.takionThread = .raising seqNum rest)
      (nextBuf : s'.nextBuf = s.nextBuf) (log : s'.log = .dataAck p.seqNum p.buf.id :: s.log)
  | ackDone (seqNum : Nat) (before : s.takionThread = .raising seqNum [])
      (threads : s'.threads = s.threads) (sendBuffer : s'.sendBuffer = s.sendBuffer)
      (takionThread : s'.takionThread = .idle)
      (nextBuf : s'.nextBuf = s.nextBuf) (log : s'.log = .ackDone seqNum :: s.log)
  | resend (now : Nat) (e : SendEvent) (threads : s'.threads = s.threads)
      (sendBuffer : s'.sendBuffer = (takionSendBufferResend s.sendBuffer now).1)
      (takionThread : s'.takionThread = s.takionThread) (nextBuf : s'.nextBuf = s.nextBuf)
      (event : e.isLocal = true) (log : s'.log = e :: s.log)
  | ignored (threads : s'.threads = s.threads) (sendBuffer : s'.sendBuffer = s.sendBuffer)
      (takionThread : s'.takionThread = s.takionThread) (nextBuf : s'.nextBuf = s.nextBuf)
      (log : s'.log = s.log)

/-- A thread that does not own a transmitted packet leaves the function. -/
theorem SendMove.toIdle {t : Fin k} {pc : SendPc} (hpc : s.threads t = pc)
    (hbefore : pc.transmittedSeqNum = none)
    (hthreads : s'.threads = fun u => if u = t then .idle else s.threads u)
    (hsb : s'.sendBuffer = s.sendBuffer) (htt : s'.takionThread = s.takionThread)
    (hnext : s'.nextBuf = s.nextBuf)
    (hlog : s'.log = s.log ∨ ∃ e : SendEvent, e.isLocal = true ∧ s'.log = e :: s.log) :
    SendMove s l s' :=
  .thread t .idle hthreads hsb htt hnext hlog (by rw [hpc, hbefore]) rfl fun _ hb => by cases hb

theorem sendStep_move (h : (sendLts k gmac).step s l s') : SendMove s l s' := by
  replace h : sendStep gmac s l = some s' := h
  cases l with
  | call t args =>
    simp only [sendStep] at h
    split at h
    · next hpc =>
      cases h
      unfold sendCall
      split
      · refine .thread t (s.threads t) ?_ rfl rfl rfl (Or.inr ⟨_, rfl, rfl⟩) ?_ ?_ fun _ hb => hb
        · funext u
          by_cases hu : u = t <;> simp [hu, SendState.emit]
        · rw [hpc]; rfl
        · rw [hpc]; rfl
      · next keyPos _ _ =>
        exact .thread t (.advanced args keyPos) rfl rfl rfl rfl (Or.inl rfl) (by rw [hpc]; rfl) rfl
          fun _ hb => by cases hb
    · cases h
  | malloc t ok =>
    simp only [sendStep] at h
    split at h
    · next args keyPos hpc =>
      cases h
      cases ok with
      | true =>
        exact .malloc t (.allocated args keyPos s.nextBuf) rfl rfl rfl rfl rfl (by rw [hpc]; rfl)
          rfl rfl
      | false => exact .toIdle hpc rfl rfl rfl rfl rfl (Or.inr ⟨_, rfl, rfl⟩)
    · cases h
  | reserve t =>
    simp only [sendStep] at h
    split at h
    · next args keyPos id hpc =>
      cases h
      refine .thread t (.reserved keyPos s.seqNumLocal ⟨id, _⟩) rfl rfl rfl rfl
        (Or.inr ⟨_, rfl, rfl⟩) (by rw [hpc]; rfl) rfl ?_
      rw [hpc]
      exact fun _ hb => hb
    · cases h
  | transmit t ok =>
    simp only [sendStep] at h
    split at h
    · next keyPos seqNum packet hpc =>
      cases h
      unfold sendTransmit
      split
      · exact .toIdle hpc rfl rfl rfl rfl rfl (Or.inr ⟨_, rfl, rfl⟩)
      · next buf _ _ _ =>
        cases ok with
        | true => exact .transmit t keyPos seqNum packet ⟨packet.id, buf⟩ hpc rfl rfl rfl rfl rfl rfl
        | false => exact .toIdle hpc rfl rfl rfl rfl rfl (Or.inr ⟨_, rfl, rfl⟩)
    · cases h
  | push t now =>
    simp only [sendStep] at h
    split at h
    · next seqNum packet hpc =>
      cases h
      exact .push t now seqNum packet rfl hpc rfl rfl rfl rfl rfl
    · cases h
  | ret t =>
    simp only [sendStep] at h
    split at h
    · next seqNum id hpc =>
      cases h
      exact .toIdle hpc rfl rfl rfl rfl rfl (Or.inr ⟨_, rfl, rfl⟩)
    · cases h
  | ack payload =>
    simp only [sendStep] at h
    split at h
    · next hpc =>
      cases h
      unfold sendAck
      cases hp : takionDataAckSeqNum payload with
      | none => exact .ignored rfl rfl rfl rfl rfl
      | some seqNum => exact .ack payload seqNum rfl hp hpc rfl rfl rfl rfl rfl
    · cases h
  | raise =>
    simp only [sendStep] at h
    split at h
    · next seqNum acked hpc =>
      cases h
      cases acked with
      | nil => exact .ackDone seqNum hpc rfl rfl rfl rfl rfl
      | cons p rest => exact .raise seqNum p rest hpc rfl rfl rfl rfl rfl
    · cases h
  | resend now =>
    cases h
    exact .resend now _ rfl rfl rfl rfl rfl rfl
  | setCrypt k =>
    cases h
    exact .ignored rfl rfl rfl rfl rfl

/-! ## No message is lost silently -/

/-- The packet `id` of number `seqNum` is in the send buffer. -/
def InSendBuffer (s : SendState κ k) (seqNum id : Nat) : Prop :=
  ∃ p ∈ s.sendBuffer.contents, p.seqNum = seqNum ∧ p.buf.id = id

/-- A cumulative number that covers `seqNum` was processed. -/
def AckedIn (events : List SendEvent) (seqNum : Nat) : Prop :=
  ∃ c, .ack c ∈ events ∧ (seqNum = c ∨ seqNum32Lt seqNum c = true)

/--
Every message that was reported as sent is in the send buffer, until a cumulative number that
covers it is processed. That may happen as soon as the packet was handed to the buffer, even
before the function returns.
-/
def NoSilentLoss (s : SendState κ k) : Prop :=
  ∀ later earlier seqNum id, Occurs s.log (.push seqNum id) later earlier →
    .returnedSuccess seqNum id ∈ later → InSendBuffer s seqNum id ∨ AckedIn later seqNum

/-- The number of the packet that the step pushes into the send buffer. -/
def pushing (s : SendState κ k) : SendLabel κ k → Option Nat
  | .push t _ => (s.threads t).transmittedSeqNum
  | _ => none

/-- The buffer has room for the packet that is pushed, and holds no packet of its number. -/
def PushAccepted (s : SendState κ k) (l : SendLabel κ k) : Prop :=
  ∀ seqNum ∈ pushing s l, s.sendBuffer.accepts seqNum

instance (sb : TakionSendBuffer) (seqNum : Nat) : Decidable (sb.accepts seqNum) :=
  inferInstanceAs (Decidable (_ ∧ _))

instance (s : SendState κ k) (l : SendLabel κ k) : Decidable (PushAccepted s l) :=
  inferInstanceAs (Decidable (∀ seqNum ∈ pushing s l, s.sendBuffer.accepts seqNum))

theorem AckedIn.cons {events : List SendEvent} {seqNum : Nat} (h : AckedIn events seqNum)
    (e : SendEvent) : AckedIn (e :: events) seqNum := by
  obtain ⟨c, hc, hcov⟩ := h
  exact ⟨c, List.mem_cons_of_mem _ hc, hcov⟩

theorem covered_iff (p : TakionSendBufferPacket) (c : Nat) :
    p.covered c = true ↔ p.seqNum = c ∨ seqNum32Lt p.seqNum c = true := by
  simp [TakionSendBufferPacket.covered]

theorem not_push_of_isLocal {e : SendEvent} (h : e.isLocal = true) (seqNum id : Nat) :
    SendEvent.push seqNum id ≠ e := by
  rintro rfl
  simp [SendEvent.isLocal] at h

/-- Pushed packets are in the buffer or covered. Whether the function has returned does not
matter for it. -/
def PushedKept (s : SendState κ k) : Prop :=
  ∀ later earlier seqNum id, Occurs s.log (.push seqNum id) later earlier →
    InSendBuffer s seqNum id ∨ AckedIn later seqNum

/-- A step that keeps the buffer and logs another event. -/
theorem PushedKept.of_cons (h : PushedKept s) {e : SendEvent} (hlog : s'.log = e :: s.log)
    (hne : ∀ seqNum id, SendEvent.push seqNum id ≠ e)
    (hkeep : ∀ seqNum id, InSendBuffer s seqNum id → InSendBuffer s' seqNum id) : PushedKept s' := by
  intro later earlier seqNum id ho
  rw [hlog, occurs_cons_of_ne (hne seqNum id)] at ho
  obtain ⟨before, rfl, ho⟩ := ho
  rcases h before earlier seqNum id ho with hin | hacked
  · exact Or.inl (hkeep seqNum id hin)
  · exact Or.inr (hacked.cons e)

theorem InSendBuffer.of_eq {seqNum id : Nat} (hsb : s'.sendBuffer = s.sendBuffer)
    (h : InSendBuffer s seqNum id) : InSendBuffer s' seqNum id := by
  unfold InSendBuffer at *
  rw [hsb]
  exact h

theorem InSendBuffer.resend {seqNum id now : Nat}
    (hsb : s'.sendBuffer = (takionSendBufferResend s.sendBuffer now).1)
    (h : InSendBuffer s seqNum id) : InSendBuffer s' seqNum id := by
  obtain ⟨p, hp, hseq, hid⟩ := h
  have hmap := (takionSendBufferResend_eq s.sendBuffer now).1
  rw [← hsb] at hmap
  have hmem : (p.seqNum, p.buf) ∈ s.sendBuffer.contents.map fun p => (p.seqNum, p.buf) :=
    List.mem_map_of_mem hp
  rw [← hmap] at hmem
  obtain ⟨q, hq, he⟩ := List.mem_map.mp hmem
  simp only [Prod.mk.injEq] at he
  exact ⟨q, hq, by rw [he.1, hseq], by rw [he.2, hid]⟩

theorem pushedKept_step (hI : PushedKept s) (hG : PushAccepted s l)
    (hs : (sendLts k gmac).step s l s') : PushedKept s' := by
  cases sendStep_move hs with
  | thread t pc _ hsb _ _ hlog =>
    rcases hlog with hlog | ⟨e, he, hlog⟩
    · intro later earlier seqNum id ho
      rw [hlog] at ho
      exact (hI later earlier seqNum id ho).imp_left (.of_eq hsb)
    · exact hI.of_cons hlog (not_push_of_isLocal he) fun _ _ => .of_eq hsb
  | malloc t pc _ hsb _ _ hlog =>
    intro later earlier seqNum id ho
    rw [hlog] at ho
    exact (hI later earlier seqNum id ho).imp_left (.of_eq hsb)
  | transmit t keyPos seqNum packet packet' _ _ _ hsb _ _ hlog =>
    exact hI.of_cons hlog (by simp) fun _ _ => .of_eq hsb
  | push t now n packet hl hpc _ hsb _ _ hlog =>
    have haccepts : s.sendBuffer.accepts n := by
      refine hG n ?_
      rw [hl, pushing, hpc]
      rfl
    obtain ⟨sb', hpush, hcontents, -⟩ := takionSendBufferPush_ok haccepts packet now
    rw [hpush] at hsb
    intro later earlier seqNum id ho
    rw [hlog, occurs_cons] at ho
    unfold InSendBuffer
    rw [hsb, hcontents]
    rcases ho with ⟨rfl, he, rfl⟩ | ⟨before, rfl, ho⟩
    · cases he
      exact Or.inl ⟨_, List.mem_append_right _ (List.mem_singleton.mpr rfl), rfl, rfl⟩
    · rcases hI before earlier seqNum id ho with ⟨p, hp, hseq, hid⟩ | hacked
      · exact Or.inl ⟨p, List.mem_append_left _ hp, hseq, hid⟩
      · exact Or.inr (hacked.cons _)
  | ack payload c _ _ _ _ hsb _ _ hlog =>
    intro later earlier seqNum id ho
    rw [hlog, occurs_cons_of_ne (by simp)] at ho
    obtain ⟨before, rfl, ho⟩ := ho
    rcases hI before earlier seqNum id ho with ⟨p, hp, hseq, hid⟩ | hacked
    · -- the packet leaves exactly if the number covers it
      cases hc : p.covered c with
      | true =>
        rw [covered_iff, hseq] at hc
        exact Or.inr ⟨c, List.mem_cons_self .., hc⟩
      | false =>
        refine Or.inl ⟨p, ?_, hseq, hid⟩
        rw [hsb, (takionSendBufferAck_eq s.sendBuffer c).1]
        exact List.mem_filter.mpr ⟨hp, by simp [hc]⟩
    · exact Or.inr (hacked.cons _)
  | raise seqNum p rest _ _ hsb _ _ hlog =>
    exact hI.of_cons hlog (by simp) fun _ _ => .of_eq hsb
  | ackDone seqNum _ _ hsb _ _ hlog => exact hI.of_cons hlog (by simp) fun _ _ => .of_eq hsb
  | resend now e _ hsb _ _ he hlog =>
    exact hI.of_cons hlog (not_push_of_isLocal he) fun _ _ => .resend hsb
  | ignored _ hsb _ _ hlog =>
    intro later earlier seqNum id ho
    rw [hlog] at ho
    exact (hI later earlier seqNum id ho).imp_left (.of_eq hsb)

theorem pushedKept_init (tagLocal tagRemote : Nat) :
    PushedKept (sendInit tagLocal tagRemote : SendState κ k) := by
  intro later earlier seqNum id ho
  have hmem := ho.mem
  simp [sendInit] at hmem

theorem pushedKept_invariant (gmac : κ → Nat → Bytes → Mac) :
    ((sendLts k gmac).restrict PushAccepted).Invariant PushedKept where
  init := by
    rintro s ⟨tagLocal, tagRemote, -, rfl⟩
    exact pushedKept_init tagLocal tagRemote
  step := fun _ _ _ hI hs => pushedKept_step hI hs.1 hs.2

/-- **No message is lost silently while every push is accepted**, in any interleaving of
senders, acknowledgements and resends. -/
theorem noSilentLoss_of_accepted (gmac : κ → Nat → Bytes → Mac)
    (hr : ((sendLts k gmac).restrict PushAccepted).Reachable s) : NoSilentLoss s :=
  fun later earlier seqNum id ho _ =>
    (pushedKept_invariant gmac).reachable hr later earlier seqNum id ho

/-! ### Runs with and without room -/

/-- One thread sends an empty message, and the function returns. -/
def sendOneMessage : List (SendLabel Unit 1) :=
  let t : Fin 1 := ⟨0, Nat.one_pos⟩
  [.call t ⟨1, 8, []⟩, .malloc t true, .reserve t, .transmit t true, .push t 0, .ret t]

/-- A MAC that is always zero. -/
def zeroGmac (_ : Unit) (_ : Nat) (_ : Bytes) : Mac := ⟨#[0, 0, 0, 0], rfl⟩

theorem sendOneMessage_run :
    (Lts.runFun (Lts.guarded (sendStep zeroGmac) PushAccepted) (sendInit 0x4823 1)
        sendOneMessage).map (fun s => s.log.take 2)
      = some [.returnedSuccess 0x4823 0, .push 0x4823 0] := by
  decide +kernel

theorem noSilentLoss_sendOneMessage : ∃ s : SendState Unit 1,
    s.log.take 2 = [.returnedSuccess 0x4823 0, .push 0x4823 0] ∧ NoSilentLoss s := by
  obtain ⟨s, hrun, hlog⟩ := Option.map_eq_some_iff.mp sendOneMessage_run
  refine ⟨s, hlog, noSilentLoss_of_accepted zeroGmac ?_⟩
  exact Lts.Reachable.runGuarded (.init ⟨0x4823, 1, by decide, rfl⟩) hrun

/-- Seventeen messages, none of them acknowledged. -/
def seventeenMessages : List (SendLabel Unit 1) := (List.range 17).flatMap fun _ => sendOneMessage

theorem seventeenMessages_run :
    (Lts.runFun (sendStep zeroGmac) (sendInit 0x4823 1) seventeenMessages).map
        (fun s => (s.sendBuffer.contents.map (·.buf.id), s.log.take 2))
      = some (List.range 16, [.returnedSuccess 0x4833 16, .push 0x4833 16]) := by
  decide +kernel

/-- The seventeenth message is reported as sent, and is nowhere. -/
theorem not_noSilentLoss : ¬ ∀ s, (sendLts 1 zeroGmac).Reachable s → NoSilentLoss s := by
  intro hall
  obtain ⟨s, hrun, hobs⟩ := Option.map_eq_some_iff.mp seventeenMessages_run
  simp only [Prod.mk.injEq] at hobs
  obtain ⟨hids, hlog⟩ := hobs
  have hreach : (sendLts 1 zeroGmac).Reachable s :=
    Lts.Reachable.runFun (.init ⟨0x4823, 1, by decide, rfl⟩) hrun
  have hocc : Occurs s.log (.push 0x4833 16) [.returnedSuccess 0x4833 16] (s.log.drop 2) :=
    calc s.log = s.log.take 2 ++ s.log.drop 2 := (List.take_append_drop 2 s.log).symm
      _ = _ := by rw [hlog]; rfl
  rcases hall s hreach _ _ _ _ hocc (List.mem_singleton.mpr rfl) with ⟨p, hp, -, hid⟩ | ⟨c, hc, -⟩
  · have hmem : p.buf.id ∈ s.sendBuffer.contents.map (·.buf.id) := List.mem_map_of_mem hp
    rw [hids, hid] at hmem
    simp at hmem
  · simp at hc

end Chiaki
