import Chiaki.Properties.Takion.AvPacket
import Chiaki.Properties.Takion.KeyPosition

/-!
# Audio and video packets around the arrival of the keys

With encryption, audio and video packets that arrive before the keys are postponed, and handled
when the keys are there.

* `takionAvAuthentic` — every audio or video event carries a packet whose MAC was checked just
  before
* `takionAvOrdered_of_safe` — the first 32 early packets are handled once each, in the order of
  their arrival and before any later one, unless the thread crashes on the way
* `not_takionAvOrdered` — it crashes when a data packet is left in the queue behind the one
  that installs the keys: the loop that re-checks it writes through a null pointer
-/

namespace Chiaki

open Infra Infra.History

variable {κ : Type} {gmac : κ → Nat → Bytes → Mac} {t t' t'' : Takion κ} {l : TakionLabel κ}

/-! ## The property -/

instance (packet : Bytes) : Decidable (IsAvPacket packet) :=
  inferInstanceAs (Decidable (_ ∨ _))

/-- The audio and video packets of a run: those that arrived before the keys, those that
arrived later, and those that `takion_handle_packet` was called with when the keys were there. -/
structure AvHistory where
  early : List PacketBuf
  late : List PacketBuf
  handled : List PacketBuf

def AvHistory.start : AvHistory := ⟨[], [], []⟩

def AvHistory.record (t : Takion κ) (l : TakionLabel κ) (h : AvHistory) : AvHistory :=
  match l with
  | .recv packet _ =>
    let buf : PacketBuf := ⟨t.nextBuf, packet⟩
    if IsAvPacket packet then
      if t.gkcryptRemote.isSome then
        { h with late := h.late ++ [buf], handled := h.handled ++ [buf] }
      else { h with early := h.early ++ [buf] }
    else h
  | .run .. =>
    match t.pc with
    | .flushPostponed i =>
      { h with handled := h.handled ++ (t.postponedPackets.getD [])[i]?.toList }
    | _ => h
  | _ => h

/-- The receiving side, and its audio and video packets. -/
def takionAvLts (gmac : κ → Nat → Bytes → Mac) : Lts (Takion κ × AvHistory) (TakionLabel κ) :=
  (takionLts gmac).withHistory .start AvHistory.record

/-- The packets of the audio and video events, oldest first. -/
def avDelivered (log : List (TakionOutput κ)) : List Bytes :=
  log.reverse.filterMap fun e =>
    match e with
    | .av _ _ bytes => some bytes
    | _ => none

/-- The thread waits for a datagram, or has come to its end. -/
def TakionPc.rests : TakionPc → Bool
  | .recv | .exited | .fault _ => true
  | _ => false

/--
Audio and video events are only raised with keys, right after the MAC check of their packet,
and in the order in which packets were handled; the first 32 early packets are handled once each,
in their order and before the late ones; and when the thread rests, none of them is left.
-/
structure TakionAvOrdered (t : Takion κ) (h : AvHistory) : Prop where
  authentic : ∀ later earlier crypt packet bytes,
    Occurs t.log (.av crypt packet bytes) later earlier →
      ∃ k, crypt = some k ∧ earlier.head? = some (.macVerified k bytes)
  delivered : (avDelivered t.log).Sublist (h.handled.map (·.bytes))
  order : h.handled <+: h.early.take takionPostponePacketsSize ++ h.late
  done : t.gkcryptRemote.isSome = true → t.pc.rests = true →
    h.handled = h.early.take takionPostponePacketsSize ++ h.late

/-! ## The condition -/

/-- `calloc` fails for the first packet that is postponed. -/
def losesPostponed (t : Takion κ) : TakionLabel κ → Bool
  | .recv packet mem =>
    decide (IsAvPacket packet) && t.gkcryptRemote.isNone && t.postponedPackets.isNone && !mem
  | _ => false

/-- The parser reads behind the end of the packet: version 12 checks the size of an audio packet
without the three bytes of the NALU info structs. -/
def avReadsPastEnd (version : TakionVersion) (packet : Bytes) : Bool :=
  version == .v12 && takionPacketBaseType (u8At packet 0) == some .audio &&
    u8At packet 0 / 2 ^ 4 % 2 != 0 && decide (packet.length = 21 ∨ packet.length = 22)

/-- The step handles a postponed packet that the parser does not read inside its bounds. -/
def readsPastEnd (t : Takion κ) : TakionLabel κ → Bool
  | .run .. =>
    match t.pc with
    | .flushPostponed i =>
      ((t.postponedPackets.getD [])[i]?).any fun packet => avReadsPastEnd t.version packet.bytes
    | _ => false
  | _ => false

/-- Keys are installed while no other packet waits in the data queue, there is memory for the
postponed packets, and none of them makes the parser read behind its end. -/
def AvSafe (t : Takion κ) (l : TakionLabel κ) : Prop :=
  KeysOnEmptyQueue t l ∧ losesPostponed t l = false ∧ readsPastEnd t l = false

/-! ## Steps that do not concern audio and video -/

def TakionOutput.isAv : TakionOutput κ → Bool
  | .av .. => true
  | _ => false

/-- No audio or video packet was delivered or postponed, and no keys were taken away. -/
structure AvKept (t t' : Takion κ) : Prop where
  postponed : t'.postponedPackets = t.postponedPackets
  remote : t.gkcryptRemote.isSome = true → t'.gkcryptRemote.isSome = true
  log : ∃ events, t'.log = events ++ t.log ∧ ∀ e ∈ events, e.isAv = false

theorem AvKept.refl (t : Takion κ) : AvKept t t := ⟨rfl, id, [], rfl, by simp⟩

theorem AvKept.trans (h : AvKept t t') (h' : AvKept t' t'') : AvKept t t'' := by
  obtain ⟨ev, hlog, hev⟩ := h.log
  obtain ⟨ev', hlog', hev'⟩ := h'.log
  refine ⟨h'.postponed.trans h.postponed, fun hk => h'.remote (h.remote hk), ev' ++ ev, ?_, ?_⟩
  · rw [hlog', hlog, List.append_assoc]
  · intro e he
    rcases List.mem_append.mp he with he | he
    · exact hev' e he
    · exact hev e he

theorem AvKept.emit {e : TakionOutput κ} (h : e.isAv = false) (t : Takion κ) : AvKept t (t.emit e) :=
  ⟨rfl, id, [e], rfl, by simpa using h⟩

theorem AvKept.goto (t : Takion κ) (pc : TakionPc) : AvKept t (t.goto pc) :=
  ⟨rfl, id, [], rfl, by simp⟩

theorem AvKept.dataDrop (t : Takion κ) (dropped : List (Nat × TakionDataPacketEntry)) :
    AvKept t (t.dataDrop dropped) := by
  rw [dataDrop_eq]
  refine ⟨rfl, id, freeEvents dropped, rfl, ?_⟩
  intro e he
  unfold freeEvents at he
  obtain ⟨d, -, hmem⟩ := List.mem_flatMap.mp he
  simp only [List.mem_cons, List.not_mem_nil, or_false] at hmem
  rcases hmem with rfl | rfl <;> rfl

/-- The fields that are not looked at here may change. -/
theorem AvKept.of_eq (hpost : t'.postponedPackets = t.postponedPackets)
    (hremote : t'.gkcryptRemote = t.gkcryptRemote) (hlog : t'.log = t.log) : AvKept t t' :=
  ⟨hpost, fun hk => by rwa [hremote], [], hlog, by simp⟩

theorem takionHandlePacketMessageDataAck_av (t : Takion κ) (payload : Bytes) :
    AvKept t (takionHandlePacketMessageDataAck t payload) := by
  have hfold : ∀ (acked : List TakionSendBufferPacket) (t : Takion κ),
      AvKept t (acked.foldl (fun (t : Takion κ) p => t.emit (.dataAck p.seqNum)) t) := by
    intro acked
    induction acked with
    | nil => exact .refl
    | cons p acked ih => exact fun t => (AvKept.emit rfl t).trans (ih _)
  unfold takionHandlePacketMessageDataAck
  split
  · exact .refl t
  · next seqNum _ =>
    have hack : AvKept t { t with sendBuffer := (takionSendBufferAck t.sendBuffer seqNum).1 } :=
      .of_eq rfl rfl rfl
    exact hack.trans (hfold _ _)

/-- Where the thread can stand after a datagram, or before it looks at the postponed packets. -/
def TakionPc.beforeFlush : TakionPc → Bool
  | .loop | .recheck _ | .postponed | .flushDataQueue .recv _ _ => true
  | _ => false

/-- What handling a packet of another kind does. -/
structure OtherHandled (t : Takion κ) (caller : TakionCaller) (t' : Takion κ) : Prop where
  kept : AvKept t t'
  remote : t'.gkcryptRemote = t.gkcryptRemote
  pc : t'.pc = caller.pc ∨ t'.pc = .flushDataQueue caller false 0

theorem takionHandlePacketMessage_other {buf : PacketBuf} {mem : Bool} {caller : TakionCaller}
    (hpc : t.pc = caller.pc) (h : takionHandlePacketMessage t buf mem caller = .ok t') :
    OtherHandled t caller t' := by
  unfold takionHandlePacketMessage at h
  simp only at h
  generalize hks : ({ t with keyState := _ } : Takion κ) = t1 at h
  have h1 : OtherHandled t caller t1 := by
    subst hks
    exact ⟨.of_eq rfl rfl rfl, rfl, Or.inl hpc⟩
  have hfree : ∀ t2 : Takion κ, AvKept t1 t2 → t2.gkcryptRemote = t1.gkcryptRemote → t2.pc = t1.pc →
      OtherHandled t caller (t2.freeBuf buf) := fun t2 hkept hremote hpc2 =>
    ⟨h1.kept.trans (hkept.trans (.emit rfl t2)), hremote.trans h1.remote, by
      show t2.pc = _ ∨ t2.pc = _
      rw [hpc2]
      exact h1.pc⟩
  split at h
  · cases h
    exact hfree _ (.refl _) rfl rfl
  · split at h
    · unfold takionHandlePacketMessageData at h
      split at h
      · cases h
        exact h1
      · split at h
        · cases h
          exact h1
        · split at h
          · cases h
          · simp only at h
            split at h
            · cases h
            · next q dropped _ =>
              cases h
              have hqueue : AvKept t1 { t1 with dataQueue := q } := .of_eq rfl rfl rfl
              refine ⟨?_, ?_, Or.inr rfl⟩
              · exact h1.kept.trans (hqueue.trans ((AvKept.dataDrop _ dropped).trans (.goto _ _)))
              · show (Takion.dataDrop _ _).gkcryptRemote = _
                rw [dataDrop_eq]
                exact h1.remote
    · cases h
      obtain ⟨hq, hpc', -⟩ := takionHandlePacketMessageDataAck_quiet t1 (slice buf.bytes _ _)
      exact hfree _ (takionHandlePacketMessageDataAck_av _ _) hq.gkcryptRemote hpc'
    · cases h
      exact hfree _ (.refl _) rfl rfl

theorem takionHandlePacket_other {buf : PacketBuf} {mem : Bool} {caller : TakionCaller}
    (hav : ¬ IsAvPacket buf.bytes) (h : takionHandlePacket gmac t buf mem caller = .ok t') :
    OtherHandled t caller t' := by
  have hdispatch : ∀ t1 : Takion κ, AvKept t t1 → t1.gkcryptRemote = t.gkcryptRemote →
      t1.pc = caller.pc → takionDispatch t1 buf mem caller = .ok t' → OtherHandled t caller t' := by
    intro t1 hkept hremote hpc h
    unfold takionDispatch at h
    split at h
    · obtain ⟨hkept', hremote', hpc'⟩ := takionHandlePacketMessage_other hpc h
      exact ⟨hkept.trans hkept', hremote'.trans hremote, hpc'⟩
    · next hvideo => exact absurd (Or.inl hvideo) hav
    · next haudio => exact absurd (Or.inr haudio) hav
    · cases h
      exact ⟨hkept.trans (.emit rfl _), hremote, Or.inl hpc⟩
  by_cases hne : 0 < buf.bytes.length
  · cases hk : t.gkcryptRemote with
    | none =>
      rw [takionHandlePacket_of_none mem caller hne hk] at h
      exact hdispatch (t.goto caller.pc) (.goto t _) rfl rfl h
    | some crypt =>
      rcases @takionHandlePacket_of_some _ gmac t crypt buf mem caller hne hk with
        ⟨keyPos, -, -, hres⟩ | ⟨buf', err, -, -, -, hres⟩
      · rw [hres] at h
        refine hdispatch ((t.goto caller.pc).verified crypt buf keyPos) ?_ rfl rfl h
        exact ⟨rfl, id, [.macVerified crypt buf.bytes], rfl, by simp [TakionOutput.isAv]⟩
      · rw [hres] at h
        cases h
        exact ⟨(AvKept.goto t _).trans (.emit rfl _), rfl, Or.inl rfl⟩
  · unfold takionHandlePacket at h
    rw [if_pos (by omega)] at h
    cases h

/-! ## Audio and video packets -/

/-- Without keys, an audio or video packet is postponed. -/
theorem takionHandlePacket_postpones {buf : PacketBuf} (mem : Bool) (caller : TakionCaller)
    (hne : 0 < buf.bytes.length) (hav : IsAvPacket buf.bytes) (hcrypt : t.enableCrypt = true)
    (hk : t.gkcryptRemote = none) :
    takionHandlePacket gmac t buf mem caller
      = .ok (takionPostponePacket (t.goto caller.pc) buf mem) := by
  have hpostpone : ((t.goto caller.pc).enableCrypt && (t.goto caller.pc).gkcryptRemote.isNone)
      = true := by
    rw [show (t.goto caller.pc).enableCrypt = true from hcrypt,
      show (t.goto caller.pc).gkcryptRemote = none from hk]
    rfl
  rw [takionHandlePacket_of_none mem caller hne hk]
  unfold takionDispatch
  rcases hav with hav | hav <;> simp only [hav, hpostpone, if_true]

/-- With keys, an audio or video packet is delivered after its MAC check, or not at all. -/
inductive AvHandled (t : Takion κ) (buf : PacketBuf) (caller : TakionCaller) (t' : Takion κ) : Prop
  | silent (kept : AvKept t t') (remote : t'.gkcryptRemote = t.gkcryptRemote) (pc : t'.pc = caller.pc)
  | delivered (crypt : κ) (packet : TakionAVPacket)
      (postponed : t'.postponedPackets = t.postponedPackets)
      (remote : t'.gkcryptRemote = t.gkcryptRemote) (pc : t'.pc = caller.pc)
      (log : t'.log = .free buf.id :: .av (some crypt) packet buf.bytes ::
        .macVerified crypt buf.bytes :: t.log)

theorem takionHandlePacket_av {crypt : κ} {buf : PacketBuf} {mem : Bool} {caller : TakionCaller}
    (hav : IsAvPacket buf.bytes) (hk : t.gkcryptRemote = some crypt)
    (h : takionHandlePacket gmac t buf mem caller = .ok t') : AvHandled t buf caller t' := by
  by_cases hne : 0 < buf.bytes.length
  · rcases @takionHandlePacket_of_some _ gmac t crypt buf mem caller hne hk with
      ⟨keyPos, -, -, hres⟩ | ⟨buf', err, -, -, -, hres⟩
    · rw [hres] at h
      have hmap : (takionHandlePacketAv ((t.goto caller.pc).verified crypt buf keyPos) buf).map
          (fun t => t.freeBuf buf) = .ok t' := by
        have hnone : (((t.goto caller.pc).verified crypt buf keyPos).enableCrypt &&
            ((t.goto caller.pc).verified crypt buf keyPos).gkcryptRemote.isNone) = false := by
          rw [show ((t.goto caller.pc).verified crypt buf keyPos).gkcryptRemote = some crypt from hk,
            Option.isNone_some, Bool.and_false]
        unfold takionDispatch at h
        rcases hav with hav | hav <;>
          simpa only [hav, hnone, Bool.false_eq_true, if_false] using h
      obtain ⟨t1, hparse, rfl⟩ := takionHandlePacketAv_map hmap
      unfold takionHandlePacketAv at hparse
      split at hparse
      · cases hparse
      · cases hparse
        refine .silent ⟨rfl, id, [.free buf.id, .macVerified crypt buf.bytes], rfl, ?_⟩ rfl rfl
        simp [TakionOutput.isAv]
      · next packet _ =>
        cases hparse
        refine .delivered crypt packet rfl rfl rfl ?_
        rw [← hk]
        rfl
    · rw [hres] at h
      cases h
      exact .silent ((AvKept.goto t _).trans (.emit rfl _)) rfl rfl
  · unfold takionHandlePacket at h
    rw [if_pos (by omega)] at h
    cases h

/-- A postponed packet that its parser reads inside its bounds is handled without a fault. -/
theorem takionHandlePacket_av_ok {crypt : κ} {buf : PacketBuf} (mem : Bool) (caller : TakionCaller)
    (hne : 0 < buf.bytes.length) (hav : IsAvPacket buf.bytes) (hk : t.gkcryptRemote = some crypt)
    (hsafe : avReadsPastEnd t.version buf.bytes = false) :
    ∃ t', takionHandlePacket gmac t buf mem caller = .ok t' := by
  rcases @takionHandlePacket_of_some _ gmac t crypt buf mem caller hne hk with
    ⟨keyPos, -, -, hres⟩ | ⟨buf', err, -, -, -, hres⟩
  · have hparse : ∀ f, t.version.avPacketParse ⟨keyPos⟩ buf.bytes ≠ .error f := by
      intro f h
      unfold avReadsPastEnd at hsafe
      cases hversion : t.version with
      | v7 =>
        rw [hversion] at h
        exact takionV7AVPacketParse_ne_error f h
      | v9 =>
        rw [hversion] at h
        exact absurd (takionAVPacketParse_error h).1 (by decide)
      | v12 =>
        rw [hversion] at h hsafe
        obtain ⟨-, haudio, hnalu, hlen⟩ := takionAVPacketParse_error h
        simp only [haudio, beq_self_eq_true, Bool.true_and, Bool.and_eq_false_iff, bne_eq_false_iff_eq,
          decide_eq_false_iff_not] at hsafe
        rcases hsafe with h0 | h0
        · exact hnalu h0
        · exact h0 hlen
    rw [hres]
    have hnone : (((t.goto caller.pc).verified crypt buf keyPos).enableCrypt &&
        ((t.goto caller.pc).verified crypt buf keyPos).gkcryptRemote.isNone) = false := by
      rw [show ((t.goto caller.pc).verified crypt buf keyPos).gkcryptRemote = some crypt from hk,
        Option.isNone_some, Bool.and_false]
    have hdone : ∃ t', (takionHandlePacketAv ((t.goto caller.pc).verified crypt buf keyPos) buf).map
        (fun t => t.freeBuf buf) = .ok t' := by
      unfold takionHandlePacketAv
      split
      · next f h => exact absurd h (hparse f)
      · exact ⟨_, rfl⟩
      · exact ⟨_, rfl⟩
    unfold takionDispatch
    rcases hav with hav | hav <;> simpa only [hav, hnone, Bool.false_eq_true, if_false] using hdone
  · exact ⟨_, hres⟩

/-! ## The steps -/

/-- The thread moves between two places where it does not look at audio and video packets. -/
structure AvMoved (t t' : Takion κ) : Prop where
  kept : AvKept t t'
  pc : t'.pc.beforeFlush = true ∨ t'.pc = .fault .nullPointer ∨
    (t'.pc = .flushPostponed 0 ∧ t.postponedPackets.isSome = true ∧ t.gkcryptRemote.isSome = true) ∨
    (t'.pc = .recv ∧ t'.gkcryptRemote = t.gkcryptRemote ∧
      (t.postponedPackets.isSome && t.gkcryptRemote.isSome) = false)

theorem takionSendMessageDataAck_av (t : Takion κ) (seqNum : Nat) :
    AvKept t (takionSendMessageDataAck gmac t seqNum) := by
  unfold takionSendMessageDataAck
  simp only
  split
  · exact .emit rfl t
  · split
    · exact (AvKept.emit rfl t).trans (.of_eq rfl rfl rfl)
    · next buf _ _ _ =>
      exact ⟨rfl, id, [.send buf, .sendDataAck seqNum], rfl, by simp [TakionOutput.isAv]⟩

theorem FlushedEntry.av {entry : TakionDataPacketEntry} {installed : Option (κ × κ)}
    (h : FlushedEntry t entry installed t') : AvKept t t' := by
  have hfree : ∀ t : Takion κ, AvKept t (t.freeEntry entry) := fun t =>
    ⟨rfl, id, [.freeEntry entry.packetBuf.id, .free entry.packetBuf.id], rfl,
      by simp [TakionOutput.isAv]⟩
  cases h with
  | silent _ hres =>
    subst hres
    exact hfree t
  | event ty _ _ hres =>
    subst hres
    refine AvKept.trans ?_ (hfree _)
    unfold takionDataEvent
    cases installed with
    | none => exact .emit rfl t
    | some k => exact ⟨rfl, fun _ => rfl, [_], rfl, by simp [TakionOutput.isAv]⟩

theorem takionRun_moved {mem : Bool} {installed : Option (κ × κ)}
    (hpc : t.pc.beforeFlush = true) (h : takionRun gmac t mem installed = some t') :
    AvMoved t t' := by
  unfold takionRun at h
  split at h
  · split at h
    · cases h
      exact ⟨.of_eq rfl rfl rfl, Or.inl rfl⟩
    · cases h
      exact ⟨.goto t _, Or.inl rfl⟩
  · next i _ =>
    cases h
    unfold takionRecheck
    split
    · exact ⟨.goto t _, Or.inl rfl⟩
    · rcases reorderQueuePeek_false t.dataQueue i with ⟨hpeek, -⟩ | ⟨hpeek, -⟩
      · rw [hpeek]
        exact ⟨.goto t _, Or.inl rfl⟩
      · rw [hpeek]
        exact ⟨.goto t _, Or.inr (Or.inl rfl)⟩
  · split at h
    · next hflush =>
      cases h
      rw [Bool.and_eq_true] at hflush
      exact ⟨.goto t _, Or.inr (Or.inr (Or.inl ⟨rfl, hflush.1, hflush.2⟩))⟩
    · next hflush =>
      cases h
      rw [Bool.not_eq_true] at hflush
      exact ⟨.goto t _, Or.inr (Or.inr (Or.inr ⟨rfl, rfl, hflush⟩))⟩
  · next hflush =>
    rw [hflush] at hpc
    cases hpc
  · next caller ack seqNum hflush =>
    cases h
    have hcaller : caller = .recv := by
      rw [hflush] at hpc
      cases caller with
      | recv => rfl
      | postponed next => cases hpc
    subst hcaller
    unfold takionFlushDataQueue
    split
    · refine ⟨AvKept.trans ?_ (.goto _ _), Or.inl rfl⟩
      cases ack with
      | false => exact .refl t
      | true => exact takionSendMessageDataAck_av t _
    · next n entry q _ =>
      have hf := takionFlushEntry_flushed (t.pulled .recv n entry q) entry installed
      refine ⟨AvKept.trans ?_ hf.av, Or.inl ?_⟩
      · exact ⟨rfl, id, [.consumed n entry.payloadBytes, .use entry.packetBuf.id], rfl,
          by simp [TakionOutput.isAv]⟩
      · show (takionFlushEntry (t.pulled .recv n entry q) entry installed).pc.beforeFlush = true
        rw [hf.frame.2.2.1]
        rfl
  · cases h
  · cases h
  · cases h

/-! ## The invariant -/

/-- How far the postponed packets have come. -/
inductive AvPhase (t : Takion κ) (h : AvHistory) : Prop
  | waiting (pc : t.pc.inPostponed = false)
      (notYet : t.gkcryptRemote = none ∨ t.pc.beforeFlush = true) (late : h.late = [])
      (handled : h.handled = [])
      (postponed : t.postponedPackets.getD [] = h.early.take takionPostponePacketsSize)
  | flushing (i : Nat) (pc : t.pc = .flushPostponed i)
      (bound : i ≤ (h.early.take takionPostponePacketsSize).length)
      (remote : t.gkcryptRemote.isSome = true) (late : h.late = [])
      (handled : h.handled = (h.early.take takionPostponePacketsSize).take i)
      (postponed : t.postponedPackets.getD [] = h.early.take takionPostponePacketsSize)
  | flushed (pc : t.pc.inPostponed = false) (remote : t.gkcryptRemote.isSome = true)
      (handled : h.handled = h.early.take takionPostponePacketsSize ++ h.late)
      (postponed : t.postponedPackets = none)

/-- An audio or video event stands directly behind the MAC check of its packet. -/
def TakionOutput.AvAllowed : TakionOutput κ → List (TakionOutput κ) → Prop
  | .av crypt _ bytes, earlier => ∃ k, crypt = some k ∧ earlier.head? = some (.macVerified k bytes)
  | _, _ => True

theorem TakionOutput.avAllowed_of_not_isAv {e : TakionOutput κ} (h : e.isAv = false)
    (earlier : List (TakionOutput κ)) : e.AvAllowed earlier := by
  cases e <;> trivial

theorem AvKept.allowed (h : AvKept t t') (ha : Always TakionOutput.AvAllowed t.log) :
    Always TakionOutput.AvAllowed t'.log := by
  obtain ⟨events, hlog, hev⟩ := h.log
  rw [hlog]
  exact ha.append fun e he _ => TakionOutput.avAllowed_of_not_isAv (hev e he) _

theorem AvKept.avDelivered_eq (h : AvKept t t') : avDelivered t'.log = avDelivered t.log := by
  obtain ⟨events, hlog, hev⟩ := h.log
  unfold avDelivered
  rw [hlog, List.reverse_append, List.filterMap_append]
  have hnil : events.reverse.filterMap (fun e => match e with
      | TakionOutput.av _ _ bytes => some bytes
      | _ => none) = [] := by
    refine List.filterMap_eq_nil_iff.mpr fun e he => ?_
    have hno := hev e (List.mem_reverse.mp he)
    cases e <;> first | rfl | cases hno
  rw [hnil, List.append_nil]

/-- A handled packet adds at most itself to what was delivered. -/
theorem AvHandled.effect {buf : PacketBuf} {caller : TakionCaller} (h : AvHandled t buf caller t') :
    t'.pc = caller.pc ∧ t'.gkcryptRemote = t.gkcryptRemote ∧
      t'.postponedPackets = t.postponedPackets ∧
      (Always TakionOutput.AvAllowed t.log → Always TakionOutput.AvAllowed t'.log) ∧
      (avDelivered t'.log = avDelivered t.log ∨
        avDelivered t'.log = avDelivered t.log ++ [buf.bytes]) := by
  cases h with
  | silent kept remote pc =>
    exact ⟨pc, remote, kept.postponed, kept.allowed, Or.inl kept.avDelivered_eq⟩
  | delivered crypt packet postponed remote pc log =>
    refine ⟨pc, remote, postponed, fun ha => ?_, Or.inr ?_⟩
    · rw [log]
      exact always_cons.mpr ⟨trivial, always_cons.mpr ⟨⟨crypt, rfl, rfl⟩,
        always_cons.mpr ⟨trivial, ha⟩⟩⟩
    · rw [log]
      unfold avDelivered
      simp only [List.reverse_cons, List.append_assoc, List.filterMap_append]
      rfl

/-- What is kept in every run with encryption: audio and video events are authenticated, and
postponed packets, which are all audio and video, never lead into the data queue. -/
structure AvAuthentic (t : Takion κ) : Prop where
  pc : ∀ next ack seqNum, t.pc ≠ .flushDataQueue (.postponed next) ack seqNum
  remote : t.pc.inPostponed = true → t.gkcryptRemote.isSome = true
  log : Always TakionOutput.AvAllowed t.log

/-- With keys, handling an audio or video packet ends in a fault, or as in `AvHandled`. -/
theorem orFault_av {buf : PacketBuf} {mem : Bool} {caller : TakionCaller}
    (hav : IsAvPacket buf.bytes) (hk : t.gkcryptRemote.isSome = true) :
    (∃ f, takionHandlePacket gmac t buf mem caller = .error f ∧
      t.orFault (takionHandlePacket gmac t buf mem caller) = t.goto (.fault f)) ∨
      AvHandled t buf caller (t.orFault (takionHandlePacket gmac t buf mem caller)) := by
  obtain ⟨crypt, hcrypt⟩ := Option.isSome_iff_exists.mp hk
  cases h : takionHandlePacket gmac t buf mem caller with
  | error f => exact Or.inl ⟨f, rfl, rfl⟩
  | ok t' => exact Or.inr (takionHandlePacket_av hav hcrypt h)

/-- A datagram has come in, and its buffer has an id. -/
def Takion.received (t : Takion κ) : Takion κ := { t with nextBuf := t.nextBuf + 1 }

/-- What a step does, as far as audio and video packets are concerned. -/
inductive AvStep (gmac : κ → Nat → Bytes → Mac) (t : Takion κ) (l : TakionLabel κ) (t' : Takion κ) :
    Prop
  | moved (pc : t.pc.beforeFlush = true) (moved : AvMoved t t')
      (record : ∀ h, AvHistory.record t l h = h)
  | aside (pc : t'.pc = t.pc ∨ t.pc = .recv ∧ (t'.pc.beforeFlush = true ∨ t'.pc = .exited ∨
        ∃ f, t'.pc = .fault f))
      (kept : AvKept t t') (remote : t'.gkcryptRemote = t.gkcryptRemote)
      (record : ∀ h, AvHistory.record t l h = h)
  | postpone (packet : Bytes) (mem : Bool) (label : l = .recv packet mem) (pc : t.pc = .recv)
      (isAv : IsAvPacket packet) (remote : t.gkcryptRemote = none)
      (result : t' = takionPostponePacket (t.received.goto .loop) ⟨t.nextBuf, packet⟩ mem)
  | recv (packet : Bytes) (mem : Bool) (label : l = .recv packet mem) (pc : t.pc = .recv)
      (isAv : IsAvPacket packet) (remote : t.gkcryptRemote.isSome = true)
      (result : (∃ f, t' = t.received.goto (.fault f)) ∨
        AvHandled t.received ⟨t.nextBuf, packet⟩ .recv t')
  | flush (i : Nat) (packet : PacketBuf) (mem : Bool) (installed : Option (κ × κ))
      (label : l = .run mem installed) (pc : t.pc = .flushPostponed i)
      (get : (t.postponedPackets.getD [])[i]? = some packet) (isAv : IsAvPacket packet.bytes)
      (remote : t.gkcryptRemote.isSome = true)
      (result : (∃ f, takionHandlePacket gmac t packet mem (.postponed (i + 1)) = .error f ∧
        t' = t.goto (.fault f)) ∨ AvHandled t packet (.postponed (i + 1)) t')
  | flushEnd (i : Nat) (pc : t.pc = .flushPostponed i)
      (get : (t.postponedPackets.getD [])[i]? = none) (record : ∀ h, AvHistory.record t l h = h)
      (result : t' = { t with postponedPackets := none }.goto .recv)

theorem takionRecv_av {packet : Bytes} {mem : Bool} (hcrypt : t.enableCrypt = true)
    (hpc : t.pc = .recv) (hsize : 0 < packet.length) :
    AvStep gmac t (.recv packet mem) (t.received.orFault
      (takionHandlePacket gmac t.received ⟨t.nextBuf, packet⟩ mem .recv)) := by
  have hreceived : AvKept t t.received := .of_eq rfl rfl rfl
  by_cases hav : IsAvPacket packet
  · cases hk : t.gkcryptRemote with
    | some crypt =>
      have hk' : t.gkcryptRemote.isSome = true := by
        rw [hk]
        rfl
      refine .recv packet mem rfl hpc hav hk' ?_
      rcases @orFault_av _ gmac t.received ⟨t.nextBuf, packet⟩ mem .recv hav hk' with
        ⟨f, -, hf⟩ | hh
      · exact Or.inl ⟨f, hf⟩
      · exact Or.inr hh
    | none =>
      refine .postpone packet mem rfl hpc hav hk ?_
      rw [@takionHandlePacket_postpones _ gmac t.received ⟨t.nextBuf, packet⟩ mem .recv hsize hav
        hcrypt hk]
      rfl
  · have hrec : ∀ h, AvHistory.record t (.recv packet mem) h = h := fun h => if_neg hav
    cases hh : takionHandlePacket gmac t.received ⟨t.nextBuf, packet⟩ mem .recv with
    | error f =>
      exact .aside (Or.inr ⟨hpc, Or.inr (Or.inr ⟨f, rfl⟩)⟩) (hreceived.trans (.goto _ _)) rfl hrec
    | ok t' =>
      obtain ⟨hkept, hremote, hpc'⟩ := takionHandlePacket_other hav hh
      refine .aside (Or.inr ⟨hpc, Or.inl ?_⟩) (hreceived.trans hkept) hremote hrec
      show t'.pc.beforeFlush = true
      rcases hpc' with hpc' | hpc' <;> rw [hpc'] <;> rfl

theorem takionRun_av {mem : Bool} {installed : Option (κ × κ)} (hb : TakionBasic t)
    (h : AvAuthentic t) (hs : takionRun gmac t mem installed = some t') :
    AvStep gmac t (.run mem installed) t' := by
  have hmoved : t.pc.beforeFlush = true → AvStep gmac t (.run mem installed) t' := by
    intro hbefore
    refine .moved hbefore (takionRun_moved hbefore hs) fun hist => ?_
    unfold AvHistory.record
    cases hpc : t.pc with
    | flushPostponed i =>
      rw [hpc] at hbefore
      cases hbefore
    | _ => rfl
  cases hpc : t.pc with
  | flushPostponed i =>
    unfold takionRun at hs
    rw [hpc] at hs
    simp only at hs
    cases hget : (t.postponedPackets.getD [])[i]? with
    | some packet =>
      rw [hget] at hs
      cases hs
      have hk := h.remote (by rw [hpc]; rfl)
      have hav : IsAvPacket packet.bytes := hb.postponed packet (List.mem_of_getElem? hget)
      exact .flush i packet mem installed rfl hpc hget hav hk (orFault_av hav hk)
    | none =>
      rw [hget] at hs
      cases hs
      refine .flushEnd i hpc hget (fun hist => ?_) rfl
      unfold AvHistory.record
      simp only [hpc, hget, Option.toList_none, List.append_nil]
  | flushDataQueue caller ack seqNum =>
    cases caller with
    | recv => exact hmoved (by rw [hpc]; rfl)
    | postponed next => exact absurd hpc (h.pc next ack seqNum)
  | recv => simp [takionRun, hpc] at hs
  | exited => simp [takionRun, hpc] at hs
  | fault f => simp [takionRun, hpc] at hs
  | _ => exact hmoved (by rw [hpc]; rfl)

theorem takionStep_av (hb : TakionBasic t) (hcrypt : t.enableCrypt = true) (h : AvAuthentic t)
    (hs : (takionLts gmac).step t l t') : AvStep gmac t l t' := by
  replace hs : takionStep gmac t l = some t' := hs
  cases l with
  | run mem installed => exact takionRun_av hb h hs
  | recv packet mem =>
    simp only [takionStep, takionRecv] at hs
    split at hs
    · next hrecv =>
      cases hs
      exact takionRecv_av hcrypt hrecv.1 hrecv.2.1
    · cases hs
  | stop =>
    simp only [takionStep, takionStop] at hs
    split at hs
    · next hrecv =>
      cases hs
      refine .aside (Or.inr ⟨hrecv, Or.inr (Or.inl rfl)⟩) ?_ ?_ fun _ => rfl
      · exact (AvKept.dataDrop t _).trans ((AvKept.emit rfl _).trans (.goto _ _))
      · show (Takion.dataDrop _ _).gkcryptRemote = _
        rw [dataDrop_eq]
    · cases hs
  | advanceKeyPos dataSize =>
    simp only [takionStep] at hs
    split at hs
    · cases hs
      exact .aside (Or.inl rfl) (.refl t) rfl fun _ => rfl
    · cases hs
      exact .aside (Or.inl rfl) (.of_eq rfl rfl rfl) rfl fun _ => rfl
  | sendBufferPush seqNum packet now =>
    cases hs
    exact .aside (Or.inl rfl) (.of_eq rfl rfl rfl) rfl fun _ => rfl
  | resend now =>
    cases hs
    exact .aside (Or.inl rfl) (.of_eq rfl rfl rfl) rfl fun _ => rfl

/-! ## Authentication -/

theorem TakionPc.not_inPostponed_of_beforeFlush {pc : TakionPc} (h : pc.beforeFlush = true) :
    pc.inPostponed = false := by
  cases pc with
  | flushDataQueue caller ack seqNum =>
    cases caller with
    | recv => rfl
    | postponed next => cases h
  | flushPostponed i => cases h
  | _ => rfl

theorem TakionPc.not_rests_of_beforeFlush {pc : TakionPc} (h : pc.beforeFlush = true) :
    pc.rests = false := by
  cases pc <;> first | rfl | cases h

/-- The thread goes to a place outside of the loop over the postponed packets. -/
theorem AvAuthentic.of_outside (h : AvAuthentic t) (hkept : AvKept t t')
    (hpc : t'.pc.inPostponed = false) : AvAuthentic t' := by
  refine ⟨fun next ack seqNum heq => ?_, fun hin => ?_, hkept.allowed h.log⟩
  · rw [heq] at hpc
    cases hpc
  · rw [hpc] at hin
    cases hin

theorem AvAuthentic.of_handled {buf : PacketBuf} {caller : TakionCaller} (h : AvAuthentic t)
    (hk : t.gkcryptRemote.isSome = true) (hh : AvHandled t buf caller t') : AvAuthentic t' := by
  obtain ⟨hpc, hremote, -, hlog, -⟩ := hh.effect
  refine ⟨fun next ack seqNum heq => ?_, fun _ => by rwa [hremote], hlog h.log⟩
  rw [hpc] at heq
  cases caller <;> cases heq

theorem takionPostponePacket_log (t : Takion κ) (buf : PacketBuf) (mem : Bool) :
    (takionPostponePacket t buf mem).log = t.log := by
  unfold takionPostponePacket
  split
  · rfl
  · simp only
    split <;> rfl

theorem avAuthentic_step (hb : TakionBasic t) (hcrypt : t.enableCrypt = true) (h : AvAuthentic t)
    (hs : (takionLts gmac).step t l t') : AvAuthentic t' := by
  have hreceived : AvAuthentic t.received := ⟨h.pc, h.remote, h.log⟩
  cases takionStep_av hb hcrypt h hs with
  | moved hpc hm _ =>
    rcases hm.pc with hpc' | hpc' | ⟨hpc', -, hk⟩ | ⟨hpc', -⟩
    · exact h.of_outside hm.kept (TakionPc.not_inPostponed_of_beforeFlush hpc')
    · exact h.of_outside hm.kept (by rw [hpc']; rfl)
    · refine ⟨fun next ack seqNum heq => ?_, fun _ => hm.kept.remote hk, hm.kept.allowed h.log⟩
      rw [hpc'] at heq
      cases heq
    · exact h.of_outside hm.kept (by rw [hpc']; rfl)
  | aside hpc hkept _ _ =>
    rcases hpc with hpc | ⟨-, hpc | hpc | ⟨f, hpc⟩⟩
    · refine ⟨fun next ack seqNum => ?_, fun hin => hkept.remote ?_, hkept.allowed h.log⟩
      · rw [hpc]
        exact h.pc next ack seqNum
      · rw [hpc] at hin
        exact h.remote hin
    · exact h.of_outside hkept (TakionPc.not_inPostponed_of_beforeFlush hpc)
    · exact h.of_outside hkept (by rw [hpc]; rfl)
    · exact h.of_outside hkept (by rw [hpc]; rfl)
  | postpone packet mem _ _ _ _ hres =>
    obtain ⟨-, hpc', -⟩ := takionPostponePacket_quiet (t.received.goto .loop) ⟨t.nextBuf, packet⟩ mem
    rw [← hres] at hpc'
    refine ⟨fun next ack seqNum heq => ?_, fun hin => ?_, ?_⟩
    · rw [hpc'] at heq
      cases heq
    · rw [hpc'] at hin
      cases hin
    · rw [hres, takionPostponePacket_log]
      exact h.log
  | recv packet mem _ _ _ hk hres =>
    rcases hres with ⟨f, rfl⟩ | hh
    · exact hreceived.of_outside (.goto _ _) rfl
    · exact hreceived.of_handled hk hh
  | flush i packet mem installed _ _ _ _ hk hres =>
    rcases hres with ⟨f, -, rfl⟩ | hh
    · exact h.of_outside (.goto _ _) rfl
    · exact h.of_handled hk hh
  | flushEnd i _ _ _ hres =>
    subst hres
    exact ⟨fun _ _ _ heq => (by cases heq), fun hin => (by cases hin), h.log⟩

/-- Whether there is encryption does not change. -/
theorem takionStep_enableCrypt (hs : (takionLts gmac).step t l t') :
    t'.enableCrypt = t.enableCrypt := by
  have hhandled : ∀ {t t' : Takion κ} {buf : PacketBuf} {caller : TakionCaller},
      Handled t buf caller t' → t'.enableCrypt = t.enableCrypt := by
    intro t t' buf caller hh
    cases hh with
    | fault _ _ _ hq _ => exact hq.enableCrypt
    | ignored _ hq _ => exact hq.enableCrypt
    | pushed t1 entry q dropped _ _ _ _ _ hq _ _ hres =>
      rw [hres]
      exact hq.enableCrypt
  cases takionStep_move hs with
  | other _ hq _ => exact hq.enableCrypt
  | recheckBegin _ _ hres => rw [hres]
  | recheckFault _ _ _ hres => rw [hres]; rfl
  | idle _ hq _ => exact hq.enableCrypt
  | postponed _ _ _ _ hh => exact hhandled hh
  | recv _ _ _ _ hh => rw [hhandled hh]
  | flushEnd _ ack _ _ _ _ _ _ hq _ =>
    rw [hq.enableCrypt]
    cases ack <;> rfl
  | flushEntry _ _ _ _ _ _ _ _ _ _ _ hf => exact hf.frame.2.2.2.1
  | stop _ hres => rw [hres]

/-- **Every audio or video event is authenticated**, in every run with encryption: the keys are
there, and the MAC of its packet was checked with them directly before. -/
theorem takionAvAuthentic (hr : (takionLts gmac).Reachable t) (hcrypt : t.enableCrypt = true) :
    AvAuthentic t := by
  induction hr with
  | init hi =>
    obtain ⟨version, enableCrypt, tagLocal, tagRemote, keyState, crypt, -, rfl⟩ := hi
    exact ⟨fun _ _ _ heq => (by cases heq), fun hin => (by cases hin), always_nil⟩
  | step hr hs ih =>
    have hb := (takionBasic_invariant gmac).reachable hr
    rw [takionStep_enableCrypt hs] at hcrypt
    exact avAuthentic_step hb hcrypt (ih hcrypt) hs

/-! ## The order of the packets -/

/-- What was delivered is among what was handled, and the postponed packets are where `AvPhase`
says. -/
structure AvInvariant (t : Takion κ) (h : AvHistory) : Prop where
  delivered : (avDelivered t.log).Sublist (h.handled.map (·.bytes))
  phase : AvPhase t h

theorem AvHandled.delivered_sublist {buf : PacketBuf} {caller : TakionCaller} {h : AvHistory}
    (hh : AvHandled t buf caller t') (hd : (avDelivered t.log).Sublist (h.handled.map (·.bytes))) :
    (avDelivered t'.log).Sublist ((h.handled ++ [buf]).map (·.bytes)) := by
  rw [List.map_append]
  rcases hh.effect.2.2.2.2 with heq | heq <;> rw [heq]
  · exact hd.trans (List.sublist_append_left _ _)
  · exact hd.append (List.Sublist.refl _)

/-- The thread is outside of the loop over the postponed packets before and after the step. -/
theorem AvInvariant.of_kept {h : AvHistory} (hi : AvInvariant t h) (hkept : AvKept t t')
    (hpc : t.pc.inPostponed = false) (hpc' : t'.pc.inPostponed = false)
    (hwait : t.gkcryptRemote = none ∨ t.pc.beforeFlush = true → t'.gkcryptRemote = none ∨
      t'.pc.beforeFlush = true) : AvInvariant t' h := by
  refine ⟨by rw [hkept.avDelivered_eq]; exact hi.delivered, ?_⟩
  cases hi.phase with
  | waiting _ hnot hlate hhandled hpost =>
    exact .waiting hpc' (hwait hnot) hlate hhandled (by rw [hkept.postponed]; exact hpost)
  | flushing i hflush =>
    rw [hflush] at hpc
    cases hpc
  | flushed _ hremote hhandled hpost =>
    exact .flushed hpc' (hkept.remote hremote) hhandled (by rw [hkept.postponed]; exact hpost)

/-- The list holds the first 32 of the packets that were to be postponed. -/
theorem takionPostponePacket_postponed {buf : PacketBuf} {mem : Bool} {early : List PacketBuf}
    (hmem : t.postponedPackets = none → mem = true)
    (hpost : t.postponedPackets.getD [] = early.take takionPostponePacketsSize) :
    (takionPostponePacket t buf mem).postponedPackets.getD []
      = (early ++ [buf]).take takionPostponePacketsSize := by
  unfold takionPostponePacket
  split
  · next hnone => exact absurd (hmem hnone) (by simp)
  · simp only [hpost, List.length_take]
    by_cases hfull : takionPostponePacketsSize ≤ early.length
    · rw [Nat.min_eq_left hfull, if_pos (Nat.le_refl _), List.take_append_of_le_length hfull]
      rfl
    · rw [if_neg (by omega), List.take_of_length_le (by omega : early.length ≤ _),
        List.take_of_length_le (by rw [List.length_append, List.length_singleton]; omega)]
      rfl

/-- Inside of the loop, only one phase is possible. -/
theorem AvPhase.of_flush {h : AvHistory} {i : Nat} (hp : AvPhase t h) (hpc : t.pc = .flushPostponed i) :
    t.gkcryptRemote.isSome = true ∧ h.late = [] ∧
      h.handled = (h.early.take takionPostponePacketsSize).take i ∧
      t.postponedPackets.getD [] = h.early.take takionPostponePacketsSize := by
  cases hp with
  | waiting hout =>
    rw [hpc] at hout
    cases hout
  | flushing j hflush _ hk hlate hhandled hpost =>
    rw [hpc] at hflush
    cases hflush
    exact ⟨hk, hlate, hhandled, hpost⟩
  | flushed hout =>
    rw [hpc] at hout
    cases hout

/-- The thread moves on before the loop over the postponed packets, or into it, or past it. -/
theorem AvInvariant.moved {h : AvHistory} (hi : AvInvariant t h) (hpc : t.pc.beforeFlush = true)
    (hm : AvMoved t t') (hnull : t'.pc ≠ .fault .nullPointer) : AvInvariant t' h := by
  have hout : t.pc.inPostponed = false := TakionPc.not_inPostponed_of_beforeFlush hpc
  rcases hm.pc with hpc' | hpc' | ⟨hpc', hsome, hk⟩ | ⟨hpc', hremote, hnone⟩
  · exact hi.of_kept hm.kept hout (TakionPc.not_inPostponed_of_beforeFlush hpc') fun _ => Or.inr hpc'
  · exact absurd hpc' hnull
  · -- the loop over the postponed packets begins
    refine ⟨by rw [hm.kept.avDelivered_eq]; exact hi.delivered, ?_⟩
    cases hi.phase with
    | waiting _ _ hlate hhandled hpost =>
      exact .flushing 0 hpc' (Nat.zero_le _) (hm.kept.remote hk) hlate hhandled
        (by rw [hm.kept.postponed]; exact hpost)
    | flushing i hflush =>
      rw [hflush] at hout
      cases hout
    | flushed _ _ _ hpost =>
      rw [hpost] at hsome
      cases hsome
  · -- there is nothing to flush, or there are no keys yet
    refine ⟨by rw [hm.kept.avDelivered_eq]; exact hi.delivered, ?_⟩
    have hout' : t'.pc.inPostponed = false := by
      rw [hpc']
      rfl
    cases hi.phase with
    | waiting _ _ hlate hhandled hpost =>
      cases hk : t.gkcryptRemote with
      | none =>
        exact .waiting hout' (Or.inl (hremote.trans hk)) hlate hhandled
          (by rw [hm.kept.postponed]; exact hpost)
      | some crypt =>
        have hempty : t.postponedPackets = none := by
          rw [hk, Option.isSome_some, Bool.and_true] at hnone
          exact Option.isSome_eq_false_iff.mp hnone |> Option.isNone_iff_eq_none.mp
        refine .flushed hout' (hm.kept.remote (by rw [hk]; rfl)) ?_ (hm.kept.postponed.trans hempty)
        rw [hempty] at hpost
        rw [hhandled, hlate, ← hpost]
        rfl
    | flushing i hflush =>
      rw [hflush] at hout
      cases hout
    | flushed _ hk hhandled hpost =>
      exact .flushed hout' (hm.kept.remote hk) hhandled (hm.kept.postponed.trans hpost)

/-- A step that has nothing to do with audio and video. -/
theorem AvInvariant.aside {h : AvHistory} (hi : AvInvariant t h)
    (hpc : t'.pc = t.pc ∨ t.pc = .recv ∧ (t'.pc.beforeFlush = true ∨ t'.pc = .exited ∨
      ∃ f, t'.pc = .fault f)) (hkept : AvKept t t') (hremote : t'.gkcryptRemote = t.gkcryptRemote) :
    AvInvariant t' h := by
  rcases hpc with hpc | ⟨hpc, hpc'⟩
  · refine ⟨by rw [hkept.avDelivered_eq]; exact hi.delivered, ?_⟩
    cases hi.phase with
    | waiting hout hnot hlate hhandled hpost =>
      exact .waiting (by rw [hpc]; exact hout) (by rw [hremote, hpc]; exact hnot) hlate hhandled
        (by rw [hkept.postponed]; exact hpost)
    | flushing i hflush hbound hk hlate hhandled hpost =>
      exact .flushing i (hpc.trans hflush) hbound (hkept.remote hk) hlate hhandled
        (by rw [hkept.postponed]; exact hpost)
    | flushed hout hk hhandled hpost =>
      exact .flushed (by rw [hpc]; exact hout) (hkept.remote hk) hhandled
        (hkept.postponed.trans hpost)
  · refine hi.of_kept hkept (by rw [hpc]; rfl) ?_ ?_
    · rcases hpc' with hpc' | hpc' | ⟨f, hpc'⟩
      · exact TakionPc.not_inPostponed_of_beforeFlush hpc'
      · rw [hpc']
        rfl
      · rw [hpc']
        rfl
    · rintro (hk | hbefore)
      · exact Or.inl (hremote.trans hk)
      · rw [hpc] at hbefore
        cases hbefore

/-- A packet without keys is put into the list, as long as there is memory and room for it. -/
theorem AvInvariant.postpone {h : AvHistory} {packet : Bytes} {mem : Bool} (hi : AvInvariant t h)
    (hsafe : losesPostponed t (.recv packet mem) = false) (hpc : t.pc = .recv)
    (hav : IsAvPacket packet) (hk : t.gkcryptRemote = none) :
    AvInvariant (takionPostponePacket (t.received.goto .loop) ⟨t.nextBuf, packet⟩ mem)
      (AvHistory.record t (.recv packet mem) h) := by
  obtain ⟨hq, hpc', -⟩ := takionPostponePacket_quiet (t.received.goto .loop) ⟨t.nextBuf, packet⟩ mem
  have hrec : AvHistory.record t (.recv packet mem) h
      = { h with early := h.early ++ [⟨t.nextBuf, packet⟩] } := by
    unfold AvHistory.record
    simp only [hav, hk, if_true, Option.isSome_none, Bool.false_eq_true, if_false]
  rw [hrec]
  cases hi.phase with
  | waiting _ _ hlate hhandled hpost =>
    refine ⟨?_, .waiting (by rw [hpc']; rfl) (Or.inl (hq.gkcryptRemote.trans hk)) hlate hhandled ?_⟩
    · rw [takionPostponePacket_log]
      exact hi.delivered
    · refine takionPostponePacket_postponed (fun hnone => ?_) hpost
      simp only [losesPostponed, hav, hk, decide_true, Option.isNone_none, Bool.true_and,
        show t.postponedPackets = none from hnone, Bool.not_eq_false'] at hsafe
      exact hsafe
  | flushing i hflush =>
    rw [hflush] at hpc
    cases hpc
  | flushed _ hsome =>
    rw [hk] at hsome
    cases hsome

/-- With keys, a packet is handled at once. -/
theorem AvInvariant.recv {h : AvHistory} {packet : Bytes} {mem : Bool} (hi : AvInvariant t h)
    (hpc : t.pc = .recv) (hav : IsAvPacket packet) (hk : t.gkcryptRemote.isSome = true)
    (hres : (∃ f, t' = t.received.goto (.fault f)) ∨ AvHandled t.received ⟨t.nextBuf, packet⟩ .recv t') :
    AvInvariant t' (AvHistory.record t (.recv packet mem) h) := by
  have hrec : AvHistory.record t (.recv packet mem) h
      = { h with late := h.late ++ [⟨t.nextBuf, packet⟩]
                 handled := h.handled ++ [⟨t.nextBuf, packet⟩] } := by
    unfold AvHistory.record
    simp only [hav, hk, if_true]
  rw [hrec]
  cases hi.phase with
  | waiting _ hnot =>
    rcases hnot with hnone | hbefore
    · rw [hnone] at hk
      cases hk
    · rw [hpc] at hbefore
      cases hbefore
  | flushing i hflush =>
    rw [hflush] at hpc
    cases hpc
  | flushed _ _ hhandled hpost =>
    have hall : h.handled ++ [⟨t.nextBuf, packet⟩]
        = h.early.take takionPostponePacketsSize ++ (h.late ++ [⟨t.nextBuf, packet⟩]) := by
      rw [hhandled, List.append_assoc]
    rcases hres with ⟨f, rfl⟩ | hh
    · refine ⟨?_, .flushed rfl hk hall hpost⟩
      rw [List.map_append]
      exact hi.delivered.trans (List.sublist_append_left _ _)
    · obtain ⟨hpc', hremote, hpost', -⟩ := hh.effect
      refine ⟨hh.delivered_sublist hi.delivered, .flushed (by rw [hpc']; rfl) ?_ hall
        (hpost'.trans hpost)⟩
      rw [hremote]
      exact hk

/-- A postponed packet that is long enough is handled without a fault. -/
theorem takionHandlePacket_flush_ok {i : Nat} {packet : PacketBuf} {mem : Bool}
    {installed : Option (κ × κ)} (hsafe : readsPastEnd t (.run mem installed) = false)
    (hpc : t.pc = .flushPostponed i) (hget : (t.postponedPackets.getD [])[i]? = some packet)
    (hav : IsAvPacket packet.bytes) (hk : t.gkcryptRemote.isSome = true) (f : Fault) :
    takionHandlePacket gmac t packet mem (.postponed (i + 1)) ≠ .error f := by
  intro herr
  obtain ⟨crypt, hcrypt⟩ := Option.isSome_iff_exists.mp hk
  simp only [readsPastEnd, hpc, hget, Option.any_some] at hsafe
  have hne : 0 < packet.bytes.length := by
    by_contra hempty
    have hnil : packet.bytes = [] := List.length_eq_zero_iff.mp (by omega)
    rw [hnil] at hav
    rcases hav with hav | hav <;> cases hav
  obtain ⟨t2, hok⟩ := @takionHandlePacket_av_ok _ gmac t crypt packet mem (.postponed (i + 1)) hne
    hav hcrypt hsafe
  rw [hok] at herr
  cases herr

/-- One round of the loop over the postponed packets. -/
theorem AvInvariant.flush {h : AvHistory} {i : Nat} {packet : PacketBuf} {mem : Bool}
    {installed : Option (κ × κ)} (hi : AvInvariant t h) (hpc : t.pc = .flushPostponed i)
    (hget : (t.postponedPackets.getD [])[i]? = some packet)
    (hh : AvHandled t packet (.postponed (i + 1)) t') :
    AvInvariant t' (AvHistory.record t (.run mem installed) h) := by
  have hrec : AvHistory.record t (.run mem installed) h = { h with handled := h.handled ++ [packet] } := by
    unfold AvHistory.record
    simp only [hpc, hget, Option.toList_some]
  rw [hrec]
  obtain ⟨hk, hlate, hhandled, hpost⟩ := hi.phase.of_flush hpc
  obtain ⟨hpc', hremote, hpost', -⟩ := hh.effect
  rw [hpost] at hget
  obtain ⟨hlt, hget⟩ := List.getElem?_eq_some_iff.mp hget
  refine ⟨hh.delivered_sublist hi.delivered, ?_⟩
  refine .flushing (i + 1) hpc' hlt (by rw [hremote]; exact hk) hlate ?_ (hpost'.symm ▸ hpost)
  show h.handled ++ [packet] = _
  rw [hhandled, List.take_succ_eq_append_getElem hlt, hget]

theorem AvInvariant.flushEnd {h : AvHistory} {i : Nat} (hi : AvInvariant t h)
    (hpc : t.pc = .flushPostponed i) (hget : (t.postponedPackets.getD [])[i]? = none) :
    AvInvariant ({ t with postponedPackets := none }.goto .recv) h := by
  obtain ⟨hk, hlate, hhandled, hpost⟩ := hi.phase.of_flush hpc
  rw [hpost] at hget
  have hlen := List.getElem?_eq_none_iff.mp hget
  refine ⟨hi.delivered, .flushed rfl hk ?_ rfl⟩
  rw [hhandled, hlate, List.append_nil, List.take_of_length_le hlen]

theorem avInvariant_step {h : AvHistory} (hb : TakionBasic t) (ha : AvAuthentic t)
    (hcrypt : t.enableCrypt = true) (hi : AvInvariant t h) (hG : AvSafe t l)
    (hnull : t'.pc ≠ .fault .nullPointer) (hs : (takionLts gmac).step t l t') :
    AvInvariant t' (AvHistory.record t l h) := by
  obtain ⟨-, hpostpone, hend⟩ := hG
  cases takionStep_av hb hcrypt ha hs with
  | moved hpc hm hrec =>
    rw [hrec]
    exact hi.moved hpc hm hnull
  | aside hpc hkept hremote hrec =>
    rw [hrec]
    exact hi.aside hpc hkept hremote
  | postpone packet mem hl hpc hav hk hres =>
    subst hl hres
    exact hi.postpone hpostpone hpc hav hk
  | recv packet mem hl hpc hav hk hres =>
    subst hl
    exact hi.recv hpc hav hk hres
  | flush i packet mem installed hl hpc hget hav hk hres =>
    subst hl
    rcases hres with ⟨f, herr, -⟩ | hh
    · exact absurd herr (takionHandlePacket_flush_ok hend hpc hget hav hk f)
    · exact hi.flush hpc hget hh
  | flushEnd i hpc hget hrec hres =>
    rw [hrec, hres]
    exact hi.flushEnd hpc hget

theorem avInvariant_of_safe {s : Takion κ × AvHistory}
    (hr : ((takionAvLts gmac).restrict fun s l => AvSafe s.1 l).Reachable s)
    (hcrypt : s.1.enableCrypt = true) : AvInvariant s.1 s.2 := by
  induction hr with
  | @init s hi =>
    obtain ⟨t, h⟩ := s
    obtain ⟨⟨version, enableCrypt, tagLocal, tagRemote, keyState, crypt, -, rfl⟩, rfl⟩ := hi
    exact ⟨List.Sublist.refl _, .waiting rfl (Or.inr rfl) rfl rfl rfl⟩
  | @step s s' l hr hs ih =>
    obtain ⟨hG, hst, hrec⟩ := hs
    have hprev := Lts.Reachable.of_withHistory hr
    have hnext := Lts.Reachable.step hprev ⟨hG, hst⟩
    have hb := (takionBasic_invariant gmac).reachable hprev.of_restrict
    rw [takionStep_enableCrypt hst] at hcrypt
    have hnull := (takionAuthentic_of_empty gmac (hnext.mono fun _ _ h => h.1)).recheck
    rw [hrec]
    exact avInvariant_step hb (takionAvAuthentic hprev.of_restrict hcrypt) hcrypt (ih hcrypt) hG hnull
      hst

/--
**Audio and video packets are authenticated and in order** in every run with encryption whose
steps are all safe: the first 32 packets that arrived before the keys are handled once each,
in the order of their arrival, before any packet that arrived with the keys, and none of them
is left when the thread waits for the next datagram.
-/
theorem takionAvOrdered_of_safe {h : AvHistory}
    (hr : ((takionAvLts gmac).restrict fun s l => AvSafe s.1 l).Reachable (t, h))
    (hcrypt : t.enableCrypt = true) : TakionAvOrdered t h := by
  have hi : AvInvariant t h := avInvariant_of_safe hr hcrypt
  have ha := takionAvAuthentic (Lts.Reachable.of_withHistory hr).of_restrict hcrypt
  refine ⟨fun later earlier crypt packet bytes ho => ha.log later earlier _ ho, hi.delivered, ?_, ?_⟩
  · cases hi.phase with
    | waiting _ _ _ hhandled =>
      rw [hhandled]
      exact List.nil_prefix
    | flushing i _ _ _ hlate hhandled =>
      rw [hhandled, hlate, List.append_nil]
      exact List.take_prefix _ _
    | flushed _ _ hhandled => exact hhandled ▸ List.prefix_refl _
  · intro hk hrests
    cases hi.phase with
    | waiting _ hnot =>
      rcases hnot with hnone | hbefore
      · rw [hnone] at hk
        cases hk
      · rw [TakionPc.not_rests_of_beforeFlush hbefore] at hrests
        cases hrests
    | flushing i hpc =>
      rw [hpc] at hrests
      cases hrests
    | flushed _ _ hhandled => exact hhandled

/-! ### An early packet, with and without a gap in the data queue -/

instance (t : Takion κ) (l : TakionLabel κ) : Decidable (AvSafe t l) :=
  inferInstanceAs (Decidable (_ ∧ _))

/-- An audio packet of version 9 with the MAC `mac` four times. -/
def exampleAudio (mac : UInt8) : Bytes :=
  [3, 0, 0, 0, 0, 0, 0, 0, 0, 0] ++ List.replicate 4 mac ++ be32 0 ++ [0, 0xaa]

/-- An early packet, the message that installs the keys, and one more packet. -/
def earlyThenKeys : List (TakionLabel UInt8) :=
  toRecv ++ [.recv (exampleAudio 7) true] ++ toRecv
    ++ [.recv (exampleData 0 5 0 [1]) true, .run true (some (7, 7)), .run true none]
    ++ [.run true none, .run true none, .run true none, .run true none, .run true none]
    ++ [.recv (exampleAudio 7) true] ++ toRecv

/-- What a test looks at: where the thread stands, and the ids of the packets. -/
def AvHistory.ids (h : AvHistory) : List Nat × List Nat × List Nat :=
  (h.early.map (·.id), h.late.map (·.id), h.handled.map (·.id))

theorem exampleAv_initial : (takionAvLts keyGmac).init (exampleTakion, .start) :=
  And.intro (show TakionInitial exampleTakion from exampleTakion_initial) rfl

theorem earlyThenKeys_run :
    (Lts.runFun (Lts.guarded (Lts.recordFun (takionStep keyGmac) AvHistory.record)
        fun s l => AvSafe s.1 l) (exampleTakion, .start) earlyThenKeys).map
        (fun s => (s.1.enableCrypt, s.1.pc, s.2.ids))
      = some (true, .recv, [0], [2], [0, 2]) := by
  decide +kernel

theorem takionAvOrdered_earlyThenKeys : ∃ (t : Takion UInt8) (h : AvHistory),
    t.pc = .recv ∧ h.ids = ([0], [2], [0, 2]) ∧ TakionAvOrdered t h := by
  obtain ⟨⟨t, h⟩, hrun, hobs⟩ := Option.map_eq_some_iff.mp earlyThenKeys_run
  simp only [Prod.mk.injEq] at hobs
  have hreach : ((takionAvLts keyGmac).restrict fun s l => AvSafe s.1 l).Reachable (t, h) :=
    Lts.Reachable.runRecord (.init exampleAv_initial) hrun
  exact ⟨t, h, hobs.2.1, hobs.2.2, takionAvOrdered_of_safe hreach hobs.1⟩

/-- An early packet, a message with a gap before it, and the message that installs the keys. -/
def gapThenKeys : List (TakionLabel UInt8) :=
  toRecv ++ [.recv (exampleAudio 7) true] ++ toRecv
    ++ [.recv (exampleData 0 7 0 [1]) true, .run true none] ++ toRecv
    ++ [.recv (exampleData 0 5 0 [1]) true, .run true (some (7, 7)), .run true none]
    ++ [.run true none, .run true none, .run true none]

theorem gapThenKeys_run :
    (Lts.runFun (Lts.guarded (Lts.recordFun (takionStep keyGmac) AvHistory.record) fun _ _ => True)
        (exampleTakion, .start) gapThenKeys).map
        (fun s => (s.1.enableCrypt && s.1.gkcryptRemote.isSome, s.1.pc, s.2.ids))
      = some (true, .fault .nullPointer, [0], [], []) := by
  decide +kernel

/-- With a gap in the data queue the thread crashes, and the early packet is never handled. -/
theorem not_takionAvOrdered : ¬ ∀ s, (takionAvLts keyGmac).Reachable s → s.1.enableCrypt = true →
    TakionAvOrdered s.1 s.2 := by
  intro hall
  obtain ⟨⟨t, h⟩, hrun, hobs⟩ := Option.map_eq_some_iff.mp gapThenKeys_run
  simp only [Prod.mk.injEq, AvHistory.ids, List.map_eq_nil_iff] at hobs
  obtain ⟨hkeys, hpc, hearly, hlate, hhandled⟩ := hobs
  obtain ⟨hcrypt, hk⟩ := Bool.and_eq_true_iff.mp hkeys
  have hreach : (takionAvLts keyGmac).Reachable (t, h) :=
    (Lts.Reachable.runRecord (.init exampleAv_initial) hrun).of_restrict
  have hdone := (hall (t, h) hreach hcrypt).done hk (by rw [hpc]; rfl)
  rw [hhandled, hlate, List.append_nil] at hdone
  -- nothing was handled, but one packet came early
  have hnil : h.early = [] := by
    cases hl : h.early with
    | nil => rfl
    | cons p rest =>
      rw [hl] at hdone
      cases hdone
  rw [hnil] at hearly
  cases hearly

end Chiaki
