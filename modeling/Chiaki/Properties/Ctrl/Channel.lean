import Mathlib.Data.List.Forall2
import Chiaki.Ctrl.Channel
import Chiaki.Properties.Ctrl.Framing

/-!
# The ctrl channel, from end to end

* `CtrlChannelRight` — the receiver dispatches the messages that were sent, in order, and behind each
  one its counter is the one of the sender
* `ctrlRoundAccepted` — the handler of the message neither fails an assertion nor reads beyond
  `recv_buf`
* `ctrl_round_trip` — in runs in which the handlers accept all messages, the channel is right
-/

namespace Chiaki

open Infra Infra.Framing

variable {m n : Nat} {rpcrypt : RPCrypt} {s s' : Ctrl n} {message : CtrlMessage} {start : Nat}

/-! ## Handlers -/

/-- A text has the length that its message says. -/
def ctrlTextFits (payload : Bytes) (size off : Nat) : Bool :=
  decide (payload.length = size + u32At payload off)

/-- The handler takes the message. A session id that is too short is logged, which needs a zero
behind it. -/
def ctrlMessageAccepts (s : Ctrl n) (message : CtrlMessage) : Bool :=
  match CtrlMessageType.ofNat? message.type with
  | some .sessionId => s.session.ctrlSessionIdReceived || decide (2 ≤ message.payload.length) ||
      (s.recvBuf.toList.drop 8).contains 0
  | some .keyboardOpen => ctrlTextFits message.payload ctrlKeyboardOpenMessageSize 0x1c
  | some .keyboardTextChangeRes => ctrlTextFits message.payload ctrlKeyboardTextResponseMessageSize 8
  | _ => true

theorem ctrlMessageText_eq (s : Ctrl n) (payload : Bytes) (size off : Nat) :
    ctrlMessageText s payload size off
      = if ctrlTextFits payload size off then
          .ok ({ s with recvBuf := s.recvBuf.write (8 + off) (slice payload off 4).reverse },
            if u32At payload off > 0 then some (slice payload size (u32At payload off)) else none)
        else .error .assertion := by
  unfold ctrlMessageText ctrlTextFits
  by_cases hsize : payload.length < size
  · rw [if_pos hsize, if_neg]
    rw [decide_eq_true_eq]
    omega
  · rw [if_neg hsize]
    by_cases htext : payload.length = size + u32At payload off
    · simp [htext]
    · simp [htext]

theorem ctrlMessageReceivedSessionId_accepts (s : Ctrl n) (payload : Bytes) :
    (ctrlMessageReceivedSessionId s payload).isOk
      = (s.session.ctrlSessionIdReceived || decide (2 ≤ payload.length) ||
          (s.recvBuf.toList.drop 8).contains 0) := by
  unfold ctrlMessageReceivedSessionId
  split
  · next hreceived => rw [hreceived, Bool.true_or, Bool.true_or, Except.isOk, Except.toBool]
  · next hnew =>
    rw [(Bool.not_eq_true _).mp hnew, Bool.false_or]
    split
    · next hshort =>
      rw [decide_eq_false (Nat.not_le.mpr hshort), Bool.false_or]
      split
      · next hzero => rw [hzero, Except.isOk, Except.toBool]
      · next hzero => rw [(Bool.not_eq_true _).mp hzero, Except.isOk, Except.toBool]
    · next hlong =>
      rw [decide_eq_true (Nat.not_lt.mp hlong), Bool.true_or]
      simp only
      split
      · rfl
      · split <;> rfl

/-- **A handler ends in a fault only if it does not take the message.** -/
theorem ctrlMessageHandle_isOk (s : Ctrl n) (message : CtrlMessage) :
    (ctrlMessageHandle rpcrypt s message.type message.payload).isOk = ctrlMessageAccepts s message := by
  unfold ctrlMessageHandle ctrlMessageAccepts
  cases CtrlMessageType.ofNat? message.type with
  | none => rfl
  | some t =>
    cases t with
    | sessionId =>
      rw [← ctrlMessageReceivedSessionId_accepts]
      simp only
      cases ctrlMessageReceivedSessionId s message.payload <;> rfl
    | keyboardOpen =>
      simp only [ctrlMessageReceivedKeyboardOpen, ctrlMessageText_eq]
      cases ctrlTextFits message.payload ctrlKeyboardOpenMessageSize 0x1c <;> rfl
    | keyboardTextChangeRes =>
      simp only [ctrlMessageReceivedKeyboardTextChange, ctrlMessageText_eq]
      cases ctrlTextFits message.payload ctrlKeyboardTextResponseMessageSize 8 <;> rfl
    | heartbeatReq | loginPinReq | login | keyboardCloseRemote => rfl

/-! ### The counter of the receiver -/

theorem ctrlMessageSend_remote (s : Ctrl n) (type : Nat) (payload : Bytes) :
    (ctrlMessageSend rpcrypt s type payload).cryptCounterRemote = s.cryptCounterRemote := by
  unfold ctrlMessageSend
  split
  · rfl
  · split <;> rfl

theorem ctrlEnableOptionalFeatures_remote (s : Ctrl n) :
    (ctrlEnableOptionalFeatures rpcrypt s).cryptCounterRemote = s.cryptCounterRemote := by
  unfold ctrlEnableOptionalFeatures
  simp only
  split
  · split <;> simp only [ctrlMessageSend_remote]
  · split
    · simp only [ctrlMessageSend_remote]
    · rfl

theorem ctrlMessageReceivedSessionId_remote {payload : Bytes}
    (h : ctrlMessageReceivedSessionId s payload = .ok s') :
    s'.cryptCounterRemote = s.cryptCounterRemote := by
  unfold ctrlMessageReceivedSessionId at h
  split at h
  · cases h
    rfl
  · split at h
    · split at h <;> cases h
      rfl
    · simp only at h
      split at h
      · cases h
        rfl
      · split at h <;> cases h <;> rfl

theorem ctrlMessageReceivedLogin_remote (s : Ctrl n) (payload : Bytes) :
    (ctrlMessageReceivedLogin s payload).cryptCounterRemote = s.cryptCounterRemote := by
  unfold ctrlMessageReceivedLogin
  split
  · rfl
  · split
    · rfl
    · split <;> rfl

/-- Only `ctrl_message_received` itself counts. -/
theorem ctrlMessageHandle_remote {type : Nat} {payload : Bytes}
    (h : ctrlMessageHandle rpcrypt s type payload = .ok s') :
    s'.cryptCounterRemote = s.cryptCounterRemote := by
  unfold ctrlMessageHandle at h
  split at h
  · cases hid : ctrlMessageReceivedSessionId s payload with
    | error f =>
      rw [hid] at h
      cases h
    | ok s1 =>
      rw [hid] at h
      cases h
      rw [ctrlEnableOptionalFeatures_remote, ctrlMessageReceivedSessionId_remote hid]
  · cases h
    exact ctrlMessageSend_remote ..
  · cases h
    rfl
  · cases h
    exact ctrlMessageReceivedLogin_remote ..
  · simp only [ctrlMessageReceivedKeyboardOpen, ctrlMessageText_eq] at h
    split at h <;> cases h
    rfl
  · simp only [ctrlMessageReceivedKeyboardTextChange, ctrlMessageText_eq] at h
    split at h <;> cases h
    rfl
  · cases h
    rfl
  · cases h
    rfl

/-! ## A round of the loop -/

theorem ctrlMessageReceived_of_plain {payloadSize : Nat} {plain : Bytes}
    (h : ctrlMessagePlain rpcrypt s payloadSize = some plain) (type : Nat) :
    ctrlMessageReceived rpcrypt s type payloadSize
      = ctrlMessageHandle rpcrypt (ctrlMessageDecrypted s plain) type plain := by
  unfold ctrlMessagePlain at h
  unfold ctrlMessageReceived
  split at h
  · next hzero =>
    cases h
    rw [if_pos hzero, ctrlMessageDecrypted, if_pos rfl]
  · next hpos =>
    rw [if_neg hpos]
    split at h
    · cases h
    · next hfit =>
      rw [if_neg hfit]
      cases hdecrypt : rpcrypt.decrypt s.cryptCounterRemote (slice s.recvBuf.toList 8 payloadSize) with
      | error f =>
        rw [hdecrypt] at h
        cases h
      | ok plain' =>
        rw [hdecrypt] at h
        cases h
        have hlen : plain.length = payloadSize := by
          rw [rpcrypt.length_decrypt _ _ _ hdecrypt, length_slice]
          rw [Vector.length_toList]
          omega
        have hne : plain ≠ [] := by
          rintro rfl
          exact hpos hlen.symm
        simp only [ctrlMessageDecrypted, if_neg hne, hdecrypt]

theorem ctrlRoundMessage_iff : ctrlRoundMessage rpcrypt s = some message ↔
    8 ≤ s.recvBufSize ∧ s.frameSize ≤ s.recvBufSize ∧ message.type = u16At s.recvBuf.toList 4 ∧
      ctrlMessagePlain rpcrypt s s.payloadSize = some message.payload := by
  unfold ctrlRoundMessage
  simp only
  split
  · next hshort =>
    refine ⟨fun h => (by cases h), fun h => ?_⟩
    rcases hshort with hshort | hshort
    · exact absurd h.1 (Nat.not_le.mpr hshort)
    · exact absurd h.2.1 (Nat.not_le.mpr hshort)
  · next hwhole =>
    rw [not_or, Nat.not_lt, Nat.not_lt] at hwhole
    rw [Option.map_eq_some_iff]
    constructor
    · rintro ⟨plain, hplain, rfl⟩
      exact ⟨hwhole.1, hwhole.2, rfl, hplain⟩
    · rintro ⟨-, -, htype, hplain⟩
      refine ⟨message.payload, hplain, ?_⟩
      rw [← htype]

/-- The handler takes the message of the round, if there is one. -/
def ctrlRoundAccepted (rpcrypt : RPCrypt) (s : Ctrl n) : Bool :=
  (ctrlRoundMessage rpcrypt s).all fun message =>
    ctrlMessageAccepts (ctrlMessageDecrypted s message.payload) message

/-- What the handler finds. -/
theorem ctrlMessageHandle_dispatching (rpcrypt : RPCrypt) (s : Ctrl n) (log : List CtrlEvent)
    (message : CtrlMessage) :
    (ctrlMessageHandle rpcrypt (ctrlMessageDecrypted { s with log := log } message.payload)
        message.type message.payload).isOk
      = ctrlMessageAccepts (ctrlMessageDecrypted s message.payload) message := by
  rw [ctrlMessageHandle_isOk]
  unfold ctrlMessageDecrypted
  split <;> rfl

theorem ctrlMessageDecrypted_remote (s : Ctrl n) (plain : Bytes) :
    (ctrlMessageDecrypted s plain).cryptCounterRemote
      = s.cryptCounterRemote + if plain = [] then 0 else 1 := by
  unfold ctrlMessageDecrypted
  split <;> rfl

theorem ctrlRound_error {f : Fault} (h8 : 8 ≤ s.recvBufSize) (hwhole : s.frameSize ≤ s.recvBufSize)
    (h : ctrlMessageReceived rpcrypt { s with log := s.dispatch :: s.log } (u16At s.recvBuf.toList 4)
      s.payloadSize = .error f) : (ctrlRound rpcrypt s).thread = .fault f := by
  unfold Ctrl.frameSize at hwhole
  simp only [Ctrl.dispatch, Ctrl.payloadSize] at h hwhole
  unfold ctrlRound
  simp only [if_neg (Nat.not_lt.mpr h8), if_neg (Nat.not_lt.mpr hwhole), h]

theorem ctrlRound_ok {s1 : Ctrl n} (h8 : 8 ≤ s.recvBufSize) (hwhole : s.frameSize ≤ s.recvBufSize)
    (h : ctrlMessageReceived rpcrypt { s with log := s.dispatch :: s.log } (u16At s.recvBuf.toList 4)
      s.payloadSize = .ok s1) (hfit : 8 + s.payloadSize + (s1.recvBufSize - s.frameSize) ≤ ctrlRecvBufSize) :
    (ctrlRound rpcrypt s).thread = s1.thread ∧
      (ctrlRound rpcrypt s).cryptCounterRemote = s1.cryptCounterRemote := by
  unfold Ctrl.frameSize at hwhole hfit
  simp only [Ctrl.dispatch, Ctrl.payloadSize] at h hwhole hfit
  unfold ctrlRound
  simp only [if_neg (Nat.not_lt.mpr h8), if_neg (Nat.not_lt.mpr hwhole), h]
  split
  · exact ⟨rfl, rfl⟩
  · rw [if_neg (Nat.not_lt.mpr hfit)]
    exact ⟨rfl, rfl⟩

/-- The round of a message that the handler does not take is the last one. -/
theorem ctrlRound_refused (hrefused : ctrlRoundAccepted rpcrypt s = false) :
    (ctrlRound rpcrypt s).thread.isFault = true := by
  cases hmsg : ctrlRoundMessage rpcrypt s with
  | none =>
    rw [ctrlRoundAccepted, hmsg] at hrefused
    cases hrefused
  | some message =>
    obtain ⟨h8, hwhole, htype, hplain⟩ := ctrlRoundMessage_iff.mp hmsg
    rw [ctrlRoundAccepted, hmsg, Option.all_some,
      ← ctrlMessageHandle_dispatching rpcrypt s (s.dispatch :: s.log)] at hrefused
    have hreceived := ctrlMessageReceived_of_plain (s := { s with log := s.dispatch :: s.log }) hplain
      message.type
    cases hhandle : ctrlMessageHandle rpcrypt
        (ctrlMessageDecrypted { s with log := s.dispatch :: s.log } message.payload) message.type
        message.payload with
    | ok s1 =>
      rw [hhandle] at hrefused
      cases hrefused
    | error f =>
      rw [hhandle, htype] at hreceived
      rw [ctrlRound_error h8 hwhole hreceived]
      rfl

/-- The round of another message goes on, and counts the payload. -/
theorem ctrlRound_accepted (hmsg : ctrlRoundMessage rpcrypt s = some message)
    (haccepted : ctrlRoundAccepted rpcrypt s = true)
    (hfit : 8 + s.payloadSize + (s.recvBufSize - s.frameSize) ≤ ctrlRecvBufSize) :
    (ctrlRound rpcrypt s).thread = s.thread ∧ (ctrlRound rpcrypt s).cryptCounterRemote
      = s.cryptCounterRemote + if message.payload = [] then 0 else 1 := by
  obtain ⟨h8, hwhole, htype, hplain⟩ := ctrlRoundMessage_iff.mp hmsg
  rw [ctrlRoundAccepted, hmsg, Option.all_some,
    ← ctrlMessageHandle_dispatching rpcrypt s (s.dispatch :: s.log)] at haccepted
  have hreceived := ctrlMessageReceived_of_plain (s := { s with log := s.dispatch :: s.log }) hplain
    message.type
  cases hhandle : ctrlMessageHandle rpcrypt
      (ctrlMessageDecrypted { s with log := s.dispatch :: s.log } message.payload) message.type
      message.payload with
  | error f =>
    rw [hhandle] at haccepted
    cases haccepted
  | ok s1 =>
    rw [hhandle, htype] at hreceived
    have hhandled := ctrlMessageReceived_handled hreceived
    have hsize : s1.recvBufSize = s.recvBufSize := hhandled.recvBufSize
    obtain ⟨hthread, hremote⟩ := ctrlRound_ok h8 hwhole hreceived (by rw [hsize]; exact hfit)
    refine ⟨hthread.trans hhandled.thread, ?_⟩
    rw [hremote, ctrlMessageHandle_remote hhandle, ctrlMessageDecrypted_remote]

/-! ## Counters -/

/-- The counter behind a message: an empty payload takes none. -/
def ctrlCounterAfter (counter : Nat) (message : CtrlMessage) : Nat :=
  counter + if message.payload = [] then 0 else 1

/-- Messages, each with the counter behind it. -/
def ctrlCounted : Nat → List CtrlMessage → List (CtrlMessage × Nat)
  | _, [] => []
  | start, message :: messages =>
    (message, ctrlCounterAfter start message) :: ctrlCounted (ctrlCounterAfter start message) messages

/-- The counter behind all of them. -/
def ctrlCounter (start : Nat) (messages : List CtrlMessage) : Nat :=
  messages.foldl ctrlCounterAfter start

theorem ctrlCounted_append (start : Nat) (messages later : List CtrlMessage) :
    ctrlCounted start (messages ++ later)
      = ctrlCounted start messages ++ ctrlCounted (ctrlCounter start messages) later := by
  induction messages generalizing start with
  | nil => rfl
  | cons message messages ih => rw [List.cons_append, ctrlCounted, ih]; rfl

theorem ctrlCounter_append (start : Nat) (messages later : List CtrlMessage) :
    ctrlCounter start (messages ++ later) = ctrlCounter (ctrlCounter start messages) later :=
  List.foldl_append

theorem map_fst_ctrlCounted (start : Nat) (messages : List CtrlMessage) :
    (ctrlCounted start messages).map Prod.fst = messages := by
  induction messages generalizing start with
  | nil => rfl
  | cons message messages ih => rw [ctrlCounted, List.map_cons, ih]

/-- Each message stands with the counter behind it. -/
theorem snd_of_ctrlCounted {sent : List (CtrlMessage × Nat)} {k : Nat} {x : CtrlMessage × Nat}
    (h : sent = ctrlCounted start (sent.map Prod.fst)) (hx : sent[k]? = some x) :
    x.2 = ctrlCounterAfter (ctrlCounter start ((sent.take k).map Prod.fst)) x.1 := by
  obtain ⟨hk, hget⟩ := List.getElem?_eq_some_iff.mp hx
  have hsplit : sent = sent.take k ++ x :: sent.drop (k + 1) := by
    rw [← hget, List.cons_getElem_drop_succ, List.take_append_drop]
  have hcounted := h
  rw [hsplit, List.map_append, ctrlCounted_append, List.map_cons, ctrlCounted] at hcounted
  have hlen := congrArg List.length (map_fst_ctrlCounted start ((sent.take k).map Prod.fst))
  rw [List.length_map, List.length_map] at hlen
  have hcons := (List.append_inj hcounted hlen.symm).2
  exact congrArg Prod.snd (List.cons.inj hcons).1

/-! ## The property -/

/-- `chiaki_rpcrypt_decrypt` undoes `chiaki_rpcrypt_encrypt` for the same counter. -/
def RPCrypt.Undoes (rpcrypt : RPCrypt) : Prop :=
  ∀ counter plain enc, rpcrypt.encrypt counter plain = .ok enc →
    rpcrypt.decrypt counter enc = .ok plain

/-- The thread is connected and has not ended. -/
def CtrlPc.receives (pc : CtrlPc) : Bool := pc == .loop || pc.waits

/-- **The channel.** A message stands with the counter behind it, so that `inOrder` and `all` are
about the messages and about the counters of the two sides. -/
structure CtrlChannelRight (rpcrypt : RPCrypt) (start : Nat) (s : CtrlChannel m n) : Prop where
  /-- An empty payload takes no counter. -/
  counted : s.sent = ctrlCounted start (s.sent.map Prod.fst)
  inOrder : s.dispatched <+: s.sent
  all : s.receiver.thread.waits = true → s.receiver.received = s.wire →
    s.dispatched = s.sent ∧ s.receiver.cryptCounterRemote = s.sender.cryptCounterLocal
  goesOn : s.receiver.thread.isFault = false ∧ s.receiver.thread ≠ .overflow
  /-- `recv` is not called for no bytes at all. -/
  room : s.receiver.thread.waits = true → s.receiver.recvBufSize < ctrlRecvBufSize
  terminates : s.receiver.thread = .loop → ∃ k r,
    Lts.runFun (ctrlStep rpcrypt) s.receiver (List.replicate k .round) = some r ∧ r.thread ≠ .loop

/-- The handler of a dispatched message takes it. -/
def ctrlChannelClean (rpcrypt : RPCrypt) (s : CtrlChannel m n) : CtrlChannelLabel n → Bool
  | .receive .round => ctrlRoundAccepted rpcrypt s.receiver
  | _ => true

/-! ## The invariant -/

/-- The frame that a message is sent in. -/
structure CtrlFramed (rpcrypt : RPCrypt) (x : CtrlMessage × Nat) (f : CtrlFrame) : Prop where
  type : f.msgType.toNat = x.1.type
  length : f.payload.length = x.1.payload.length
  length_le : f.payload.length ≤ ctrlPayloadSizeMax
  payload : x.1.payload ≠ [] →
    ∃ counter, x.2 = counter + 1 ∧ rpcrypt.encrypt counter x.1.payload = .ok f.payload

structure CtrlChannelInvariant (rpcrypt : RPCrypt) (start : Nat) (s : CtrlChannel m n) : Prop where
  framing : CtrlFramingInvariant s.receiver
  goesOn : s.receiver.thread.isFault = false ∧ s.receiver.thread ≠ .overflow
  arrived : s.receiver.received <+: s.wire
  framed : ∃ frames, List.Forall₂ (CtrlFramed rpcrypt) s.sent frames ∧
    s.wire = frames.flatMap CtrlFrame.encode
  counted : s.sent = ctrlCounted start (s.sent.map Prod.fst)
  counter : s.sender.cryptCounterLocal = ctrlCounter start (s.sent.map Prod.fst)
  dispatched : s.dispatched = s.sent.take (ctrlDispatched s.receiver.log).length
  remote : s.receiver.thread.receives = true →
    s.receiver.cryptCounterRemote = ctrlCounter start (s.dispatched.map Prod.fst)

variable {c : CtrlChannel m n}

theorem ctrlChannelInvariant_init (h : CtrlChannelInitial start c) :
    CtrlChannelInvariant rpcrypt start c := by
  obtain ⟨hcounter, hlog, hreceiver, hsent, hdispatched⟩ := h
  have hframing := ctrlFramingInvariant_init hreceiver
  obtain ⟨session, recvBuf, hinit⟩ := hreceiver
  have hwire : c.wire = [] := by
    rw [CtrlChannel.wire, hlog]
    rfl
  refine ⟨hframing, ?_, ?_, ⟨[], ?_, ?_⟩, ?_, ?_, ?_, ?_⟩
  · rw [hinit]
    exact ⟨rfl, CtrlPc.noConfusion⟩
  · rw [hinit]
    exact List.nil_prefix
  · rw [hsent]
    exact .nil
  · rw [hwire]
    rfl
  · rw [hsent]
    rfl
  · rw [hsent, hcounter]
    rfl
  · rw [hsent, hdispatched, List.take_nil]
  · intro hreceives
    rw [hinit] at hreceives
    cases hreceives

/-! ### Sending -/

/-- A message becomes a frame on the wire. -/
theorem ctrlMessageSend_frame {s : Ctrl m} (type : UInt16) {payload : Bytes}
    (hsize : payload.length ≤ ctrlPayloadSizeMax)
    (hok : ctrlMessageSendSucceeds rpcrypt s payload = true) :
    ∃ f : CtrlFrame, (ctrlMessageSend rpcrypt s type.toNat payload).log = .send f.encode :: s.log ∧
      CtrlFramed rpcrypt
        (⟨type.toNat, payload⟩, (ctrlMessageSend rpcrypt s type.toNat payload).cryptCounterLocal) f ∧
      (ctrlMessageSend rpcrypt s type.toNat payload).cryptCounterLocal
        = ctrlCounterAfter s.cryptCounterLocal ⟨type.toNat, payload⟩ := by
  unfold ctrlMessageSend
  by_cases hempty : payload = []
  · rw [if_pos hempty]
    subst hempty
    exact ⟨⟨type, (0, 0), [], by decide⟩, rfl, ⟨rfl, rfl, hsize, fun h => absurd rfl h⟩, rfl⟩
  · rw [if_neg hempty]
    rw [ctrlMessageSendSucceeds, List.isEmpty_eq_false_iff.mpr hempty, Bool.false_or] at hok
    cases henc : rpcrypt.encrypt s.cryptCounterLocal payload with
    | error e =>
      rw [henc] at hok
      cases hok
    | ok enc =>
      have hlen := rpcrypt.length_encrypt _ _ _ henc
      have hlt : enc.length < 2 ^ 32 := by
        unfold ctrlPayloadSizeMax at hsize
        omega
      refine ⟨⟨type, (0, 0), enc, hlt⟩, ?_, ⟨rfl, hlen, hlen ▸ hsize, fun _ => ⟨_, rfl, henc⟩⟩, ?_⟩
      · simp only [ctrlMessageHeader, CtrlFrame.encode, hlen, List.append_assoc]
      · simp only [ctrlCounterAfter, if_neg hempty]

theorem CtrlChannelInvariant.split (h : CtrlChannelInvariant rpcrypt start c) :
    ∃ (frames later : List CtrlFrame) (more : Bytes),
      List.Forall₂ (CtrlFramed rpcrypt) c.sent (frames ++ later) ∧
      frames.length = (ctrlDispatched c.receiver.log).length ∧
      c.receiver.pending ++ more = later.flatMap CtrlFrame.encode ∧
      c.receiver.received ++ more = c.wire := by
  obtain ⟨all, hframed, hwire⟩ := h.framed
  obtain ⟨frames, rest, hstream, hdispatched, hrest⟩ := h.framing.stream
  obtain ⟨more, hmore⟩ := h.arrived
  rw [hrest h.goesOn.1] at hstream
  have hsplits : Splits CtrlFrame.encode c.wire all [] :=
    ⟨by rw [hwire, List.append_nil], not_whole_of_lt (.inl (by decide))⟩
  have htaken : c.wire = frames.flatMap CtrlFrame.encode ++ (c.receiver.pending ++ more) := by
    rw [← hmore, hstream, List.append_assoc]
  obtain ⟨later, hall, hlater⟩ := hsplits.of_taken CtrlFrame.prefixFree htaken
  refine ⟨frames, later, more, hall ▸ hframed, ?_, by rw [hlater, List.append_nil], hmore⟩
  rw [hdispatched, List.length_map]

theorem CtrlChannelInvariant.count_le (h : CtrlChannelInvariant rpcrypt start c) :
    (ctrlDispatched c.receiver.log).length ≤ c.sent.length := by
  obtain ⟨frames, later, -, hframed, hlen, -⟩ := h.split
  rw [hframed.length_eq, List.length_append, ← hlen]
  exact Nat.le_add_right ..

theorem CtrlChannelInvariant.send (h : CtrlChannelInvariant rpcrypt start c) (type : UInt16)
    {payload : Bytes} (hsize : payload.length ≤ ctrlPayloadSizeMax)
    (hok : ctrlMessageSendSucceeds rpcrypt c.sender payload = true) :
    CtrlChannelInvariant rpcrypt start { c with
      sender := ctrlMessageSend rpcrypt c.sender type.toNat payload
      sent := c.sent ++ [(⟨type.toNat, payload⟩,
        (ctrlMessageSend rpcrypt c.sender type.toNat payload).cryptCounterLocal)] } := by
  obtain ⟨f, hlog, hf, hcounter⟩ := ctrlMessageSend_frame type hsize hok
  obtain ⟨frames, hframed, hwire⟩ := h.framed
  have hwire' : ((ctrlMessageSend rpcrypt c.sender type.toNat payload).log.filterMap
      CtrlEvent.bytes?).reverse.flatten = c.wire ++ f.encode := by
    rw [hlog, CtrlChannel.wire]
    simp [CtrlEvent.bytes?]
  refine ⟨h.framing, h.goesOn, ?_, ⟨frames ++ [f], ?_, ?_⟩, ?_, ?_, ?_, h.remote⟩
  · show c.receiver.received <+: _
    rw [CtrlChannel.wire, hwire']
    exact h.arrived.trans (List.prefix_append ..)
  · exact List.rel_append hframed (.cons hf .nil)
  · rw [CtrlChannel.wire, hwire', hwire, List.flatMap_append, List.flatMap_singleton]
  · rw [List.map_append, ctrlCounted_append, ← h.counted, ← h.counter, hcounter]
    rfl
  · rw [List.map_append, ctrlCounter_append, ← h.counter, hcounter]
    rfl
  · rw [List.take_append_of_le_length h.count_le]
    exact h.dispatched

/-! ### Receiving -/

/-- The header in the buffer is the one of the next message, and so is the payload once it is
there. -/
theorem CtrlChannelInvariant.header (h : CtrlChannelInvariant rpcrypt start c)
    (h8 : 8 ≤ c.receiver.recvBufSize) :
    ∃ x f, c.sent[(ctrlDispatched c.receiver.log).length]? = some x ∧ CtrlFramed rpcrypt x f ∧
      c.receiver.payloadSize = f.payload.length ∧
      u16At c.receiver.recvBuf.toList 4 = x.1.type ∧
      (8 + f.payload.length ≤ c.receiver.recvBufSize →
        slice c.receiver.recvBuf.toList 8 f.payload.length = f.payload) := by
  obtain ⟨frames, later, more, hframed, hcount, hlater, -⟩ := h.split
  have hlen := length_pending h.framing.size
  cases later with
  | nil =>
    have hnil := congrArg List.length hlater
    rw [List.length_append, hlen, List.flatMap_nil, List.length_nil] at hnil
    omega
  | cons f later =>
    rw [List.flatMap_cons] at hlater
    have hk : frames.length < c.sent.length := by
      rw [hframed.length_eq, List.length_append, List.length_cons]
      omega
    have hf := hframed.get hk (by rw [List.length_append, List.length_cons]; omega)
    simp only [List.get_eq_getElem, List.getElem_append_right (Nat.le_refl _), Nat.sub_self,
      List.getElem_cons_zero] at hf
    refine ⟨c.sent[frames.length], f, ?_, hf, ?_, ?_, fun hwhole => ?_⟩
    · rw [← hcount, List.getElem?_eq_getElem hk]
    · rw [← u32At_pending h8, ← u32At_append (by omega) more, hlater, CtrlFrame.u32At_encode]
    · rw [← u16At_pending h8, ← u16At_append (by omega) more, hlater, u16At_append, f.u16At_encode,
        hf.type]
      rw [f.length_encode]
      omega
    · have hpayload := f.length_encode
      rw [← slice_pending hwhole, ← slice_append (by omega) more, hlater, slice_append (by omega)]
      show (f.payload).take f.payload.length = f.payload
      exact List.take_length

/-- So its length is in range. -/
theorem CtrlChannelInvariant.headerBounded (h : CtrlChannelInvariant rpcrypt start c)
    (l : CtrlLabel n) : headerBounded c.receiver l = true := by
  cases l with
  | round =>
    rcases Nat.lt_or_ge c.receiver.recvBufSize 8 with hlt | h8
    · simp only [Chiaki.headerBounded, decide_eq_true hlt, Bool.true_or]
    · obtain ⟨x, f, -, hf, hsize, -⟩ := h.header h8
      have hle := hf.length_le
      unfold ctrlPayloadSizeMax at hle
      have hlt : c.receiver.payloadSize < 2 ^ 32 - 8 := by omega
      simp only [Chiaki.headerBounded, decide_eq_true hlt, Bool.or_true]
  | _ => rfl

theorem CtrlChannelInvariant.frameSize_eq (h : CtrlChannelInvariant rpcrypt start c)
    (h8 : 8 ≤ c.receiver.recvBufSize) : c.receiver.frameSize = 8 + c.receiver.payloadSize ∧
      8 + c.receiver.payloadSize ≤ ctrlRecvBufSize := by
  obtain ⟨x, f, -, hf, hsize, -⟩ := h.header h8
  have hle := hf.length_le
  unfold ctrlPayloadSizeMax at hle
  unfold Ctrl.frameSize ctrlRecvBufSize
  omega

/-- **A whole frame is dispatched as the message that was sent.** -/
theorem CtrlChannelInvariant.roundMessage (hundoes : rpcrypt.Undoes)
    (h : CtrlChannelInvariant rpcrypt start c) (hpc : c.receiver.thread = .loop)
    (h8 : 8 ≤ c.receiver.recvBufSize) (hwhole : c.receiver.frameSize ≤ c.receiver.recvBufSize) :
    ∃ x, c.sent[(ctrlDispatched c.receiver.log).length]? = some x ∧
      ctrlRoundMessage rpcrypt c.receiver = some x.1 ∧
      x.2 = ctrlCounterAfter c.receiver.cryptCounterRemote x.1 := by
  obtain ⟨x, f, hx, hf, hsize, htype, hslice⟩ := h.header h8
  obtain ⟨hframe, hfits⟩ := h.frameSize_eq h8
  have hcounter := snd_of_ctrlCounted h.counted hx
  rw [← h.dispatched, ← h.remote (by rw [hpc]; rfl)] at hcounter
  refine ⟨x, hx, ctrlRoundMessage_iff.mpr ⟨h8, hwhole, htype.symm, ?_⟩, hcounter⟩
  unfold ctrlMessagePlain
  by_cases hempty : x.1.payload = []
  · have hzero : c.receiver.payloadSize = 0 := by rw [hsize, hf.length, hempty, List.length_nil]
    rw [if_pos hzero, hempty]
  · have hpos : c.receiver.payloadSize ≠ 0 := by
      rw [hsize, hf.length]
      exact fun hlen => hempty (List.length_eq_zero_iff.mp hlen)
    obtain ⟨counter, hsnd, henc⟩ := hf.payload hempty
    rw [hsnd, ctrlCounterAfter, if_neg hempty] at hcounter
    have hdecrypt := hundoes _ _ _ henc
    rw [Nat.succ.inj hcounter] at hdecrypt
    rw [if_neg hpos, if_neg (Nat.not_lt.mpr hfits), hsize, hslice (by omega), hdecrypt]

theorem CtrlDispatched.count (hd : CtrlDispatched s s') :
    (ctrlDispatched s'.log).length = (ctrlDispatched s.log).length + 1 := by
  obtain ⟨events, hlog, hevents⟩ := hd.log
  rw [hlog, ctrlDispatched_append hevents]
  simp [ctrlDispatched, Ctrl.dispatch, CtrlEvent.message?]

/-- A round that finds no whole frame. -/
theorem CtrlChannelInvariant.waits (h : CtrlChannelInvariant rpcrypt start c)
    (hpart : ¬ (8 ≤ c.receiver.recvBufSize ∧ c.receiver.frameSize ≤ c.receiver.recvBufSize)) :
    ctrlRound rpcrypt c.receiver = { c.receiver with thread := .select } := by
  rcases ctrlRound_move rpcrypt c.receiver with ⟨hs', -⟩ | ⟨-, h8, hbig⟩ | ⟨hd, -⟩ | ⟨hd, -⟩
  · exact hs'
  · obtain ⟨hframe, hfits⟩ := h.frameSize_eq h8
    omega
  · exact absurd ⟨hd.header, hd.complete⟩ hpart
  · exact absurd ⟨hd.header, hd.complete⟩ hpart

theorem CtrlChannelInvariant.round (hundoes : rpcrypt.Undoes)
    (h : CtrlChannelInvariant rpcrypt start c) (hpc : c.receiver.thread = .loop)
    (haccepted : ctrlRoundAccepted rpcrypt c.receiver = true) :
    CtrlChannelInvariant rpcrypt start { c with
      receiver := ctrlRound rpcrypt c.receiver
      dispatched := c.dispatched ++ ((ctrlRoundMessage rpcrypt c.receiver).map fun message =>
        (message, (ctrlRound rpcrypt c.receiver).cryptCounterRemote)).toList } := by
  have hframing : CtrlFramingInvariant (ctrlRound rpcrypt c.receiver) :=
    h.framing.round hpc (h.headerBounded .round)
  by_cases hwhole : 8 ≤ c.receiver.recvBufSize ∧ c.receiver.frameSize ≤ c.receiver.recvBufSize
  · obtain ⟨x, hx, hmsg, hsnd⟩ := h.roundMessage hundoes hpc hwhole.1 hwhole.2
    have hsize := h.framing.size
    have hframe := (h.frameSize_eq hwhole.1).1
    obtain ⟨hthread, hremote⟩ := ctrlRound_accepted hmsg haccepted (by omega)
    have hd : CtrlDispatched c.receiver (ctrlRound rpcrypt c.receiver) := by
      rcases ctrlRound_move rpcrypt c.receiver with ⟨-, hshort⟩ | ⟨-, -, hbig⟩ | ⟨hd, -⟩ | ⟨hd, -⟩
      · omega
      · omega
      · exact hd
      · exact hd
    have hdispatched : c.dispatched ++ [(x.1, (ctrlRound rpcrypt c.receiver).cryptCounterRemote)]
        = c.sent.take ((ctrlDispatched c.receiver.log).length + 1) := by
      rw [List.take_add_one, hx, ← h.dispatched, hremote]
      exact congrArg (fun counter => c.dispatched ++ [(x.1, counter)]) hsnd.symm
    rw [hmsg]
    refine ⟨hframing, ?_, ?_, h.framed, h.counted, h.counter, ?_, fun _ => ?_⟩
    · show (ctrlRound rpcrypt c.receiver).thread.isFault = false ∧
        (ctrlRound rpcrypt c.receiver).thread ≠ .overflow
      rw [hthread]
      exact h.goesOn
    · show (ctrlRound rpcrypt c.receiver).received <+: c.wire
      rw [hd.received]
      exact h.arrived
    · show _ = c.sent.take (ctrlDispatched (ctrlRound rpcrypt c.receiver).log).length
      rw [hd.count]
      exact hdispatched
    · show (ctrlRound rpcrypt c.receiver).cryptCounterRemote
        = ctrlCounter start ((c.dispatched ++ [(x.1, _)]).map Prod.fst)
      rw [hremote, h.remote (by rw [hpc]; rfl), List.map_append, ctrlCounter_append]
      rfl
  · have hmsg : ctrlRoundMessage rpcrypt c.receiver = none := by
      cases hmsg : ctrlRoundMessage rpcrypt c.receiver with
      | none => rfl
      | some message =>
        obtain ⟨h8, hcomplete, -⟩ := ctrlRoundMessage_iff.mp hmsg
        exact absurd ⟨h8, hcomplete⟩ hwhole
    rw [h.waits hwhole] at hframing ⊢
    rw [hmsg]
    refine ⟨hframing, ⟨rfl, CtrlPc.noConfusion⟩, h.arrived, h.framed, h.counted, h.counter, ?_,
      fun _ => ?_⟩
    · rw [Option.map_none, Option.toList_none, List.append_nil]
      exact h.dispatched
    · rw [Option.map_none, Option.toList_none, List.append_nil]
      exact h.remote (by rw [hpc]; rfl)

/-! ### Other steps of the receiver -/

/-- Nothing is dispatched. -/
structure CtrlQuiet (s : Ctrl n) (l : CtrlLabel n) (s' : Ctrl n) : Prop where
  dispatched : ctrlDispatched s'.log = ctrlDispatched s.log
  isFault : s.thread.isFault = false → s'.thread.isFault = false
  overflow : s.thread ≠ .overflow → s'.thread ≠ .overflow
  remote : s'.thread.receives = true →
    s.thread.receives = true ∧ s'.cryptCounterRemote = s.cryptCounterRemote ∨
      ∃ counter rest, l = .connected counter s'.cryptCounterRemote rest ∧ s.thread = .connecting

theorem ctrlCanceled_quiet {msgQueueUpdated : Bool} (hpc : s.thread = .canceled msgQueueUpdated)
    (l : CtrlLabel n) : CtrlQuiet s l (ctrlCanceled rpcrypt s msgQueueUpdated) := by
  have hreceives : s.thread.receives = true := by rw [hpc]; rfl
  have hsend : ∀ type payload,
      ctrlDispatched (ctrlMessageSend rpcrypt s type payload).log = ctrlDispatched s.log := by
    intro type payload
    obtain ⟨events, hlog, hevents⟩ :=
      (ctrlMessageSend_handled s type payload : CtrlHandled 0 s (ctrlMessageSend rpcrypt s type payload)).log
    rw [hlog, ctrlDispatched_append hevents]
  unfold ctrlCanceled
  split
  · exact ⟨hsend _ _, fun _ => rfl, fun _ => CtrlPc.noConfusion,
      fun _ => .inl ⟨hreceives, ctrlMessageSend_remote ..⟩⟩
  · split
    · exact ⟨hsend _ _, fun _ => rfl, fun _ => CtrlPc.noConfusion,
        fun _ => .inl ⟨hreceives, ctrlMessageSend_remote ..⟩⟩
    · split
      · exact ⟨rfl, fun _ => rfl, fun _ => CtrlPc.noConfusion, fun _ => .inl ⟨hreceives, rfl⟩⟩
      · split
        · exact ⟨rfl, fun _ => rfl, fun _ => CtrlPc.noConfusion, fun _ => .inl ⟨hreceives, rfl⟩⟩
        · exact ⟨rfl, fun _ => rfl, fun _ => CtrlPc.noConfusion, fun _ => .inl ⟨hreceives, rfl⟩⟩

theorem ctrlMove_quiet {l : CtrlLabel n} (hs : CtrlMove rpcrypt s l s') (hl : l ≠ .round) :
    CtrlQuiet s l s' := by
  -- other threads leave the ctrl thread where it is
  have hother : ∀ t : Ctrl n, t.log = s.log → t.thread = s.thread →
      t.cryptCounterRemote = s.cryptCounterRemote → CtrlQuiet s l t := by
    intro t hlog hthread hremote
    refine ⟨by rw [hlog], ?_, ?_, fun hr => .inl ⟨hthread ▸ hr, hremote⟩⟩
    · rw [hthread]
      exact id
    · rw [hthread]
      exact id
  cases hs with
  | start | connectFailed =>
    exact ⟨rfl, fun _ => rfl, fun _ => CtrlPc.noConfusion, fun hr => (by cases hr)⟩
  | @connected counterLocal counterRemote rest hpc =>
    unfold ctrlConnected
    exact ⟨rfl, fun _ => rfl, fun _ => CtrlPc.noConfusion,
      fun _ => .inr ⟨counterLocal, rest, rfl, hpc⟩⟩
  | round => exact absurd rfl hl
  | overflow => exact ⟨rfl, fun _ => rfl, fun _ => CtrlPc.noConfusion, fun hr => (by cases hr)⟩
  | select hpc | reset hpc =>
    exact ⟨rfl, fun _ => rfl, fun _ => CtrlPc.noConfusion, fun _ => .inl ⟨by rw [hpc]; rfl, rfl⟩⟩
  | @lock err hpc =>
    cases err <;>
      exact ⟨rfl, fun _ => rfl, fun _ => CtrlPc.noConfusion, fun _ => .inl ⟨by rw [hpc]; rfl, rfl⟩⟩
  | canceled hpc => exact ctrlCanceled_quiet hpc _
  | recv hpc hrecv =>
    unfold ctrlRecv at hrecv
    split at hrecv
    · split at hrecv
      · cases hrecv
        exact ⟨rfl, fun _ => rfl, fun _ => CtrlPc.noConfusion, fun _ => .inl ⟨by rw [hpc]; rfl, rfl⟩⟩
      · cases hrecv
    · cases hrecv
      exact ⟨rfl, fun _ => rfl, fun _ => CtrlPc.noConfusion, fun hr => (by cases hr)⟩
    · cases hrecv
      exact ⟨rfl, fun _ => rfl, fun _ => CtrlPc.noConfusion, fun hr => (by cases hr)⟩
  | post | signal | setLoginPin | stop => exact hother _ rfl rfl rfl

theorem CtrlChannelInvariant.other (h : CtrlChannelInvariant rpcrypt start c) {l : CtrlLabel n}
    {r : Ctrl n} (hs : ctrlStep rpcrypt c.receiver l = some r) (hl : l ≠ .round)
    (harrives : c.arrives start r l = true) :
    CtrlChannelInvariant rpcrypt start { c with receiver := r } := by
  have hframing := ctrlFramingInvariant_step h.framing (h.headerBounded l) hs
  have hquiet := ctrlMove_quiet (ctrlStep_move hs) hl
  have hprefix : r.received <+: c.wire := by
    unfold CtrlChannel.arrives at harrives
    split at harrives
    · exact List.isPrefixOf_iff_prefix.mp (Bool.and_eq_true_iff.mp harrives).1
    · exact List.isPrefixOf_iff_prefix.mp harrives
  refine ⟨hframing, ⟨hquiet.isFault h.goesOn.1, hquiet.overflow h.goesOn.2⟩, hprefix, h.framed,
    h.counted, h.counter, ?_, fun hr => ?_⟩
  · show c.dispatched = c.sent.take (ctrlDispatched r.log).length
    rw [hquiet.dispatched]
    exact h.dispatched
  · rcases hquiet.remote hr with ⟨hreceives, hremote⟩ | ⟨counter, rest, rfl, hpc⟩
    · exact hremote.trans (h.remote hreceives)
    · -- nothing has been dispatched before the connection is there
      have hlog := h.framing.start (by rw [hpc]; rfl)
      have hnone : c.dispatched = [] := by
        rw [h.dispatched, hlog]
        rfl
      have hstart : r.cryptCounterRemote = start :=
        beq_iff_eq.mp (Bool.and_eq_true_iff.mp harrives).2
      show r.cryptCounterRemote = ctrlCounter start (c.dispatched.map Prod.fst)
      rw [hnone, hstart]
      rfl

/-! ## Every run -/

theorem CtrlChannelInvariant.right (h : CtrlChannelInvariant rpcrypt start c) :
    CtrlChannelRight rpcrypt start c where
  counted := h.counted
  inOrder := by
    rw [h.dispatched]
    exact List.take_prefix ..
  all := by
    intro hwaits hall
    obtain ⟨frames, hframed, hwire⟩ := h.framed
    have hsplits : Splits CtrlFrame.encode c.receiver.received frames [] :=
      ⟨by rw [hall, hwire, List.append_nil], not_whole_of_lt (.inl (by decide))⟩
    have hframing : CtrlFramingRight rpcrypt c.receiver := h.framing.right
    have hcount := congrArg List.length (hframing.all hwaits _ _ hsplits).1
    rw [List.length_map, ← hframed.length_eq] at hcount
    have hdispatched : c.dispatched = c.sent := by
      rw [h.dispatched, hcount, List.take_length]
    refine ⟨hdispatched, ?_⟩
    rw [h.remote (by rw [CtrlPc.receives, hwaits, Bool.or_true]), hdispatched, h.counter]
  goesOn := h.goesOn
  room := by
    intro hwaits
    have := h.framing.waits hwaits
    unfold ctrlRecvBufSize at *
    omega
  terminates := by
    intro hpc
    obtain ⟨k, -, r, hrun, hr⟩ := ctrlRound_terminates rpcrypt c.receiver hpc
    exact ⟨k, r, hrun, hr⟩

theorem ctrlStepMessage_eq_none (s : Ctrl n) {l : CtrlLabel n} (hl : l ≠ .round) :
    ctrlStepMessage rpcrypt s l = none := by
  cases l with
  | round => exact absurd rfl hl
  | _ => rfl

theorem CtrlChannelInvariant.step (hundoes : rpcrypt.Undoes)
    (h : CtrlChannelInvariant rpcrypt start c) {l : CtrlChannelLabel n} {c' : CtrlChannel m n}
    (hclean : ctrlChannelClean rpcrypt c l = true)
    (hs : ctrlChannelStep rpcrypt start c l = some c') : CtrlChannelInvariant rpcrypt start c' := by
  unfold ctrlChannelStep at hs
  cases l with
  | send type payload =>
    simp only at hs
    split at hs
    · next hcond =>
      rw [Bool.and_eq_true, decide_eq_true_eq] at hcond
      cases hs
      exact h.send type hcond.1 hcond.2
    · cases hs
  | receive l =>
    obtain ⟨r, hr, hs⟩ := Option.bind_eq_some_iff.mp hs
    split at hs
    · next harrives =>
      cases hs
      by_cases hl : l = .round
      · subst hl
        cases ctrlStep_move hr with
        | round hpc => exact h.round hundoes hpc hclean
      · rw [ctrlStepMessage_eq_none _ hl, Option.map_none, Option.toList_none, List.append_nil]
        exact h.other hr hl harrives
    · cases hs

theorem ctrlChannelInvariant_invariant (hundoes : rpcrypt.Undoes) (m n start : Nat) :
    ((ctrlChannelLts rpcrypt m n start).restrict fun c l => ctrlChannelClean rpcrypt c l = true).Invariant
      (CtrlChannelInvariant rpcrypt start) where
  init := fun _ h => ctrlChannelInvariant_init h
  step := fun _ _ _ h hs => h.step hundoes hs.1 hs.2

/-- A message that the handler does not take is the last one. -/
theorem not_right_of_refused {l : CtrlChannelLabel n} {c' : CtrlChannel m n}
    (hclean : ctrlChannelClean rpcrypt c l = false)
    (hs : ctrlChannelStep rpcrypt start c l = some c') : ¬ CtrlChannelRight rpcrypt start c' := by
  intro hright
  unfold ctrlChannelClean at hclean
  split at hclean
  · obtain ⟨r, hr, hs⟩ := Option.bind_eq_some_iff.mp hs
    split at hs
    · cases hs
      cases ctrlStep_move hr with
      | round =>
        have hfault := ctrlRound_refused hclean
        rw [hright.goesOn.1] at hfault
        cases hfault
    · cases hs
  · cases hclean

/-- **What is sent through the ctrl channel is dispatched**, in order and in the clear, and the
counters of the two sides stay in step, in every run in which the handlers take the messages; the
round of another message is the last one. -/
theorem ctrl_round_trip (rpcrypt : RPCrypt) (hundoes : rpcrypt.Undoes)
    (hr : ((ctrlChannelLts rpcrypt m n start).restrict
      fun c l => ctrlChannelClean rpcrypt c l = true).Reachable c) :
    CtrlChannelRight rpcrypt start c ∧ ∀ l c', (ctrlChannelLts rpcrypt m n start).step c l c' →
      (CtrlChannelRight rpcrypt start c' ↔ ctrlChannelClean rpcrypt c l = true) := by
  have h := (ctrlChannelInvariant_invariant hundoes m n start).reachable hr
  refine ⟨h.right, fun l c' hs => ⟨fun hright => ?_, fun hclean => (h.step hundoes hclean hs).right⟩⟩
  cases hclean : ctrlChannelClean rpcrypt c l with
  | true => rfl
  | false => exact absurd hright (not_right_of_refused hclean hs)

/-! ### Runs -/

/-- A stream cipher: the keystream is the counter. -/
def counterRPCrypt : RPCrypt where
  encrypt counter plain := .ok (plain.map (· ^^^ UInt8.ofNat (counter + 1)))
  decrypt counter enc := .ok (enc.map (· ^^^ UInt8.ofNat (counter + 1)))
  length_encrypt _ _ _ h := by
    cases h
    exact List.length_map _
  length_decrypt _ _ _ h := by
    cases h
    exact List.length_map _

theorem counterRPCrypt_undoes : counterRPCrypt.Undoes := by
  rintro counter plain _ ⟨⟩
  simp only [counterRPCrypt, List.map_map, Function.comp_def, UInt8.xor_assoc, UInt8.xor_self, UInt8.xor_zero,
    List.map_id']

/-- Both sides, the sender with some counter. -/
def exampleChannel : CtrlChannel 0 0 where
  sender := { ctrlInit ⟨false, false, [], false, false, false, .none⟩ (Vector.replicate _ 0) with
    cryptCounterLocal := 3 }
  receiver := ctrlInit ⟨false, false, [], false, false, false, .none⟩ (Vector.replicate _ 0)
  sent := []
  dispatched := []

theorem exampleChannel_initial : CtrlChannelInitial 3 exampleChannel :=
  ⟨rfl, rfl, ⟨_, _, rfl⟩, rfl, rfl⟩

/-- A PIN request and a login, which arrive in three parts. -/
def loginInParts : List (CtrlChannelLabel 0) :=
  [.send 4 [], .receive .start, .receive (.connected 7 3 [0, 0, 0]), .receive .round, .send 5 [0],
    .receive (.select .success), .receive .lock, .receive (.recv (.data [0, 0, 4, 0, 0, 0, 0, 0, 1])),
    .receive .round, .receive .round, .receive (.select .success), .receive .lock,
    .receive (.recv (.data [0, 5, 0, 0, 4])), .receive .round, .receive .round]

theorem loginInParts_run :
    (Lts.runFun (Lts.guarded (ctrlChannelStep counterRPCrypt 3)
        fun c l => ctrlChannelClean counterRPCrypt c l = true) exampleChannel loginInParts).map
        (fun c => (c.receiver.thread, c.dispatched, c.receiver.cryptCounterRemote))
      = some (.select, [(⟨4, []⟩, 3), (⟨5, [0]⟩, 4)], 4) := by
  decide +kernel

theorem ctrl_round_trip_loginInParts : ∃ c : CtrlChannel 0 0, c.receiver.thread = .select ∧
    c.dispatched = [(⟨4, []⟩, 3), (⟨5, [0]⟩, 4)] ∧ c.receiver.cryptCounterRemote = 4 ∧
    CtrlChannelRight counterRPCrypt 3 c := by
  obtain ⟨c, hrun, hobs⟩ := Option.map_eq_some_iff.mp loginInParts_run
  simp only [Prod.mk.injEq] at hobs
  refine ⟨c, hobs.1, hobs.2.1, hobs.2.2, (ctrl_round_trip counterRPCrypt counterRPCrypt_undoes ?_).1⟩
  exact Lts.Reachable.runGuarded (.init exampleChannel_initial) hrun

/-- An empty message for the keyboard, and one more. -/
def emptyKeyboardOpen : List (CtrlChannelLabel 0) :=
  [.send 0x21 [], .send 0xfe [], .receive .start,
    .receive (.connected 7 3 [0, 0, 0, 0, 0, 0x21, 0, 0, 0, 0, 0, 0, 0, 0xfe, 0, 0]), .receive .round]

theorem emptyKeyboardOpen_run :
    (Lts.runFun (ctrlChannelStep counterRPCrypt 3) exampleChannel emptyKeyboardOpen).map
        (fun c => (c.receiver.thread, c.sent.map Prod.fst, c.dispatched.map Prod.fst,
          decide (c.receiver.received = c.wire)))
      = some (.fault .assertion, [⟨0x21, []⟩, ⟨0xfe, []⟩], [⟨0x21, []⟩], true) := by
  decide +kernel

/-- Behind a fault nothing is dispatched any more. -/
theorem ctrlChannelStep_fault {l : CtrlChannelLabel n} {c' : CtrlChannel m n}
    (hfault : c.receiver.thread.isFault = true)
    (hs : ctrlChannelStep rpcrypt start c l = some c') :
    c'.receiver.thread.isFault = true ∧ c'.dispatched = c.dispatched := by
  unfold ctrlChannelStep at hs
  cases l with
  | send =>
    simp only at hs
    split at hs <;> cases hs
    exact ⟨hfault, rfl⟩
  | receive l =>
    obtain ⟨r, hr, hs⟩ := Option.bind_eq_some_iff.mp hs
    split at hs
    · cases hs
      cases ctrlStep_move hr with
      | signal => exact ⟨hfault, List.append_nil _⟩
      | post | setLoginPin | stop => exact ⟨hfault, List.append_nil _⟩
      | start hpc | connected hpc | connectFailed hpc | round hpc | overflow hpc | select hpc
      | lock hpc | canceled hpc | reset hpc | recv hpc =>
        rw [hpc] at hfault
        cases hfault
    · cases hs

/-- **An empty message for the keyboard ends the receiver**, and the message behind it is never
dispatched. -/
theorem not_ctrl_round_trip : ∃ c : CtrlChannel 0 0, (ctrlChannelLts counterRPCrypt 0 0 3).Reachable c ∧
    c.sent.map Prod.fst = [⟨0x21, []⟩, ⟨0xfe, []⟩] ∧ c.receiver.received = c.wire ∧
    ∀ c', (Lts.ofFun (· = c) (ctrlChannelStep counterRPCrypt 3)).Reachable c' →
      c'.dispatched.map Prod.fst = [⟨0x21, []⟩] := by
  obtain ⟨c, hrun, hobs⟩ := Option.map_eq_some_iff.mp emptyKeyboardOpen_run
  simp only [Prod.mk.injEq, decide_eq_true_eq] at hobs
  obtain ⟨hpc, hsent, hdispatched, hreceived⟩ := hobs
  refine ⟨c, Lts.Reachable.runFun (.init exampleChannel_initial) hrun, hsent, hreceived, ?_⟩
  intro c' hc'
  have hinv : (Lts.ofFun (· = c) (ctrlChannelStep counterRPCrypt 3)).Invariant fun c' =>
      c'.receiver.thread.isFault = true ∧ c'.dispatched = c.dispatched := by
    refine ⟨?_, fun t l t' ht hs => ?_⟩
    · rintro _ rfl
      exact ⟨by rw [hpc]; rfl, rfl⟩
    · obtain ⟨hfault, hsame⟩ := ctrlChannelStep_fault ht.1 hs
      exact ⟨hfault, hsame.trans ht.2⟩
  rw [(hinv.reachable hc').2]
  exact hdispatched

end Chiaki
