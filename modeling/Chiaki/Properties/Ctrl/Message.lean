import Chiaki.Ctrl.Thread
import Chiaki.Properties.Takion.Packet

/-!
# What handling a message changes

No handler touches what other threads post, nor any byte of `recv_buf` but those of the payload
(`ctrlMessageReceived_handled`). So a round of the loop over the frames has one of four outcomes
(`ctrlRound_move`).
-/

namespace Chiaki

variable {n : Nat} {rpcrypt : RPCrypt} {s s' s'' : Ctrl n} {size : Nat}

/-! ## The receive buffer -/

namespace CtrlRecvBuf

variable {buf : CtrlRecvBuf} {off src m i : Nat} {data : Bytes}

theorem getElem?_write (hi : i < ctrlRecvBufSize) : (buf.write off data).toList[i]?
    = if off ≤ i ∧ i < off + data.length then data[i - off]? else buf.toList[i]? := by
  simp only [write, Vector.getElem?_toList, Vector.getElem?_ofFn, dif_pos hi]
  split
  · next hin =>
    rw [List.getElem?_eq_getElem (show i - off < data.length by omega), List.getD_eq_getElem?_getD,
      List.getElem?_eq_getElem (show i - off < data.length by omega)]
    rfl
  · rw [Vector.getElem?_eq_getElem hi]
    rfl

theorem getElem?_memmove (hfit : src + m ≤ ctrlRecvBufSize) (hi : i < m) :
    (buf.memmove src m).toList[i]? = buf.toList[src + i]? := by
  have hlt : src + i < buf.toList.length := by
    rw [Vector.length_toList]
    omega
  simp only [memmove, Vector.getElem?_toList, Vector.getElem?_ofFn,
    dif_pos (show i < ctrlRecvBufSize by omega), if_pos hi]
  rw [List.getD_eq_getElem?_getD, List.getElem?_eq_getElem hlt, ← Vector.getElem?_toList,
    List.getElem?_eq_getElem hlt]
  rfl

end CtrlRecvBuf

/-! ## Frames of the handlers -/

def CtrlEvent.isDispatch : CtrlEvent → Bool
  | .dispatch .. => true
  | _ => false

/-- What the other threads post, and what they wait for. -/
structure CtrlNotif (n : Nat) where
  shouldStop : Bool
  loginPinEntered : Bool
  msgQueue : List CtrlMessage
  notifPipe : Bool
  callers : Fin n → Option CtrlMessage

def Ctrl.notif (s : Ctrl n) : CtrlNotif n where
  shouldStop := s.shouldStop
  loginPinEntered := s.loginPinEntered
  msgQueue := s.msgQueue
  notifPipe := s.notifPipe
  callers := s.callers

/-- What a handler may do to a message with a payload of some size. -/
structure CtrlHandled (size : Nat) (s s' : Ctrl n) : Prop where
  notif : s'.notif = s.notif
  thread : s'.thread = s.thread
  recvBufSize : s'.recvBufSize = s.recvBufSize
  received : s'.received = s.received
  recvBuf : ∀ i, i < 8 ∨ 8 + size ≤ i → s'.recvBuf.toList[i]? = s.recvBuf.toList[i]?
  log : ∃ events, s'.log = events ++ s.log ∧ ∀ e ∈ events, e.isDispatch = false

/-- Nothing happened but to other fields. -/
theorem CtrlHandled.of_same (hnotif : s'.notif = s.notif) (hthread : s'.thread = s.thread)
    (hsize : s'.recvBufSize = s.recvBufSize) (hreceived : s'.received = s.received)
    (hbuf : s'.recvBuf = s.recvBuf) (hlog : s'.log = s.log) : CtrlHandled size s s' :=
  ⟨hnotif, hthread, hsize, hreceived, fun _ _ => by rw [hbuf], [], hlog,
    fun _ he => absurd he List.not_mem_nil⟩

theorem CtrlHandled.refl (s : Ctrl n) : CtrlHandled size s s := .of_same rfl rfl rfl rfl rfl rfl

theorem CtrlHandled.trans (h : CtrlHandled size s s') (h' : CtrlHandled size s' s'') :
    CtrlHandled size s s'' := by
  obtain ⟨events, hlog, hevents⟩ := h.log
  obtain ⟨events', hlog', hevents'⟩ := h'.log
  refine ⟨h'.notif.trans h.notif, h'.thread.trans h.thread, h'.recvBufSize.trans h.recvBufSize,
    h'.received.trans h.received, fun i hi => (h'.recvBuf i hi).trans (h.recvBuf i hi),
    events' ++ events, ?_, fun e he => ?_⟩
  · rw [hlog', hlog, List.append_assoc]
  · rcases List.mem_append.mp he with he | he
    · exact hevents' e he
    · exact hevents e he

/-- Something happened that is not a dispatch. -/
theorem CtrlHandled.event {e : CtrlEvent} (he : e.isDispatch = false) :
    CtrlHandled size s { s with log := e :: s.log } :=
  ⟨rfl, rfl, rfl, rfl, fun _ _ => rfl, [e], rfl, fun x hx => by
    rw [List.mem_singleton] at hx
    rw [hx, he]⟩

theorem CtrlHandled.of_recvBuf {buf : CtrlRecvBuf}
    (h : ∀ i, i < 8 ∨ 8 + size ≤ i → buf.toList[i]? = s.recvBuf.toList[i]?) :
    CtrlHandled size s { s with recvBuf := buf } :=
  ⟨rfl, rfl, rfl, rfl, h, [], rfl, fun _ he => absurd he List.not_mem_nil⟩

/-- Bytes of the payload are overwritten. -/
theorem CtrlHandled.write {off : Nat} {data : Bytes} (hoff : 8 ≤ off)
    (hfit : off + data.length ≤ 8 + size) :
    CtrlHandled size s { s with recvBuf := s.recvBuf.write off data } := by
  refine .of_recvBuf fun i hi => ?_
  rcases Nat.lt_or_ge i ctrlRecvBufSize with hlt | hge
  · rw [CtrlRecvBuf.getElem?_write hlt, if_neg (by omega)]
  · have hnone : ∀ buf : CtrlRecvBuf, buf.toList[i]? = none := fun buf =>
      List.getElem?_eq_none (by rw [Vector.length_toList]; exact hge)
    rw [hnone, hnone]

theorem ctrlMessageSend_handled (s : Ctrl n) (type : Nat) (payload : Bytes) :
    CtrlHandled size s (ctrlMessageSend rpcrypt s type payload) := by
  unfold ctrlMessageSend
  split
  · exact .event rfl
  · have hcounter : CtrlHandled size s { s with cryptCounterLocal := s.cryptCounterLocal + 1 } :=
      .of_same rfl rfl rfl rfl rfl rfl
    split
    · exact hcounter
    · exact hcounter.trans (.event rfl)

theorem CtrlHandled.send {type : Nat} {payload : Bytes} (h : CtrlHandled size s s') :
    CtrlHandled size s (ctrlMessageSend rpcrypt s' type payload) :=
  h.trans (ctrlMessageSend_handled s' type payload)

theorem ctrlEnableOptionalFeatures_handled (s : Ctrl n) :
    CtrlHandled size s (ctrlEnableOptionalFeatures rpcrypt s) := by
  unfold ctrlEnableOptionalFeatures
  have hdualsense : CtrlHandled size s (if s.session.enableDualsense
      then ctrlMessageSend rpcrypt s 0x13 [0x00, 0x40, 0x00] else s) := by
    split
    · exact (CtrlHandled.refl s).send
    · exact .refl s
  simp only
  generalize (if s.session.enableDualsense
      then ctrlMessageSend rpcrypt s 0x13 [0x00, 0x40, 0x00] else s) = s1 at hdualsense ⊢
  split
  · exact hdualsense.send.send.send.send
  · exact hdualsense

theorem ctrlMessageReceivedSessionId_handled {payload : Bytes}
    (h : ctrlMessageReceivedSessionId s payload = .ok s') : CtrlHandled size s s' := by
  unfold ctrlMessageReceivedSessionId at h
  split at h
  · cases h
    exact .refl s
  · split at h
    · split at h <;> cases h
      exact .refl s
    · simp only at h
      split at h
      · cases h
        exact .refl s
      · split at h
        · cases h
          exact .refl s
        · cases h
          exact .of_same rfl rfl rfl rfl rfl rfl

theorem ctrlMessageReceivedLoginPinReq_handled (s : Ctrl n) :
    CtrlHandled size s (ctrlMessageReceivedLoginPinReq s) :=
  .of_same rfl rfl rfl rfl rfl rfl

theorem ctrlMessageReceivedLogin_handled (s : Ctrl n) (payload : Bytes) :
    CtrlHandled size s (ctrlMessageReceivedLogin s payload) := by
  unfold ctrlMessageReceivedLogin
  split
  · exact .refl s
  · split
    · exact .of_same rfl rfl rfl rfl rfl rfl
    · split
      · exact .of_same rfl rfl rfl rfl rfl rfl
      · exact .refl s

/-- The length lies inside of the payload, so swapping it does not touch anything else. -/
theorem ctrlMessageText_handled {payload : Bytes} {off textSize : Nat} {text : Option Bytes}
    (hoff : off + 4 ≤ textSize) (h : ctrlMessageText s payload textSize off = .ok (s', text)) :
    CtrlHandled payload.length s s' := by
  unfold ctrlMessageText at h
  split at h
  · cases h
  · next hsize =>
    simp only at h
    split at h
    · cases h
    · cases h
      have hlen : (slice payload off 4).reverse.length = 4 := by
        rw [List.length_reverse, length_slice (by omega)]
      exact .write (Nat.le_add_right 8 off) (by rw [hlen]; omega)

theorem ctrlMessageHandle_handled {msgType : Nat} {payload : Bytes}
    (h : ctrlMessageHandle rpcrypt s msgType payload = .ok s') : CtrlHandled payload.length s s' := by
  unfold ctrlMessageHandle at h
  split at h
  · cases hid : ctrlMessageReceivedSessionId s payload with
    | error f =>
      rw [hid] at h
      cases h
    | ok s1 =>
      rw [hid] at h
      cases h
      exact (ctrlMessageReceivedSessionId_handled hid).trans (ctrlEnableOptionalFeatures_handled s1)
  · cases h
    exact ctrlMessageSend_handled _ _ _
  · cases h
    exact ctrlMessageReceivedLoginPinReq_handled s
  · cases h
    exact ctrlMessageReceivedLogin_handled s payload
  · unfold ctrlMessageReceivedKeyboardOpen at h
    cases htext : ctrlMessageText s payload ctrlKeyboardOpenMessageSize 0x1c with
    | error f =>
      rw [htext] at h
      cases h
    | ok r =>
      rw [htext] at h
      cases h
      exact (ctrlMessageText_handled (by decide) htext).trans (.event rfl)
  · unfold ctrlMessageReceivedKeyboardTextChange at h
    cases htext : ctrlMessageText s payload ctrlKeyboardTextResponseMessageSize 8 with
    | error f =>
      rw [htext] at h
      cases h
    | ok r =>
      rw [htext] at h
      cases h
      exact (ctrlMessageText_handled (by decide) htext).trans (.event rfl)
  · cases h
    exact .event rfl
  · cases h
    exact .refl s

/-- **Handling a message changes nothing but its own payload**, apart from the session and from
what is sent. -/
theorem ctrlMessageReceived_handled {msgType payloadSize : Nat}
    (h : ctrlMessageReceived rpcrypt s msgType payloadSize = .ok s') :
    CtrlHandled payloadSize s s' := by
  unfold ctrlMessageReceived at h
  split at h
  · next hzero =>
    rw [hzero]
    exact ctrlMessageHandle_handled h
  · split at h
    · cases h
    · next hfit =>
      simp only at h
      split at h
      · cases h
        exact .of_same rfl rfl rfl rfl rfl rfl
      · next plain hplain =>
        have hlen : plain.length = payloadSize := by
          rw [rpcrypt.length_decrypt _ _ _ hplain, length_slice]
          rw [Vector.length_toList]
          omega
        have hhandle := ctrlMessageHandle_handled h
        rw [hlen] at hhandle
        refine CtrlHandled.trans ?_ hhandle
        have hwrite : CtrlHandled payloadSize s { s with recvBuf := s.recvBuf.write 8 plain } :=
          .write (Nat.le_refl 8) (by rw [hlen])
        exact ⟨hwrite.notif, hwrite.thread, hwrite.recvBufSize, hwrite.received, hwrite.recvBuf,
          hwrite.log⟩

/-! ## A round of the loop -/

/-- The payload size in the header at the beginning of `recv_buf`. -/
def Ctrl.payloadSize (s : Ctrl n) : Nat := u32At s.recvBuf.toList 0

/-- `8 + payload_size` in 32 bits. -/
def Ctrl.frameSize (s : Ctrl n) : Nat := (8 + s.payloadSize) % 2 ^ 32

/-- The call of `ctrl_message_received` for the message at the beginning of `recv_buf`. -/
def Ctrl.dispatch (s : Ctrl n) : CtrlEvent :=
  .dispatch s.recvBufSize (u16At s.recvBuf.toList 4) s.payloadSize
    (slice s.recvBuf.toList 8 s.payloadSize)

/-- The message was dispatched, and nothing else that matters to others happened. -/
structure CtrlDispatched (s s' : Ctrl n) : Prop where
  header : 8 ≤ s.recvBufSize
  complete : s.frameSize ≤ s.recvBufSize
  notif : s'.notif = s.notif
  recvBufSize_le : s'.recvBufSize ≤ s.recvBufSize
  received : s'.received = s.received
  log : ∃ events, s'.log = events ++ s.dispatch :: s.log ∧ ∀ e ∈ events, e.isDispatch = false

/-- What a round of the loop does. -/
inductive CtrlRoundMove (s s' : Ctrl n) : Prop
  | wait (hs' : s' = { s with thread := .select })
      (h : s.recvBufSize < 8 ∨ s.recvBufSize < s.frameSize ∧ s.frameSize ≤ ctrlRecvBufSize)
  | overflow (hs' : s' = { s with thread := .overflow }) (header : 8 ≤ s.recvBufSize)
      (h : ctrlRecvBufSize < s.frameSize)
  | fault (h : CtrlDispatched s s') (f : Fault) (hthread : s'.thread = .fault f)
  | consumed (h : CtrlDispatched s s') (hthread : s'.thread = s.thread)
      (hfits : 8 + s.payloadSize ≤ ctrlRecvBufSize)
      (hsize : s'.recvBufSize = s.recvBufSize - s.frameSize)
      (hbuf : ∀ i, i < s'.recvBufSize →
        s'.recvBuf.toList[i]? = s.recvBuf.toList[8 + s.payloadSize + i]?)

/-- A message that was handled had its payload in the buffer. -/
theorem ctrlMessageReceived_fits {msgType payloadSize : Nat}
    (h : ctrlMessageReceived rpcrypt s msgType payloadSize = .ok s') :
    8 + payloadSize ≤ ctrlRecvBufSize := by
  unfold ctrlMessageReceived at h
  split at h
  · next hzero =>
    rw [hzero]
    decide
  · split at h
    · cases h
    · next hfit => exact Nat.not_lt.mp hfit

theorem ctrlRound_move (rpcrypt : RPCrypt) (s : Ctrl n) : CtrlRoundMove s (ctrlRound rpcrypt s) := by
  unfold ctrlRound
  split
  · next hshort => exact .wait rfl (Or.inl hshort)
  · next hheader =>
    simp only
    split
    · next hpart =>
      split
      · next hbig => exact .overflow rfl (Nat.not_lt.mp hheader) hbig
      · next hsmall => exact .wait rfl (Or.inr ⟨hpart, Nat.not_lt.mp hsmall⟩)
    · next hwhole =>
      split
      · next f hmsg =>
        exact .fault ⟨Nat.not_lt.mp hheader, Nat.not_lt.mp hwhole, rfl, Nat.le_refl _, rfl, [], rfl,
          fun _ he => absurd he List.not_mem_nil⟩ f rfl
      · next s1 hmsg =>
        have hh := ctrlMessageReceived_handled hmsg
        have hfits := ctrlMessageReceived_fits hmsg
        have hd : ∀ k buf pc, CtrlDispatched s
            { s1 with recvBufSize := s1.recvBufSize - k, recvBuf := buf, thread := pc } :=
          fun k _ _ => ⟨Nat.not_lt.mp hheader, Nat.not_lt.mp hwhole, hh.notif,
            hh.recvBufSize ▸ Nat.sub_le _ _, hh.received, hh.log⟩
        split
        · next hzero =>
          refine .consumed (hd _ _ _) hh.thread hfits ?_ ?_
          · show s1.recvBufSize - _ = _
            rw [hh.recvBufSize]
            rfl
          · intro i hi
            rw [show s1.recvBufSize - _ = 0 from hzero] at hi
            exact absurd hi (Nat.not_lt_zero i)
        · split
          · exact .fault (hd _ _ _) .outOfBounds rfl
          · next hin =>
            refine .consumed (hd _ _ _) hh.thread hfits ?_ ?_
            · show s1.recvBufSize - _ = _
              rw [hh.recvBufSize]
              rfl
            · intro i hi
              replace hi : i < s1.recvBufSize - (8 + u32At s.recvBuf.toList 0) % 2 ^ 32 := hi
              rw [CtrlRecvBuf.getElem?_memmove (Nat.not_lt.mp hin) hi]
              exact hh.recvBuf _ (Or.inr (Nat.le_add_right _ _))

/-! ## Moves -/

/-- What a step is, and from where. -/
inductive CtrlMove (rpcrypt : RPCrypt) (s : Ctrl n) : CtrlLabel n → Ctrl n → Prop
  | start : s.thread = .init → CtrlMove rpcrypt s .start
      { s with cryptCounterLocal := 0, cryptCounterRemote := 0, thread := .connecting }
  | connected {counterLocal counterRemote : Nat} {rest : Bytes} : s.thread = .connecting →
      rest.length ≤ ctrlRecvBufSize → CtrlMove rpcrypt s (.connected counterLocal counterRemote rest)
        (ctrlConnected s counterLocal counterRemote rest)
  | connectFailed : s.thread = .connecting →
      CtrlMove rpcrypt s .connectFailed { ctrlFailed s .ctrlConnectFailed with thread := .exited }
  | round : s.thread = .loop → CtrlMove rpcrypt s .round (ctrlRound rpcrypt s)
  | overflow : s.thread = .overflow →
      CtrlMove rpcrypt s .overflow { ctrlFailed s .ctrlUnknown with thread := .exited }
  | select {err : CtrlSelect} : s.thread = .select → (err = .canceled → s.notifPipe = true) →
      (err = .success → s.notifPipe = false) →
      CtrlMove rpcrypt s (.select err) { s with thread := .selected err }
  | lock {err : CtrlSelect} : s.thread = .selected err → CtrlMove rpcrypt s .lock (ctrlLock s err)
  | canceled {msgQueueUpdated : Bool} : s.thread = .canceled msgQueueUpdated →
      CtrlMove rpcrypt s .canceled (ctrlCanceled rpcrypt s msgQueueUpdated)
  | reset : s.thread = .reset →
      CtrlMove rpcrypt s .reset { s with notifPipe := false, thread := .loop }
  | recv {r : CtrlRecv} {s' : Ctrl n} : s.thread = .recv → ctrlRecv s r = some s' →
      CtrlMove rpcrypt s (.recv r) s'
  | post {t : Fin n} {message : CtrlMessage} : s.thread.locked = false →
      CtrlMove rpcrypt s (.post t message) (ctrlPost s t message)
  | signal {t : Fin n} {message : CtrlMessage} : s.callers t = some message →
      CtrlMove rpcrypt s (.signal t) (ctrlSignal s t)
  | setLoginPin {pin : Bytes} : s.thread.locked = false →
      CtrlMove rpcrypt s (.setLoginPin pin) (ctrlSetLoginPin s pin)
  | stop : s.thread.locked = false → CtrlMove rpcrypt s .stop (ctrlStop s)

theorem ctrlSelect_move {err : CtrlSelect} (hpc : s.thread = .select)
    (hs : ctrlSelect s err = some s') : CtrlMove rpcrypt s (.select err) s' := by
  unfold ctrlSelect at hs
  split at hs
  · cases hs
  · cases hs
  · next hcanceled hsuccess =>
    cases hs
    refine .select hpc (fun herr => ?_) (fun herr => ?_)
    · cases hpipe : s.notifPipe with
      | true => rfl
      | false => exact absurd hpipe (hcanceled herr)
    · cases hpipe : s.notifPipe with
      | true => exact absurd hpipe (hsuccess herr)
      | false => rfl

theorem ctrlStep_move {l : CtrlLabel n} (hs : ctrlStep rpcrypt s l = some s') :
    CtrlMove rpcrypt s l s' := by
  unfold ctrlStep at hs
  split at hs
  · split at hs
    · next hpc =>
      cases hs
      exact .start hpc
    · cases hs
  · split at hs
    · next hpc =>
      split at hs
      · next hfit =>
        cases hs
        exact .connected hpc hfit
      · cases hs
    · cases hs
  · split at hs
    · next hpc =>
      cases hs
      exact .connectFailed hpc
    · cases hs
  · split at hs
    · next hpc =>
      cases hs
      exact .round hpc
    · cases hs
  · split at hs
    · next hpc =>
      cases hs
      exact .overflow hpc
    · cases hs
  · split at hs
    · next hpc => exact ctrlSelect_move hpc hs
    · cases hs
  · split at hs
    · next hpc =>
      cases hs
      exact .lock hpc
    · cases hs
  · split at hs
    · next hpc =>
      cases hs
      exact .canceled hpc
    · cases hs
  · split at hs
    · next hpc =>
      cases hs
      exact .reset hpc
    · cases hs
  · split at hs
    · next hpc => exact .recv hpc hs
    · cases hs
  · split at hs
    · next hfree _ =>
      cases hs
      exact .post hfree
    · cases hs
  · split at hs
    · next hcaller =>
      cases hs
      exact .signal hcaller
    · cases hs
  · split at hs
    · cases hs
    · next hfree =>
      cases hs
      exact .setLoginPin (Bool.not_eq_true _ ▸ hfree)
  · split at hs
    · cases hs
    · next hfree =>
      cases hs
      exact .stop (Bool.not_eq_true _ ▸ hfree)

end Chiaki
