import Chiaki.Ctrl.Access
import Chiaki.Properties.Common

/-!
# Which payloads the handlers of ctrl messages can take

* `ctrlMessageSteps_safe_iff` — the messages whose handling stays inside of the payload
* `ctrlMessageHandle_assertion_iff`, `ctrlMessageHandle_of_safe` — the steps are those of the handlers
-/

namespace Chiaki

variable {n : Nat} {rpcrypt : RPCrypt} {s : Ctrl n} {b : CtrlBuild} {received : Bool} {buf : CtrlRecvBuf}
  {msgType payloadSize size off textLength : Nat} {checked : List Nat} {front steps : List PayloadStep}

/-! ## Safe steps -/

/-- No assertion fails, no byte outside of the payload is touched, no sum wraps, and only a length that was
checked is used. `checked` are the lengths that were checked before. -/
def PayloadSafe (payloadSize : Nat) : List Nat → List PayloadStep → Prop
  | _, [] => True
  | checked, .access off size :: rest => off + size ≤ payloadSize ∧ PayloadSafe payloadSize checked rest
  | checked, .assertion holds :: rest => holds = true ∧ PayloadSafe payloadSize checked rest
  | checked, .size sum computed :: rest => computed = sum ∧ PayloadSafe payloadSize checked rest
  | checked, .check textLength :: rest => PayloadSafe payloadSize (textLength :: checked) rest
  | checked, .use textLength :: rest => textLength ∈ checked ∧ PayloadSafe payloadSize checked rest

/-- Accesses inside of the payload can be left out. -/
theorem payloadSafe_append
    (h : ∀ step ∈ front, ∃ off size, step = .access off size ∧ off + size ≤ payloadSize) :
    PayloadSafe payloadSize checked (front ++ steps) ↔ PayloadSafe payloadSize checked steps := by
  induction front with
  | nil => rfl
  | cons step front ih =>
    obtain ⟨hstep, hfront⟩ := List.forall_mem_cons.mp h
    obtain ⟨off, size, rfl, hle⟩ := hstep
    rw [List.cons_append, PayloadSafe, ih hfront]
    exact and_iff_right hle

theorem payloadSafe_of_access
    (h : ∀ step ∈ front, ∃ off size, step = .access off size ∧ off + size ≤ payloadSize) :
    PayloadSafe payloadSize checked front := by
  rw [← List.append_nil front, payloadSafe_append h]
  exact trivial

theorem hexdumpSteps_access {level : CtrlLogLevel} : ∀ step ∈ hexdumpSteps b level payloadSize,
    ∃ off size, step = .access off size ∧ off + size ≤ payloadSize := by
  intro step hstep
  unfold hexdumpSteps at hstep
  split at hstep
  · exact ⟨0, payloadSize, List.mem_singleton.mp hstep, by omega⟩
  · cases hstep

/-! ## Texts -/

/-- A message the text of which is handled safely. Without assertions nothing is checked, and there must not be a
text. -/
def CtrlTextRight (b : CtrlBuild) (buf : CtrlRecvBuf) (payloadSize size off : Nat) : Prop :=
  if b.ndebug then off + 4 ≤ payloadSize ∧ u32At buf.payload off = 0
  else payloadSize = size + u32At buf.payload off

instance : Decidable (CtrlTextRight b buf payloadSize size off) := by
  unfold CtrlTextRight
  infer_instance

/-- A sum that wraps is not the size of the payload. -/
theorem textSum_eq_iff {bits : Nat} (hbits : 32 ≤ bits) (hlen : textLength < 2 ^ 32)
    (hpayload : payloadSize < 2 ^ 32) (hsize : size ≤ payloadSize) :
    payloadSize = (size + textLength) % 2 ^ bits ↔ payloadSize = size + textLength := by
  have hpow : 2 ^ 32 ≤ 2 ^ bits := Nat.pow_le_pow_right (by decide) hbits
  rcases Nat.lt_or_ge (size + textLength) (2 ^ bits) with hlt | hge
  · rw [Nat.mod_eq_of_lt hlt]
  · rw [Nat.mod_eq_sub_mod hge, Nat.mod_eq_of_lt (by omega)]
    omega

/-- A text is copied safely if and only if it is empty, or its length was checked. -/
theorem payloadSafe_copy_iff (hbits : 32 ≤ b.sizeBits) (hpayload : payloadSize < 2 ^ 32) (hsize : 0 < size)
    (hfit : textLength ∈ checked → size + textLength ≤ payloadSize) :
    PayloadSafe payloadSize checked (ctrlTextCopySteps b textLength size)
      ↔ textLength = 0 ∨ textLength ∈ checked := by
  have hpow : 2 ^ 32 ≤ 2 ^ b.sizeBits := Nat.pow_le_pow_right (by decide) hbits
  unfold ctrlTextCopySteps
  rcases Nat.eq_zero_or_pos textLength with rfl | hpos
  · exact ⟨fun _ => .inl rfl, fun _ => trivial⟩
  · rw [if_pos hpos]
    simp only [PayloadSafe]
    constructor
    · rintro ⟨hmem, -⟩
      exact .inr hmem
    · intro h
      have hmem := h.resolve_left (Nat.ne_of_gt hpos)
      have hle := hfit hmem
      refine ⟨hmem, Nat.mod_eq_of_lt (by omega), ?_⟩
      split
      · exact ⟨hle, trivial⟩
      · exact trivial

/-- Which texts are handled safely. -/
theorem ctrlTextSteps_safe_iff (hbits : 32 ≤ b.sizeBits) (hpayload : payloadSize < 2 ^ 32)
    (hoff : off + 4 ≤ size) :
    PayloadSafe payloadSize [] (ctrlTextSteps b buf payloadSize size off)
      ↔ CtrlTextRight b buf payloadSize size off := by
  have hlen : u32At buf.payload off < 2 ^ 32 := u32At_lt _ _
  have hpow : 2 ^ 32 ≤ 2 ^ b.sizeBits := Nat.pow_le_pow_right (by decide) hbits
  unfold ctrlTextSteps CtrlTextRight assertSteps
  cases hndebug : b.ndebug with
  | true =>
    simp only [if_true, PayloadSafe]
    rw [payloadSafe_copy_iff hbits hpayload (by omega) (by nofun)]
    simp only [List.not_mem_nil, or_false]
  | false =>
    simp only [Bool.false_eq_true, if_false, PayloadSafe, decide_eq_true_eq]
    by_cases hsize : size ≤ payloadSize
    · rw [if_pos hsize]
      simp only [PayloadSafe, decide_eq_true_eq, textSum_eq_iff hbits hlen hpayload hsize]
      constructor
      · rintro ⟨-, -, -, heq, -⟩
        exact heq
      · intro heq
        refine ⟨hsize, by omega, Nat.mod_eq_of_lt (by omega), heq, ?_⟩
        rw [if_pos heq, payloadSafe_copy_iff hbits hpayload (by omega) fun _ => Nat.le_of_eq heq.symm]
        exact .inr List.mem_cons_self
    · refine ⟨fun h => absurd h.1 hsize, fun heq => absurd (show size ≤ payloadSize by omega) hsize⟩

/-! ## Other messages -/

/-- A session id that is not logged as a string, or is an empty one. -/
def CtrlSessionIdRight (b : CtrlBuild) (received : Bool) (buf : CtrlRecvBuf) (payloadSize : Nat) : Prop :=
  received = true ∨ 2 ≤ payloadSize ∨ b.logs .error = false ∨ payloadSize = 1 ∧ u8At buf.payload 0 = 0

instance : Decidable (CtrlSessionIdRight b received buf payloadSize) := inferInstanceAs (Decidable (_ ∨ _))

theorem CtrlRecvBuf.length_payload (buf : CtrlRecvBuf) : buf.payload.length = ctrlRecvBufSize - 8 := by
  rw [CtrlRecvBuf.payload, List.length_drop, Vector.length_toList]

/-- The string ends inside of the payload only if that is a zero byte. -/
theorem sessionIdString_iff (hsize : payloadSize < 2) :
    buf.payload.findIdx (· == 0) + 1 ≤ payloadSize ↔ payloadSize = 1 ∧ u8At buf.payload 0 = 0 := by
  obtain ⟨c, rest, hpayload⟩ : ∃ c rest, buf.payload = c :: rest := List.exists_cons_of_length_pos (by
    rw [CtrlRecvBuf.length_payload]
    decide)
  have hzero : u8At (c :: rest) 0 = 0 ↔ c = 0 := UInt8.toNat_inj (b := 0)
  rw [hpayload, hzero, List.findIdx_cons]
  rcases eq_or_ne c 0 with rfl | hne
  · simp only [BEq.rfl, cond_true, and_true]
    omega
  · simp only [beq_eq_false_iff_ne.mpr hne, cond_false, hne, and_false, iff_false]
    omega

theorem ctrlSessionIdSteps_safe_iff : PayloadSafe payloadSize [] (ctrlSessionIdSteps b received buf payloadSize)
    ↔ CtrlSessionIdRight b received buf payloadSize := by
  unfold ctrlSessionIdSteps CtrlSessionIdRight
  cases received with
  | true => exact ⟨fun _ => .inl rfl, fun _ => trivial⟩
  | false =>
    simp only [Bool.false_eq_true, if_false, false_or]
    rcases Nat.lt_or_ge payloadSize 2 with hshort | hlong
    · rw [if_pos hshort]
      cases b.logs .error with
      | false => exact ⟨fun _ => .inr (.inl rfl), fun _ => trivial⟩
      | true =>
        simp only [if_true, PayloadSafe, Nat.zero_add, and_true, sessionIdString_iff hshort]
        simp [Nat.not_le.mpr hshort]
    · rw [if_neg (Nat.not_lt.mpr hlong)]
      refine ⟨fun _ => .inl hlong, fun _ => payloadSafe_of_access fun step hstep => ?_⟩
      rcases List.mem_append.mp hstep with hfirst | hstep
      · rcases List.mem_cons.mp hfirst with rfl | hdump
        · exact ⟨0, 1, rfl, by omega⟩
        · split at hdump
          · exact hexdumpSteps_access step hdump
          · cases hdump
      · split at hstep
        · cases hstep
        · rcases List.mem_cons.mp hstep with rfl | hcopy
          · exact ⟨1, _, rfl, by omega⟩
          · split at hcopy
            · exact ⟨1, _, List.mem_singleton.mp hcopy, by omega⟩
            · cases hcopy

/-- A message whose handling stays inside of the payload. -/
structure CtrlMessageRight (b : CtrlBuild) (received : Bool) (buf : CtrlRecvBuf) (msgType payloadSize : Nat) :
    Prop where
  keyboardOpen : CtrlMessageType.ofNat? msgType = some .keyboardOpen →
    CtrlTextRight b buf payloadSize ctrlKeyboardOpenMessageSize 0x1c
  keyboardTextChange : CtrlMessageType.ofNat? msgType = some .keyboardTextChangeRes →
    CtrlTextRight b buf payloadSize ctrlKeyboardTextResponseMessageSize 8
  sessionId : CtrlMessageType.ofNat? msgType = some .sessionId → CtrlSessionIdRight b received buf payloadSize

/-- **A message is handled safely if and only if the length of its text is the right one, and it is not
a session id that is too short.** -/
theorem ctrlMessageSteps_safe_iff (b : CtrlBuild) (received : Bool) (buf : CtrlRecvBuf) (msgType : Nat)
    (hbits : 32 ≤ b.sizeBits) (hpayload : payloadSize ≤ ctrlRecvBufSize - 8) :
    PayloadSafe payloadSize [] (ctrlMessageSteps b received buf msgType payloadSize)
      ↔ CtrlMessageRight b received buf msgType payloadSize := by
  have hlt : payloadSize < 2 ^ 32 := Nat.lt_of_le_of_lt hpayload (by decide)
  have hopen := @ctrlTextSteps_safe_iff b buf payloadSize ctrlKeyboardOpenMessageSize 0x1c hbits hlt (by decide)
  have hchange := @ctrlTextSteps_safe_iff b buf payloadSize ctrlKeyboardTextResponseMessageSize 8 hbits hlt
    (by decide)
  have hsession := @ctrlSessionIdSteps_safe_iff b received buf payloadSize
  unfold ctrlMessageSteps
  rw [payloadSafe_append]
  · unfold ctrlMessageHandleSteps
    cases htype : CtrlMessageType.ofNat? msgType with
    | none =>
      exact ⟨fun _ => ⟨by simp [htype], by simp [htype], by simp [htype]⟩,
        fun _ => payloadSafe_of_access hexdumpSteps_access⟩
    | some type =>
      cases type with
      | keyboardOpen =>
        exact hopen.trans ⟨fun h => ⟨fun _ => h, by simp [htype], by simp [htype]⟩, fun h => h.keyboardOpen htype⟩
      | keyboardTextChangeRes =>
        exact hchange.trans
          ⟨fun h => ⟨by simp [htype], fun _ => h, by simp [htype]⟩, fun h => h.keyboardTextChange htype⟩
      | sessionId =>
        exact hsession.trans ⟨fun h => ⟨by simp [htype], by simp [htype], fun _ => h⟩, fun h => h.sessionId htype⟩
      | login =>
        refine ⟨fun _ => ⟨by simp [htype], by simp [htype], by simp [htype]⟩, fun _ => ?_⟩
        simp only [ctrlLoginSteps]
        split
        · exact trivial
        · exact ⟨by omega, trivial⟩
      | _ => exact ⟨fun _ => ⟨by simp [htype], by simp [htype], by simp [htype]⟩, fun _ => trivial⟩
  · intro step hstep
    split at hstep
    · rcases List.mem_cons.mp hstep with rfl | hdump
      · exact ⟨0, payloadSize, rfl, by omega⟩
      · exact hexdumpSteps_access step hdump
    · cases hstep

/-- A program with assertions that logs errors, on a machine with 64 bits. -/
def debugBuild : CtrlBuild where
  ndebug := false
  sizeBits := 64
  logs level := level == .error
  malloc _ := true

/-- The keyboard is opened with a text of two characters. -/
def exampleKeyboardOpen : CtrlRecvBuf :=
  CtrlRecvBuf.write (Vector.replicate _ 0) 8 (List.replicate 0x1c 0 ++ be32 2 ++ ascii "hi")

theorem ctrlMessageSteps_safe_iff_keyboardOpen :
    PayloadSafe 0x22 [] (ctrlMessageSteps debugBuild false exampleKeyboardOpen 0x21 0x22) := by
  refine (ctrlMessageSteps_safe_iff debugBuild false exampleKeyboardOpen 0x21 (by decide) (by decide)).mpr
    ⟨fun _ => ?_, by decide, by decide⟩
  decide +kernel

/-- **A keyboard message without a payload fails an assertion**, and if there are no assertions, what is behind it is
taken for its length. -/
theorem not_ctrlMessageSteps_safe :
    ctrlMessageSteps debugBuild false (Vector.replicate _ 0) 0x21 0 = [.assertion false] ∧
    ctrlMessageSteps { debugBuild with ndebug := true } false (Vector.replicate _ 0) 0x21 0 = [.access 0x1c 4] ∧
    ¬ PayloadSafe 0 [] (ctrlMessageSteps debugBuild false (Vector.replicate _ 0) 0x21 0) ∧
    ¬ PayloadSafe 0 [] (ctrlMessageSteps { debugBuild with ndebug := true } false (Vector.replicate _ 0) 0x21 0) := by
  have hassert : ctrlMessageSteps debugBuild false (Vector.replicate _ 0) 0x21 0 = [.assertion false] := by
    decide +kernel
  have haccess : ctrlMessageSteps { debugBuild with ndebug := true } false (Vector.replicate _ 0) 0x21 0
      = [.access 0x1c 4] := by
    decide +kernel
  refine ⟨hassert, haccess, ?_, ?_⟩
  · rw [hassert]
    exact fun h => nomatch h.1
  · rw [haccess]
    exact fun h => absurd h.1 (by decide)

/-! ## The handlers -/

variable {payload : Bytes}

/-- The text behind a message of the right size is taken. -/
theorem ctrlMessageText_ok (h : payload.length = size + u32At payload off) :
    ∃ s' text, ctrlMessageText s payload size off = .ok (s', text) := by
  unfold ctrlMessageText
  rw [if_neg (show ¬ payload.length < size by omega)]
  simp only
  rw [if_neg (not_not.mpr h)]
  exact ⟨_, _, rfl⟩

/-- **The steps are those of the handlers**: with assertions, a message that is handled safely is handled. -/
theorem ctrlMessageHandle_of_safe (hbits : 32 ≤ b.sizeBits) (hndebug : b.ndebug = false)
    (hlogs : b.logs .error = true) (hpayload : payloadSize ≤ ctrlRecvBufSize - 8)
    (hsafe : PayloadSafe payloadSize []
      (ctrlMessageSteps b s.session.ctrlSessionIdReceived s.recvBuf msgType payloadSize)) :
    ∃ s', ctrlMessageHandle rpcrypt s msgType (slice s.recvBuf.toList 8 payloadSize) = .ok s' := by
  obtain ⟨hopen, hchange, hsession⟩ := (ctrlMessageSteps_safe_iff b _ _ msgType hbits hpayload).mp hsafe
  have hlength : (slice s.recvBuf.toList 8 payloadSize).length = payloadSize := length_slice (by
    rw [Vector.length_toList]
    unfold ctrlRecvBufSize at hpayload ⊢
    omega)
  have htext : ∀ size off, off + 4 ≤ size → CtrlTextRight b s.recvBuf payloadSize size off →
      ∃ s' text, ctrlMessageText s (slice s.recvBuf.toList 8 payloadSize) size off = .ok (s', text) := by
    intro size off hoff hright
    rw [CtrlTextRight, hndebug, if_neg (by decide)] at hright
    refine ctrlMessageText_ok ?_
    have hfield : u32At s.recvBuf.payload off = u32At (slice s.recvBuf.toList 8 payloadSize) off := by
      rw [← List.take_append_drop payloadSize s.recvBuf.payload]
      exact u32At_append (by rw [CtrlRecvBuf.payload, ← slice, hlength]; omega) _
    rw [hlength, ← hfield]
    exact hright
  unfold ctrlMessageHandle
  cases htype : CtrlMessageType.ofNat? msgType with
  | none => exact ⟨s, rfl⟩
  | some type =>
    cases type with
    | sessionId =>
      have hok : ∃ s', ctrlMessageReceivedSessionId s (slice s.recvBuf.toList 8 payloadSize) = .ok s' := by
        unfold ctrlMessageReceivedSessionId
        by_cases hreceived : s.session.ctrlSessionIdReceived = true
        · exact ⟨s, if_pos hreceived⟩
        · rw [if_neg hreceived]
          rcases (hsession htype).resolve_left hreceived with hlong | hquiet | ⟨hone, hzero⟩
          · rw [if_neg (by rw [hlength]; omega)]
            simp only
            split_ifs <;> exact ⟨_, rfl⟩
          · rw [hlogs] at hquiet
            cases hquiet
          · -- the string ends with the only byte of the payload
            have hstring : s.recvBuf.payload.findIdx (· == 0) + 1 ≤ payloadSize :=
              (sessionIdString_iff (by omega)).mpr ⟨hone, hzero⟩
            obtain ⟨c, hmem, hc⟩ := List.findIdx_lt_length.mp
              (show s.recvBuf.payload.findIdx (· == 0) < s.recvBuf.payload.length by
                rw [CtrlRecvBuf.length_payload]
                unfold ctrlRecvBufSize
                omega)
            have hcontains : (s.recvBuf.toList.drop 8).contains 0 = true := by
              rw [← eq_of_beq hc]
              exact List.contains_iff_mem.mpr hmem
            rw [if_pos (by rw [hlength]; omega), if_pos hcontains]
            exact ⟨s, rfl⟩
      obtain ⟨s', hs'⟩ := hok
      exact ⟨_, by rw [hs']; rfl⟩
    | keyboardOpen =>
      obtain ⟨s', text, heq⟩ := htext _ _ (by decide) (hopen htype)
      exact ⟨_, by simp only [ctrlMessageReceivedKeyboardOpen, heq]; rfl⟩
    | keyboardTextChangeRes =>
      obtain ⟨s', text, heq⟩ := htext _ _ (by decide) (hchange htype)
      exact ⟨_, by simp only [ctrlMessageReceivedKeyboardTextChange, heq]; rfl⟩
    | _ => exact ⟨_, rfl⟩

end Chiaki
