import Chiaki.Infra.Framing
import Chiaki.Properties.Ctrl.WakeUp

/-!
# Framing of the ctrl stream

The stream from the console is a list of frames: a header of 8 bytes and a payload
(`CtrlFrame.encode`). However it arrives in chunks, the ctrl thread dispatches these frames, in
order, and each one from inside of `recv_buf` (`ctrlFramingRight_iff`). This holds unless a header
announces a payload so long that `8 + payload_size` wraps around (`not_ctrlFramingRight`).
-/

namespace Chiaki

open Infra Infra.Framing

variable {n : Nat} {rpcrypt : RPCrypt} {s s' : Ctrl n} {l : CtrlLabel n} {buf rest : Bytes}

/-! ## Frames -/

/-- A message as it is on the wire. Two bytes of the header are not used. -/
structure CtrlFrame where
  msgType : UInt16
  unused : UInt8 × UInt8
  payload : Bytes
  payload_lt : payload.length < 2 ^ 32

namespace CtrlFrame

variable {f g : CtrlFrame}

def encode (f : CtrlFrame) : Bytes :=
  be32 f.payload.length ++ (be16 f.msgType.toNat ++ ([f.unused.1, f.unused.2] ++ f.payload))

/-- What `ctrl_message_received` gets of a frame. -/
def message (f : CtrlFrame) : Nat × Bytes := (f.msgType.toNat, f.payload)

theorem ext_parts (htype : f.msgType = g.msgType) (hunused : f.unused = g.unused)
    (hpayload : f.payload = g.payload) : f = g := by
  cases f
  cases g
  cases htype
  cases hunused
  cases hpayload
  rfl

theorem length_encode (f : CtrlFrame) : f.encode.length = 8 + f.payload.length := by
  simp only [encode, be32, be16, List.length_append, List.length_cons, List.length_nil]
  omega

theorem u32At_encode (f : CtrlFrame) (rest : Bytes) : u32At (f.encode ++ rest) 0 = f.payload.length := by
  rw [encode, List.append_assoc, u32At_be32]
  exact Nat.mod_eq_of_lt f.payload_lt

theorem u16At_encode (f : CtrlFrame) : u16At f.encode 4 = f.msgType.toNat := by
  have hlt : f.msgType.toNat < 2 ^ 16 := f.msgType.toNat_lt
  simp only [encode, be32, be16, u16At, u8At, List.cons_append, List.nil_append,
    List.getD_cons_succ, List.getD_cons_zero, UInt8.toNat_ofNat']
  omega

/-- The length in the header says where a frame ends. -/
theorem prefixFree : PrefixFree encode := by
  intro a b r r' h
  have hlen : a.payload.length = b.payload.length := by
    rw [← u32At_encode a r, ← u32At_encode b r', h]
  obtain ⟨hab, -⟩ := List.append_inj h (by rw [length_encode, length_encode, hlen])
  have htype : a.msgType.toNat = b.msgType.toNat := by
    rw [← u16At_encode, ← u16At_encode, hab]
  have hunused : a.unused.1 = b.unused.1 ∧ a.unused.2 = b.unused.2 :=
    ⟨congrArg (fun l : Bytes => l.getD 6 0) hab, congrArg (fun l : Bytes => l.getD 7 0) hab⟩
  exact ext_parts (UInt16.toNat_inj.mp htype) (Prod.ext hunused.1 hunused.2)
    (congrArg (List.drop 8) hab)

/-- The frame at the beginning of a buffer. -/
def ofBytes (buf : Bytes) : CtrlFrame where
  msgType := UInt16.ofNat (u16At buf 4)
  unused := (buf.getD 6 0, buf.getD 7 0)
  payload := slice buf 8 (u32At buf 0)
  payload_lt := by
    have hlt := u32At_lt buf 0
    have hle : (slice buf 8 (u32At buf 0)).length ≤ u32At buf 0 := List.length_take_le _ _
    omega

end CtrlFrame

/-- **A buffer that holds as much as its header says begins with a frame.** -/
theorem CtrlFrame.encode_ofBytes (h : 8 + u32At buf 0 ≤ buf.length) :
    buf = (CtrlFrame.ofBytes buf).encode ++ buf.drop (8 + u32At buf 0) := by
  have hpayload : (slice buf 8 (u32At buf 0)).length = u32At buf 0 := length_slice h
  have htype : (UInt16.ofNat (u16At buf 4)).toNat = u16At buf 4 := by
    rw [UInt16.toNat_ofNat']
    exact Nat.mod_eq_of_lt (u16At_lt buf 4)
  have hlen : 8 ≤ buf.length := by omega
  have hheader : buf.take 8 = be32 (u32At buf 0) ++ be16 (u16At buf 4) ++ [buf.getD 6 0, buf.getD 7 0] := by
    clear h hpayload htype
    match buf, hlen with
    | b0 :: b1 :: b2 :: b3 :: b4 :: b5 :: b6 :: b7 :: tail, _ =>
      rw [be32_u32At, ← u16At_drop _ 4 0]
      show _ = [b0, b1, b2, b3] ++ be16 (u16At (b4 :: b5 :: b6 :: b7 :: tail) 0) ++ [b6, b7]
      rw [be16_u16At]
      rfl
  calc buf = buf.take 8 ++ (buf.drop 8).take (u32At buf 0) ++ (buf.drop 8).drop (u32At buf 0) := by
        rw [List.append_assoc, List.take_append_drop, List.take_append_drop]
    _ = (CtrlFrame.ofBytes buf).encode ++ buf.drop (8 + u32At buf 0) := by
        rw [List.drop_drop, hheader, CtrlFrame.encode]
        simp only [CtrlFrame.ofBytes, hpayload, htype, List.append_assoc]
        rfl

/-- There is no whole frame in a buffer that is shorter than its header says. -/
theorem not_whole_of_lt (h : buf.length < 8 ∨ buf.length < 8 + u32At buf 0) :
    ¬ Whole CtrlFrame.encode buf := by
  rintro ⟨f, r, rfl⟩
  rw [CtrlFrame.u32At_encode, List.length_append, CtrlFrame.length_encode] at h
  omega

/-! ## The property -/

def CtrlEvent.message? : CtrlEvent → Option (Nat × Bytes)
  | .dispatch _ msgType _ payload => some (msgType, payload)
  | _ => none

/-- The messages that were dispatched, oldest first. -/
def ctrlDispatched (log : List CtrlEvent) : List (Nat × Bytes) :=
  (log.filterMap CtrlEvent.message?).reverse

/-- The payload of a dispatched message lies in what was received. -/
def CtrlEvent.inside : CtrlEvent → Prop
  | .dispatch recvBufSize _ payloadSize payload =>
    8 + payloadSize ≤ recvBufSize ∧ recvBufSize ≤ ctrlRecvBufSize ∧ payload.length = payloadSize
  | _ => True

/-- What is left in `recv_buf`. -/
def Ctrl.pending (s : Ctrl n) : Bytes := s.recvBuf.toList.take s.recvBufSize

/-- The thread waits, or does what it has woken up for. -/
def CtrlPc.waits : CtrlPc → Bool
  | .select | .selected _ | .canceled _ | .reset | .recv => true
  | _ => false

/-- The frames of the stream are dispatched in order, those that have arrived are dispatched when
the thread waits, and frames that do not fit into `recv_buf` are an overflow. -/
structure CtrlFramingRight (rpcrypt : RPCrypt) (s : Ctrl n) : Prop where
  inOrder : ∀ frames rest, Splits CtrlFrame.encode s.received frames rest →
    ctrlDispatched s.log <+: frames.map CtrlFrame.message
  all : s.thread.waits = true → ∀ frames rest, Splits CtrlFrame.encode s.received frames rest →
    ctrlDispatched s.log = frames.map CtrlFrame.message ∧ s.pending = rest
  inside : ∀ e ∈ s.log, e.inside
  overflow : s.thread = .overflow →
    8 ≤ s.pending.length ∧ ctrlRecvBufSize < 8 + u32At s.pending 0
  fits : s.thread.waits = true → 8 ≤ s.pending.length → 8 + u32At s.pending 0 ≤ ctrlRecvBufSize
  consumes : s.thread = .loop → ∀ s', ctrlStep rpcrypt s .round = some s' → s'.thread = .loop →
    s'.recvBufSize + 8 ≤ s.recvBufSize
  terminates : s.thread = .loop → ∃ k, k ≤ s.recvBufSize / 8 + 1 ∧ ∃ s',
    Lts.runFun (ctrlStep rpcrypt) s (List.replicate k .round) = some s' ∧ s'.thread ≠ .loop

/-- The header that a round of the loop looks at announces less than `2 ^ 32 - 8` bytes. -/
def headerBounded (s : Ctrl n) : CtrlLabel n → Bool
  | .round => decide (s.recvBufSize < 8) || decide (s.payloadSize < 2 ^ 32 - 8)
  | _ => true

/-! ## What is left in the buffer -/

theorem length_pending (h : s.recvBufSize ≤ ctrlRecvBufSize) : s.pending.length = s.recvBufSize := by
  rw [Ctrl.pending, List.length_take, Vector.length_toList]
  exact Nat.min_eq_left h

theorem getElem?_pending {i : Nat} (hi : i < s.recvBufSize) :
    s.pending[i]? = s.recvBuf.toList[i]? := List.getElem?_take_of_lt hi

theorem u32At_pending (h : 8 ≤ s.recvBufSize) : u32At s.pending 0 = s.payloadSize := by
  simp only [u32At, u16At, u8At, List.getD_eq_getElem?_getD, Ctrl.payloadSize]
  repeat rw [getElem?_pending (by omega)]

theorem u16At_pending (h : 8 ≤ s.recvBufSize) : u16At s.pending 4 = u16At s.recvBuf.toList 4 := by
  simp only [u16At, u8At, List.getD_eq_getElem?_getD]
  repeat rw [getElem?_pending (by omega)]

theorem slice_pending {off m : Nat} (h : off + m ≤ s.recvBufSize) :
    slice s.pending off m = slice s.recvBuf.toList off m := by
  refine List.ext_getElem? fun i => ?_
  rw [getElem?_slice, getElem?_slice]
  split
  · rw [getElem?_pending (by omega)]
  · rfl

/-- Only the bytes in front matter. -/
theorem pending_congr (hsize : s'.recvBufSize = s.recvBufSize)
    (hbuf : ∀ i, i < s.recvBufSize → s'.recvBuf.toList[i]? = s.recvBuf.toList[i]?) :
    s'.pending = s.pending := by
  refine List.ext_getElem? fun i => ?_
  unfold Ctrl.pending
  rw [hsize, List.getElem?_take, List.getElem?_take]
  split
  · next hi => exact hbuf i hi
  · rfl

/-! ## The invariant -/

def CtrlPc.isFault : CtrlPc → Bool
  | .fault _ => true
  | _ => false

/-- The connection is not there yet. -/
def CtrlPc.starting : CtrlPc → Bool
  | .init | .connecting => true
  | _ => false

structure CtrlFramingInvariant (s : Ctrl n) : Prop where
  size : s.recvBufSize ≤ ctrlRecvBufSize
  start : s.thread.starting = true → s.log = []
  stream : ∃ (frames : List CtrlFrame) (rest : Bytes),
    s.received = frames.flatMap CtrlFrame.encode ++ rest ∧ ctrlDispatched s.log = frames.map CtrlFrame.message ∧
      (s.thread.isFault = false → rest = s.pending)
  inside : ∀ e ∈ s.log, e.inside
  waits : s.thread.waits = true → s.recvBufSize < 8 ∨
    s.recvBufSize < 8 + s.payloadSize ∧ 8 + s.payloadSize ≤ ctrlRecvBufSize
  overflow : s.thread = .overflow → 8 ≤ s.recvBufSize ∧ ctrlRecvBufSize < 8 + s.payloadSize

theorem ctrlDispatched_append {events log : List CtrlEvent}
    (h : ∀ e ∈ events, e.isDispatch = false) : ctrlDispatched (events ++ log) = ctrlDispatched log := by
  have hnone : events.filterMap CtrlEvent.message? = [] := by
    refine List.filterMap_eq_nil_iff.mpr fun e he => ?_
    have := h e he
    cases e with
    | dispatch => cases this
    | _ => rfl
  rw [ctrlDispatched, List.filterMap_append, hnone, List.nil_append, ctrlDispatched]

theorem CtrlEvent.inside_of_not_dispatch {e : CtrlEvent} (h : e.isDispatch = false) : e.inside := by
  cases e with
  | dispatch => cases h
  | _ => trivial

/-- Nothing is dispatched, and `recv_buf` stays as it is. -/
theorem CtrlFramingInvariant.of_same (h : CtrlFramingInvariant s)
    (hreceived : s'.received = s.received)
    (hbuf : ∀ i : Nat, s'.recvBuf.toList[i]? = s.recvBuf.toList[i]?)
    (hsize : s'.recvBufSize = s.recvBufSize)
    (hlog : ∃ events, s'.log = events ++ s.log ∧ ∀ e ∈ events, e.isDispatch = false)
    (hstart : s'.thread.starting = true → s'.log = [])
    (hfault : s.thread.isFault = false) (hwaits : s'.thread.waits = true → s.thread.waits = true)
    (hoverflow : s'.thread ≠ .overflow) : CtrlFramingInvariant s' := by
  obtain ⟨events, hlog, hevents⟩ := hlog
  have hpending : s'.pending = s.pending := pending_congr hsize fun i _ => hbuf i
  have hpayload : s'.payloadSize = s.payloadSize := by
    rw [Ctrl.payloadSize, List.ext_getElem? hbuf, Ctrl.payloadSize]
  obtain ⟨frames, rest, hstream, hdispatched, hrest⟩ := h.stream
  refine ⟨by rw [hsize]; exact h.size, hstart, ⟨frames, rest, ?_, ?_, fun _ => ?_⟩, fun e he => ?_,
    fun hw => ?_, fun ho => absurd ho hoverflow⟩
  · rw [hreceived, hstream]
  · rw [hlog, ctrlDispatched_append hevents, hdispatched]
  · rw [hpending, hrest hfault]
  · rw [hlog] at he
    rcases List.mem_append.mp he with he | he
    · exact CtrlEvent.inside_of_not_dispatch (hevents e he)
    · exact h.inside e he
  · rw [hsize, hpayload]
    exact h.waits (hwaits hw)

/-- The frame in front is dispatched: its bytes leave what is still to come. -/
theorem CtrlFramingInvariant.dispatched (h : CtrlFramingInvariant s) (hpc : s.thread = .loop)
    (hd : CtrlDispatched s s') (hframe : s.frameSize = 8 + s.payloadSize) :
    (∃ frames : List CtrlFrame,
      s'.received = frames.flatMap CtrlFrame.encode ++ s.pending.drop (8 + s.payloadSize) ∧
      ctrlDispatched s'.log = frames.map CtrlFrame.message) ∧ ∀ e ∈ s'.log, e.inside := by
  obtain ⟨frames, rest, hstream, hold, hrest⟩ := h.stream
  obtain ⟨events, hlog, hevents⟩ := hd.log
  have hcomplete := hd.complete
  rw [hframe] at hcomplete
  have hsize := u32At_pending hd.header
  have hlen := length_pending h.size
  have hpayload : slice s.pending 8 s.payloadSize = slice s.recvBuf.toList 8 s.payloadSize :=
    slice_pending hcomplete
  have hwhole : 8 + u32At s.pending 0 ≤ s.pending.length := by rw [hsize, hlen]; exact hcomplete
  have hfront := CtrlFrame.encode_ofBytes hwhole
  have hmessage : (CtrlFrame.ofBytes s.pending).message
      = (u16At s.recvBuf.toList 4, slice s.recvBuf.toList 8 s.payloadSize) := by
    refine Prod.ext ?_ ?_
    · show (UInt16.ofNat (u16At s.pending 4)).toNat = _
      rw [UInt16.toNat_ofNat', Nat.mod_eq_of_lt (u16At_lt _ _), u16At_pending hd.header]
    · show slice s.pending 8 (u32At s.pending 0) = _
      rw [hsize, hpayload]
  refine ⟨⟨frames ++ [CtrlFrame.ofBytes s.pending], ?_, ?_⟩, fun e he => ?_⟩
  · rw [hd.received, hstream, hrest (by rw [hpc]; rfl), List.flatMap_append, List.flatMap_singleton,
      List.append_assoc]
    rw [hsize] at hfront
    rw [← hfront]
  · rw [hlog, ctrlDispatched_append hevents, List.map_append, List.map_singleton, hmessage, ← hold]
    simp only [ctrlDispatched, Ctrl.dispatch, List.filterMap_cons, CtrlEvent.message?,
      List.reverse_cons]
  · rw [hlog] at he
    rcases List.mem_append.mp he with he | he
    · exact CtrlEvent.inside_of_not_dispatch (hevents e he)
    · rcases List.mem_cons.mp he with rfl | he
      · refine ⟨hcomplete, h.size, ?_⟩
        rw [← hpayload, length_slice]
        rw [hlen]
        exact hcomplete
      · exact h.inside e he

theorem CtrlFramingInvariant.round (h : CtrlFramingInvariant s) (hpc : s.thread = .loop)
    (hG : headerBounded s .round = true) : CtrlFramingInvariant (ctrlRound rpcrypt s) := by
  have hframe : 8 ≤ s.recvBufSize → s.frameSize = 8 + s.payloadSize := by
    intro h8
    simp only [headerBounded, Bool.or_eq_true, decide_eq_true_eq] at hG
    exact Nat.mod_eq_of_lt (by omega)
  have hfault : s.thread.isFault = false := by rw [hpc]; rfl
  obtain ⟨frames, rest, hstream, hdispatched, hrest⟩ := h.stream
  replace hrest := hrest hfault
  rcases ctrlRound_move rpcrypt s with ⟨hs', hwait⟩ | ⟨hs', h8, hbig⟩ | ⟨hd, f, hthread⟩ |
    ⟨hd, hthread, hfits, hsize, hbuf⟩
  · rw [hs']
    refine ⟨h.size, fun hc => (by cases hc), ⟨frames, rest, hstream, hdispatched, fun _ => hrest⟩,
      h.inside, fun _ => ?_, fun ho => (by cases ho)⟩
    rcases Nat.lt_or_ge s.recvBufSize 8 with hlt | hge
    · exact Or.inl hlt
    · rw [hframe hge] at hwait
      exact hwait
  · rw [hs']
    rw [hframe h8] at hbig
    exact ⟨h.size, fun hc => (by cases hc), ⟨frames, rest, hstream, hdispatched, fun _ => hrest⟩,
      h.inside, fun hw => (by cases hw), fun _ => ⟨h8, hbig⟩⟩
  · obtain ⟨⟨frames', hstream', hdispatched'⟩, hinside⟩ := h.dispatched hpc hd (hframe hd.header)
    refine ⟨Nat.le_trans hd.recvBufSize_le h.size, fun hc => ?_, ⟨frames', _, hstream', hdispatched',
      fun hf => ?_⟩, hinside, fun hw => ?_, fun ho => ?_⟩
    · rw [hthread] at hc
      cases hc
    · rw [hthread] at hf
      cases hf
    · rw [hthread] at hw
      cases hw
    · rw [hthread] at ho
      cases ho
  · obtain ⟨⟨frames', hstream', hdispatched'⟩, hinside⟩ := h.dispatched hpc hd (hframe hd.header)
    rw [hpc] at hthread
    have hpending : (ctrlRound rpcrypt s).pending = s.pending.drop (8 + s.payloadSize) := by
      refine List.ext_getElem? fun i => ?_
      rw [List.getElem?_drop, Ctrl.pending, Ctrl.pending, List.getElem?_take, List.getElem?_take]
      have hcomplete := hd.complete
      rw [hframe hd.header] at hsize hcomplete
      by_cases hi : i < (ctrlRound rpcrypt s).recvBufSize
      · rw [if_pos hi, if_pos (by omega)]
        exact hbuf i hi
      · rw [if_neg hi, if_neg (by omega)]
    refine ⟨Nat.le_trans hd.recvBufSize_le h.size, fun hc => ?_, ⟨frames', _, hstream', hdispatched',
      fun _ => hpending.symm⟩, hinside, fun hw => ?_, fun ho => ?_⟩
    · rw [hthread] at hc
      cases hc
    · rw [hthread] at hw
      cases hw
    · rw [hthread] at ho
      cases ho

theorem ctrlFramingInvariant_init (h : CtrlInitial s) : CtrlFramingInvariant s := by
  obtain ⟨session, recvBuf, rfl⟩ := h
  exact ⟨Nat.zero_le _, fun _ => rfl, ⟨[], [], rfl, rfl, fun _ => rfl⟩,
    fun e he => absurd he List.not_mem_nil, fun hw => (by cases hw), fun ho => (by cases ho)⟩

/-- Writing behind the first bytes adds to them. -/
theorem CtrlRecvBuf.take_write (buf : CtrlRecvBuf) {off : Nat} {chunk : Bytes}
    (hfit : off + chunk.length ≤ ctrlRecvBufSize) :
    (buf.write off chunk).toList.take (off + chunk.length) = buf.toList.take off ++ chunk := by
  have hlen : (buf.toList.take off).length = off := by
    rw [List.length_take, Vector.length_toList]
    exact Nat.min_eq_left (by omega)
  refine List.ext_getElem? fun i => ?_
  rw [List.getElem?_take]
  rcases Nat.lt_or_ge i off with hlt | hge
  · rw [if_pos (by omega), getElem?_write (by omega), if_neg (by omega),
      List.getElem?_append_left (by omega), List.getElem?_take_of_lt hlt]
  · rw [List.getElem?_append_right (by omega), hlen]
    split
    · rw [getElem?_write (by omega), if_pos ⟨hge, by omega⟩]
    · rw [List.getElem?_eq_none (by omega)]

theorem CtrlFramingInvariant.connected (h : CtrlFramingInvariant s) (hpc : s.thread = .connecting)
    (hfit : rest.length ≤ ctrlRecvBufSize) (counterLocal counterRemote : Nat) :
    CtrlFramingInvariant (ctrlConnected s counterLocal counterRemote rest) := by
  have hlog : s.log = [] := h.start (by rw [hpc]; rfl)
  have hpending : (s.recvBuf.write 0 rest).toList.take rest.length = rest := by
    have hwrite := @CtrlRecvBuf.take_write s.recvBuf 0 rest (by omega)
    rw [Nat.zero_add, List.take_zero, List.nil_append] at hwrite
    exact hwrite
  unfold ctrlConnected
  refine ⟨hfit, fun hc => (by cases hc), ⟨[], rest, rfl, ?_, fun _ => hpending.symm⟩, h.inside,
    fun hw => (by cases hw), fun ho => (by cases ho)⟩
  show ctrlDispatched s.log = _
  rw [hlog]
  rfl

theorem CtrlFramingInvariant.recv (h : CtrlFramingInvariant s) (hpc : s.thread = .recv) {r : CtrlRecv}
    (hs : ctrlRecv s r = some s') : CtrlFramingInvariant s' := by
  have hfault : s.thread.isFault = false := by rw [hpc]; rfl
  have hlog : ∃ events, s.log = events ++ s.log ∧ ∀ e ∈ events, e.isDispatch = false :=
    ⟨[], rfl, fun _ he => absurd he List.not_mem_nil⟩
  unfold ctrlRecv at hs
  cases r with
  | data chunk =>
    simp only at hs
    split at hs
    · next hchunk =>
      cases hs
      obtain ⟨frames, rest, hstream, hdispatched, hrest⟩ := h.stream
      refine ⟨hchunk.2, fun hc => (by cases hc), ⟨frames, rest ++ chunk, ?_, hdispatched, fun _ => ?_⟩,
        h.inside, fun hw => (by cases hw), fun ho => (by cases ho)⟩
      · show s.received ++ chunk = _
        rw [hstream, List.append_assoc]
      · rw [hrest hfault]
        exact (s.recvBuf.take_write hchunk.2).symm
    · cases hs
  | closed =>
    cases hs
    exact h.of_same rfl (fun _ => rfl) rfl hlog (fun hc => (by cases hc)) hfault
      (fun hw => (by cases hw)) CtrlPc.noConfusion
  | error =>
    cases hs
    exact h.of_same rfl (fun _ => rfl) rfl hlog (fun hc => (by cases hc)) hfault
      (fun hw => (by cases hw)) CtrlPc.noConfusion

theorem CtrlFramingInvariant.canceled (h : CtrlFramingInvariant s) {msgQueueUpdated : Bool}
    (hpc : s.thread = .canceled msgQueueUpdated) :
    CtrlFramingInvariant (ctrlCanceled rpcrypt s msgQueueUpdated) := by
  have hfault : s.thread.isFault = false := by rw [hpc]; rfl
  have hwaits : s.thread.waits = true := by rw [hpc]; rfl
  have hlog : ∃ events, s.log = events ++ s.log ∧ ∀ e ∈ events, e.isDispatch = false :=
    ⟨[], rfl, fun _ he => absurd he List.not_mem_nil⟩
  unfold ctrlCanceled
  split
  · next message next _ =>
    obtain ⟨-, -, hsize, hreceived, hbuf, hlog'⟩ :=
      (ctrlMessageSend_handled s message.type message.payload :
        CtrlHandled 0 s (ctrlMessageSend rpcrypt s message.type message.payload))
    exact h.of_same hreceived (fun i => hbuf i (by omega)) hsize hlog'
      (fun hc => (by cases hc)) hfault (fun _ => hwaits) CtrlPc.noConfusion
  · split
    · obtain ⟨-, -, hsize, hreceived, hbuf, hlog'⟩ :=
        (ctrlMessageSend_handled s ctrlMessageTypeLoginPinRep s.loginPin :
          CtrlHandled 0 s (ctrlMessageSend rpcrypt s ctrlMessageTypeLoginPinRep s.loginPin))
      exact h.of_same hreceived (fun i => hbuf i (by omega)) hsize hlog'
        (fun hc => (by cases hc)) hfault (fun _ => hwaits) CtrlPc.noConfusion
    · split
      · exact h.of_same rfl (fun _ => rfl) rfl hlog (fun hc => (by cases hc)) hfault
          (fun hw => (by cases hw)) CtrlPc.noConfusion
      · split
        · exact h.of_same rfl (fun _ => rfl) rfl hlog (fun hc => (by cases hc)) hfault
            (fun _ => hwaits) CtrlPc.noConfusion
        · exact h.of_same rfl (fun _ => rfl) rfl hlog (fun hc => (by cases hc)) hfault
            (fun hw => (by cases hw)) CtrlPc.noConfusion

/-! ## Every run -/

theorem ctrlFramingInvariant_step (h : CtrlFramingInvariant s) (hG : headerBounded s l = true)
    (hs : (ctrlLts rpcrypt n).step s l s') : CtrlFramingInvariant s' := by
  have hlog : ∃ events, s.log = events ++ s.log ∧ ∀ e ∈ events, e.isDispatch = false :=
    ⟨[], rfl, fun _ he => absurd he List.not_mem_nil⟩
  -- what another thread posts is not looked at here
  have hother : ∀ stop entered pin queue pipe (callers : Fin n → _), CtrlFramingInvariant { s with
      shouldStop := stop, loginPinEntered := entered, loginPin := pin, msgQueue := queue
      notifPipe := pipe, callers := callers } := fun _ _ _ _ _ _ =>
    ⟨h.size, h.start, h.stream, h.inside, h.waits, h.overflow⟩
  cases ctrlStep_move hs with
  | start hpc =>
    exact h.of_same rfl (fun _ => rfl) rfl hlog (fun _ => h.start (by rw [hpc]; rfl)) (by rw [hpc]; rfl)
      (fun hw => (by cases hw)) CtrlPc.noConfusion
  | connected hpc hfit => exact h.connected hpc hfit _ _
  | connectFailed hpc =>
    exact h.of_same rfl (fun _ => rfl) rfl hlog (fun hc => (by cases hc)) (by rw [hpc]; rfl)
      (fun hw => (by cases hw)) CtrlPc.noConfusion
  | round hpc => exact h.round hpc hG
  | overflow hpc =>
    exact h.of_same rfl (fun _ => rfl) rfl hlog (fun hc => (by cases hc)) (by rw [hpc]; rfl)
      (fun hw => (by cases hw)) CtrlPc.noConfusion
  | select hpc =>
    exact h.of_same rfl (fun _ => rfl) rfl hlog (fun hc => (by cases hc)) (by rw [hpc]; rfl)
      (fun _ => by rw [hpc]; rfl) CtrlPc.noConfusion
  | @lock err hpc =>
    cases err with
    | unknown =>
      exact h.of_same rfl (fun _ => rfl) rfl hlog (fun hc => (by cases hc)) (by rw [hpc]; rfl)
        (fun hw => (by cases hw)) CtrlPc.noConfusion
    | canceled | success =>
      exact h.of_same rfl (fun _ => rfl) rfl hlog (fun hc => (by cases hc)) (by rw [hpc]; rfl)
        (fun _ => by rw [hpc]; rfl) CtrlPc.noConfusion
  | canceled hpc => exact h.canceled hpc
  | reset hpc =>
    exact h.of_same rfl (fun _ => rfl) rfl hlog (fun hc => (by cases hc)) (by rw [hpc]; rfl)
      (fun hw => (by cases hw)) CtrlPc.noConfusion
  | recv hpc hrecv => exact h.recv hpc hrecv
  | post => exact hother _ _ _ _ _ _
  | signal => exact hother _ _ _ _ _ _
  | setLoginPin => exact hother _ _ _ _ _ _
  | stop => exact hother _ _ _ _ _ _

theorem ctrlFramingInvariant_invariant (rpcrypt : RPCrypt) (n : Nat) :
    ((ctrlLts rpcrypt n).restrict fun s l => headerBounded s l = true).Invariant
      CtrlFramingInvariant where
  init := fun _ h => ctrlFramingInvariant_init h
  step := fun _ _ _ h hs => ctrlFramingInvariant_step h hs.1 hs.2

/-! ### The loop over the frames -/

theorem ctrlStep_round (hpc : s.thread = .loop) :
    ctrlStep rpcrypt s .round = some (ctrlRound rpcrypt s) := by
  simp only [ctrlStep, hpc]

/-- A round after which the loop goes on has taken a frame. -/
theorem ctrlRound_consumes (hpc : (ctrlRound rpcrypt s).thread = .loop) :
    (ctrlRound rpcrypt s).recvBufSize + 8 ≤ s.recvBufSize := by
  rcases ctrlRound_move rpcrypt s with ⟨hs', -⟩ | ⟨hs', -, -⟩ | ⟨-, f, hthread⟩ |
    ⟨hd, -, hfits, hsize, -⟩
  · rw [hs'] at hpc
    cases hpc
  · rw [hs'] at hpc
    cases hpc
  · rw [hthread] at hpc
    cases hpc
  · have hcomplete := hd.complete
    have hframe : s.frameSize = 8 + s.payloadSize := by
      have hlt : 8 + s.payloadSize < 2 ^ 32 := Nat.lt_of_le_of_lt hfits (by decide)
      exact Nat.mod_eq_of_lt hlt
    omega

/-- **The loop comes to an end**, whatever is in the buffer. -/
theorem ctrlRound_terminates (rpcrypt : RPCrypt) (s : Ctrl n) (hpc : s.thread = .loop) :
    ∃ k, k ≤ s.recvBufSize / 8 + 1 ∧ ∃ s',
      Lts.runFun (ctrlStep rpcrypt) s (List.replicate k .round) = some s' ∧ s'.thread ≠ .loop := by
  by_cases hloop : (ctrlRound rpcrypt s).thread = .loop
  · have hshorter := ctrlRound_consumes hloop
    obtain ⟨k, hk, s', hrun, hs'⟩ := ctrlRound_terminates rpcrypt (ctrlRound rpcrypt s) hloop
    refine ⟨k + 1, by omega, s', ?_, hs'⟩
    rw [List.replicate_succ, Lts.runFun, ctrlStep_round hpc]
    exact hrun
  · refine ⟨1, by omega, ctrlRound rpcrypt s, ?_, hloop⟩
    rw [List.replicate_succ, Lts.runFun, ctrlStep_round hpc]
    rfl
termination_by s.recvBufSize

theorem CtrlFramingInvariant.right (h : CtrlFramingInvariant s) : CtrlFramingRight rpcrypt s := by
  obtain ⟨frames, rest, hstream, hdispatched, hrest⟩ := h.stream
  have hlen := length_pending h.size
  refine ⟨fun frames' rest' hsplit => ?_, fun hw frames' rest' hsplit => ?_, h.inside, fun ho => ?_,
    fun hw h8 => ?_, fun hpc s' hs hpc' => ?_, fun hpc => ctrlRound_terminates rpcrypt s hpc⟩
  · obtain ⟨later, hlater, -⟩ := hsplit.of_taken CtrlFrame.prefixFree hstream
    rw [hdispatched, hlater, List.map_append]
    exact List.prefix_append _ _
  · -- what is pending is no whole frame, so this is the splitting of the stream
    have hpc : s.thread.isFault = false := by
      cases hthread : s.thread with
      | fault f =>
        rw [hthread] at hw
        cases hw
      | _ => rfl
    have hlast : ¬ Whole CtrlFrame.encode rest := by
      rw [hrest hpc]
      refine not_whole_of_lt ?_
      rw [hlen]
      rcases Nat.lt_or_ge s.recvBufSize 8 with hlt | hge
      · exact Or.inl hlt
      · rw [u32At_pending hge]
        rcases h.waits hw with hlt | hwait
        · exact Or.inl hlt
        · exact Or.inr hwait.1
    obtain ⟨hframes, hrests⟩ := Splits.unique CtrlFrame.prefixFree ⟨hstream, hlast⟩ hsplit
    exact ⟨by rw [hdispatched, hframes], by rw [← hrests, hrest hpc]⟩
  · obtain ⟨h8, hbig⟩ := h.overflow ho
    exact ⟨by rw [hlen]; exact h8, by rw [u32At_pending h8]; exact hbig⟩
  · rw [hlen] at h8
    rw [u32At_pending h8]
    rcases h.waits hw with hlt | hwait
    · omega
    · exact hwait.2
  · rw [ctrlStep_round hpc] at hs
    cases hs
    exact ctrlRound_consumes hpc'

/-- If `8 + payload_size` wraps around, a message is dispatched that is no frame. -/
theorem not_right_of_wrap (h8 : 8 ≤ s.recvBufSize) (hwrap : 2 ^ 32 - 8 ≤ s.payloadSize) :
    ¬ CtrlFramingRight rpcrypt (ctrlRound rpcrypt s) := by
  have hlt : s.payloadSize < 2 ^ 32 := u32At_lt _ _
  have hframe : s.frameSize = 8 + s.payloadSize - 2 ^ 32 := by
    unfold Ctrl.frameSize
    omega
  have hlog : ∃ events, (ctrlRound rpcrypt s).log = events ++ s.dispatch :: s.log := by
    rcases ctrlRound_move rpcrypt s with ⟨-, hwait⟩ | ⟨-, -, hbig⟩ | ⟨hd, -⟩ | ⟨hd, -⟩
    · omega
    · unfold ctrlRecvBufSize at hbig
      omega
    · obtain ⟨events, hlog, -⟩ := hd.log
      exact ⟨events, hlog⟩
    · obtain ⟨events, hlog, -⟩ := hd.log
      exact ⟨events, hlog⟩
  intro hright
  obtain ⟨events, hlog⟩ := hlog
  obtain ⟨hin, hsize, -⟩ := hright.inside s.dispatch (by
    rw [hlog]
    exact List.mem_append_right _ (List.mem_cons_self ..))
  unfold ctrlRecvBufSize at hsize
  omega

/-- **The ctrl thread dispatches the frames of the stream** in every run with bounded headers, and a
round that meets another header dispatches what is no frame. -/
theorem ctrlFramingRight_iff (rpcrypt : RPCrypt)
    (hr : ((ctrlLts rpcrypt n).restrict fun s l => headerBounded s l = true).Reachable s) :
    CtrlFramingRight rpcrypt s ∧ ∀ l s', ctrlStep rpcrypt s l = some s' →
      (CtrlFramingRight rpcrypt s' ↔ headerBounded s l = true) := by
  have h := (ctrlFramingInvariant_invariant rpcrypt n).reachable hr
  refine ⟨h.right, fun l s' hs => ⟨fun hright => ?_, fun hG => (ctrlFramingInvariant_step h hG hs).right⟩⟩
  cases hG : headerBounded s l with
  | true => rfl
  | false =>
    cases l with
    | round =>
      simp only [headerBounded, Bool.or_eq_false_iff, decide_eq_false_iff_not, Nat.not_lt] at hG
      simp only [ctrlStep] at hs
      split at hs
      · cases hs
        exact absurd hright (not_right_of_wrap hG.1 hG.2)
      · cases hs
    | _ => cases hG

/-! ### Runs -/

/-- A heartbeat request arrives in two parts. -/
def heartbeatInParts : List (CtrlLabel 2) :=
  [.start, .connected 3 1 [0, 0, 0, 0, 0], .round, .select .success, .lock,
    .recv (.data [0xfe, 0, 0]), .round, .round]

theorem heartbeatInParts_run :
    (Lts.runFun (Lts.guarded (ctrlStep plainRPCrypt) fun s l => headerBounded s l = true) exampleCtrl
        heartbeatInParts).map (fun s => (s.thread, ctrlDispatched s.log))
      = some (.select, [(0xfe, [])]) := by
  decide +kernel

theorem ctrlFramingRight_heartbeatInParts : ∃ s : Ctrl 2, s.thread = .select ∧
    ctrlDispatched s.log = [(0xfe, [])] ∧ CtrlFramingRight plainRPCrypt s := by
  obtain ⟨s, hrun, hobs⟩ := Option.map_eq_some_iff.mp heartbeatInParts_run
  simp only [Prod.mk.injEq] at hobs
  refine ⟨s, hobs.1, hobs.2, (ctrlFramingRight_iff plainRPCrypt ?_).1⟩
  exact Lts.Reachable.runGuarded (.init ⟨_, _, rfl⟩) hrun

/-- A header that announces `2 ^ 32 - 8` bytes has arrived. -/
def hugeFrame : List (CtrlLabel 2) := [.start, .connected 3 1 [0xff, 0xff, 0xff, 0xf8, 0, 5, 0, 0]]

theorem hugeFrame_run :
    (Lts.runFun (ctrlStep plainRPCrypt) exampleCtrl hugeFrame).map
        (fun s => (s.thread, s.recvBufSize, s.payloadSize)) = some (.loop, 8, 2 ^ 32 - 8) := by
  decide +kernel

/-- **It is dispatched at once**, with a payload outside of the buffer. -/
theorem not_ctrlFramingRight :
    ∃ s s' : Ctrl 2, (ctrlLts plainRPCrypt 2).Reachable s ∧ s.recvBufSize = 8 ∧
      s.payloadSize = 2 ^ 32 - 8 ∧ (ctrlLts plainRPCrypt 2).step s .round s' ∧
      ¬ CtrlFramingRight plainRPCrypt s' := by
  obtain ⟨s, hrun, hobs⟩ := Option.map_eq_some_iff.mp hugeFrame_run
  simp only [Prod.mk.injEq] at hobs
  obtain ⟨hthread, hsize, hpayload⟩ := hobs
  have hinit : (ctrlLts plainRPCrypt 2).Reachable exampleCtrl := .init ⟨_, _, rfl⟩
  exact ⟨s, ctrlRound plainRPCrypt s, hinit.runFun hrun, hsize, hpayload, ctrlStep_round hthread,
    not_right_of_wrap (Nat.le_of_eq hsize.symm) (Nat.le_of_eq hpayload.symm)⟩

end Chiaki

