import Chiaki.Ctrl.Connect
import Chiaki.Properties.Base64
import Chiaki.Properties.Ctrl.Response
import Chiaki.Properties.Ctrl.WakeUp
import Chiaki.Properties.Http.Received

/-!
# How connecting ctrl ends

* `ctrlConnect_right_iff` — `ctrl_connect` returns success only with a connection, and closes the socket
  once otherwise, unless it was canceled while it connected, or jumped to the error label without an error
-/

namespace Chiaki

open Infra

variable {session : CtrlConnectSession} {env : CtrlConnectEnv} {rpcrypt : RPCrypt} {counter : Nat}

/-! ## The values of the request -/

/-- All of these can be encrypted, with the counters from `counter` on. -/
def EncryptsAll (rpcrypt : RPCrypt) : Nat → List Bytes → Prop
  | _, [] => True
  | counter, plain :: plains =>
    (∃ enc, rpcrypt.encrypt counter plain = .ok enc) ∧ EncryptsAll rpcrypt (counter + 1) plains

theorem encryptsAll_append {plains more : List Bytes} :
    EncryptsAll rpcrypt counter (plains ++ more) ↔
      EncryptsAll rpcrypt counter plains ∧ EncryptsAll rpcrypt (counter + plains.length) more := by
  induction plains generalizing counter with
  | nil => exact (and_iff_right trivial).symm
  | cons plain plains ih =>
    rw [List.cons_append, EncryptsAll, EncryptsAll, ih, and_assoc, List.length_cons,
      Nat.add_right_comm counter, Nat.add_assoc counter]

/-- A part of the request has a result if all its values can be encrypted, else it ends with an error. -/
structure RequestPart {α : Type} (rpcrypt : RPCrypt) (x : ExceptT ErrorCode (StateT Nat (Except Fault)) α)
    (plains : List Bytes) (P : α → Prop) : Prop where
  ok : ∀ counter, EncryptsAll rpcrypt counter plains →
    ∃ a, x counter = .ok (.ok a, counter + plains.length) ∧ P a
  error : ∀ counter, ¬ EncryptsAll rpcrypt counter plains →
    ∃ err counter', x counter = .ok (.error err, counter') ∧ err ≠ .success

section

variable {α β : Type} {x : ExceptT ErrorCode (StateT Nat (Except Fault)) α}
  {f : α → ExceptT ErrorCode (StateT Nat (Except Fault)) β} {plains more : List Bytes} {P : α → Prop} {Q : β → Prop}

theorem RequestPart.bind (h : RequestPart rpcrypt x plains P)
    (hf : ∀ a, P a → RequestPart rpcrypt (f a) more Q) : RequestPart rpcrypt (x >>= f) (plains ++ more) Q where
  ok := fun counter hall => by
    obtain ⟨hplains, hmore⟩ := encryptsAll_append.mp hall
    obtain ⟨a, ha, hP⟩ := h.ok counter hplains
    obtain ⟨b, hb, hQ⟩ := (hf a hP).ok _ hmore
    refine ⟨b, ?_, hQ⟩
    rw [List.length_append, ← Nat.add_assoc]
    exact bind_eq_ok_iff.mpr ⟨_, ha, hb⟩
  error := fun counter hnot => by
    by_cases hplains : EncryptsAll rpcrypt counter plains
    · obtain ⟨a, ha, hP⟩ := h.ok counter hplains
      obtain ⟨err, counter', herr, hne⟩ := (hf a hP).error _ fun hmore =>
        hnot (encryptsAll_append.mpr ⟨hplains, hmore⟩)
      exact ⟨err, counter', bind_eq_ok_iff.mpr ⟨_, ha, herr⟩, hne⟩
    · obtain ⟨err, counter', herr, hne⟩ := h.error counter hplains
      exact ⟨err, counter', bind_eq_ok_iff.mpr ⟨_, herr, rfl⟩, hne⟩

theorem RequestPart.pure {a : α} (h : P a) : RequestPart rpcrypt (Pure.pure a) [] P where
  ok := fun _ _ => ⟨a, rfl, h⟩
  error := fun _ hnot => absurd trivial hnot

end

/-- **One value** has the length of its text. -/
theorem ctrlRequestField_part {plain : Bytes} {size : Nat} (hsize : 4 * ((plain.length + 2) / 3) + 1 ≤ size) :
    RequestPart session.rpcrypt (ctrlRequestField session env plain size) [plain]
      (fun text => text.bytes.length = 4 * ((plain.length + 2) / 3)) where
  ok := by
    rintro counter ⟨⟨enc, henc⟩, -⟩
    have hlen := session.rpcrypt.length_encrypt counter plain enc henc
    have hencodes := (base64Encode_spec enc (Nat.le_of_eq (env.length_stack size).symm)).fits (by rwa [hlen])
    have hholds : CString.Holds (splice (env.stack size) 0 (base64Text enc ++ [0])) 0
        ⟨base64Text enc, zero_notMem_base64Text enc⟩ := by
      rw [CString.Holds, splice, List.take_zero, List.nil_append, List.drop_zero]
      exact List.prefix_append _ _
    refine ⟨⟨base64Text enc, zero_notMem_base64Text enc⟩, ?_, ?_⟩
    · simp only [ctrlRequestField, henc, hencodes, bind, Except.bind, hholds.read_eq]
      rfl
    · rw [← hlen]
      exact length_base64Text enc
  error := by
    intro counter hnot
    cases henc : session.rpcrypt.encrypt counter plain with
    | ok enc => exact absurd ⟨⟨enc, henc⟩, trivial⟩ hnot
    | error err =>
      refine ⟨err, counter + 1, ?_, fun hsuccess => session.encrypt_error counter plain (hsuccess ▸ henc)⟩
      simp only [ctrlRequestField, henc]

/-- A value that the request may have. -/
theorem ctrlRequestFieldIf_part {present : Bool} {plain : Bytes} {size : Nat}
    (hsize : 4 * ((plain.length + 2) / 3) + 1 ≤ size) :
    RequestPart session.rpcrypt (ctrlRequestFieldIf session env present plain size) (if present then [plain] else [])
      (fun text => text.map (·.bytes.length) = if present then some (4 * ((plain.length + 2) / 3)) else none) := by
  unfold ctrlRequestFieldIf
  cases present with
  | true => exact (ctrlRequestField_part hsize).bind fun text htext => .pure (congrArg some htext)
  | false => exact .pure rfl

/-- What is encrypted for the request. -/
def ctrlRequestPlain (session : CtrlConnectSession) : List Bytes :=
  [session.registKey] ++ ([session.did] ++ ([sessionOstype ++ [0]] ++
    ((if session.target.hasBitrate then [List.replicate 4 0] else []) ++
      if session.target.isPs5 then [streamingTypeBuf session.videoProfile.codec.streamingType] else [])))

/-- The lengths of the values. -/
structure CtrlRequestLengths (target : Target) (fields : CtrlRequestFields) : Prop where
  auth : fields.auth.bytes.length = 24
  did : fields.did.bytes.length = 44
  ostype : fields.ostype.bytes.length = 16
  bitrate : fields.bitrate.map (·.bytes.length) = if target.hasBitrate then some 8 else none
  streamingType : fields.streamingType.map (·.bytes.length) = if target.isPs5 then some 8 else none

theorem length_streamingTypeBuf (streamingType : Nat) : (streamingTypeBuf streamingType).length = 4 := rfl

/-- **All values.** -/
theorem ctrlRequestFields_part (session : CtrlConnectSession) (env : CtrlConnectEnv) :
    RequestPart session.rpcrypt (ctrlRequestFields session env) (ctrlRequestPlain session)
      (CtrlRequestLengths session.target) := by
  have hkey := session.length_registKey
  have hdid := session.length_did
  unfold ctrlRequestFields ctrlRequestPlain
  refine (ctrlRequestField_part (by rw [hkey]; decide)).bind fun auth hauth => ?_
  refine (ctrlRequestField_part (by rw [hdid]; decide)).bind fun did hdidText => ?_
  rw [if_neg (by decide)]
  refine (ctrlRequestField_part (by decide)).bind fun ostype hostype => ?_
  refine (ctrlRequestFieldIf_part (by decide)).bind fun bitrate hbitrate => ?_
  rw [← List.append_nil (if session.target.isPs5 then _ else _)]
  refine (ctrlRequestFieldIf_part (by rw [length_streamingTypeBuf]; decide)).bind fun streamingType hstreamingType =>
    .pure ?_
  rw [hkey] at hauth
  rw [hdid] at hdidText
  rw [length_streamingTypeBuf] at hstreamingType
  exact ⟨hauth, hdidText, hostype, hbitrate, hstreamingType⟩

/-- How long the request is. -/
def ctrlRequestSize (session : CtrlConnectSession) : Nat :=
  session.hostname.bytes.length + (ctrlRequestPath session.target).length
    + ((rpVersionString session.target).getD []).length + (if session.target.hasBitrate then 27 else 0)
    + (if session.target.isPs5 then 28 else 0) + 293

theorem length_ctrlRequestOptional {name : Bytes} {value : Option CString} {present : Bool} {n : Nat}
    (h : value.map (·.bytes.length) = if present then some n else none) :
    (ctrlRequestOptional name value).length = if present then name.length + n + 2 else 0 := by
  cases present with
  | false =>
    rw [Option.map_eq_none_iff.mp h]
    rfl
  | true =>
    obtain ⟨text, rfl, hlen⟩ := Option.map_eq_some_iff.mp h
    rw [ctrlRequestOptional, Option.elim_some, List.length_append, List.length_append, hlen]
    rfl

theorem length_ctrlRequest {fields : CtrlRequestFields} (h : CtrlRequestLengths session.target fields) :
    (ctrlRequest session fields).length = ctrlRequestSize session := by
  have hport : (StrTo.decimal sessionCtrlPort).length = 4 := by decide +kernel
  have hfmt : [ascii "GET ", ascii " HTTP/1.1\r\n", ascii "Host: ", ascii ":", ascii "\r\n",
      ascii "User-Agent: remoteplay Windows\r\n", ascii "Connection: keep-alive\r\n",
      ascii "Content-Length: 0\r\n", ascii "RP-Auth: ", ascii "RP-Version: ", ascii "RP-Did: ",
      ascii "RP-ControllerType: 3\r\n", ascii "RP-ClientType: 11\r\n", ascii "RP-OSType: ",
      ascii "RP-ConPath: 1\r\n", ascii "RP-StartBitrate: ", ascii "RP-StreamingType: "].map List.length
        = [4, 11, 6, 1, 2, 32, 24, 19, 9, 12, 8, 22, 19, 11, 15, 17, 18] := by
    decide
  simp only [List.map_cons, List.map_nil, List.cons.injEq, and_true] at hfmt
  unfold ctrlRequest
  simp only [List.length_append, h.auth, h.did, h.ostype, length_ctrlRequestOptional h.bitrate,
    length_ctrlRequestOptional h.streamingType, hport, hfmt, Nat.reduceAdd]
  unfold ctrlRequestSize
  omega

/-! ## The response -/

variable {malloc : Nat → Bool} {charSigned autoDowngrade : Bool} {profile : ConnectVideoProfile} {buf bytes : Bytes}
  {headerSize receivedSize : Nat} {headers : List HttpHeader}

/-- One of the values for the type of the console makes the decoder leave its table. -/
def ServerTypeFaults (charSigned : Bool) (headers : List HttpHeader) : Prop :=
  ∃ value ∈ serverTypes headers, HighByteReached charSigned (serverTypeText value) rpServerTypeSize

theorem ctrlConnectResponse_ok {response : CtrlResponse} (hsuccess : response.success = true)
    (h : parseCtrlResponse charSigned 200 headers = .ok response) :
    ∃ connection, ctrlConnectResponse rpcrypt charSigned autoDowngrade profile 200 headers
      = .ok (.ok connection) := by
  simp only [ctrlConnectResponse, h, bind, Except.bind]
  rw [if_neg (by rw [hsuccess]; exact Bool.noConfusion)]
  by_cases hvalid : response.serverTypeValid = false
  · rw [if_pos hvalid]
    exact ⟨_, rfl⟩
  · rw [if_neg hvalid]
    cases rpcrypt.decrypt 0 response.rpServerType with
    | error err => exact ⟨_, rfl⟩
    | ok rpServerType => exact ⟨_, rfl⟩

/-- What becomes of a response with code 200. -/
inductive ResponseAccepted (charSigned : Bool) (headers : List HttpHeader) :
    Except Fault (Except ErrorCode CtrlConnection) → Prop
  | fault (hfault : ServerTypeFaults charSigned headers) : ResponseAccepted charSigned headers (.error .outOfBounds)
  | connected (connection : CtrlConnection) (hlow : ¬ ServerTypeFaults charSigned headers) :
    ResponseAccepted charSigned headers (.ok (.ok connection))

theorem ctrlConnectResponse_accepted (rpcrypt : RPCrypt) (charSigned autoDowngrade : Bool)
    (profile : ConnectVideoProfile) (headers : List HttpHeader) :
    ResponseAccepted charSigned headers
      (ctrlConnectResponse rpcrypt charSigned autoDowngrade profile 200 headers) := by
  have hresult := @parseCtrlResponse_result charSigned 200 headers rfl
  generalize hparse : parseCtrlResponse charSigned 200 headers = result at hresult
  cases hresult with
  | fault value hmem hhigh =>
    simp only [ctrlConnectResponse, hparse, bind, Except.bind]
    exact .fault ⟨value, hmem, hhigh⟩
  | none hnone =>
    obtain ⟨connection, hconnection⟩ := ctrlConnectResponse_ok rfl hparse
    rw [hconnection]
    refine .connected connection ?_
    rintro ⟨value, hmem, -⟩
    rw [hnone] at hmem
    cases hmem
  | last value response hlast hlow hsuccess hread =>
    obtain ⟨connection, hconnection⟩ := ctrlConnectResponse_ok hsuccess hparse
    rw [hconnection]
    refine .connected connection ?_
    rintro ⟨value, hmem, hhigh⟩
    exact hlow value hmem hhigh

/-- How `ctrl_connect` goes on with what was received. -/
inductive ReceivedResult (malloc : Nat → Bool) (charSigned : Bool) (buf : Bytes) (headerSize receivedSize : Nat) :
    Except Fault (Except ErrorCode (CtrlConnection × Bytes)) → Prop
  | fault (headers : List HttpHeader) (hresponse : ReceivedResponse malloc buf headerSize 200 headers)
      (hfault : ServerTypeFaults charSigned headers) :
    ReceivedResult malloc charSigned buf headerSize receivedSize (.error .outOfBounds)
  | connected (headers : List HttpHeader) (connection : CtrlConnection)
      (hresponse : ReceivedResponse malloc buf headerSize 200 headers)
      (hlow : ¬ ServerTypeFaults charSigned headers) :
    ReceivedResult malloc charSigned buf headerSize receivedSize
      (.ok (.ok (connection, slice buf headerSize (receivedSize - headerSize))))
  | error (err : ErrorCode) (herr : err ≠ .success)
      (hnot : ∀ headers, ¬ ReceivedResponse malloc buf headerSize 200 headers) :
    ReceivedResult malloc charSigned buf headerSize receivedSize (.ok (.error err))

/-- **What was received** leads to a connection if and only if it is a response with code 200. -/
theorem ctrlConnectReceived_result (hheader : headerSize ≤ receivedSize) (hreceived : receivedSize ≤ buf.length) :
    ReceivedResult malloc charSigned buf headerSize receivedSize
      (ctrlConnectReceived malloc rpcrypt charSigned autoDowngrade profile buf headerSize receivedSize) := by
  have hresult := httpResponseParse_result malloc (hheader.trans hreceived)
  generalize hparse : httpResponseParse malloc buf headerSize = result at hresult
  cases hresult with
  | error mem err herr hnot =>
    simp only [ctrlConnectReceived, hparse, bind, Except.bind]
    exact .error err herr fun headers hresponse =>
      hnot _ _ ((receivedResponse_iff (hheader.trans hreceived)).mp hresponse)
  | success mem code entries headers hreads hheaders =>
    have hresponse : ReceivedResponse malloc buf headerSize code headers := ⟨mem, entries, hparse, hheaders⟩
    obtain ⟨hlen, hbehind⟩ := httpResponseParse_behind hparse
    simp only [ctrlConnectReceived, hparse, bind, Except.bind, hheaders]
    by_cases hcode : code = 200
    · subst hcode
      have haccepted := ctrlConnectResponse_accepted rpcrypt charSigned autoDowngrade profile headers
      generalize ctrlConnectResponse rpcrypt charSigned autoDowngrade profile 200 headers = result at haccepted
      cases haccepted with
      | fault hfault => exact .fault headers hresponse hfault
      | connected connection hlow =>
        simp only
        rw [if_neg (by omega), slice, hbehind]
        exact .connected headers connection hresponse hlow
    · have hparseCtrl : parseCtrlResponse charSigned code headers
          = .ok ⟨false, List.replicate rpServerTypeSize 0, false⟩ := by
        rw [parseCtrlResponse, if_pos hcode]
      simp only [ctrlConnectResponse, hparseCtrl, bind, Except.bind]
      exact .error .unknown ErrorCode.noConfusion fun headers' hresponse' => hcode (hresponse.unique hresponse').1

/-- What stands at the beginning of a buffer is the response in it. -/
theorem receivedResponse_splice {code : Int} (hheader : headerSize ≤ bytes.length) (hbytes : bytes.length ≤ buf.length) :
    ReceivedResponse malloc (splice buf 0 bytes) headerSize code headers ↔
      ReceivedResponse malloc bytes headerSize code headers := by
  have hlen : (splice buf 0 bytes).length = buf.length := length_splice (by omega)
  rw [receivedResponse_iff (by omega), receivedResponse_iff hheader, splice, List.take_zero, List.nil_append,
    List.take_append_of_le_length hheader]

/-! ## The outcome -/

/-- There is a connection: the request was sent and a response with code 200 was received, the socket is open, and
`recv_buf` holds what came behind the header. -/
structure CtrlConnected (session : CtrlConnectSession) (env : CtrlConnectEnv) (ctrl : CtrlConnect) (sock : Nat)
    (fields : CtrlRequestFields) (first : List RecvRound) (headerSize : Nat) (headers : List HttpHeader) : Prop where
  ctrlSock : ctrl.sock = some sock
  sockets : ctrl.sockets = [.opened sock,
    .send sock (ctrlRequest session fields) (ctrlRequest session fields).length]
  header : HeaderRounds env.rounds first headerSize
  response : ReceivedResponse env.mallocHeader (recvBytes first) headerSize 200 headers
  rest : ctrl.recvBuf = (recvBytes first).drop headerSize

/-- Every socket was closed as often as it was opened. -/
def SocketsClosed (sockets : List SocketEvent) : Prop :=
  ∀ sock, sockets.count (.closed sock) = sockets.count (.opened sock)

/-- What a call may end with: success only with a connection, or an error with no socket left. -/
def CtrlConnectEnds (session : CtrlConnectSession) (env : CtrlConnectEnv)
    (result : Except Fault (Option (CtrlConnect × ErrorCode))) : Prop :=
  ∃ returned, result = .ok returned ∧ ∀ ctrl err, returned = some (ctrl, err) →
    (err = .success → ∃ sock fields first headerSize headers,
      CtrlConnected session env ctrl sock fields first headerSize headers) ∧
    (err ≠ .success → SocketsClosed ctrl.sockets)

section

variable {ctrl : CtrlConnect} {err : ErrorCode} {sock : Nat} {fields : CtrlRequestFields}

theorem ctrlConnectEnds_error (herr : err ≠ .success) (hclosed : SocketsClosed ctrl.sockets) :
    CtrlConnectEnds session env (.ok (some (ctrl, err))) := by
  refine ⟨_, rfl, ?_⟩
  rintro _ _ ⟨⟩
  exact ⟨fun h => absurd h herr, fun _ => hclosed⟩

theorem not_ctrlConnectEnds_fault (f : Fault) : ¬ CtrlConnectEnds session env (.error f) := by
  rintro ⟨returned, herror, -⟩
  cases herror

/-- Success without a socket is none. -/
theorem not_ctrlConnectEnds_success (hsock : ctrl.sock = none) :
    ¬ CtrlConnectEnds session env (.ok (some (ctrl, .success))) := by
  rintro ⟨_, ⟨⟩, h⟩
  obtain ⟨sock, fields, first, headerSize, headers, hconnected⟩ := (h _ _ rfl).1 rfl
  cases hsock.symm.trans hconnected.ctrlSock

theorem socketsClosed_once (sock : Nat) : SocketsClosed [.opened sock, .closed sock] := by
  intro sock'
  by_cases hsame : sock = sock' <;> simp [hsame]

theorem socketsClosed_sent (sock : Nat) (data : Bytes) (sent : Int) :
    SocketsClosed [.opened sock, .send sock data sent, .closed sock] := by
  intro sock'
  by_cases hsame : sock = sock' <;> simp [hsame]

/-- What must hold of the request and of the response to it: the request fits and is sent, what is received fits, and a
response with code 200 follows a request that was sent as a whole, and does not make the decoder leave its table. -/
structure RequestAnswered (session : CtrlConnectSession) (env : CtrlConnectEnv) : Prop where
  fits : ctrlRequestSize session < ctrlConnectBufSize
  sent : 0 ≤ env.sent
  received : RecvFits ctrlConnectBufSize env.rounds
  response : ∀ first headerSize headers, HeaderRounds env.rounds first headerSize →
    ReceivedResponse env.mallocHeader (recvBytes first) headerSize 200 headers →
    env.sent = ctrlRequestSize session ∧ ¬ ServerTypeFaults env.charSigned headers

/-- Behind a response with code 200. -/
theorem requestAnswered_iff {first : List RecvRound} {headerSize : Nat} {headers : List HttpHeader}
    (hsize : ctrlRequestSize session < ctrlConnectBufSize) (hsent : 0 ≤ env.sent)
    (hfits : RecvFits ctrlConnectBufSize env.rounds) (hfirst : HeaderRounds env.rounds first headerSize)
    (hresponse : ReceivedResponse env.mallocHeader (recvBytes first) headerSize 200 headers) :
    RequestAnswered session env ↔ env.sent = ctrlRequestSize session ∧ ¬ ServerTypeFaults env.charSigned headers := by
  refine ⟨fun h => h.response first headerSize headers hfirst hresponse, fun h => ⟨hsize, hsent, hfits, ?_⟩⟩
  intro first' headerSize' headers' hfirst' hresponse'
  obtain ⟨rfl, rfl⟩ := hfirst.unique hfirst'
  obtain ⟨-, rfl⟩ := hresponse.unique hresponse'
  exact h

/-- A connection is one only if the whole request was sent. -/
theorem ctrlConnectEnds_connected {first : List RecvRound} {headerSize : Nat} {headers : List HttpHeader}
    (hfields : CtrlRequestLengths session.target fields) (hsock : ctrl.sock = some sock)
    (hsockets : ctrl.sockets = [.opened sock, .send sock (ctrlRequest session fields) env.sent])
    (hfirst : HeaderRounds env.rounds first headerSize)
    (hresponse : ReceivedResponse env.mallocHeader (recvBytes first) headerSize 200 headers)
    (hrest : ctrl.recvBuf = (recvBytes first).drop headerSize) :
    CtrlConnectEnds session env (.ok (some (ctrl, .success))) ↔ env.sent = ctrlRequestSize session := by
  have hlen := length_ctrlRequest hfields
  constructor
  · rintro ⟨_, ⟨⟩, h⟩
    obtain ⟨sock', fields', _, _, _, hconnected⟩ := (h _ _ rfl).1 rfl
    have hlog := hsockets.symm.trans hconnected.sockets
    simp only [List.cons.injEq, SocketEvent.send.injEq, and_true] at hlog
    obtain ⟨-, -, hrequest, hall⟩ := hlog
    rw [hall, ← hrequest, hlen]
  · intro hall
    refine ⟨_, rfl, ?_⟩
    rintro _ _ ⟨⟩
    refine ⟨fun _ => ⟨sock, fields, first, headerSize, headers, hsock, ?_, hfirst, hresponse, hrest⟩,
      fun hnot => absurd rfl hnot⟩
    rw [hlen, ← hall]
    exact hsockets

/-- **From the request on.** -/
theorem ctrlConnectExchange_ends (hsock : ctrl.sock = none) (hsockets : ctrl.sockets = [.opened sock])
    (hfields : CtrlRequestLengths session.target fields) :
    CtrlConnectEnds session env (ctrlConnectExchange session env ctrl sock fields) ↔ RequestAnswered session env := by
  have hlen := length_ctrlRequest hfields
  have hsent : (ctrl.log (.send sock (ctrlRequest session fields) env.sent)).sockets
      = [.opened sock, .send sock (ctrlRequest session fields) env.sent] := by
    rw [CtrlConnect.log, hsockets]
    rfl
  have hclosed : SocketsClosed ((ctrl.log (.send sock (ctrlRequest session fields) env.sent)).log (.closed sock)).sockets := by
    rw [CtrlConnect.log, hsent]
    exact socketsClosed_sent sock _ _
  rw [ctrlConnectExchange]
  by_cases hlarge : ctrlConnectBufSize ≤ (ctrlRequest session fields).length
  · rw [if_pos hlarge]
    exact iff_of_false (not_ctrlConnectEnds_success hsock) fun h => absurd h.fits (by omega)
  rw [if_neg hlarge]
  simp only
  by_cases hfailed : env.sent < 0
  · rw [if_pos hfailed]
    exact iff_of_false (not_ctrlConnectEnds_success hsock) fun h => absurd h.sent (by omega)
  rw [if_neg hfailed]
  have hbuf : (splice (env.stack ctrlConnectBufSize) 0 (ctrlRequest session fields ++ [0])).length
      = ctrlConnectBufSize := by
    rw [length_splice, env.length_stack]
    rw [env.length_stack, List.length_append, List.length_singleton]
    omega
  generalize splice (env.stack ctrlConnectBufSize) 0 (ctrlRequest session fields ++ [0]) = buf at hbuf ⊢
  have hwrite := @recvWrite_isOk_iff buf env.rounds ctrlConnectBufSize
  rw [hbuf] at hwrite
  generalize hheader : recvHttpHeader true ctrlConnectBufSize env.rounds = header at hwrite ⊢
  obtain ⟨header, result⟩ := header
  by_cases hfits : RecvFits ctrlConnectBufSize env.rounds
  · obtain ⟨buf', hbuf'⟩ := hwrite.mpr hfits
    -- without the end of the header there is no response
    have hnone : (∀ headerSize, result ≠ .success headerSize) → RequestAnswered session env := fun hnot =>
      ⟨by omega, by omega, hfits, fun first headerSize headers hfirst => by
        obtain ⟨s', headerSize', hfound⟩ := @HeaderRounds.found env.rounds first headerSize ctrlConnectBufSize hfirst
        cases hheader.symm.trans hfound
        exact absurd rfl (hnot headerSize')⟩
    simp only [hbuf', bind, Except.bind]
    cases result with
    | waiting => exact iff_of_true ⟨none, rfl, nofun⟩ (hnone nofun)
    | error err => exact iff_of_true (ctrlConnectEnds_error (recvHttpHeaderLoop_error hheader) hclosed) (hnone nofun)
    | success headerSize =>
      obtain ⟨first, hfirst, -, hreceived, hle, rfl⟩ :=
        recvHttpHeader_received hheader hbuf' (by rw [hbuf]; decide)
      have hheaderSize := hfirst.ends.le_length
      have hbuf'' : (splice buf 0 (recvBytes first)).length = buf.length := length_splice (by omega)
      have hresult := @ctrlConnectReceived_result session.rpcrypt env.mallocHeader env.charSigned
        session.videoProfileAutoDowngrade session.videoProfile (splice buf 0 (recvBytes first)) headerSize
        header.receivedSize (by omega) (by omega)
      simp only
      generalize ctrlConnectReceived env.mallocHeader session.rpcrypt env.charSigned
        session.videoProfileAutoDowngrade session.videoProfile (splice buf 0 (recvBytes first)) headerSize
        header.receivedSize = received at hresult ⊢
      cases hresult with
      | fault headers hresponse hfault =>
        refine iff_of_false (not_ctrlConnectEnds_fault _) fun h => ?_
        exact (h.response first headerSize headers hfirst ((receivedResponse_splice hheaderSize hle).mp hresponse)).2 hfault
      | error err herr hnot =>
        refine iff_of_true (ctrlConnectEnds_error herr hclosed) ⟨by omega, by omega, hfits, ?_⟩
        intro first' headerSize' headers hfirst' hresponse
        obtain ⟨rfl, rfl⟩ := hfirst.unique hfirst'
        exact absurd ((receivedResponse_splice hheaderSize hle).mpr hresponse) (hnot headers)
      | connected headers connection hresponse hlow =>
        have hresponse := (receivedResponse_splice hheaderSize hle).mp hresponse
        have hrest : slice (splice buf 0 (recvBytes first)) headerSize (header.receivedSize - headerSize)
            = (recvBytes first).drop headerSize := by
          rw [hreceived, slice, splice, List.take_zero, List.nil_append, List.drop_append_of_le_length hheaderSize,
            ← List.length_drop, List.take_left]
        refine (@ctrlConnectEnds_connected session env _ sock fields first headerSize headers hfields ?_ ?_ hfirst
          hresponse ?_).trans
            ((requestAnswered_iff (by omega) (by omega) hfits hfirst hresponse).trans (and_iff_left hlow)).symm
        · rfl
        · exact hsent
        · exact hrest
  · have hfault : ∃ f, recvWrite buf header.calls env.rounds = .error f := by
      cases hresult : recvWrite buf header.calls env.rounds with
      | ok buf' => exact absurd (hwrite.mp ⟨buf', hresult⟩) hfits
      | error f => exact ⟨f, rfl⟩
    obtain ⟨f, hf⟩ := hfault
    simp only [hf, bind, Except.bind]
    exact iff_of_false (not_ctrlConnectEnds_fault f) fun h => hfits h.received

end

/-! ## The whole call -/

/-- The socket, if there is one. -/
def CtrlConnectEnv.opened (env : CtrlConnectEnv) : Option Nat :=
  if env.malloc = true ∧ env.saFamily ≠ .other then env.socket else none

/-- What must hold of a call with a socket: it is not canceled while it connects, and what holds of the request if
there is one. -/
def CtrlConnectSound (session : CtrlConnectSession) (env : CtrlConnectEnv) : Prop :=
  ∀ sock, env.opened = some sock → env.connect ≠ .canceled ∧
    (env.connect = .success → EncryptsAll session.rpcrypt 0 (ctrlRequestPlain session) →
      RequestAnswered session env)

/-- Without a socket, an error is returned. -/
theorem ctrlConnect_unopened (h : env.opened = none) : ∃ ctrl err,
    ctrlConnect session env = .ok (some (ctrl, err)) ∧ err ≠ .success ∧ ctrl.sockets = [] := by
  unfold ctrlConnect
  cases hmalloc : env.malloc with
  | false => exact ⟨_, .memory, rfl, nofun, rfl⟩
  | true =>
    rw [if_neg (by decide)]
    by_cases hfamily : env.saFamily = .other
    · rw [if_pos hfamily]
      exact ⟨_, .invalidData, rfl, nofun, rfl⟩
    · rw [CtrlConnectEnv.opened, if_pos ⟨hmalloc, hfamily⟩] at h
      rw [if_neg hfamily, h]
      exact ⟨_, .network, rfl, nofun, rfl⟩

/-- **Success is returned only with a connection, and the socket is closed once otherwise**, if and only if the call was
not canceled while it connected and what follows the encryption went well. -/
theorem ctrlConnect_right_iff (session : CtrlConnectSession) (env : CtrlConnectEnv) :
    CtrlConnectEnds session env (ctrlConnect session env) ↔ CtrlConnectSound session env := by
  cases hopened : env.opened with
  | none =>
    obtain ⟨ctrl, err, hresult, herr, hsockets⟩ := @ctrlConnect_unopened session env hopened
    rw [hresult]
    refine iff_of_true (ctrlConnectEnds_error herr ?_) fun sock hsock => ?_
    · rw [hsockets]
      exact fun _ => rfl
    · cases hopened.symm.trans hsock
  | some sock =>
    have hsound : CtrlConnectSound session env ↔ env.connect ≠ .canceled ∧
        (env.connect = .success → EncryptsAll session.rpcrypt 0 (ctrlRequestPlain session) →
          RequestAnswered session env) :=
      ⟨fun h => h sock hopened, fun h _ _ => h⟩
    rw [hsound]
    unfold CtrlConnectEnv.opened at hopened
    by_cases hready : env.malloc = true ∧ env.saFamily ≠ .other
    · rw [if_pos hready] at hopened
      unfold ctrlConnect
      rw [hready.1, if_neg (by decide), if_neg hready.2, hopened]
      simp only
      by_cases hcanceled : env.connect = .canceled
      · -- the socket is closed where the call is canceled, and at the error label
        rw [if_pos hcanceled]
        refine iff_of_false ?_ fun h => h.1 hcanceled
        rintro ⟨_, ⟨⟩, h⟩
        have hclosed := (h _ _ rfl).2 nofun sock
        simp [CtrlConnect.log] at hclosed
      rw [if_neg hcanceled]
      by_cases hconnect : env.connect ≠ .success
      · rw [if_pos hconnect]
        exact iff_of_true (ctrlConnectEnds_error hconnect (socketsClosed_once sock))
          ⟨hcanceled, fun h => absurd h hconnect⟩
      rw [if_neg hconnect]
      have hpart := ctrlRequestFields_part session env
      by_cases hall : EncryptsAll session.rpcrypt 0 (ctrlRequestPlain session)
      · obtain ⟨fields, hfields, hlengths⟩ := hpart.ok 0 hall
        simp only [hfields, bind, Except.bind]
        rw [ctrlConnectExchange_ends rfl rfl hlengths]
        exact ⟨fun h => ⟨hcanceled, fun _ _ => h⟩, fun h => h.2 (not_not.mp hconnect) hall⟩
      · obtain ⟨err, counter, hfields, herr⟩ := hpart.error 0 hall
        simp only [hfields, bind, Except.bind]
        exact iff_of_true (ctrlConnectEnds_error herr (socketsClosed_once sock))
          ⟨hcanceled, fun _ h => absurd h hall⟩
    · rw [if_neg hready] at hopened
      cases hopened

/-- A console of the current generation, and a cipher that leaves its input as it is. -/
def exampleCtrlSession : CtrlConnectSession where
  target := .ps51
  hostname := ⟨ascii "10.0.0.1", by decide⟩
  registKey := List.replicate 16 1
  did := List.replicate 32 2
  videoProfile := connectVideoProfilePreset .p1080 .fps60
  videoProfileAutoDowngrade := false
  rpcrypt := plainRPCrypt
  length_hostname := by decide
  length_registKey := rfl
  length_did := rfl
  encrypt_error := nofun

/-- The results of `chiaki_stop_pipe_connect` and of `send`, and a response behind which a message begins. -/
def exampleCtrlEnv (connect : ErrorCode) (sent : Int) : CtrlConnectEnv where
  malloc := true
  saFamily := .inet
  socket := some 7
  connect := connect
  sent := sent
  rounds := [⟨.success, .received (ascii "HTTP/1.1 200 OK\r\nA: b\r\n\r\n" ++ [0x2a]) (by decide)⟩]
  mallocHeader := fun _ => true
  charSigned := true
  stack := fun size => List.replicate size 0
  length_stack := fun _ => List.length_replicate

/-- With 380 bytes that are all sent, there is a connection. -/
example : (ctrlConnect exampleCtrlSession (exampleCtrlEnv .success 380)).map (Option.map fun r =>
    (r.1.sock, r.1.recvBuf, r.2)) = .ok (some (some 7, [0x2a], .success)) := by
  decide +kernel

/-- Who stops ctrl while it connects closes the socket twice, and a request that cannot be sent is a success. -/
theorem not_ctrlConnect_right :
    ¬ CtrlConnectEnds exampleCtrlSession (exampleCtrlEnv .canceled 380)
      (ctrlConnect exampleCtrlSession (exampleCtrlEnv .canceled 380)) ∧
    ¬ CtrlConnectEnds exampleCtrlSession (exampleCtrlEnv .success (-1))
      (ctrlConnect exampleCtrlSession (exampleCtrlEnv .success (-1))) := by
  constructor
  · rintro ⟨_, ⟨⟩, h⟩
    have hclosed := (h _ _ rfl).2 nofun 7
    exact absurd hclosed (by decide)
  · have hrun : (ctrlConnect exampleCtrlSession (exampleCtrlEnv .success (-1))).map (Option.map fun r =>
        (r.1.sock, r.2)) = .ok (some (none, .success)) := by
      decide +kernel
    rintro ⟨returned, hreturned, h⟩
    rw [hreturned] at hrun
    cases returned with
    | none => cases hrun
    | some r =>
      obtain ⟨hsock, herr⟩ := Prod.mk.inj (Option.some.inj (Except.ok.inj hrun))
      obtain ⟨sock, _, _, _, _, hconnected⟩ := (h r.1 r.2 rfl).1 herr
      cases hsock.symm.trans hconnected.ctrlSock

end Chiaki
