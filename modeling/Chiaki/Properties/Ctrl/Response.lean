import Chiaki.Ctrl.Response
import Chiaki.Properties.Base64
import Chiaki.Properties.Http.Response

/-!
# Which type of the console is accepted

`parse_ctrl_response` does not look at what the decoder returns. The size that it looks at keeps its value
if the decoder fails, and that is the size of a valid type (`parseCtrlResponse_accepts_iff`).
-/

namespace Chiaki

open Infra

variable {charSigned : Bool} {code : Int} {headers : List HttpHeader} {value : CString} {bytes : Bytes}

/-! ## One value -/

/-- `parse_ctrl_response` decodes a value with the NUL behind it. -/
def serverTypeText (value : CString) : Bytes := value.bytes ++ [0]

/-- The value decodes without an error to these 16 bytes. -/
def ServerTypeDecodes (charSigned : Bool) (value : CString) (bytes : Bytes) : Prop :=
  base64Decode charSigned (serverTypeText value) (value.bytes.length + 1)
    (List.replicate rpServerTypeSize 0) rpServerTypeSize = .ok (bytes, rpServerTypeSize, .success)

/-- Characters of the alphabet and spaces, and a `=` behind them. The characters do not fill more than 16
bytes. -/
def ServerTypeTerminated (value : CString) : Prop :=
  base64Stop (serverTypeText value) = some 0x3d ∧ (base64Sextets (serverTypeText value)).length ≤ 22

/-- What a terminated value stands for. -/
def serverTypeBytes (value : CString) : Bytes := Sextet.ofSextets (base64Sextets (serverTypeText value))

theorem length_serverTypeBytes (value : CString) : (serverTypeBytes value).length ≤ rpServerTypeSize ↔
    (base64Sextets (serverTypeText value)).length ≤ 22 := by
  rw [serverTypeBytes, Sextet.length_ofSextets, rpServerTypeSize]
  omega

/-- The NUL stops the decoder at the latest. -/
theorem serverTypeStop (value : CString) : ∃ c, base64Stop (serverTypeText value) = some c := by
  rw [← Option.isSome_iff_exists, base64Stop, List.find?_isSome]
  refine ⟨0, by simp [serverTypeText], by decide +kernel⟩

/-- How the decoder ends on a value. -/
inductive ServerTypeDecode (charSigned : Bool) (value : CString) (out : Bytes) :
    Except Fault (Bytes × Nat × ErrorCode) → Prop
  | decoded (hterminated : ServerTypeTerminated value) (hle : (serverTypeBytes value).length ≤ rpServerTypeSize)
      (hlow : ¬ HighByteReached charSigned (serverTypeText value) rpServerTypeSize) :
    ServerTypeDecode charSigned value out
      (.ok (splice out 0 (serverTypeBytes value), (serverTypeBytes value).length, .success))
  | failed (out' : Bytes) (err : ErrorCode) (herr : err ≠ .success) (hnot : ¬ ServerTypeTerminated value)
      (hlow : ¬ HighByteReached charSigned (serverTypeText value) rpServerTypeSize)
      (hlen : out'.length = out.length) :
    ServerTypeDecode charSigned value out (.ok (out', rpServerTypeSize, err))
  | fault (hnot : ¬ ServerTypeTerminated value)
      (hhigh : HighByteReached charSigned (serverTypeText value) rpServerTypeSize) :
    ServerTypeDecode charSigned value out (.error .outOfBounds)

theorem not_highByteReached {text : Bytes} {outSize : Nat} (h : base64Stop text = some 0x3d) :
    ¬ HighByteReached charSigned text outSize := by
  rintro ⟨-, ⟨c, hc, hhigh⟩, -⟩
  cases hc.symm.trans h
  exact absurd hhigh (by decide)

theorem serverTypeDecode (value : CString) {out : Bytes} (hout : out.length = rpServerTypeSize) :
    ServerTypeDecode charSigned value out
      (base64Decode charSigned (serverTypeText value) (value.bytes.length + 1) out rpServerTypeSize) := by
  have htext : (serverTypeText value).length = value.bytes.length + 1 := by simp [serverTypeText]
  have hresult := @base64Decode_result out rpServerTypeSize charSigned (serverTypeText value)
    (value.bytes.length + 1) (Nat.le_of_eq htext.symm) (Nat.le_of_eq hout.symm)
  obtain ⟨c, hc⟩ := serverTypeStop value
  have hfits := length_serverTypeBytes value
  rw [← htext] at hresult ⊢
  rw [List.take_length] at hresult
  generalize base64Decode charSigned (serverTypeText value) (serverTypeText value).length out
    rpServerTypeSize = result at hresult ⊢
  cases hresult with
  | success hstop hle =>
    have hequals := hstop c hc
    subst hequals
    exact .decoded ⟨hc, hfits.mp hle⟩ hle (not_highByteReached hc)
  | tooSmall out' h hstop hlen =>
    refine .failed out' _ (by decide) (fun hterminated => ?_) (fun hhigh => ?_) hlen
    · exact absurd (hfits.mpr hterminated.2) (Nat.not_le.mpr h)
    · rcases hstop with hlt | hstop
      · exact absurd hhigh.2.2 (Nat.not_le.mpr hlt)
      · exact not_highByteReached (hstop c hc ▸ hc) hhigh
  | invalid d out' hle hd hlow hne hlen =>
    refine .failed out' _ (by decide) (fun hterminated => ?_) (fun hhigh => ?_) hlen
    · exact hne (Option.some.inj (hd.symm.trans hterminated.1))
    · obtain ⟨e, he, hhigh'⟩ := hhigh.2.1
      cases hd.symm.trans he
      exact hlow ⟨hhigh.1, hhigh'⟩
  | fault d hle hd hhigh =>
    have hreached : HighByteReached charSigned (serverTypeText value) rpServerTypeSize :=
      ⟨hhigh.1, ⟨d, hd, hhigh.2⟩, hle⟩
    exact .fault (fun hterminated => not_highByteReached hterminated.1 hreached) hreached

/-- What it means that a value decodes, in terms of its characters. -/
theorem serverTypeDecodes_iff : ServerTypeDecodes charSigned value bytes ↔
    ServerTypeTerminated value ∧ bytes = serverTypeBytes value ∧ bytes.length = rpServerTypeSize := by
  have hdecode := @serverTypeDecode charSigned value (List.replicate rpServerTypeSize 0) List.length_replicate
  rw [ServerTypeDecodes]
  generalize base64Decode charSigned (serverTypeText value) (value.bytes.length + 1)
    (List.replicate rpServerTypeSize 0) rpServerTypeSize = result at hdecode ⊢
  cases hdecode with
  | decoded hterminated hle =>
    constructor
    · intro h
      injection h with h
      injection h with hbytes hsize
      injection hsize with hsize
      rw [splice_all (hsize.trans List.length_replicate.symm)] at hbytes
      exact ⟨hterminated, hbytes.symm, hbytes ▸ hsize⟩
    · rintro ⟨-, rfl, hsize⟩
      rw [splice_all (hsize.trans List.length_replicate.symm), hsize]
  | failed out' err herr hnot =>
    constructor
    · intro h
      injection h with h
      injection h with _ h
      injection h with _ h
      exact absurd h herr
    · exact fun h => absurd h.1 hnot
  | fault hnot =>
    constructor
    · intro h
      cases h
    · exact fun h => absurd h.1 hnot

/-- What `parse_ctrl_response` has made of a value. -/
structure ServerTypeRead (value : CString) (response : CtrlResponse) : Prop where
  length : response.rpServerType.length = rpServerTypeSize
  valid : response.serverTypeValid = true ↔
    (ServerTypeTerminated value → (serverTypeBytes value).length = rpServerTypeSize)
  bytes : ServerTypeTerminated value → (serverTypeBytes value).length = rpServerTypeSize →
    response.rpServerType = serverTypeBytes value

/-- **One header.** -/
theorem parseCtrlHeader_match {header : HttpHeader} {response : CtrlResponse}
    (hkey : header.key.bytes = ascii "RP-Server-Type") (hlen : response.rpServerType.length = rpServerTypeSize) :
    (HighByteReached charSigned (serverTypeText header.value) rpServerTypeSize ∧
      parseCtrlHeader charSigned response header = .error .outOfBounds) ∨
    (¬ HighByteReached charSigned (serverTypeText header.value) rpServerTypeSize ∧
      ∃ response', parseCtrlHeader charSigned response header = .ok response' ∧
        response'.success = response.success ∧ ServerTypeRead header.value response') := by
  have hdecode := @serverTypeDecode charSigned header.value response.rpServerType hlen
  rw [parseCtrlHeader, if_pos hkey, ← serverTypeText]
  generalize base64Decode charSigned (serverTypeText header.value) (header.value.bytes.length + 1)
    response.rpServerType rpServerTypeSize = result at hdecode ⊢
  cases hdecode with
  | decoded hterminated hle hlow =>
    refine .inr ⟨hlow, _, rfl, rfl, (length_splice ?_).trans hlen, ?_, fun _ h => splice_all ?_⟩
    · rwa [hlen, Nat.zero_add]
    · rw [decide_eq_true_iff]
      exact ⟨fun h _ => h, fun h => h hterminated⟩
    · exact h.trans hlen.symm
  | failed out' err herr hnot hlow hout =>
    refine .inr ⟨hlow, _, rfl, rfl, hout.trans hlen, ?_, fun h => absurd h hnot⟩
    exact ⟨fun _ hterminated => absurd hterminated hnot, fun _ => by simp⟩
  | fault hnot hhigh => exact .inl ⟨hhigh, rfl⟩

/-! ## The loop over the headers -/

theorem parseCtrlHeader_other {header : HttpHeader} (h : header.key.bytes ≠ ascii "RP-Server-Type")
    (response : CtrlResponse) : parseCtrlHeader charSigned response header = .ok response := by
  rw [parseCtrlHeader, if_neg h]
  rfl

/-- The values that `parse_ctrl_response` looks at. -/
def serverTypes (headers : List HttpHeader) : List CString := headerValues "RP-Server-Type" headers

/-- How the loop over the headers ends: only the last value matters, but each of them is decoded. -/
inductive ServerTypesResult (charSigned : Bool) (headers : List HttpHeader) (response : CtrlResponse) :
    Except Fault CtrlResponse → Prop
  | fault (value : CString) (hmem : value ∈ serverTypes headers)
      (hhigh : HighByteReached charSigned (serverTypeText value) rpServerTypeSize) :
    ServerTypesResult charSigned headers response (.error .outOfBounds)
  | none (hnone : serverTypes headers = []) : ServerTypesResult charSigned headers response (.ok response)
  | last (value : CString) (response' : CtrlResponse) (hlast : (serverTypes headers).getLast? = some value)
      (hlow : ∀ value ∈ serverTypes headers,
        ¬ HighByteReached charSigned (serverTypeText value) rpServerTypeSize)
      (hsuccess : response'.success = response.success) (hread : ServerTypeRead value response') :
    ServerTypesResult charSigned headers response (.ok response')

/-- **The loop of `parse_ctrl_response`.** -/
theorem parseCtrlHeaders_result {response : CtrlResponse}
    (hlen : response.rpServerType.length = rpServerTypeSize) :
    ServerTypesResult charSigned headers response (headers.foldlM (parseCtrlHeader charSigned) response) := by
  induction headers generalizing response with
  | nil => exact .none rfl
  | cons header headers ih =>
    have hcons := headerValues_cons "RP-Server-Type" header headers
    rw [List.foldlM_cons]
    by_cases hkey : header.key.bytes = ascii "RP-Server-Type"
    · rw [if_pos hkey] at hcons
      rcases @parseCtrlHeader_match charSigned header response hkey hlen with
        ⟨hhigh, hstep⟩ | ⟨hlow, response', hstep, hsuccess, hread⟩
      · rw [hstep]
        exact .fault header.value (by rw [serverTypes, hcons]; exact List.mem_cons_self ..) hhigh
      · rw [hstep]
        have hrest := ih hread.length
        change ServerTypesResult charSigned (header :: headers) response
          (headers.foldlM (parseCtrlHeader charSigned) response')
        generalize headers.foldlM (parseCtrlHeader charSigned) response' = result at hrest ⊢
        cases hrest with
        | fault value hmem hhigh =>
          exact .fault value (by rw [serverTypes, hcons]; exact List.mem_cons_of_mem _ hmem) hhigh
        | none hnone =>
          -- this is the last one
          refine .last header.value response' ?_ ?_ hsuccess hread
          · rw [serverTypes, hcons, ← serverTypes, hnone]
            rfl
          · rw [serverTypes, hcons, ← serverTypes, hnone]
            exact List.forall_mem_singleton.mpr hlow
        | last value response'' hlast hlow' hsuccess' hread' =>
          refine .last value response'' ?_ ?_ (hsuccess'.trans hsuccess) hread'
          · rw [serverTypes, hcons, List.getLast?_cons, ← serverTypes, hlast]
            rfl
          · rw [serverTypes, hcons]
            exact List.forall_mem_cons.mpr ⟨hlow, hlow'⟩
    · rw [if_neg hkey] at hcons
      have hsame : serverTypes (header :: headers) = serverTypes headers := hcons
      have hrest := ih hlen
      rw [parseCtrlHeader_other hkey]
      change ServerTypesResult charSigned (header :: headers) response
        (headers.foldlM (parseCtrlHeader charSigned) response)
      generalize headers.foldlM (parseCtrlHeader charSigned) response = result at hrest ⊢
      cases hrest with
      | fault value hmem hhigh => exact .fault value (hsame ▸ hmem) hhigh
      | none hnone => exact .none (hsame.trans hnone)
      | last value response' hlast hlow hsuccess hread =>
        exact .last value response' (hsame ▸ hlast) (hsame ▸ hlow) hsuccess hread

/-! ## The response and the counters -/

/-- The console has sent its type: the last of the headers decodes, without an error, to 16 bytes. -/
def ServerTypeSent (charSigned : Bool) (code : Int) (headers : List HttpHeader) (bytes : Bytes) : Prop :=
  code = 200 ∧ ∃ value, (serverTypes headers).getLast? = some value ∧ ServerTypeDecodes charSigned value bytes

/-- The counter of a console that increments it for the type, if it sends one. -/
def ConsoleCounter (charSigned : Bool) (code : Int) (headers : List HttpHeader) (counter : Nat) : Prop :=
  (∃ bytes, ServerTypeSent charSigned code headers bytes) ∧ counter = 1 ∨
    (¬ ∃ bytes, ServerTypeSent charSigned code headers bytes) ∧ counter = 0

/-- `parse_ctrl_response` says that a type is valid if and only if the console has sent it, and then it is the
one that was sent. -/
structure ParsesServerType (charSigned : Bool) (code : Int) (headers : List HttpHeader)
    (response : CtrlResponse) : Prop where
  ok : parseCtrlResponse charSigned code headers = .ok response
  valid : response.serverTypeValid = true ↔ ∃ bytes, ServerTypeSent charSigned code headers bytes
  bytes : ∀ bytes, ServerTypeSent charSigned code headers bytes → response.rpServerType = bytes

/-- A type is accepted if and only if the console has sent it, and both sides count the same. -/
structure ServerTypeAccepted (charSigned : Bool) (code : Int) (headers : List HttpHeader) : Prop where
  parse : ∃ response, ParsesServerType charSigned code headers response
  counters : ∀ malloc buf headerSize, ReceivedResponse malloc buf headerSize code headers →
    ∀ rpcrypt autoDowngrade profile receivedSize connection rest,
      ctrlConnectReceived malloc rpcrypt charSigned autoDowngrade profile buf headerSize receivedSize
        = .ok (.ok (connection, rest)) →
      ConsoleCounter charSigned code headers connection.cryptCounterRemote

/-- With the code 200: the last value, if there is one, is characters of the alphabet and spaces with a `=`
behind them, of no more than 16 bytes, and no value makes the decoder look up a byte with its high bit set. -/
def ServerTypesTerminated (charSigned : Bool) (code : Int) (headers : List HttpHeader) : Prop :=
  code = 200 →
    (∀ value ∈ serverTypes headers,
      ¬ HighByteReached charSigned (serverTypeText value) rpServerTypeSize) ∧
    ∀ value, (serverTypes headers).getLast? = some value → ServerTypeTerminated value

/-- The counter says whether `parse_ctrl_response` has accepted a type. -/
theorem ctrlConnectResponse_counter {rpcrypt : RPCrypt} {autoDowngrade : Bool} {profile : ConnectVideoProfile}
    {connection : CtrlConnection} {response : CtrlResponse}
    (hparse : parseCtrlResponse charSigned code headers = .ok response)
    (h : ctrlConnectResponse rpcrypt charSigned autoDowngrade profile code headers = .ok (.ok connection)) :
    response.serverTypeValid = true ∧ connection.cryptCounterRemote = 1 ∨
      response.serverTypeValid = false ∧ connection.cryptCounterRemote = 0 := by
  simp only [ctrlConnectResponse, hparse, bind, Except.bind] at h
  by_cases hsuccess : response.success = false
  · rw [if_pos hsuccess] at h
    cases h
  · rw [if_neg hsuccess] at h
    by_cases hvalid : response.serverTypeValid = false
    · rw [if_pos hvalid] at h
      cases h
      exact .inr ⟨hvalid, rfl⟩
    · rw [if_neg hvalid] at h
      refine .inl ⟨by simpa using hvalid, ?_⟩
      cases hdecrypt : rpcrypt.decrypt 0 response.rpServerType with
      | error err =>
        rw [hdecrypt] at h
        cases h
        rfl
      | ok rpServerType =>
        rw [hdecrypt] at h
        cases h
        rfl

theorem ctrlConnectReceived_response {malloc : Nat → Bool} {rpcrypt : RPCrypt} {autoDowngrade : Bool}
    {profile : ConnectVideoProfile} {buf rest : Bytes} {headerSize receivedSize : Nat}
    {connection : CtrlConnection} (hreceived : ReceivedResponse malloc buf headerSize code headers)
    (h : ctrlConnectReceived malloc rpcrypt charSigned autoDowngrade profile buf headerSize receivedSize
      = .ok (.ok (connection, rest))) :
    ctrlConnectResponse rpcrypt charSigned autoDowngrade profile code headers = .ok (.ok connection) := by
  obtain ⟨buf', entries, hparse, hread⟩ := hreceived
  simp only [ctrlConnectReceived, hparse, bind, Except.bind, hread] at h
  cases hconnect : ctrlConnectResponse rpcrypt charSigned autoDowngrade profile code headers with
  | error fault =>
    rw [hconnect] at h
    cases h
  | ok result =>
    rw [hconnect] at h
    cases result with
    | error err => cases h
    | ok connection' =>
      by_cases hlen : buf'.length < receivedSize
      · simp only [if_pos hlen] at h
        cases h
      · simp only [if_neg hlen] at h
        cases h
        rfl

theorem ParsesServerType.accepted {response : CtrlResponse}
    (h : ParsesServerType charSigned code headers response) : ServerTypeAccepted charSigned code headers := by
  refine ⟨⟨response, h⟩, ?_⟩
  intro malloc buf headerSize hreceived rpcrypt autoDowngrade profile receivedSize connection rest hconnect
  rcases ctrlConnectResponse_counter h.ok (ctrlConnectReceived_response hreceived hconnect) with
    ⟨hvalid, hone⟩ | ⟨hinvalid, hzero⟩
  · exact .inl ⟨h.valid.mp hvalid, hone⟩
  · refine .inr ⟨fun hsent => ?_, hzero⟩
    rw [h.valid.mpr hsent] at hinvalid
    cases hinvalid

theorem serverTypeSent_iff (hcode : code = 200) (hlast : (serverTypes headers).getLast? = some value) :
    ServerTypeSent charSigned code headers bytes ↔
      ServerTypeTerminated value ∧ bytes = serverTypeBytes value ∧ bytes.length = rpServerTypeSize := by
  constructor
  · rintro ⟨-, value', hvalue', hdecodes⟩
    cases hlast.symm.trans hvalue'
    exact serverTypeDecodes_iff.mp hdecodes
  · exact fun h => ⟨hcode, value, hlast, serverTypeDecodes_iff.mpr h⟩

/-- Without a type that was sent, there is none. -/
theorem parsesServerType_of_not {response : CtrlResponse}
    (hok : parseCtrlResponse charSigned code headers = .ok response) (hinvalid : response.serverTypeValid = false)
    (hnot : ∀ bytes, ¬ ServerTypeSent charSigned code headers bytes) :
    ParsesServerType charSigned code headers response where
  ok := hok
  valid := by
    constructor
    · intro h
      rw [hinvalid] at h
      cases h
    · rintro ⟨bytes, h⟩
      exact absurd h (hnot bytes)
  bytes := fun bytes h => absurd h (hnot bytes)

theorem parseCtrlResponse_result (hcode : code = 200) :
    ServerTypesResult charSigned headers ⟨false, List.replicate rpServerTypeSize 0, true⟩
      (parseCtrlResponse charSigned code headers) := by
  rw [parseCtrlResponse, if_neg (not_not.mpr hcode)]
  exact parseCtrlHeaders_result List.length_replicate

/-- The last value is terminated. -/
theorem parsesServerType_of_terminated (h : ServerTypesTerminated charSigned code headers) :
    ∃ response, ParsesServerType charSigned code headers response := by
  by_cases hcode : code = 200
  · obtain ⟨hlow, hterminated⟩ := h hcode
    have hresult := @parseCtrlResponse_result charSigned code headers hcode
    generalize hparse : parseCtrlResponse charSigned code headers = result at hresult
    cases hresult with
    | fault value hmem hhigh => exact absurd hhigh (hlow value hmem)
    | none hnone =>
      refine ⟨_, parsesServerType_of_not hparse rfl ?_⟩
      rintro bytes ⟨-, value, hvalue, -⟩
      rw [hnone] at hvalue
      cases hvalue
    | last value response hlast _ _ hread =>
      have hvalue := hterminated value hlast
      refine ⟨response, hparse, ?_, fun bytes h => ?_⟩
      · rw [hread.valid]
        constructor
        · intro hlen
          exact ⟨_, (serverTypeSent_iff hcode hlast).mpr ⟨hvalue, rfl, hlen hvalue⟩⟩
        · rintro ⟨bytes, h⟩ -
          obtain ⟨-, rfl, hlen⟩ := (serverTypeSent_iff hcode hlast).mp h
          exact hlen
      · obtain ⟨-, rfl, hlen⟩ := (serverTypeSent_iff hcode hlast).mp h
        exact hread.bytes hvalue hlen
  · refine ⟨⟨false, List.replicate rpServerTypeSize 0, false⟩, parsesServerType_of_not ?_ rfl ?_⟩
    · rw [parseCtrlResponse, if_pos hcode]
    · exact fun bytes h => hcode h.1

/-- **A type is accepted exactly when it was sent, if and only if the last value is terminated** and no value
makes the decoder look behind its table. -/
theorem serverTypeAccepted_iff (charSigned : Bool) (code : Int) (headers : List HttpHeader) :
    ServerTypeAccepted charSigned code headers ↔ ServerTypesTerminated charSigned code headers := by
  constructor
  · rintro ⟨⟨response, hparse⟩, -⟩
    intro hcode
    have hresult := @parseCtrlResponse_result charSigned code headers hcode
    rw [hparse.ok] at hresult
    cases hresult with
    | none hnone => simp [hnone]
    | last value _ hlast hlow _ hread =>
      refine ⟨hlow, fun value' hvalue' => ?_⟩
      cases hlast.symm.trans hvalue'
      by_contra hnot
      -- it is accepted, as every value that the decoder rejects
      obtain ⟨bytes, hsent⟩ := hparse.valid.mp (hread.valid.mpr fun h => absurd h hnot)
      exact hnot ((serverTypeSent_iff hcode hlast).mp hsent).1
  · intro h
    obtain ⟨response, hparse⟩ := parsesServerType_of_terminated h
    exact hparse.accepted

/-- A console that encodes 16 bytes has sent them. -/
theorem serverTypeDecodes_text (hbytes : bytes.length = rpServerTypeSize)
    (hvalue : value.bytes = base64Text bytes) : ServerTypeDecodes charSigned value bytes := by
  have hlt : ∀ n ∈ Sextet.toSextets bytes, n < 2 ^ 6 := Sextet.toSextets_lt bytes
  have hpad : bytes.length % 3 = 1 := by rw [hbytes]; decide
  have htext : serverTypeText value = (Sextet.toSextets bytes).map base64Char ++ [0x3d, 0x3d, 0] := by
    rw [serverTypeText, hvalue, base64Text, hpad, List.append_assoc]
    rfl
  have hsextets : base64Sextets (serverTypeText value) = Sextet.toSextets bytes := by
    rw [htext, (base64Sextets_chars hlt _).1, show base64Sextets [0x3d, 0x3d, 0] = [] by decide +kernel,
      List.append_nil]
  have hwhole : serverTypeBytes value = bytes := by
    rw [serverTypeBytes, hsextets, Sextet.ofSextets_toSextets]
  refine serverTypeDecodes_iff.mpr ⟨⟨?_, ?_⟩, hwhole.symm, hbytes⟩
  · rw [htext, (base64Sextets_chars hlt _).2]
    decide +kernel
  · exact (length_serverTypeBytes value).mp (Nat.le_of_eq (hwhole.symm ▸ hbytes))

/-- The header `RP-Server-Type: !`. -/
def noServerType : HttpHeader := ⟨⟨ascii "RP-Server-Type", by decide⟩, ⟨ascii "!", by decide⟩⟩

/-- It is accepted, and a counter is gone that the console has not used. -/
theorem not_serverTypeAccepted :
    ReceivedResponse (fun _ => true) (ascii "HTTP/1.1 200 OK\r\nRP-Server-Type: !\r\n\r\n") 38 200
      [noServerType] ∧
    (∃ response, parseCtrlResponse true 200 [noServerType] = .ok response ∧ response.serverTypeValid = true) ∧
    (¬ ∃ bytes, ServerTypeSent true 200 [noServerType] bytes) ∧
    ¬ ServerTypeAccepted true 200 [noServerType] := by
  have hlast : (serverTypes [noServerType]).getLast? = some noServerType.value := by decide
  have hnot : ¬ ServerTypeTerminated noServerType.value := fun h => absurd h.1 (by decide +kernel)
  have hsent : ¬ ∃ bytes, ServerTypeSent true 200 [noServerType] bytes := by
    rintro ⟨bytes, h⟩
    exact hnot ((serverTypeSent_iff rfl hlast).mp h).1
  have hvalid : parseCtrlResponse true 200 [noServerType] = .ok ⟨true, List.replicate 16 0, true⟩ := by
    decide +kernel
  refine ⟨⟨[15, 31, 34].foldl (fun buf i => buf.set i 0)
    (ascii "HTTP/1.1 200 OK\r\nRP-Server-Type: !\r\n\r\n"), [⟨17, 33⟩], ?_, ?_⟩,
    ⟨_, hvalid, rfl⟩, hsent, fun h => ?_⟩
  · decide +kernel
  · decide +kernel
  · obtain ⟨response, hparse⟩ := h.parse
    cases hparse.ok.symm.trans hvalid
    exact hsent (hparse.valid.mp rfl)

end Chiaki
