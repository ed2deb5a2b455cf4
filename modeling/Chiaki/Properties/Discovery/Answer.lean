import Mathlib.Data.Bool.AllAny
import Chiaki.Discovery
import Chiaki.Properties.Http.Response

/-!
# The answers of the consoles

A datagram is an answer if it is an HTTP response. The first header of a name says what a string of the host is.

* `discoveryThreadReceived_answer` — what the thread does with any datagram
* `discoveryAnswer_read` — a host that was written into an answer is read again
-/

namespace Chiaki

open Infra

variable {o : DiscoveryServiceOptions} {malloc : Nat → Bool} {addr : Vector UInt8 4} {headers : List HttpHeader}
  {host response : DiscoveryHost} {datagram : DiscoveryDatagram} {s : Discovery}

/-! ## What an answer says -/

/-- The name of the header that a string is read from. -/
def DiscoveryHostString.key : DiscoveryHostString → Option Bytes
  | .hostAddr => none
  | .systemVersion => some (ascii "system-version")
  | .deviceDiscoveryProtocolVersion => some (ascii "device-discovery-protocol-version")
  | .hostName => some (ascii "host-name")
  | .hostType => some (ascii "host-type")
  | .hostId => some (ascii "host-id")
  | .runningAppTitleid => some (ascii "running-app-titleid")
  | .runningAppName => some (ascii "running-app-name")

/-- The name of the header with the port. -/
def discoveryPortKey : Bytes := ascii "host-request-port"

/-- The value of the first header of a name. -/
def firstValue (key : Bytes) (headers : List HttpHeader) : Option Bytes :=
  (headers.find? fun header => header.key.bytes = key).map (·.value.bytes)

/-- The host that answers from an address, by the code and the headers in their order. -/
def discoveryHostOf (addr : Vector UInt8 4) (code : Int) (headers : List HttpHeader) : DiscoveryHost where
  state := discoveryHostState code
  hostRequestPort := (firstValue discoveryPortKey headers).elim 0 fun value => StrTo.strtoull 0 value % 2 ^ 16
  string name := name.key.elim (some (inetNtop addr)) fun key => firstValue key headers

/-- A datagram, as far as it is received, is the answer of a host. -/
def IsAnswer (datagram : DiscoveryDatagram) (host : DiscoveryHost) : Prop :=
  ∃ code headers, ReadsResponse datagram.malloc (datagram.data.take (discoveryBufSize - 1)) code headers ∧
    host = discoveryHostOf datagram.addr code headers.reverse

/-! ## The headers -/

theorem firstValue_append (key : Bytes) (first rest : List HttpHeader) :
    firstValue key (first ++ rest) = (firstValue key first).or (firstValue key rest) := by
  unfold firstValue
  rw [List.find?_append]
  cases first.find? fun header => header.key.bytes = key <;> simp

theorem firstValue_singleton (key : Bytes) (header : HttpHeader) :
    firstValue key [header] = if header.key.bytes = key then some header.value.bytes else none := by
  by_cases h : header.key.bytes = key <;> simp [firstValue, List.find?, h]

theorem discoveryHostHeader_state (response : DiscoveryHost) (header : HttpHeader) :
    (discoveryHostHeader response header).state = response.state := by
  unfold discoveryHostHeader
  simp only
  split_ifs <;> rfl

/-- The keys are different, so only one branch is about the port. -/
theorem discoveryHostHeader_port (response : DiscoveryHost) (header : HttpHeader) :
    (discoveryHostHeader response header).hostRequestPort
      = (firstValue discoveryPortKey [header]).elim response.hostRequestPort
          fun value => StrTo.strtoull 0 value % 2 ^ 16 := by
  rw [firstValue_singleton]
  unfold discoveryHostHeader
  generalize header.key.bytes = key
  simp only
  split_ifs <;> first | rfl | (subst key; contradiction)

theorem setString_string (name name' : DiscoveryHostString) (value : Bytes) :
    (response.setString name value).string name' = if name' = name then some value else response.string name' := rfl

/-- Different strings have different keys. -/
theorem DiscoveryHostString.key_injective : ∀ {name name' : DiscoveryHostString}, name.key = name'.key → name = name' := by
  intro name name' h
  cases name <;> cases name' <;> first | rfl | exact absurd h (by decide)

theorem discoveryHostHeader_string (response : DiscoveryHost) (header : HttpHeader) (name : DiscoveryHostString) :
    (discoveryHostHeader response header).string name
      = if name.key = some header.key.bytes then some header.value.bytes else response.string name := by
  obtain ⟨key, value⟩ := header
  have hset : ∀ name', name'.key = some key.bytes → (response.setString name' value.bytes).string name
      = if name.key = some key.bytes then some value.bytes else response.string name := by
    intro name' hkey
    rw [setString_string, ← hkey]
    by_cases h : name = name'
    · simp [h]
    · simp [h, mt DiscoveryHostString.key_injective h]
  have hother : (∀ name' : DiscoveryHostString, name'.key ≠ some key.bytes) → response.string name
      = if name.key = some key.bytes then some value.bytes else response.string name := by
    intro h
    simp [h name]
  generalize (if name.key = some key.bytes then some value.bytes else response.string name) = expected at *
  unfold discoveryHostHeader
  simp only
  split_ifs with h₁ h₂ h₃ h₄ h₅ h₆ h₇ h₈
  · exact hset .systemVersion (congrArg some h₁.symm)
  · exact hset .deviceDiscoveryProtocolVersion (congrArg some h₂.symm)
  · -- the port is no string
    exact hother fun name' => by cases name' <;> simp [DiscoveryHostString.key, h₃] <;> decide
  · exact hset .hostName (congrArg some h₄.symm)
  · exact hset .hostType (congrArg some h₅.symm)
  · exact hset .hostId (congrArg some h₆.symm)
  · exact hset .runningAppTitleid (congrArg some h₇.symm)
  · exact hset .runningAppName (congrArg some h₈.symm)
  · exact hother fun name' => by cases name' <;> simp [DiscoveryHostString.key, Ne.symm, *]

/-! ## The answer -/

/-- The last header of a name in the list is the first one of the text. -/
theorem foldl_discoveryHostHeader (response : DiscoveryHost) (headers : List HttpHeader) :
    (headers.foldl discoveryHostHeader response).state = response.state ∧
    (headers.foldl discoveryHostHeader response).hostRequestPort
      = (firstValue discoveryPortKey headers.reverse).elim response.hostRequestPort
          (fun value => StrTo.strtoull 0 value % 2 ^ 16) ∧
    ∀ name, (headers.foldl discoveryHostHeader response).string name
      = name.key.elim (response.string name) fun key => (firstValue key headers.reverse).or (response.string name) := by
  induction headers generalizing response with
  | nil =>
    refine ⟨rfl, rfl, fun name => ?_⟩
    cases name <;> rfl
  | cons header headers ih =>
    obtain ⟨hstate, hport, hstring⟩ := ih (discoveryHostHeader response header)
    rw [List.foldl_cons, List.reverse_cons]
    refine ⟨hstate.trans (discoveryHostHeader_state _ _), ?_, fun name => ?_⟩
    · rw [hport, discoveryHostHeader_port, firstValue_append]
      cases firstValue discoveryPortKey headers.reverse <;> simp
    · rw [hstring, discoveryHostHeader_string]
      cases hkey : name.key with
      | none => simp
      | some key =>
        simp only [Option.elim_some, Option.some.injEq, firstValue_append, firstValue_singleton]
        cases firstValue key headers.reverse with
        | some value => simp
        | none =>
          by_cases h : header.key.bytes = key
          · simp [h]
          · simp [h, Ne.symm h]

theorem length_unsigned_byte (b : UInt8) : (StrTo.unsigned b.toNat).length ≤ 3 := by
  have hb := b.toNat_lt
  unfold StrTo.unsigned
  split
  · decide
  · rw [StrTo.decimal, List.length_map, List.length_reverse, Nat.digits_length_le_iff (by decide)]
    omega

theorem length_inetNtop (addr : Vector UInt8 4) : (inetNtop addr).length ≤ 15 := by
  have hlength : addr.toList.length = 4 := Vector.length_toList
  unfold inetNtop
  match addr.toList, hlength with
  | [a, b, c, d], _ =>
    have ha := length_unsigned_byte a
    have hb := length_unsigned_byte b
    have hc := length_unsigned_byte c
    have hd := length_unsigned_byte d
    simp [List.intercalate]
    omega

/-- The address fits its buffer. -/
theorem sockaddrStr_eq (addr : Vector UInt8 4) : sockaddrStr addr discoveryAddrBufSize = some (inetNtop addr) :=
  if_pos (Nat.lt_of_le_of_lt (length_inetNtop addr) (by decide))

/-- The host that the loop ends with. -/
theorem foldl_eq_discoveryHostOf (addr : Vector UInt8 4) (code : Int) (headers : List HttpHeader) :
    headers.foldl discoveryHostHeader
        { discoveryHostZero with
          string := fun name => if name = .hostAddr then sockaddrStr addr discoveryAddrBufSize else none
          state := discoveryHostState code }
      = discoveryHostOf addr code headers.reverse := by
  obtain ⟨hstate, hport, hstring⟩ := foldl_discoveryHostHeader
    { discoveryHostZero with
      string := fun name => if name = .hostAddr then sockaddrStr addr discoveryAddrBufSize else none
      state := discoveryHostState code } headers
  refine DiscoveryHost.ext hstate hport (funext fun name => ?_)
  rw [hstring, discoveryHostOf]
  cases name <;> simp [DiscoveryHostString.key, sockaddrStr_eq]

/-- **What is read from a response**, and that nothing outside of the buffer is read. -/
theorem discoverySrchResponseParse_result (malloc : Nat → Bool) (addr : Vector UInt8 4) {mem : Bytes} {size : Nat}
    (hsize : size ≤ mem.length) :
    ∃ result, discoverySrchResponseParse malloc addr discoveryAddrBufSize mem size = .ok result ∧
      ∀ host, result = .ok host ↔
        ∃ code headers, ReadsResponse malloc (mem.take size) code headers ∧
          host = discoveryHostOf addr code headers.reverse := by
  have hresult := httpResponseParse_result malloc hsize
  unfold discoverySrchResponseParse
  generalize httpResponseParse malloc mem size = parsed at hresult
  cases hresult with
  | error mem' err herr hnot =>
    refine ⟨.error err, rfl, fun host => ⟨?_, ?_⟩⟩
    · intro h
      cases h
    · rintro ⟨code, headers, hreads, -⟩
      exact absurd hreads (hnot code headers)
  | success mem' code entries headers hreads hheaders =>
    simp only [bind, Except.bind, hheaders, foldl_eq_discoveryHostOf]
    refine ⟨_, rfl, fun host => ⟨?_, ?_⟩⟩
    · intro h
      cases h
      exact ⟨code, headers, hreads, rfl⟩
    · rintro ⟨code', headers', hreads', rfl⟩
      obtain ⟨rfl, rfl⟩ := (hreads.received hsize).unique (hreads'.received hsize)
      rfl

/-! ## Datagrams -/

/-- What was received stands in front of the NUL. -/
theorem received_eq (datagram : DiscoveryDatagram) :
    datagram.received.2 = (datagram.data.take (discoveryBufSize - 1)).length ∧
      datagram.received.2 ≤ datagram.received.1.length ∧
      datagram.received.1.take datagram.received.2 = datagram.data.take (discoveryBufSize - 1) := by
  have hstack := datagram.length_stack
  have hlength : (datagram.data.take (discoveryBufSize - 1)).length ≤ discoveryBufSize - 1 := List.length_take_le _ _
  have hbuf : discoveryBufSize = 512 := rfl
  unfold DiscoveryDatagram.received
  simp only
  generalize datagram.data.take (discoveryBufSize - 1) = data at *
  refine ⟨trivial, ?_, ?_⟩
  · rw [List.length_set, length_splice (by omega)]
    omega
  · rw [List.take_set_of_le (Nat.le_refl _), splice, List.take_zero, List.nil_append, List.take_left]

/-- The host of a datagram, if it is an answer. -/
def DiscoveryDatagram.answer (datagram : DiscoveryDatagram) : Option DiscoveryHost :=
  match discoverySrchResponseParse datagram.malloc datagram.addr discoveryAddrBufSize datagram.received.1
      datagram.received.2 with
  | .ok (.ok host) => some host
  | _ => none

theorem answer_eq_some_iff : datagram.answer = some host ↔ IsAnswer datagram host := by
  obtain ⟨-, hsize, htake⟩ := received_eq datagram
  obtain ⟨result, hparse, hiff⟩ := discoverySrchResponseParse_result datagram.malloc datagram.addr hsize
  rw [htake] at hiff
  rw [DiscoveryDatagram.answer, hparse, IsAnswer, ← hiff]
  cases result <;> simp

/-- **What the thread does with a datagram**: the answer of a host goes to the service, and nothing else does
anything. -/
theorem discoveryThreadReceived_answer (s : Discovery) (datagram : DiscoveryDatagram) :
    discoveryThreadReceived o s datagram
      = match datagram.answer with
        | none => .ok s
        | some host => (discoveryServiceHostReceived o s.service host).map fun service => { s with service := service } := by
  obtain ⟨hlength, hsize, htake⟩ := received_eq datagram
  obtain ⟨result, hparse, hiff⟩ := discoverySrchResponseParse_result datagram.malloc datagram.addr hsize
  rw [DiscoveryDatagram.answer, hparse, discoveryThreadReceived]
  simp only
  by_cases hzero : datagram.received.2 = 0
  · -- there is no empty response
    rw [if_pos hzero]
    cases result with
    | error err => rfl
    | ok host =>
      obtain ⟨code, headers, hreads, -⟩ := (hiff host).mp rfl
      rw [hzero, List.take_zero] at hreads
      cases hreads
  · rw [if_neg hzero, hparse]
    cases result with
    | error err => rfl
    | ok host =>
      simp only [bind, Except.bind]
      cases discoveryServiceHostReceived o s.service host <;> rfl

/-! ## Answers that were rendered -/

/-- The headers say what a host is. Each of them has another name, and a port of zero may be left out. -/
structure Describes (addr : Vector UInt8 4) (headers : List HttpHeader) (host : DiscoveryHost) : Prop where
  keys : (headers.map (·.key)).Nodup
  addr : host.string .hostAddr = some (inetNtop addr)
  string : ∀ name key, name.key = some key → ∀ value,
    host.string name = some value ↔ ∃ header ∈ headers, header.key.bytes = key ∧ header.value.bytes = value
  port : (∃ header ∈ headers, header.key.bytes = discoveryPortKey ∧
      header.value.bytes = StrTo.unsigned host.hostRequestPort) ∨
    host.hostRequestPort = 0 ∧ ∀ header ∈ headers, header.key.bytes ≠ discoveryPortKey
  port_lt : host.hostRequestPort < 2 ^ 16

/-- A status line, headers and blank lines. -/
def renderAnswer (code : Nat) (reason : Bytes) (crlf : Bool) (lines : List RenderedHeader) (blank : Bytes) : Bytes :=
  httpVersion ++ (StrTo.unsigned code ++ 0x20 :: (reason ++ if crlf then [0x0d] else [])
    ++ 0x0a :: (lines.flatMap RenderedHeader.render ++ blank))

theorem firstValue_eq_some_iff (h : (headers.map (·.key)).Nodup) (key value : Bytes) :
    firstValue key headers = some value ↔ ∃ header ∈ headers, header.key.bytes = key ∧ header.value.bytes = value := by
  unfold firstValue
  rw [Option.map_eq_some_iff]
  constructor
  · rintro ⟨header, hfind, rfl⟩
    exact ⟨header, List.mem_of_find?_eq_some hfind, by simpa using List.find?_some hfind, rfl⟩
  · rintro ⟨header, hmem, rfl, rfl⟩
    refine ⟨header, ?_, rfl⟩
    cases hfind : headers.find? fun header' => header'.key.bytes = header.key.bytes with
    | none => exact absurd (decide_eq_true rfl) (List.find?_eq_none.mp hfind header hmem)
    | some header' =>
      have hkey : header'.key.bytes = header.key.bytes := by simpa using List.find?_some hfind
      rw [List.inj_on_of_nodup_map h (List.mem_of_find?_eq_some hfind) hmem (CString.ext hkey)]

/-- What the headers say is what is read. -/
theorem Describes.host_eq {code : Int} (h : Describes addr headers host) (hstate : host.state = discoveryHostState code) :
    discoveryHostOf addr code headers = host := by
  have hport : host.hostRequestPort < 2 ^ 64 := Nat.lt_trans h.port_lt (by decide)
  refine DiscoveryHost.ext hstate.symm ?_ (funext fun name => ?_)
  · rcases h.port with hheader | ⟨hzero, hnone⟩
    · rw [discoveryHostOf, (firstValue_eq_some_iff h.keys _ _).mpr hheader, Option.elim_some,
        StrTo.strtoull_unsigned hport (.inl rfl), Nat.mod_eq_of_lt h.port_lt]
    · have hfirst : firstValue discoveryPortKey headers = none := by
        refine Option.eq_none_iff_forall_ne_some.mpr fun value hvalue => ?_
        obtain ⟨header, hmem, hkey, -⟩ := (firstValue_eq_some_iff h.keys _ _).mp hvalue
        exact hnone header hmem hkey
      rw [discoveryHostOf, hfirst, hzero]
      rfl
  · have hname : (discoveryHostOf addr code headers).string name
        = name.key.elim (some (inetNtop addr)) fun key => firstValue key headers := rfl
    rw [hname]
    cases hkey : name.key with
    | none =>
      obtain rfl : name = .hostAddr := DiscoveryHostString.key_injective hkey
      exact h.addr.symm
    | some key =>
      refine Option.ext fun value => ?_
      rw [Option.elim_some, firstValue_eq_some_iff h.keys]
      exact (h.string name key hkey value).symm

theorem statusText_append_space (front text : Bytes) :
    ∃ tail, statusText (front ++ 0x20 :: text) = front ++ 0x20 :: tail := by
  unfold statusText
  rcases List.eq_nil_or_concat text with rfl | ⟨init, last, rfl⟩
  · exact ⟨[], by simp⟩
  · by_cases hlast : last = 0x0d
    · refine ⟨init, ?_⟩
      rw [if_pos (by simp [hlast, List.getLast?_cons]), List.concat_eq_append, ← List.cons_append, ← List.append_assoc]
      exact List.dropLast_concat
    · exact ⟨init.concat last, if_neg (by simp [List.getLast?_append, List.getLast?_cons, hlast])⟩

/-- The code of a status line that was rendered. -/
theorem statusCode_rendered {code : Nat} (hcode : code < 2 ^ 31) (text : Bytes) :
    statusCode (StrTo.unsigned code ++ 0x20 :: text) = code := by
  obtain ⟨tail, htext⟩ := statusText_append_space (StrTo.unsigned code) text
  have hdigits : ∀ c ∈ StrTo.unsigned code, decide (c ≠ 0) = true := by
    intro c hc
    obtain ⟨d, hd, rfl⟩ := StrTo.mem_unsigned hc
    interval_cases d <;> decide
  have htake : (StrTo.unsigned code ++ 0x20 :: tail).takeWhile (fun c => decide (c ≠ 0))
      = StrTo.unsigned code ++ 0x20 :: tail.takeWhile fun c => decide (c ≠ 0) := by
    rw [List.takeWhile_append_of_pos hdigits, List.takeWhile_cons_of_pos (by decide)]
  rw [statusCode, htext, htake, StrTo.strtol_unsigned_append (by omega) (by simp; decide)]
  rw [Int.bmod_eq_of_le] <;> omega

theorem seenAs_rendered (lines : List RenderedHeader) :
    List.Forall₂ SeenAs (lines.map RenderedHeader.raw) (lines.map (·.header)) := by
  rw [List.forall₂_map_left_iff, List.forall₂_map_right_iff, List.forall₂_same]
  intro line _
  refine ⟨rfl, (List.takeWhile_eq_self_iff.mpr fun c hc => ?_).symm⟩
  have hne : c ≠ 0 := by
    rintro rfl
    exact line.header.value.noNul hc
  simpa using hne

/-- An answer that was rendered is accepted. -/
theorem readsResponse_rendered {code : Nat} {reason blank : Bytes} {crlf : Bool} {lines : List RenderedHeader}
    (hmalloc : ∀ k < lines.length, malloc k = true) (hcode : 0 < code ∧ code < 2 ^ 31) (hreason : 0x0a ∉ reason)
    (hvalid : ∀ line ∈ lines, line.Valid) (hblank : ∀ c ∈ blank, isLineEnd c) (hrest : lines ≠ [] ∨ blank ≠ []) :
    ReadsResponse malloc (renderAnswer code reason crlf lines blank) code (lines.map (·.header)).reverse := by
  have hstatus := statusCode_rendered hcode.2 (reason ++ if crlf then [0x0d] else [])
  have hline : 0x0a ∉ StrTo.unsigned code ++ 0x20 :: (reason ++ if crlf then [0x0d] else []) := by
    have hdigits : 0x0a ∉ StrTo.unsigned code := by
      intro h
      obtain ⟨d, hd, heq⟩ := StrTo.mem_unsigned h
      interval_cases d <;> exact absurd heq (by decide)
    cases crlf <;> simp [hdigits, hreason]
  have hbehind : lines.flatMap RenderedHeader.render ++ blank ≠ [] := by
    rcases hrest with hlines | hblankNe
    · obtain ⟨line, lines, rfl⟩ := List.exists_cons_of_ne_nil hlines
      simp [RenderedHeader.render]
    · simp [hblankNe]
  rw [← hstatus]
  exact .response _ _ (lines.map RenderedHeader.raw) _ hline hbehind (by rw [hstatus]; omega)
    (readsHeaders_rendered hvalid hblank) (seenAs_rendered lines) (by simpa using hmalloc)

/-- **A host that was written into an answer is read again**, however its lines are written, in any order and with any
others between them, and the service gets to know of it. -/
theorem discoveryAnswer_read {code : Nat} {reason blank : Bytes} {crlf : Bool} {lines : List RenderedHeader}
    (hdata : datagram.data = renderAnswer code reason crlf lines blank) (hsize : datagram.data.length < discoveryBufSize)
    (hmalloc : ∀ k < lines.length, datagram.malloc k = true) (hcode : 0 < code ∧ code < 2 ^ 31)
    (hreason : 0x0a ∉ reason) (hvalid : ∀ line ∈ lines, line.Valid) (hblank : ∀ c ∈ blank, isLineEnd c)
    (hrest : lines ≠ [] ∨ blank ≠ [])
    (hstate : host.state = discoveryHostState code)
    (hdescribes : Describes datagram.addr (lines.map (·.header)) host) (s : Discovery) :
    discoveryThreadReceived o s datagram
      = (discoveryServiceHostReceived o s.service host).map fun service => { s with service := service } := by
  have hwhole : datagram.data.take (discoveryBufSize - 1) = datagram.data := List.take_of_length_le (by omega)
  have hanswer : IsAnswer datagram host := by
    refine ⟨code, (lines.map (·.header)).reverse, ?_, ?_⟩
    · rw [hwhole, hdata]
      exact readsResponse_rendered hmalloc hcode hreason hvalid hblank hrest
    · rw [List.reverse_reverse]
      exact (hdescribes.host_eq hstate).symm
  rw [discoveryThreadReceived_answer, answer_eq_some_iff.mpr hanswer]

/-- The answer of a console that is in standby. -/
def exampleDiscoveryLines : List RenderedHeader :=
  [⟨⟨⟨ascii "host-request-port", by decide⟩, ⟨ascii "997", by decide⟩⟩, false, false⟩,
    ⟨⟨⟨ascii "host-id", by decide⟩, ⟨ascii "1234567890AB", by decide⟩⟩, true, false⟩]

def exampleDiscoveryHost : DiscoveryHost where
  state := .standby
  hostRequestPort := 997
  string name := if name = .hostAddr then some (ascii "192.168.0.7")
    else if name = .hostId then some (ascii "1234567890AB") else none

def exampleDiscoveryDatagram : DiscoveryDatagram where
  addr := #v[192, 168, 0, 7]
  data := renderAnswer 620 (ascii "Server Standby") false exampleDiscoveryLines []
  malloc _ := true
  stack := List.replicate discoveryBufSize 0x5c
  length_stack := List.length_replicate

theorem exampleDiscovery_describes :
    Describes exampleDiscoveryDatagram.addr (exampleDiscoveryLines.map (·.header)) exampleDiscoveryHost where
  keys := by decide
  addr := by decide
  string name key hkey value := by
    cases name <;> cases hkey <;> simp [exampleDiscoveryHost, exampleDiscoveryLines]
    case hostId =>
      intro h
      exact absurd h (by decide)
    all_goals exact ⟨fun h => absurd h (by decide), fun h => absurd h (by decide)⟩
  port := .inl ⟨_, List.mem_cons_self, rfl, by decide⟩
  port_lt := by decide

theorem exampleDiscovery_valid : ∀ line ∈ exampleDiscoveryLines, line.Valid := by
  intro line hline
  rcases List.mem_cons.mp hline with rfl | hline
  · exact ⟨by decide, List.all_iff_forall_prop.mp (by decide), by decide, by decide,
      List.all_iff_forall_prop.mp (by decide)⟩
  · obtain rfl := List.mem_singleton.mp hline
    exact ⟨by decide, List.all_iff_forall_prop.mp (by decide), by decide, by decide,
      List.all_iff_forall_prop.mp (by decide)⟩

theorem discoveryAnswer_read_standby :
    discoveryThreadReceived ⟨4, 3, false⟩ ⟨discoveryServiceInit ⟨4, 3, false⟩, true, []⟩ exampleDiscoveryDatagram
      = (discoveryServiceHostReceived ⟨4, 3, false⟩ (discoveryServiceInit ⟨4, 3, false⟩) exampleDiscoveryHost).map
          fun service => ⟨service, true, []⟩ :=
  discoveryAnswer_read rfl (by decide) (fun _ _ => rfl) ⟨by decide, by decide⟩ (by decide) exampleDiscovery_valid
    (by simp) (.inl (List.cons_ne_nil _ _)) rfl exampleDiscovery_describes _

end Chiaki
