import Chiaki.Properties.Http.Received
import Chiaki.Properties.Regist.Payload

/-!
# What is decrypted of a registration response

The content follows the header in the stream. The loop that receives the rest of it does nothing if there
is too much already, and the sum that says how much there should be may wrap (`registFraming_iff`). Where
that does not happen, the host is what the headers in the content say (`registRecvResponse_host`).
-/

namespace Chiaki

open Infra Infra.Search

variable {buf buf' seen : Bytes} {rounds first rest : List RecvRound} {headerSize bufSize : Nat}

/-! ## The rest of the content -/

/-- What the loop that receives the rest has done. -/
structure RestReceived (size : Nat) (rounds : List RecvRound) (s s' : RegistReceived) (data : Bytes) : Prop where
  headerSize : s'.headerSize = s.headerSize
  filled : s'.bufFilledSize = max s.bufFilledSize size
  stream : data <+: delivered true rounds
  length : s.bufFilledSize + data.length = s'.bufFilledSize
  fits : s.bufFilledSize + data.length ≤ s.buf.length
  buf : s'.buf = splice s.buf s.bufFilledSize data

theorem restReceived_nil {size : Nat} {s : RegistReceived} (h : size ≤ s.bufFilledSize)
    (hle : s.bufFilledSize ≤ s.buf.length) (rounds : List RecvRound) : RestReceived size rounds s s [] where
  headerSize := rfl
  filled := (Nat.max_eq_left h).symm
  stream := List.nil_prefix
  length := rfl
  fits := hle
  buf := by simp [splice]

/-- Nothing is read behind a result that was cut. -/
theorem take_append_prefix {data more stream : Bytes} {n : Nat} (h : more <+: stream)
    (hcut : n < data.length → more = []) : data.take n ++ more <+: data ++ stream := by
  by_cases hlt : n < data.length
  · rw [hcut hlt, List.append_nil]
    exact (List.take_prefix n data).trans (List.prefix_append _ _)
  · rw [List.take_of_length_le (Nat.not_lt.mp hlt)]
    exact (List.prefix_append_right_inj data).mpr h

/-- **The loop that receives the rest** reads up to `size`, and not behind it. -/
theorem registRecvLoop_decrypt {size : Nat} {s s' : RegistReceived} (hle : s.bufFilledSize ≤ s.buf.length)
    (h : registRecvLoop size s rounds = .ok (.decrypt s')) : ∃ data, RestReceived size rounds s s' data := by
  induction rounds generalizing s with
  | nil =>
    rw [registRecvLoop] at h
    by_cases hlt : s.bufFilledSize < size
    · rw [if_pos hlt] at h
      cases h
    · rw [if_neg hlt] at h
      cases h
      exact ⟨[], restReceived_nil (Nat.not_lt.mp hlt) hle []⟩
  | cons round rounds ih =>
    rw [registRecvLoop] at h
    by_cases hlt : s.bufFilledSize < size
    · rw [if_pos hlt] at h
      by_cases hselect : round.select ≠ .success
      · rw [if_pos hselect] at h
        cases h
      rw [if_neg hselect] at h
      cases hrecv : round.recv with
      | failed =>
        rw [hrecv] at h
        cases h
      | received data int =>
        simp only [hrecv] at h
        by_cases hnone : (data.take (size - s.bufFilledSize)).length = 0
        · rw [if_pos hnone] at h
          cases h
        rw [if_neg hnone] at h
        by_cases hfull : s.buf.length < s.bufFilledSize + (data.take (size - s.bufFilledSize)).length
        · rw [if_pos hfull] at h
          cases h
        rw [if_neg hfull] at h
        have hfits := Nat.not_lt.mp hfull
        have hlen : (splice s.buf s.bufFilledSize (data.take (size - s.bufFilledSize))).length = s.buf.length :=
          length_splice hfits
        obtain ⟨more, hmore⟩ := ih (by rw [hlen]; exact hfits) h
        have hdelivers : round.Delivers true := by
          refine ⟨fun hnot => hselect hnot.2, fun hnil => hnone ?_⟩
          rw [hrecv] at hnil
          rw [show data = [] from hnil, List.take_nil]
          rfl
        have hmorefits := hmore.fits
        rw [hlen] at hmorefits
        refine ⟨data.take (size - s.bufFilledSize) ++ more, hmore.headerSize, ?_, ?_, ?_, ?_, ?_⟩
        · rw [hmore.filled]
          simp only
          rw [List.length_take]
          omega
        · rw [delivered, if_pos hdelivers, hrecv]
          refine take_append_prefix hmore.stream fun hcut => List.eq_nil_of_length_eq_zero ?_
          have hfilled := hmore.length.trans hmore.filled
          simp only at hfilled
          rw [List.length_take] at hfilled
          omega
        · rw [List.length_append, ← Nat.add_assoc]
          exact hmore.length
        · rw [List.length_append, ← Nat.add_assoc]
          exact hmorefits
        · rw [hmore.buf]
          simp only
          exact splice_append_data hmorefits
    · rw [if_neg hlt] at h
      cases h
      exact ⟨[], restReceived_nil (Nat.not_lt.mp hlt) hle _⟩

/-! ## The content -/

/-- What the last `Content-Length` of the list says, or 0. -/
def contentLength (headers : List HttpHeader) : Nat :=
  (headerValues "Content-Length" headers).getLast?.elim 0 fun value => StrTo.strtoull 0 value.bytes

theorem registContentSize_eq (headers : List HttpHeader) : registContentSize headers = contentLength headers := by
  have hloop : ∀ (headers : List HttpHeader) (init : Nat), headers.foldl (fun contentSize header =>
      if header.key.bytes = ascii "Content-Length" then StrTo.strtoull 0 header.value.bytes else contentSize) init
      = (headerValues "Content-Length" headers).getLast?.elim init fun value => StrTo.strtoull 0 value.bytes := by
    intro headers
    induction headers with
    | nil => exact fun _ => rfl
    | cons header headers ih =>
      intro init
      rw [List.foldl_cons, ih, headerValues_cons]
      by_cases hkey : header.key.bytes = ascii "Content-Length"
      · rw [if_pos hkey, if_pos hkey, List.getLast?_cons]
        cases (headerValues "Content-Length" headers).getLast? with
        | none => rfl
        | some value => rfl
      · rw [if_neg hkey, if_neg hkey]
  exact hloop headers 0

/-- A length that was written in decimals is the one that is used. -/
theorem contentLength_decimal {headers : List HttpHeader} {value : CString} {n : Nat}
    (hlast : (headerValues "Content-Length" headers).getLast? = some value)
    (hvalue : value.bytes = StrTo.decimal n) (hpos : 0 < n) (hlt : n < 2 ^ 64) : contentLength headers = n := by
  rw [contentLength, hlast, Option.elim_some, hvalue, StrTo.strtoull_decimal hpos hlt (.inl rfl)]

/-- The response that came with the header in these rounds says how long its content is. -/
def SaysContentLength (malloc : Nat → Bool) (buf : Bytes) (first : List RecvRound)
    (headerSize contentSize : Nat) : Prop :=
  ∃ headers, ReceivedResponse malloc (splice buf 0 (recvBytes first)) headerSize 200 headers ∧
    contentLength headers = contentSize

/-- What is decrypted is the content, all of it and nothing else, and it is inside of the buffer. -/
structure DecryptsContent (rounds : List RecvRound) (headerSize contentSize : Nat)
    (received : RegistReceived) : Prop where
  header : received.headerSize = headerSize
  noWrap : contentSize + headerSize < 2 ^ 64
  size : received.bufFilledSize - headerSize = contentSize
  inside : headerSize + contentSize ≤ received.buf.length ∧ received.buf.length = registBufSize
  content : headerSize + contentSize ≤ (delivered true rounds).length ∧
    slice received.buf headerSize contentSize = slice (delivered true rounds) headerSize contentSize

/-- What was received as content of the response is decrypted. -/
def RegistFraming (malloc : Nat → Bool) (buf : Bytes) (rounds : List RecvRound) (received : RegistReceived) :
    Prop :=
  ∀ first headerSize contentSize, HeaderRounds rounds first headerSize →
    SaysContentLength malloc buf first headerSize contentSize →
    DecryptsContent rounds headerSize contentSize received

/-- With the header, nothing was received from behind the content. -/
def NoSurplus (malloc : Nat → Bool) (buf : Bytes) (rounds : List RecvRound) : Prop :=
  ∀ first headerSize contentSize, HeaderRounds rounds first headerSize →
    SaysContentLength malloc buf first headerSize contentSize →
    contentSize + headerSize < 2 ^ 64 ∧ (recvBytes first).length ≤ headerSize + contentSize

/-- How decryption is reached. -/
structure DecryptReached (malloc : Nat → Bool) (buf : Bytes) (rounds : List RecvRound) (received : RegistReceived)
    (first : List RecvRound) (headers : List HttpHeader) (mem data : Bytes) : Prop where
  header : HeaderRounds rounds first received.headerSize
  fits : (recvBytes first).length ≤ registBufSize
  response : ReceivedResponse malloc (splice buf 0 (recvBytes first)) received.headerSize 200 headers
  size : (contentLength headers + received.headerSize) % 2 ^ 64 ≤ registBufSize
  length : mem.length = registBufSize
  behind : mem.drop received.headerSize = (splice buf 0 (recvBytes first)).drop received.headerSize
  rest : RestReceived ((contentLength headers + received.headerSize) % 2 ^ 64) (rounds.drop first.length)
    ⟨mem, (recvBytes first).length, received.headerSize⟩ received data

theorem registRecvContent_decrypt {malloc : Nat → Bool} {received : RegistReceived}
    (hbuf : buf.length = registBufSize)
    (h : registRecvContent malloc buf rounds = .ok (.decrypt received)) :
    ∃ first headers mem data, DecryptReached malloc buf rounds received first headers mem data := by
  rw [registRecvContent] at h
  generalize hheader : recvHttpHeader true registBufSize rounds = result at h
  obtain ⟨s, result⟩ := result
  obtain ⟨buf', hwrite, h⟩ := bind_eq_ok_iff.mp h
  cases result with
  | waiting => cases h
  | error err => cases h
  | success headerSize =>
    obtain ⟨first, hfirst, hcalls, hsize, hfits, rfl⟩ :=
      recvHttpHeader_received hheader hwrite (by rw [hbuf]; decide)
    obtain ⟨⟨mem, result⟩, hparse, h⟩ := bind_eq_ok_iff.mp h
    cases result with
    | error err => cases h
    | ok response =>
      obtain ⟨code, entries⟩ := response
      simp only at h
      by_cases hcode : code ≠ 200
      · rw [if_pos hcode] at h
        cases h
      rw [if_neg hcode] at h
      have hcode := not_not.mp hcode
      subst hcode
      cases hread : readHeaders mem entries with
      | none =>
        rw [hread] at h
        cases h
      | some headers =>
        simp only [hread, registContentSize_eq] at h
        by_cases hnone : contentLength headers = 0
        · rw [if_pos hnone] at h
          cases h
        rw [if_neg hnone] at h
        by_cases hlarge : (contentLength headers + headerSize) % 2 ^ 64 > registBufSize
        · rw [if_pos hlarge] at h
          cases h
        rw [if_neg hlarge, hcalls, hsize] at h
        obtain ⟨hlen, hbehind⟩ := httpResponseParse_behind hparse
        rw [length_splice (by rwa [Nat.zero_add]), hbuf] at hlen
        rw [hbuf] at hfits
        obtain ⟨data, hrest⟩ := registRecvLoop_decrypt (by simpa only [hlen] using hfits) h
        have hsame : received.headerSize = headerSize := hrest.headerSize
        subst hsame
        exact ⟨first, headers, mem, data, hfirst, hfits, ⟨mem, entries, hparse, hread⟩, Nat.not_lt.mp hlarge,
          hlen, hbehind, hrest⟩

/-- What is in the buffer behind the header. -/
theorem slice_received {mem bytes data : Bytes} (hlen : mem.length = buf.length)
    (hbehind : mem.drop headerSize = (splice buf 0 bytes).drop headerSize)
    (hfits : bytes.length + data.length ≤ buf.length) :
    slice (splice mem bytes.length data) headerSize (bytes.length + data.length - headerSize)
      = slice (bytes ++ data) headerSize (bytes.length + data.length - headerSize) := by
  refine List.ext_getElem? fun i => ?_
  rw [getElem?_slice, getElem?_slice]
  by_cases hi : i < bytes.length + data.length - headerSize
  · rw [if_pos hi, if_pos hi, getElem?_splice (by rwa [hlen])]
    by_cases hdata : bytes.length ≤ headerSize + i
    · rw [if_pos ⟨hdata, by omega⟩, List.getElem?_append_right hdata]
    · have hsame := congrArg (·[i]?) hbehind
      simp only [List.getElem?_drop] at hsame
      rw [if_neg fun h => hdata h.1, List.getElem?_append_left (by omega), hsame,
        getElem?_splice (by omega), if_pos ⟨Nat.zero_le _, by omega⟩, Nat.sub_zero]
  · rw [if_neg hi, if_neg hi]

theorem SaysContentLength.eq {malloc : Nat → Bool} {contentSize : Nat}
    (h : SaysContentLength malloc buf first headerSize contentSize) (headers : List HttpHeader)
    (hresponse : ReceivedResponse malloc (splice buf 0 (recvBytes first)) headerSize 200 headers) :
    contentSize = contentLength headers := by
  obtain ⟨headers', hresponse', rfl⟩ := h
  rw [(hresponse'.unique hresponse).2]

variable {malloc : Nat → Bool} {received : RegistReceived}

/-- Without a surplus, what is decrypted is the content. -/
theorem NoSurplus.decryptsContent (hno : NoSurplus malloc buf rounds) (hbuf : buf.length = registBufSize)
    (h : registRecvContent malloc buf rounds = .ok (.decrypt received)) :
    RegistFraming malloc buf rounds received := by
  obtain ⟨first, headers, mem, data, hreached⟩ := registRecvContent_decrypt hbuf h
  have hend := hreached.header.ends.le_length
  have hfilled := hreached.rest.filled
  have hlength := hreached.rest.length
  have hsize := hreached.size
  have hfits := hreached.rest.fits
  have hsplice := hreached.rest.buf
  simp only at hfilled hlength hfits hsplice
  intro first' headerSize contentSize hfirst' hdeclared
  obtain ⟨rfl, rfl⟩ := hreached.header.unique hfirst'
  obtain ⟨hwrap, hsurplus⟩ := hno _ _ _ hfirst' hdeclared
  rw [← hdeclared.eq headers hreached.response, Nat.mod_eq_of_lt hwrap] at hfilled hsize
  -- the loop has filled the buffer up to the end of the content
  have htotal : received.bufFilledSize = received.headerSize + contentSize := by omega
  have hdata : (recvBytes first).length + data.length - received.headerSize = contentSize := by omega
  obtain ⟨more, hmore⟩ := hreached.rest.stream
  obtain ⟨rest, hrest⟩ := hreached.header.isPrefix
  have hstream : delivered true rounds = (recvBytes first ++ data) ++ more := by
    rw [List.append_assoc, hmore, ← hrest, delivered_append hreached.header.delivers, List.drop_left]
  have hslice := @slice_received buf received.headerSize mem (recvBytes first) data
    (hreached.length.trans hbuf.symm) hreached.behind (by rw [hbuf, ← hreached.length]; exact hfits)
  have hlen : received.buf.length = registBufSize := by rw [hsplice, length_splice hfits, hreached.length]
  rw [hdata] at hslice
  refine ⟨rfl, hwrap, by omega, ⟨by omega, hlen⟩, ?_, ?_⟩
  · rw [hstream, List.length_append, List.length_append]
    omega
  · have hcut : slice (recvBytes first ++ data ++ more) received.headerSize contentSize
        = slice (recvBytes first ++ data) received.headerSize contentSize :=
      slice_append (by rw [List.length_append]; omega) more
    rw [hsplice, hslice, hstream, hcut]

/-- **What is decrypted is the content, if and only if no more than the content was received with the
header** and the sum of the sizes does not wrap. -/
theorem registFraming_iff (hbuf : buf.length = registBufSize)
    (h : registRecvContent malloc buf rounds = .ok (.decrypt received)) :
    RegistFraming malloc buf rounds received ↔ NoSurplus malloc buf rounds := by
  refine ⟨?_, fun hno => hno.decryptsContent hbuf h⟩
  obtain ⟨first, headers, mem, data, hreached⟩ := registRecvContent_decrypt hbuf h
  intro hdecrypts first' headerSize contentSize hfirst' hdeclared
  obtain ⟨rfl, rfl⟩ := hreached.header.unique hfirst'
  have hcontent := hdecrypts _ _ _ hfirst' hdeclared
  have hend := hreached.header.ends.le_length
  have hlength := hreached.rest.length
  have hexact := hcontent.size
  simp only at hlength
  refine ⟨hcontent.noWrap, ?_⟩
  omega

/-- The buffer before anything was received. -/
def registBuf : Bytes := List.replicate registBufSize 0

/-- The first of these rounds has the whole header. -/
def textRounds (text : String) (h : (ascii text).length < 2 ^ 31) (more : List RecvRound) : List RecvRound :=
  ⟨.success, .received (ascii text) h⟩ :: more

theorem recvBytes_text (text : String) (h : (ascii text).length < 2 ^ 31) :
    recvBytes (textRounds text h []) = ascii text := List.flatMap_singleton ..

theorem headerRounds_text (text : String) (h : (ascii text).length < 2 ^ 31) (more : List RecvRound)
    (headerSize : Nat) (hends : FirstEnd headerEnd (ascii text) headerSize) :
    HeaderRounds (textRounds text h more) (textRounds text h []) headerSize where
  isPrefix := List.cons_prefix_cons.mpr ⟨rfl, List.nil_prefix⟩
  delivers := by
    refine List.forall_mem_singleton.mpr ⟨fun hnot => hnot.2 rfl, fun hnil => ?_⟩
    have hfound := hends.found.length_le
    rw [show ascii text = [] from hnil] at hfound
    simp [headerEnd] at hfound
  pending := absent_nil (by decide)
  ends := by rwa [recvBytes_text]

theorem saysContentLength_text {malloc : Nat → Bool} {text : String} (h : (ascii text).length < 2 ^ 31)
    {headers : List HttpHeader}
    (hresponse : ReceivedResponse malloc (splice buf 0 (ascii text)) headerSize 200 headers) :
    SaysContentLength malloc buf (textRounds text h []) headerSize (contentLength headers) := by
  rw [← recvBytes_text text h] at hresponse
  exact ⟨headers, hresponse, rfl⟩

/-- The headers of a response that has only a `Content-Length`. -/
def contentLengthHeader (value : String) (h : 0 ∉ ascii value) : List HttpHeader :=
  [⟨⟨ascii "Content-Length", by decide⟩, ⟨ascii value, h⟩⟩]

/-- The content comes with the header and behind it, and something else behind the content. -/
def cutRounds : List RecvRound :=
  textRounds "HTTP/1.1 200 OK\r\nContent-Length: 3\r\n\r\na" (by decide)
    [⟨.success, .received [0x62, 0x63, 0x64] (by decide)⟩]

/-- Three bytes are decrypted. -/
theorem registFraming_iff_cut : ∃ received,
    registRecvContent (fun _ => true) registBuf cutRounds = .ok (.decrypt received) ∧
    slice received.buf 38 3 = [0x61, 0x62, 0x63] ∧
    RegistFraming (fun _ => true) registBuf cutRounds received := by
  refine ⟨⟨[15, 31, 34].foldl (fun buf i => buf.set i 0)
    (splice registBuf 0 (ascii "HTTP/1.1 200 OK\r\nContent-Length: 3\r\n\r\nabc")), 41, 38⟩, ?_, ?_, ?_⟩
  · decide +kernel
  · decide +kernel
  · refine (registFraming_iff List.length_replicate (by decide +kernel)).mpr ?_
    intro first headerSize contentSize hfirst hdeclared
    have hheader := headerRounds_text "HTTP/1.1 200 OK\r\nContent-Length: 3\r\n\r\na" (by decide)
      [⟨.success, .received [0x62, 0x63, 0x64] (by decide)⟩] 38 (by decide +kernel)
    obtain ⟨rfl, rfl⟩ := hheader.unique hfirst
    have hresponse : ReceivedResponse (fun _ => true)
        (splice registBuf 0 (ascii "HTTP/1.1 200 OK\r\nContent-Length: 3\r\n\r\na")) 38 200
        (contentLengthHeader "3" (by decide)) :=
      ⟨[15, 31, 34].foldl (fun buf i => buf.set i 0)
        (splice registBuf 0 (ascii "HTTP/1.1 200 OK\r\nContent-Length: 3\r\n\r\na")), [⟨17, 33⟩],
        by decide +kernel, by decide +kernel⟩
    rw [← recvBytes_text _ (by decide)] at hresponse
    rw [hdeclared.eq _ hresponse, recvBytes_text]
    exact ⟨by decide +kernel, by decide +kernel⟩

/-- The sum of the sizes is 38 modulo 2^64. -/
def wrapRounds : List RecvRound :=
  textRounds "HTTP/1.1 200 OK\r\nContent-Length: -1\r\n\r\n" (by decide) []

/-- `b` does not belong to the content. -/
def surplusRounds : List RecvRound :=
  textRounds "HTTP/1.1 200 OK\r\nContent-Length: 1\r\n\r\nab" (by decide) []

theorem wrapRounds_decrypt : ∃ received,
    registRecvContent (fun _ => true) registBuf wrapRounds = .ok (.decrypt received) ∧
      ¬ RegistFraming (fun _ => true) registBuf wrapRounds received := by
  refine ⟨⟨[15, 31, 35].foldl (fun buf i => buf.set i 0)
    (splice registBuf 0 (ascii "HTTP/1.1 200 OK\r\nContent-Length: -1\r\n\r\n")), 39, 39⟩, ?_, fun h => ?_⟩
  · decide +kernel
  · have hresponse : ReceivedResponse (fun _ => true)
        (splice registBuf 0 (ascii "HTTP/1.1 200 OK\r\nContent-Length: -1\r\n\r\n")) 39 200
        (contentLengthHeader "-1" (by decide)) :=
      ⟨[15, 31, 35].foldl (fun buf i => buf.set i 0)
        (splice registBuf 0 (ascii "HTTP/1.1 200 OK\r\nContent-Length: -1\r\n\r\n")), [⟨17, 33⟩],
        by decide +kernel, by decide +kernel⟩
    have hcontent := h _ 39 _ (headerRounds_text _ _ _ 39 (by decide +kernel))
      (saysContentLength_text (by decide) hresponse)
    exact absurd hcontent.noWrap (by decide +kernel)

theorem surplusRounds_decrypt : ∃ received,
    registRecvContent (fun _ => true) registBuf surplusRounds = .ok (.decrypt received) ∧
      ¬ RegistFraming (fun _ => true) registBuf surplusRounds received := by
  refine ⟨⟨[15, 31, 34].foldl (fun buf i => buf.set i 0)
    (splice registBuf 0 (ascii "HTTP/1.1 200 OK\r\nContent-Length: 1\r\n\r\nab")), 40, 38⟩, ?_, fun h => ?_⟩
  · decide +kernel
  · have hresponse : ReceivedResponse (fun _ => true)
        (splice registBuf 0 (ascii "HTTP/1.1 200 OK\r\nContent-Length: 1\r\n\r\nab")) 38 200
        (contentLengthHeader "1" (by decide)) :=
      ⟨[15, 31, 34].foldl (fun buf i => buf.set i 0)
        (splice registBuf 0 (ascii "HTTP/1.1 200 OK\r\nContent-Length: 1\r\n\r\nab")), [⟨17, 33⟩],
        by decide +kernel, by decide +kernel⟩
    have hcontent := h _ 38 _ (headerRounds_text _ _ _ 38 (by decide +kernel))
      (saysContentLength_text (by decide) hresponse)
    exact absurd hcontent.size (by decide +kernel)

/-- Nothing is decrypted where the size wraps, and a byte too much where there is a surplus. -/
theorem not_registFraming :
    (∃ received, registRecvContent (fun _ => true) registBuf wrapRounds = .ok (.decrypt received) ∧
      ¬ RegistFraming (fun _ => true) registBuf wrapRounds received) ∧
    ∃ received, registRecvContent (fun _ => true) registBuf surplusRounds = .ok (.decrypt received) ∧
      ¬ RegistFraming (fun _ => true) registBuf surplusRounds received :=
  ⟨wrapRounds_decrypt, surplusRounds_decrypt⟩

/-- **A registration**: the host is what the headers in the decrypted content say. -/
theorem registRecvResponse_host {malloc' : Nat → Bool} {rpcrypt : RPCrypt} {target : Target} {plain : Bytes}
    {raws : List RawHeader} {contentSize : Nat} (hbuf : buf.length = registBufSize)
    (hno : NoSurplus malloc buf rounds) (hfirst : HeaderRounds rounds first headerSize)
    (hdeclared : SaysContentLength malloc buf first headerSize contentSize)
    (h : registRecvContent malloc buf rounds = .ok (.decrypt received))
    (hplain : rpcrypt.decrypt 0 (slice (delivered true rounds) headerSize contentSize) = .ok plain)
    (hreads : ReadsHeaders plain raws) (hmalloc : ∀ k, malloc' k = true) (host : RegisteredHost) :
    ∃ headers, List.Forall₂ SeenAs raws headers ∧
      registRecvResponse malloc malloc' rpcrypt target host buf rounds
        = .ok (some (registParseHeaders target headers.reverse)) := by
  have hcontent := hno.decryptsContent hbuf h _ _ _ hfirst hdeclared
  obtain ⟨hinside, -⟩ := hcontent.inside
  have hlen : plain.length = contentSize := by
    rw [rpcrypt.length_decrypt _ _ _ hplain, length_slice hcontent.content.1]
  have hfits : headerSize + plain.length ≤ received.buf.length := by omega
  have hslice : slice (splice received.buf headerSize plain) headerSize contentSize = plain :=
    slice_splice hlen hinside
  have hresult := @httpHeaderParse_reads (splice received.buf headerSize plain) malloc' raws headerSize contentSize
    (by rwa [length_splice hfits]) (by rwa [hslice])
  generalize hparse : httpHeaderParse malloc' (splice received.buf headerSize plain) headerSize contentSize
    = result at hresult
  cases hresult with
  | memory mem' k hk hfalse =>
    rw [hmalloc] at hfalse
    cases hfalse
  | success mem' entries headers hseen hentries =>
    rw [List.append_nil] at hentries
    refine ⟨headers, hseen, ?_⟩
    simp only [registRecvResponse, h, bind, Except.bind, hcontent.header, hcontent.size, hcontent.content.2,
      hplain, registParseResponsePayload_eq hparse hentries]
    rfl

end Chiaki
