import Chiaki.Http.Response
import Chiaki.Properties.Common
import Chiaki.Properties.Http.Header

/-!
# The headers of a response

Those who use a response walk along its list of headers and look at the values of one name.
-/

namespace Chiaki

open Infra

/-- The values of the headers of a name, in the order of the list. -/
def headerValues (name : String) (headers : List HttpHeader) : List CString :=
  (headers.filter fun header => header.key.bytes = ascii name).map HttpHeader.value

theorem headerValues_cons (name : String) (header : HttpHeader) (headers : List HttpHeader) :
    headerValues name (header :: headers)
      = if header.key.bytes = ascii name then header.value :: headerValues name headers
        else headerValues name headers := by
  rw [headerValues, List.filter_cons]
  by_cases h : header.key.bytes = ascii name
  · rw [if_pos (decide_eq_true h), if_pos h]
    rfl
  · rw [if_neg (by simpa using h), if_neg h]
    rfl

/-- A buffer with this response. -/
def ReceivedResponse (malloc : Nat → Bool) (buf : Bytes) (headerSize : Nat) (code : Int)
    (headers : List HttpHeader) : Prop :=
  ∃ buf' entries, httpResponseParse malloc buf headerSize = .ok (buf', .ok ⟨code, entries⟩) ∧
    readHeaders buf' entries = some headers

theorem ReceivedResponse.unique {malloc : Nat → Bool} {buf : Bytes} {headerSize : Nat} {code code' : Int}
    {headers headers' : List HttpHeader} (h : ReceivedResponse malloc buf headerSize code headers)
    (h' : ReceivedResponse malloc buf headerSize code' headers') : code = code' ∧ headers = headers' := by
  obtain ⟨mem, entries, hparse, hread⟩ := h
  obtain ⟨mem', entries', hparse', hread'⟩ := h'
  cases hparse.symm.trans hparse'
  cases hread.symm.trans hread'
  exact ⟨rfl, rfl⟩

/-! ## What is behind the header -/

variable {malloc : Nat → Bool} {mem mem' : Bytes} {size : Nat}

/-- Parsing headers changes nothing behind them. -/
theorem httpHeaderParse_behind {buf : Nat} {entries : List HttpHeaderEntry} (hle : buf + size ≤ mem.length)
    (h : httpHeaderParse malloc mem buf size = .ok (mem', .ok entries)) :
    mem'.length = mem.length ∧ mem'.drop (buf + size) = mem.drop (buf + size) := by
  rcases readsHeaders_or_rejects (slice mem buf size) with hrejects | ⟨raws, hreads⟩
  · obtain ⟨mem'', hresult | ⟨-, hresult⟩⟩ := httpHeaderParse_rejects malloc hle hrejects
    · rw [h] at hresult
      cases hresult
    · rw [h] at hresult
      cases hresult
  · have hresult := httpHeaderParse_reads malloc hle hreads
    rw [h] at hresult
    cases hresult with
    | success _ _ _ _ _ _ hlen hbehind => exact ⟨hlen, hbehind⟩

theorem httpResponseParse_behind {response : HttpResponse}
    (h : httpResponseParse malloc mem size = .ok (mem', .ok response)) :
    mem'.length = mem.length ∧ mem'.drop size = mem.drop size := by
  rw [httpResponseParse] at h
  by_cases hshort : size < httpVersionSize
  · rw [if_pos hshort] at h
    cases h
  rw [if_neg hshort] at h
  by_cases hlen : mem.length < size
  · rw [if_pos hlen] at h
    cases h
  rw [if_neg hlen] at h
  by_cases hversion : slice mem 0 httpVersionSize ≠ httpVersion
  · rw [if_pos hversion] at h
    cases h
  rw [if_neg hversion] at h
  cases hend : (slice mem httpVersionSize (size - httpVersionSize)).findIdx? (fun c => c = 0x0a) with
  | none =>
    rw [hend] at h
    cases h
  | some lineEnd =>
    simp only [hend] at h
    by_cases hline : size - httpVersionSize ≤ lineEnd + 1
    · rw [if_pos hline] at h
      cases h
    rw [if_neg hline] at h
    -- a NUL is written in front of the end of the line
    generalize hnul : (if lineEnd + 1 > 1 ∧ mem[httpVersionSize + lineEnd - 1]? = some 0x0d then lineEnd - 1
      else lineEnd) = terminator at h
    have hterminator : terminator ≤ lineEnd := by
      rw [← hnul]
      split <;> omega
    cases hread : CString.read (mem.set (httpVersionSize + terminator) 0) httpVersionSize with
    | none =>
      rw [hread] at h
      cases h
    | some line =>
      simp only [hread] at h
      by_cases hcode : (StrTo.strtol 10 line.bytes).bmod (2 ^ 32) = 0
      · rw [if_pos hcode] at h
        cases h
      rw [if_neg hcode] at h
      obtain ⟨⟨mem'', result⟩, hparse, h⟩ := bind_eq_ok_iff.mp h
      cases result with
      | error err => cases h
      | ok entries =>
        cases h
        have hbound : httpVersionSize + (lineEnd + 1) + (size - httpVersionSize - (lineEnd + 1)) = size := by omega
        obtain ⟨hsame, hbehind⟩ := httpHeaderParse_behind (by rw [List.length_set]; omega) hparse
        rw [hbound, List.drop_set_of_lt (by omega)] at hbehind
        exact ⟨hsame.trans List.length_set, hbehind⟩

/-! ## Which responses are accepted -/

/-- A status line without a carriage return at its end. -/
def statusText (line : Bytes) : Bytes := if line.getLast? = some 0x0d then line.dropLast else line

/-- The code in a status line. What is behind a NUL does not belong to it. -/
def statusCode (line : Bytes) : Int := (StrTo.strtol 10 ((statusText line).takeWhile fun c => c ≠ 0)).bmod (2 ^ 32)

/-- The texts that are accepted, with the code and the list of headers. -/
inductive ReadsResponse (malloc : Nat → Bool) : Bytes → Int → List HttpHeader → Prop
  | response (line rest : Bytes) (raws : List RawHeader) (headers : List HttpHeader) (hline : 0x0a ∉ line)
      (hrest : rest ≠ []) (hcode : statusCode line ≠ 0) (hreads : ReadsHeaders rest raws)
      (hheaders : List.Forall₂ SeenAs raws headers) (hmalloc : ∀ k < raws.length, malloc k = true) :
    ReadsResponse malloc (httpVersion ++ (line ++ 0x0a :: rest)) (statusCode line) headers.reverse

theorem findIdx?_line {line : Bytes} (hline : 0x0a ∉ line) (rest : Bytes) :
    (line ++ 0x0a :: rest).findIdx? (fun c => c = 0x0a) = some line.length := by
  have hnone : line.findIdx? (fun c => c = 0x0a) = none :=
    List.findIdx?_eq_none_iff.mpr fun c hc => decide_eq_false fun h => hline (h ▸ hc)
  rw [List.findIdx?_append, hnone, List.findIdx?_cons]
  simp

/-- A text has a first line, or no line feed. -/
theorem exists_line (text : Bytes) : text.findIdx? (fun c => c = 0x0a) = none ∨
    ∃ line rest, text = line ++ 0x0a :: rest ∧ 0x0a ∉ line := by
  cases hfind : text.findIdx? (fun c => c = 0x0a) with
  | none => exact .inl rfl
  | some i =>
    obtain ⟨hlt, hlf, hbefore⟩ := List.findIdx?_eq_some_iff_getElem.mp hfind
    refine .inr ⟨text.take i, text.drop (i + 1), ?_, fun hmem => ?_⟩
    · rw [← show text[i] = 0x0a from of_decide_eq_true hlf, ← List.drop_eq_getElem_cons hlt, List.take_append_drop]
    · obtain ⟨j, hj, hget⟩ := List.mem_iff_getElem.mp hmem
      rw [List.length_take] at hj
      rw [List.getElem_take] at hget
      exact hbefore j (by omega) (decide_eq_true hget)

/-- What is read in front of a NUL that was written behind some characters. -/
theorem read_set {text : Bytes} {off : Nat} (htext : text <+: mem.drop off) (hlt : off + text.length < mem.length) :
    ∃ s, CString.read (mem.set (off + text.length) 0) off = some s ∧ s.bytes = text.takeWhile fun c => c ≠ 0 := by
  obtain ⟨rest, hrest⟩ := htext
  have hlen := congrArg List.length hrest
  rw [List.length_append, List.length_drop] at hlen
  obtain ⟨c, rest, rfl⟩ := List.exists_cons_of_length_pos (show 0 < rest.length by omega)
  have hdrop : (mem.set (off + text.length) 0).drop off = text ++ 0 :: rest := by
    rw [List.drop_set, if_neg (by omega), ← hrest, Nat.add_sub_cancel_left,
      List.set_append_right _ _ (Nat.le_refl _), Nat.sub_self]
    rfl
  rw [CString.read, if_pos (by rw [hdrop]; simp)]
  refine ⟨_, rfl, ?_⟩
  simp only [hdrop]
  rw [List.takeWhile_append]
  split
  · next hall =>
    rw [(List.takeWhile_prefix _).eq_of_length hall]
    simp
  · rfl

theorem length_statusText (line : Bytes) : (statusText line).length ≤ line.length := by
  unfold statusText
  split
  · rw [List.length_dropLast]
    omega
  · exact Nat.le_refl _

theorem statusText_isPrefixOf (line : Bytes) : statusText line <+: line := by
  unfold statusText
  split
  · exact List.dropLast_prefix line
  · exact List.prefix_rfl

/-- Where the terminator is written. -/
theorem statusText_terminator {line rest : Bytes} {off : Nat} (hline : line ++ rest <+: mem.drop off) :
    (if line.length + 1 > 1 ∧ mem[off + line.length - 1]? = some 0x0d then line.length - 1 else line.length)
      = (statusText line).length := by
  obtain ⟨more, hmore⟩ := hline
  unfold statusText
  rcases List.eq_nil_or_concat line with rfl | ⟨init, last, rfl⟩
  · simp
  · have hlast : mem[off + (init.concat last).length - 1]? = some last := by
      rw [List.concat_eq_append] at hmore ⊢
      rw [List.length_append, List.length_singleton, show off + (init.length + 1) - 1 = off + init.length by omega,
        ← List.getElem?_drop, ← hmore]
      simp
    rw [hlast]
    by_cases hcr : last = 0x0d
    · simp [hcr]
    · simp [hcr]

/-- **The status line is read**, and the headers behind it are parsed. -/
theorem httpResponseParse_line {line rest : Bytes} (hsize : size ≤ mem.length)
    (htext : mem.take size = httpVersion ++ (line ++ 0x0a :: rest)) (hline : 0x0a ∉ line) (hrest : rest ≠ []) :
    ∃ nul, nul ≤ httpVersionSize + line.length ∧
      httpResponseParse malloc mem size
        = if statusCode line = 0 then .ok (mem.set nul 0, .error .invalidData) else do
          let (mem, headers) ← httpHeaderParse malloc (mem.set nul 0) (httpVersionSize + (line.length + 1)) rest.length
          return (mem, headers.map fun headers => ⟨statusCode line, headers⟩) := by
  have hlen := congrArg List.length htext
  rw [List.length_take, Nat.min_eq_left hsize, List.length_append, List.length_append, List.length_cons] at hlen
  have hversion : httpVersion.length = httpVersionSize := by decide
  have hpos := List.length_pos_of_ne_nil hrest
  have hdrop : (mem.take size).drop httpVersionSize = line ++ 0x0a :: rest := by
    rw [htext, ← hversion, List.drop_left]
  have hslice : slice mem httpVersionSize (size - httpVersionSize) = line ++ 0x0a :: rest := by
    rw [slice, ← List.drop_take, hdrop]
  have hprefix : line ++ 0x0a :: rest <+: mem.drop httpVersionSize := by
    rw [← hslice]
    exact List.take_prefix _ _
  obtain ⟨s, hread, hs⟩ := @read_set mem (statusText line) httpVersionSize
    ((statusText_isPrefixOf line).trans ((List.prefix_append _ _).trans hprefix))
    (by have := length_statusText line; omega)
  have hcode : (StrTo.strtol 10 s.bytes).bmod (2 ^ 32) = statusCode line := by rw [statusCode, hs]
  refine ⟨httpVersionSize + (statusText line).length, by have := length_statusText line; omega, ?_⟩
  rw [httpResponseParse, if_neg (by omega), if_neg (by omega), if_neg, hslice, findIdx?_line hline]
  · simp only
    rw [if_neg (by omega), statusText_terminator hprefix, hread]
    simp only [hcode]
    rw [show size - httpVersionSize - (line.length + 1) = rest.length by omega]
  · rw [not_not, slice, List.drop_zero, ← Nat.min_eq_left (show httpVersionSize ≤ size by omega), ← List.take_take,
      htext, ← hversion, List.take_left]

/-- A text that has no status line with something behind it is rejected. -/
theorem httpResponseParse_noLine (hsize : size ≤ mem.length)
    (hnot : ∀ line rest, 0x0a ∉ line → rest ≠ [] → mem.take size ≠ httpVersion ++ (line ++ 0x0a :: rest)) :
    httpResponseParse malloc mem size = .ok (mem, .error .invalidData) := by
  rw [httpResponseParse]
  by_cases hshort : size < httpVersionSize
  · rw [if_pos hshort]
  rw [if_neg hshort, if_neg (Nat.not_lt.mpr hsize)]
  by_cases hversion : slice mem 0 httpVersionSize ≠ httpVersion
  · rw [if_pos hversion]
  rw [if_neg hversion]
  have hsplit : mem.take size = httpVersion ++ slice mem httpVersionSize (size - httpVersionSize) := by
    have happend := slice_append_slice mem 0 httpVersionSize (size - httpVersionSize)
    rw [Nat.zero_add, not_not.mp hversion, Nat.add_sub_cancel' (Nat.not_lt.mp hshort)] at happend
    rw [happend, slice, List.drop_zero]
  rcases exists_line (slice mem httpVersionSize (size - httpVersionSize)) with hnone | ⟨line, rest, hline, hlf⟩
  · rw [hnone]
  · rw [hline, findIdx?_line hlf]
    -- the line would be followed by something
    by_cases hend : rest = []
    · have hlen := congrArg List.length hline
      rw [length_slice (by omega), hend, List.length_append, List.length_singleton] at hlen
      simp only
      rw [if_pos (by omega)]
    · exact absurd (hsplit.trans (by rw [hline])) (hnot line rest hlf hend)

theorem seenAs_unique {raws : List RawHeader} {headers headers' : List HttpHeader}
    (h : List.Forall₂ SeenAs raws headers) (h' : List.Forall₂ SeenAs raws headers') : headers = headers' := by
  induction h generalizing headers' with
  | nil =>
    cases h'
    rfl
  | cons hseen _ ih =>
    cases h' with
    | cons hseen' hrest =>
      rw [ih hrest]
      congr 1
      exact HttpHeader.mk.injEq .. |>.mpr ⟨CString.ext (hseen.key.trans hseen'.key.symm),
        CString.ext (hseen.value.trans hseen'.value.symm)⟩

/-- How parsing a response ends: it never leaves the buffer. -/
inductive ResponseResult (malloc : Nat → Bool) (mem : Bytes) (size : Nat) :
    Except Fault (Bytes × Except ErrorCode HttpResponse) → Prop
  | success (mem' : Bytes) (code : Int) (entries : List HttpHeaderEntry) (headers : List HttpHeader)
      (hreads : ReadsResponse malloc (mem.take size) code headers) (hheaders : readHeaders mem' entries = some headers) :
    ResponseResult malloc mem size (.ok (mem', .ok ⟨code, entries⟩))
  | error (mem' : Bytes) (err : ErrorCode) (herr : err ≠ .success)
      (hnot : ∀ code headers, ¬ ReadsResponse malloc (mem.take size) code headers) :
    ResponseResult malloc mem size (.ok (mem', .error err))

/-- Where the headers are when the status line has been read. -/
theorem slice_headers {line rest : Bytes} {nul : Nat} (hsize : size ≤ mem.length)
    (htext : mem.take size = httpVersion ++ (line ++ 0x0a :: rest)) (hnul : nul ≤ httpVersionSize + line.length) :
    httpVersionSize + (line.length + 1) + rest.length = size ∧
      slice (mem.set nul 0) (httpVersionSize + (line.length + 1)) rest.length = rest := by
  have hlen := congrArg List.length htext
  have hversion : httpVersion.length = httpVersionSize := by decide
  rw [List.length_take, Nat.min_eq_left hsize, List.length_append, List.length_append, List.length_cons] at hlen
  have htotal : httpVersionSize + (line.length + 1) + rest.length = size := by omega
  refine ⟨htotal, ?_⟩
  have hsplit : httpVersion ++ (line ++ 0x0a :: rest) = (httpVersion ++ (line ++ [0x0a])) ++ rest := by simp
  have hfirst : (httpVersion ++ (line ++ [0x0a])).length = httpVersionSize + (line.length + 1) := by
    rw [List.length_append, hversion, List.length_append, List.length_singleton]
  rw [slice, List.drop_set_of_lt (by omega),
    show rest.length = size - (httpVersionSize + (line.length + 1)) by omega, ← List.drop_take, htext, hsplit, ← hfirst,
    List.drop_left]

/-- A response that is accepted is received. -/
theorem ReadsResponse.received {code : Int} {headers : List HttpHeader} (hsize : size ≤ mem.length)
    (h : ReadsResponse malloc (mem.take size) code headers) : ReceivedResponse malloc mem size code headers := by
  generalize htext : mem.take size = text at h
  obtain ⟨line, rest, raws, headers, hline, hrest, hcode, hreads, hheaders, hmalloc⟩ := h
  obtain ⟨nul, hnul, hparse⟩ := @httpResponseParse_line malloc mem size line rest hsize htext hline hrest
  obtain ⟨htotal, hslice⟩ := slice_headers hsize htext hnul
  rw [if_neg hcode] at hparse
  have hresult := @httpHeaderParse_reads (mem.set nul 0) malloc raws (httpVersionSize + (line.length + 1)) rest.length
    (by rw [List.length_set]; omega) (by rwa [hslice])
  generalize httpHeaderParse malloc (mem.set nul 0) (httpVersionSize + (line.length + 1)) rest.length = result
    at hparse hresult
  cases hresult with
  | success mem' entries new hnew hentries =>
    rw [List.append_nil, seenAs_unique hnew hheaders] at hentries
    exact ⟨mem', entries, hparse, hentries⟩
  | memory mem' k hk hfail =>
    rw [Nat.zero_add, hmalloc k hk] at hfail
    cases hfail

/-- **What is received is a response that is accepted, or an error is returned.** -/
theorem httpResponseParse_result (malloc : Nat → Bool) (hsize : size ≤ mem.length) :
    ResponseResult malloc mem size (httpResponseParse malloc mem size) := by
  have herror : ∀ {mem' err}, httpResponseParse malloc mem size = .ok (mem', .error err) → err ≠ .success →
      ResponseResult malloc mem size (httpResponseParse malloc mem size) := by
    intro mem' err hparse herr
    rw [hparse]
    refine .error mem' err herr fun code headers hreads => ?_
    obtain ⟨mem'', entries, hparse', -⟩ := hreads.received hsize
    cases hparse.symm.trans hparse'
  by_cases hlines : ∃ line rest, 0x0a ∉ line ∧ rest ≠ [] ∧ mem.take size = httpVersion ++ (line ++ 0x0a :: rest)
  · obtain ⟨line, rest, hline, hrest, htext⟩ := hlines
    obtain ⟨nul, hnul, hparse⟩ := @httpResponseParse_line malloc mem size line rest hsize htext hline hrest
    obtain ⟨htotal, hslice⟩ := slice_headers hsize htext hnul
    by_cases hcode : statusCode line = 0
    · rw [if_pos hcode] at hparse
      exact herror hparse nofun
    rw [if_neg hcode] at hparse
    have hbound : httpVersionSize + (line.length + 1) + rest.length ≤ (mem.set nul 0).length := by
      rw [List.length_set]
      omega
    rcases readsHeaders_or_rejects rest with hrejects | ⟨raws, hreads⟩
    · obtain ⟨mem', hresult | ⟨-, hresult⟩⟩ := httpHeaderParse_rejects malloc hbound (by rwa [hslice])
      · rw [hresult] at hparse
        exact herror hparse nofun
      · rw [hresult] at hparse
        exact herror hparse nofun
    · have hresult := httpHeaderParse_reads malloc hbound (by rwa [hslice])
      generalize httpHeaderParse malloc (mem.set nul 0) (httpVersionSize + (line.length + 1)) rest.length = result
        at hparse hresult
      cases hresult with
      | success mem' entries new hnew hentries hmalloc =>
        rw [hparse]
        refine .success mem' _ entries new.reverse ?_ (by rw [hentries, List.append_nil])
        rw [htext]
        exact .response line rest raws new hline hrest hcode hreads hnew fun k hk => by
          rw [← Nat.zero_add k]
          exact hmalloc k hk
      | memory mem' => exact herror hparse nofun
  · refine herror (httpResponseParse_noLine hsize fun line rest hline hrest htext => ?_) nofun
    exact hlines ⟨line, rest, hline, hrest, htext⟩

/-- What is behind a response has no part in it. -/
theorem receivedResponse_iff {code : Int} {headers : List HttpHeader} (hsize : size ≤ mem.length) :
    ReceivedResponse malloc mem size code headers ↔ ReadsResponse malloc (mem.take size) code headers := by
  refine ⟨fun ⟨mem', entries, hparse, hheaders⟩ => ?_, ReadsResponse.received hsize⟩
  have hresult := httpResponseParse_result malloc hsize
  rw [hparse] at hresult
  cases hresult with
  | success _ _ _ headers' hreads hheaders' =>
    cases hheaders.symm.trans hheaders'
    exact hreads

end Chiaki
