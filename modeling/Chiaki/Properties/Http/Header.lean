import Mathlib.Data.List.Forall2
import Chiaki.Http.Header

/-!
# Which headers are read

A grammar says how `chiaki_http_header_parse` reads a text: `ReadsHeaders` of the texts that are
accepted, with their headers, and `RejectsHeaders` of the other ones. The parser follows it
(`httpHeaderParse_reads`, `httpHeaderParse_rejects`).

* `httpHeaderParse_rendered` — headers that were rendered are read again
-/

namespace Chiaki

open Infra

/-! ## The grammar -/

/-- What the parser walks over in front of the colon. -/
def KeyText (key : Bytes) : Prop := ∀ c ∈ key, c ≠ 0 ∧ c ≠ 0x3a ∧ ¬ isLineEnd c

/-- What the parser walks over behind the first character of a value. -/
def ValueText (value : Bytes) : Prop := ∀ c ∈ value, c ≠ 0 ∧ ¬ isLineEnd c

/-- One space behind the colon does not belong to the value. -/
def Separates (space : Bytes) (first : UInt8) : Prop := space = [] ∧ first ≠ 0x20 ∨ space = [0x20]

/-- The text ends here, or a NUL is in the way. -/
def TextEnds (text : Bytes) : Prop := text = [] ∨ ∃ rest, text = 0 :: rest

/-- A key and a value with everything up to the line end. -/
abbrev RawHeader := Bytes × Bytes

/-- The texts that are accepted, with the headers in the order of the text. Any character may be the
first one of a value. -/
inductive ReadsHeaders : Bytes → List RawHeader → Prop
  | ended (key rest : Bytes) (hkey : KeyText key) (hrest : TextEnds rest) : ReadsHeaders (key ++ rest) []
  | short (key : Bytes) (le : UInt8) (rest : Bytes) (raws : List RawHeader) (hkey : KeyText key)
      (hshort : key.length ≤ 1) (hle : isLineEnd le) (hreads : ReadsHeaders rest raws) :
    ReadsHeaders (key ++ le :: rest) raws
  | unended (key space : Bytes) (first : UInt8) (value rest : Bytes) (hkey : KeyText key) (hne : key ≠ [])
      (hspace : Separates space first) (hvalue : ValueText value) (hrest : TextEnds rest) :
    ReadsHeaders (key ++ 0x3a :: (space ++ first :: (value ++ rest))) []
  | header (key space : Bytes) (first : UInt8) (value : Bytes) (le : UInt8) (rest : Bytes)
      (raws : List RawHeader) (hkey : KeyText key) (hne : key ≠ []) (hspace : Separates space first)
      (hvalue : ValueText value) (hle : isLineEnd le) (hreads : ReadsHeaders rest raws) :
    ReadsHeaders (key ++ 0x3a :: (space ++ first :: (value ++ le :: rest))) ((key, first :: value) :: raws)

/-- The texts that are rejected: a line begins with a colon, or has no colon, or nothing is left behind
the colon. -/
inductive RejectsHeaders : Bytes → Prop
  | noKey (rest : Bytes) : RejectsHeaders (0x3a :: rest)
  | noColon (key : Bytes) (le : UInt8) (rest : Bytes) (hkey : KeyText key) (hlong : 2 ≤ key.length)
      (hle : isLineEnd le) : RejectsHeaders (key ++ le :: rest)
  | noValue (key space : Bytes) (hkey : KeyText key) (hne : key ≠ []) (hspace : space = [] ∨ space = [0x20]) :
    RejectsHeaders (key ++ 0x3a :: space)
  | short (key : Bytes) (le : UInt8) (rest : Bytes) (hkey : KeyText key) (hshort : key.length ≤ 1)
      (hle : isLineEnd le) (hrejects : RejectsHeaders rest) : RejectsHeaders (key ++ le :: rest)
  | header (key space : Bytes) (first : UInt8) (value : Bytes) (le : UInt8) (rest : Bytes)
      (hkey : KeyText key) (hne : key ≠ []) (hspace : Separates space first) (hvalue : ValueText value)
      (hle : isLineEnd le) (hrejects : RejectsHeaders rest) :
    RejectsHeaders (key ++ 0x3a :: (space ++ first :: (value ++ le :: rest)))

/-- A text begins with a key. -/
theorem exists_key (text : Bytes) : ∃ key rest, text = key ++ rest ∧ KeyText key ∧
    ∀ c ∈ rest.head?, c = 0 ∨ c = 0x3a ∨ isLineEnd c := by
  induction text with
  | nil => exact ⟨[], [], rfl, nofun, nofun⟩
  | cons c text ih =>
    by_cases hstop : c = 0 ∨ c = 0x3a ∨ isLineEnd c
    · exact ⟨[], c :: text, rfl, nofun, fun d hd => Option.some.inj hd ▸ hstop⟩
    · obtain ⟨key, rest, rfl, hkey, hhead⟩ := ih
      refine ⟨c :: key, rest, rfl, List.forall_mem_cons.mpr ⟨?_, hkey⟩, hhead⟩
      exact ⟨fun h => hstop (.inl h), fun h => hstop (.inr (.inl h)), fun h => hstop (.inr (.inr h))⟩

theorem exists_value (text : Bytes) : ∃ value rest, text = value ++ rest ∧ ValueText value ∧
    (TextEnds rest ∨ ∃ le rest', rest = le :: rest' ∧ isLineEnd le) := by
  induction text with
  | nil => exact ⟨[], [], rfl, nofun, .inl (.inl rfl)⟩
  | cons c text ih =>
    by_cases hle : isLineEnd c
    · exact ⟨[], c :: text, rfl, nofun, .inr ⟨c, text, rfl, hle⟩⟩
    · by_cases hnul : c = 0
      · exact ⟨[], c :: text, rfl, nofun, .inl (.inr ⟨text, by rw [hnul]⟩)⟩
      · obtain ⟨value, rest, rfl, hvalue, hrest⟩ := ih
        exact ⟨c :: value, rest, rfl, List.forall_mem_cons.mpr ⟨⟨hnul, hle⟩, hvalue⟩, hrest⟩

/-- **Every text is accepted or rejected.** -/
theorem readsHeaders_or_rejects (text : Bytes) : RejectsHeaders text ∨ ∃ raws, ReadsHeaders text raws := by
  induction hn : text.length using Nat.strongRecOn generalizing text with
  | _ n ih =>
    obtain ⟨key, rest, rfl, hkey, hhead⟩ := exists_key text
    rcases rest with _ | ⟨c, rest⟩
    · exact .inr ⟨[], .ended key [] hkey (.inl rfl)⟩
    rcases hhead c rfl with rfl | rfl | hle
    · exact .inr ⟨[], .ended key _ hkey (.inr ⟨rest, rfl⟩)⟩
    · by_cases hne : key = []
      · exact .inl (hne ▸ .noKey rest)
      -- the value, without one space
      have hvalue : ∀ space first more, rest = space ++ first :: more → Separates space first →
          RejectsHeaders (key ++ 0x3a :: rest) ∨ ∃ raws, ReadsHeaders (key ++ 0x3a :: rest) raws := by
        rintro space first more rfl hspace
        obtain ⟨value, rest, rfl, hvalue, hends | ⟨le, rest, rfl, hle⟩⟩ := exists_value more
        · exact .inr ⟨[], .unended key space first value rest hkey hne hspace hvalue hends⟩
        · rcases ih rest.length (by simp at hn; omega) rest rfl with hrejects | ⟨raws, hreads⟩
          · exact .inl (.header key space first value le rest hkey hne hspace hvalue hle hrejects)
          · exact .inr ⟨_, .header key space first value le rest raws hkey hne hspace hvalue hle hreads⟩
      rcases rest with _ | ⟨d, rest⟩
      · exact .inl (.noValue key [] hkey hne (.inl rfl))
      by_cases hd : d = 0x20
      · subst hd
        rcases rest with _ | ⟨first, rest⟩
        · exact .inl (.noValue key [0x20] hkey hne (.inr rfl))
        · exact hvalue [0x20] first rest rfl (.inr rfl)
      · exact hvalue [] d rest rfl (.inl ⟨rfl, hd⟩)
    · by_cases hlong : 2 ≤ key.length
      · exact .inl (.noColon key c rest hkey hlong hle)
      · have hshort : key.length ≤ 1 := by omega
        rcases ih rest.length (by simp at hn; omega) rest rfl with hrejects | ⟨raws, hreads⟩
        · exact .inl (.short key c rest hkey hshort hle hrejects)
        · exact .inr ⟨raws, .short key c rest raws hkey hshort hle hreads⟩

/-! ## Turns of the loop -/

abbrev HttpHeaderResult := Except Fault (Bytes × Except ErrorCode (List HttpHeaderEntry))

variable {malloc : Nat → Bool} {bufEnd : Nat} {s s' : HttpHeaderParser} {result : HttpHeaderResult}

/-- The loop ends so when it has turns enough. -/
def Runs (malloc : Nat → Bool) (bufEnd : Nat) (s : HttpHeaderParser) (result : HttpHeaderResult) : Prop :=
  ∀ fuel, bufEnd ≤ s.buf + fuel → httpHeaderParseLoop malloc bufEnd fuel s = result

theorem runs_end (h : bufEnd ≤ s.buf) : Runs malloc bufEnd s (.ok (s.mem, .ok s.header)) := by
  intro fuel _
  cases fuel with
  | zero => rfl
  | succ fuel => rw [httpHeaderParseLoop, if_neg (Nat.not_lt.mpr h)]

theorem runs_next (hlt : s.buf < bufEnd) (hstep : httpHeaderStep malloc bufEnd s = .ok (.next s'))
    (hbuf : s.buf < s'.buf) (h : Runs malloc bufEnd s' result) : Runs malloc bufEnd s result := by
  intro fuel hfuel
  cases fuel with
  | zero => omega
  | succ fuel =>
    rw [httpHeaderParseLoop, if_pos hlt, hstep]
    exact h fuel (by omega)

theorem runs_done (hlt : s.buf < bufEnd) (hstep : httpHeaderStep malloc bufEnd s = .ok .done) :
    Runs malloc bufEnd s (.ok (s.mem, .ok s.header)) := by
  intro fuel hfuel
  cases fuel with
  | zero => omega
  | succ fuel =>
    rw [httpHeaderParseLoop, if_pos hlt, hstep]
    rfl

theorem runs_fail {mem : Bytes} {err : ErrorCode} (hlt : s.buf < bufEnd)
    (hstep : httpHeaderStep malloc bufEnd s = .ok (.fail mem err)) :
    Runs malloc bufEnd s (.ok (mem, .error err)) := by
  intro fuel hfuel
  cases fuel with
  | zero => omega
  | succ fuel =>
    rw [httpHeaderParseLoop, if_pos hlt, hstep]
    rfl

/-- The text that is left, in a buffer that ends behind it. -/
structure Rest (bufEnd : Nat) (s : HttpHeaderParser) (text : Bytes) : Prop where
  holds : text <+: s.mem.drop s.buf
  ends : s.buf + text.length = bufEnd

theorem Rest.lt {c : UInt8} {text : Bytes} (h : Rest bufEnd s (c :: text)) : s.buf < bufEnd := by
  have hlen := h.ends
  rw [List.length_cons] at hlen
  omega

theorem Rest.readChar {c : UInt8} {text : Bytes} (h : Rest bufEnd s (c :: text)) :
    readChar s.mem s.buf = .ok c := by
  obtain ⟨rest, hrest⟩ := h.holds
  have hc : s.mem[s.buf]? = some c := by
    have hhead := congrArg (·[0]?) hrest
    simpa using hhead.symm
  rw [Chiaki.readChar, hc]

/-- Some of the text has been walked over, and only that was written to. -/
theorem Rest.skip (front : Bytes) {text : Bytes} (h : Rest bufEnd s (front ++ text))
    (hbuf : s'.buf = s.buf + front.length) (hmem : s'.mem.drop s'.buf = s.mem.drop s'.buf) :
    Rest bufEnd s' text := by
  obtain ⟨rest, hrest⟩ := h.holds
  refine ⟨⟨rest, ?_⟩, ?_⟩
  · rw [hmem, hbuf, ← List.drop_drop, ← hrest, List.append_assoc, List.drop_left]
  · have hlen := h.ends
    rw [List.length_append] at hlen
    omega

theorem runs_key {key text : Bytes} (hkey : KeyText key) (hrest : Rest bufEnd s (key ++ text))
    (hvalue : s.valuePtr = none)
    (h : Runs malloc bufEnd { s with buf := s.buf + key.length } result) :
    Runs malloc bufEnd s result := by
  induction key generalizing s with
  | nil => exact h
  | cons c key ih =>
    obtain ⟨⟨hnul, hcolon, hle⟩, hkey⟩ := List.forall_mem_cons.mp hkey
    have hstep : httpHeaderStep malloc bufEnd s = .ok (.next { s with buf := s.buf + 1 }) := by
      simp [httpHeaderStep, hrest.readChar, hvalue, hnul, hcolon, hle, bind, Except.bind, pure, Except.pure]
    refine runs_next hrest.lt hstep (Nat.lt_succ_self _) (ih hkey (hrest.skip [c] rfl rfl) hvalue ?_)
    rw [List.length_cons, Nat.add_comm key.length, ← Nat.add_assoc] at h
    exact h

theorem runs_value {value text : Bytes} {valuePtr : Nat} (hvalue : ValueText value)
    (hrest : Rest bufEnd s (value ++ text)) (hptr : s.valuePtr = some valuePtr)
    (h : Runs malloc bufEnd { s with buf := s.buf + value.length } result) :
    Runs malloc bufEnd s result := by
  induction value generalizing s with
  | nil => exact h
  | cons c value ih =>
    obtain ⟨⟨hnul, hle⟩, hvalue⟩ := List.forall_mem_cons.mp hvalue
    have hstep : httpHeaderStep malloc bufEnd s = .ok (.next { s with buf := s.buf + 1 }) := by
      simp [httpHeaderStep, hrest.readChar, hptr, hnul, hle, bind, Except.bind, pure, Except.pure]
    refine runs_next hrest.lt hstep (Nat.lt_succ_self _) (ih hvalue (hrest.skip [c] rfl rfl) hptr ?_)
    rw [List.length_cons, Nat.add_comm value.length, ← Nat.add_assoc] at h
    exact h

/-- The text from the value on, once the colon is a NUL. -/
theorem Rest.value {space text : Bytes} (h : Rest bufEnd s (0x3a :: (space ++ text))) :
    Rest bufEnd { s with mem := s.mem.set s.buf 0, buf := s.buf + 1 + space.length } text := by
  refine h.skip (0x3a :: space) ?_ (List.drop_set_of_lt (by simp only; omega))
  simp only [List.length_cons]
  omega

/-- The value begins behind the colon, or behind the space there. -/
theorem runs_colon {space more : Bytes} {first : UInt8}
    (hrest : Rest bufEnd s (0x3a :: (space ++ first :: more))) (hvalue : s.valuePtr = none)
    (hne : s.keyPtr ≠ s.buf) (hspace : Separates space first)
    (h : Runs malloc bufEnd { s with
      mem := s.mem.set s.buf 0
      buf := s.buf + 1 + space.length + 1
      valuePtr := some (s.buf + 1 + space.length) } result) :
    Runs malloc bufEnd s result := by
  have hlen := hrest.ends
  have hskip : Rest bufEnd { s with mem := s.mem.set s.buf 0, buf := s.buf + 1 } (space ++ first :: more) :=
    hrest.skip [0x3a] rfl (List.drop_set_of_lt (Nat.lt_succ_self _))
  simp only [List.length_cons, List.length_append] at hlen
  have hstep : httpHeaderStep malloc bufEnd s
      = httpHeaderValue bufEnd { s with mem := s.mem.set s.buf 0, buf := s.buf + 1 } := by
    simp [httpHeaderStep, hrest.readChar, hvalue, hne, bind, Except.bind]
  have hone : s.buf + 1 ≠ bufEnd := by omega
  rcases hspace with ⟨rfl, hfirst⟩ | rfl
  · refine runs_next hrest.lt (hstep.trans ?_) (by simp only; omega) h
    simp [httpHeaderValue, hone, hskip.readChar, hfirst, bind, Except.bind, pure, Except.pure]
  · have htwo : s.buf + 1 + 1 ≠ bufEnd := by
      simp only [List.length_cons, List.length_nil] at hlen
      omega
    refine runs_next hrest.lt (hstep.trans ?_) (by simp only; omega) h
    simp [httpHeaderValue, hone, htwo, hskip.readChar, bind, Except.bind, pure, Except.pure]

theorem runs_noValue (malloc : Nat → Bool) {space : Bytes} (hrest : Rest bufEnd s (0x3a :: space))
    (hvalue : s.valuePtr = none) (hne : s.keyPtr ≠ s.buf) (hspace : space = [] ∨ space = [0x20]) :
    ∃ mem, Runs malloc bufEnd s (.ok (mem, .error .invalidData)) := by
  have hlen := hrest.ends
  have hskip : Rest bufEnd { s with mem := s.mem.set s.buf 0, buf := s.buf + 1 } space :=
    hrest.skip [0x3a] rfl (List.drop_set_of_lt (Nat.lt_succ_self _))
  have hstep : httpHeaderStep malloc bufEnd s
      = httpHeaderValue bufEnd { s with mem := s.mem.set s.buf 0, buf := s.buf + 1 } := by
    simp [httpHeaderStep, hrest.readChar, hvalue, hne, bind, Except.bind]
  refine ⟨s.mem.set s.buf 0, runs_fail hrest.lt (hstep.trans ?_)⟩
  rcases hspace with rfl | rfl
  · have hone : s.buf + 1 = bufEnd := hlen
    simp [httpHeaderValue, hone, pure, Except.pure]
  · have hone : s.buf + 1 ≠ bufEnd := by
      simp only [List.length_cons, List.length_nil] at hlen
      omega
    have htwo : s.buf + 1 + 1 = bufEnd := hlen
    simp [httpHeaderValue, hone, htwo, hskip.readChar, bind, Except.bind, pure, Except.pure]

/-! ## Strings in the buffer -/

/-- What a caller sees of a header. A NUL ends the value. -/
structure SeenAs (raw : RawHeader) (header : HttpHeader) : Prop where
  key : header.key.bytes = raw.1
  value : header.value.bytes = raw.2.takeWhile fun c => c ≠ 0

/-- The two strings of an entry stand in the buffer, in front of `below`. -/
structure HoldsEntry (mem : Bytes) (below : Nat) (entry : HttpHeaderEntry) (header : HttpHeader) : Prop where
  key : CString.Holds mem entry.key header.key
  key_lt : entry.key + header.key.bytes.length < below
  value : CString.Holds mem entry.value header.value
  value_lt : entry.value + header.value.bytes.length < below

theorem HoldsEntry.read_eq {mem : Bytes} {below : Nat} {entry : HttpHeaderEntry} {header : HttpHeader}
    (h : HoldsEntry mem below entry header) : entry.read mem = some header := by
  rw [HttpHeaderEntry.read, h.key.read_eq, h.value.read_eq]
  rfl

theorem readHeaders_eq {mem : Bytes} {below : Nat} {entries : List HttpHeaderEntry} {headers : List HttpHeader}
    (h : List.Forall₂ (HoldsEntry mem below) entries headers) : readHeaders mem entries = some headers := by
  induction h with
  | nil => rfl
  | cons hentry _ ih =>
    rw [readHeaders] at ih ⊢
    rw [List.mapM_cons, hentry.read_eq, ih]
    rfl

theorem HoldsEntry.mono {mem : Bytes} {below below' : Nat} {entry : HttpHeaderEntry} {header : HttpHeader}
    (h : HoldsEntry mem below entry header) (hle : below ≤ below') : HoldsEntry mem below' entry header :=
  ⟨h.key, Nat.lt_of_lt_of_le h.key_lt hle, h.value, Nat.lt_of_lt_of_le h.value_lt hle⟩

/-- What is written behind the strings leaves them. -/
theorem HoldsEntry.set {mem : Bytes} {below i : Nat} {entry : HttpHeaderEntry} {header : HttpHeader}
    (h : HoldsEntry mem below entry header) (hi : below ≤ i) (c : UInt8) :
    HoldsEntry (mem.set i c) below entry header :=
  ⟨h.key.set (Nat.lt_of_lt_of_le h.key_lt hi) c, h.key_lt,
    h.value.set (Nat.lt_of_lt_of_le h.value_lt hi) c, h.value_lt⟩

/-- The parser is at the beginning of a line, with the headers of the lines before it. -/
structure LineStart (mem : Bytes) (bufEnd : Nat) (s : HttpHeaderParser) (text : Bytes)
    (headers : List HttpHeader) : Prop where
  rest : Rest bufEnd s text
  keyPtr : s.keyPtr = s.buf
  valuePtr : s.valuePtr = none
  entries : List.Forall₂ (HoldsEntry s.mem s.buf) s.header headers
  length : s.mem.length = mem.length
  behind : s.mem.drop bufEnd = mem.drop bufEnd

variable {mem text : Bytes} {headers : List HttpHeader}

/-- A line end in front of which nothing is to be read. -/
theorem LineStart.short (malloc : Nat → Bool) {key rest : Bytes} {le : UInt8}
    (h : LineStart mem bufEnd s (key ++ le :: rest) headers) (hkey : KeyText key) (hshort : key.length ≤ 1)
    (hle : isLineEnd le) : ∃ s', LineStart mem bufEnd s' rest headers ∧ s'.header = s.header ∧
      ∀ result, Runs malloc bufEnd s' result → Runs malloc bufEnd s result := by
  have hend : Rest bufEnd { s with buf := s.buf + key.length } (le :: rest) := h.rest.skip key rfl rfl
  have hnul : le ≠ 0 := by rcases hle with rfl | rfl <;> decide
  have hcolon : le ≠ 0x3a := by rcases hle with rfl | rfl <;> decide
  have hstep : httpHeaderStep malloc bufEnd { s with buf := s.buf + key.length }
      = .ok (.next { s with keyPtr := s.buf + key.length + 1, buf := s.buf + key.length + 1 }) := by
    have hfew : ¬ s.buf + 1 < s.buf + key.length := by omega
    simp [httpHeaderStep, hend.readChar, h.valuePtr, h.keyPtr, hnul, hcolon, hle, hfew, bind, Except.bind, pure,
      Except.pure]
  refine ⟨{ s with keyPtr := s.buf + key.length + 1, buf := s.buf + key.length + 1 },
    ⟨hend.skip [le] rfl rfl, rfl, h.valuePtr, ?_, h.length, h.behind⟩, rfl, fun result hruns => ?_⟩
  · exact h.entries.imp fun _ _ hentry => hentry.mono (Nat.le_succ_of_le (Nat.le_add_right _ _))
  · exact runs_key hkey h.rest h.valuePtr (runs_next hend.lt hstep (Nat.lt_succ_self _) hruns)

theorem LineStart.noColon {key rest : Bytes} {le : UInt8}
    (h : LineStart mem bufEnd s (key ++ le :: rest) headers) (hkey : KeyText key) (hlong : 2 ≤ key.length)
    (hle : isLineEnd le) : Runs malloc bufEnd s (.ok (s.mem, .error .invalidData)) := by
  have hend : Rest bufEnd { s with buf := s.buf + key.length } (le :: rest) := h.rest.skip key rfl rfl
  have hnul : le ≠ 0 := by rcases hle with rfl | rfl <;> decide
  have hcolon : le ≠ 0x3a := by rcases hle with rfl | rfl <;> decide
  have hmany : s.buf + 1 < s.buf + key.length := by omega
  refine runs_key hkey h.rest h.valuePtr (runs_fail hend.lt ?_)
  simp [httpHeaderStep, hend.readChar, h.valuePtr, h.keyPtr, hnul, hcolon, hle, hmany, bind, Except.bind, pure,
    Except.pure]

/-- The strings of a header, once the NUL stands behind each of them. -/
theorem exists_seenAs {key : Bytes} (hkey : KeyText key) (value : Bytes) (first : UInt8) :
    ∃ header, SeenAs (key, first :: value) header ∧ header.value.bytes.length ≤ value.length + 1 := by
  have hnul : 0 ∉ (first :: value).takeWhile fun c => c ≠ 0 := fun h => by
    simpa using List.mem_takeWhile_imp h
  exact ⟨⟨⟨key, fun h => (hkey 0 h).1 rfl⟩, ⟨_, hnul⟩⟩, ⟨rfl, rfl⟩,
    (List.takeWhile_prefix _).length_le⟩

theorem takeWhile_value {value : Bytes} {first : UInt8} (hvalue : ValueText value) (hfirst : first ≠ 0) :
    (first :: value).takeWhile (fun c => c ≠ 0) = first :: value := by
  refine List.takeWhile_eq_self_iff.mpr fun c hc => ?_
  rcases List.mem_cons.mp hc with rfl | hc
  · simpa using hfirst
  · simpa using (hvalue c hc).1

/-- The value stands in the buffer once the line end is a NUL. -/
theorem holds_value {value rest : Bytes} {first le : UInt8} {header : HttpHeader} {key : Bytes} {off : Nat}
    (hseen : SeenAs (key, first :: value) header) (hvalue : ValueText value)
    (hmem : first :: (value ++ le :: rest) <+: mem.drop off) :
    CString.Holds (mem.set (off + 1 + value.length) 0) off header.value := by
  have hval := hseen.value
  have hlt := hmem.length_le
  simp only [List.length_cons, List.length_append, List.length_drop] at hlt
  by_cases hfirst : first = 0
  · -- the value is empty for its reader
    subst hfirst
    have hnil : header.value.bytes = [] := hval
    have hholds : CString.Holds mem off header.value := by
      unfold CString.Holds
      rw [hnil]
      exact (List.prefix_append [0] _).trans hmem
    exact hholds.set (by rw [hnil, List.length_nil]; omega) 0
  · rw [takeWhile_value hvalue hfirst] at hval
    have hlen : off + 1 + value.length = off + header.value.bytes.length := by
      rw [hval, List.length_cons]
      omega
    rw [hlen]
    refine CString.holds_set ?_ (by omega)
    rw [hval]
    exact (List.prefix_append (first :: value) (le :: rest)).trans hmem

/-- **A line with a header**: it is there at the beginning of the next line, if there is memory for it. -/
theorem LineStart.header (malloc : Nat → Bool) {key space value rest : Bytes} {first le : UInt8}
    (h : LineStart mem bufEnd s (key ++ 0x3a :: (space ++ first :: (value ++ le :: rest))) headers)
    (hkey : KeyText key) (hne : key ≠ []) (hspace : Separates space first) (hvalue : ValueText value)
    (hle : isLineEnd le) : ∃ s' header, SeenAs (key, first :: value) header ∧
      LineStart mem bufEnd s' rest (header :: headers) ∧ s'.header.length = s.header.length + 1 ∧
      (malloc s.header.length = true → ∀ result, Runs malloc bufEnd s' result →
        Runs malloc bufEnd s result) ∧
      (malloc s.header.length = false → ∃ mem', Runs malloc bufEnd s (.ok (mem', .error .memory))) := by
  obtain ⟨header, hseen, hlen⟩ := exists_seenAs hkey value first
  have hpos := List.length_pos_of_ne_nil hne
  have hnul : le ≠ 0 := by rcases hle with rfl | rfl <;> decide
  -- in front of the colon, behind the first character of the value, and in front of the line end
  let colon : HttpHeaderParser := { s with buf := s.buf + key.length }
  let begins : HttpHeaderParser := { s with
    mem := s.mem.set colon.buf 0
    buf := colon.buf + 1 + space.length + 1
    valuePtr := some (colon.buf + 1 + space.length) }
  let ends : HttpHeaderParser := { begins with buf := begins.buf + value.length }
  let next : HttpHeaderParser :=
    { mem := ends.mem.set ends.buf 0
      buf := ends.buf + 1
      keyPtr := ends.buf + 1
      valuePtr := none
      header := ⟨s.keyPtr, colon.buf + 1 + space.length⟩ :: s.header }
  have hcolon : Rest bufEnd colon (0x3a :: (space ++ first :: (value ++ le :: rest))) := h.rest.skip key rfl rfl
  have hfirst := hcolon.value
  have hbegins : Rest bufEnd begins (value ++ le :: rest) := hfirst.skip [first] rfl rfl
  have hends : Rest bufEnd ends (le :: rest) := hbegins.skip value rfl rfl
  have hnext : Rest bufEnd next rest :=
    hends.skip [le] rfl (List.drop_set_of_lt (Nat.lt_succ_self _))
  have hruns : ∀ result, Runs malloc bufEnd ends result → Runs malloc bufEnd s result := fun result hres =>
    runs_key hkey h.rest h.valuePtr (runs_colon hcolon h.valuePtr
      (by simp only [h.keyPtr]; omega) hspace (runs_value hvalue hbegins rfl hres))
  have hbuf : ends.buf = colon.buf + 1 + space.length + 1 + value.length := rfl
  have hsome : colon.buf + 1 + space.length ≠ ends.buf := by omega
  have hlt : ends.buf < bufEnd := hends.lt
  have hat : colon.buf = s.buf + key.length := rfl
  have hnextBuf : next.buf = ends.buf + 1 := rfl
  have hkeyBytes : header.key.bytes = key := hseen.key
  have hmemlen : (0x3a :: (space ++ first :: (value ++ le :: rest))).length ≤ (s.mem.drop colon.buf).length :=
    hcolon.holds.length_le
  have hkeyHolds : CString.Holds begins.mem s.keyPtr header.key := by
    have hprefix : header.key.bytes <+: s.mem.drop s.buf := by
      rw [hkeyBytes]
      exact (List.prefix_append key _).trans h.rest.holds
    have hset := CString.holds_set hprefix (by
      rw [hkeyBytes]
      simp only [List.length_cons, List.length_drop] at hmemlen
      omega)
    rw [hkeyBytes] at hset
    rw [h.keyPtr]
    exact hset
  have hentries : List.Forall₂ (HoldsEntry next.mem next.buf) s.header headers :=
    h.entries.imp fun _ _ hentry =>
      (((hentry.set (i := colon.buf) (Nat.le_add_right _ _) 0).set (i := ends.buf) (by omega) 0)).mono
        (by omega)
  have hentry : HoldsEntry next.mem next.buf ⟨s.keyPtr, colon.buf + 1 + space.length⟩ header :=
    { key := hkeyHolds.set (by rw [hkeyBytes, h.keyPtr]; omega) 0
      key_lt := by
        rw [hkeyBytes]
        change s.keyPtr + key.length < next.buf
        rw [h.keyPtr]
        omega
      value := holds_value hseen hvalue hfirst.holds
      value_lt := by
        simp only
        omega }
  have hmemory : next.mem.length = mem.length := by
    rw [List.length_set, List.length_set, h.length]
  have hbehind : next.mem.drop bufEnd = mem.drop bufEnd := by
    rw [List.drop_set_of_lt hlt, List.drop_set_of_lt (by omega), h.behind]
  refine ⟨next, header, hseen, ⟨hnext, rfl, rfl, .cons hentry hentries, hmemory, hbehind⟩, rfl,
    fun hmalloc result hres => ?_, fun hmalloc => ⟨next.mem, hruns _ (runs_fail hends.lt ?_)⟩⟩
  · refine hruns _ (runs_next hends.lt ?_ (Nat.lt_succ_self _) hres)
    simp [httpHeaderStep, hends.readChar, ends, begins, next, hnul, hle, hsome, hmalloc, bind, Except.bind, pure,
      Except.pure]
  · simp [httpHeaderStep, hends.readChar, ends, begins, next, hnul, hle, hsome, hmalloc, bind, Except.bind, pure,
      Except.pure]

theorem LineStart.noKey {rest : Bytes} (h : LineStart mem bufEnd s (0x3a :: rest) headers) :
    Runs malloc bufEnd s (.ok (s.mem, .error .invalidData)) := by
  refine runs_fail h.rest.lt ?_
  simp [httpHeaderStep, h.rest.readChar, h.valuePtr, h.keyPtr, bind, Except.bind, pure, Except.pure]

theorem LineStart.noValue (malloc : Nat → Bool) {key space : Bytes}
    (h : LineStart mem bufEnd s (key ++ 0x3a :: space) headers)
    (hkey : KeyText key) (hne : key ≠ []) (hspace : space = [] ∨ space = [0x20]) :
    ∃ mem', Runs malloc bufEnd s (.ok (mem', .error .invalidData)) := by
  have hpos := List.length_pos_of_ne_nil hne
  have hcolon : Rest bufEnd { s with buf := s.buf + key.length } (0x3a :: space) := h.rest.skip key rfl rfl
  have hptr : s.keyPtr ≠ s.buf + key.length := by
    rw [h.keyPtr]
    omega
  obtain ⟨mem', hruns⟩ := runs_noValue malloc hcolon h.valuePtr hptr hspace
  exact ⟨mem', runs_key hkey h.rest h.valuePtr hruns⟩

/-- Nothing more is read at the end of the text. -/
theorem runs_textEnds {rest : Bytes} (hrest : Rest bufEnd s rest) (hends : TextEnds rest) :
    Runs malloc bufEnd s (.ok (s.mem, .ok s.header)) := by
  rcases hends with rfl | ⟨more, rfl⟩
  · exact runs_end (Nat.le_of_eq hrest.ends.symm)
  · refine runs_done hrest.lt ?_
    simp [httpHeaderStep, hrest.readChar, bind, Except.bind, pure, Except.pure]

/-- How the loop ends on a text that is accepted: with the headers of it in front of those that were
there, or without memory for one of them. -/
inductive HeadersResult (malloc : Nat → Bool) (mem : Bytes) (bufEnd count : Nat) (headers : List HttpHeader)
    (raws : List RawHeader) : HttpHeaderResult → Prop
  | success (mem' : Bytes) (entries : List HttpHeaderEntry) (new : List HttpHeader)
      (hnew : List.Forall₂ SeenAs raws new)
      (hentries : readHeaders mem' entries = some (new.reverse ++ headers))
      (hmalloc : ∀ k < raws.length, malloc (count + k) = true) (hlen : mem'.length = mem.length)
      (hbehind : mem'.drop bufEnd = mem.drop bufEnd) :
    HeadersResult malloc mem bufEnd count headers raws (.ok (mem', .ok entries))
  | memory (mem' : Bytes) (k : Nat) (hk : k < raws.length) (hmalloc : malloc (count + k) = false) :
    HeadersResult malloc mem bufEnd count headers raws (.ok (mem', .error .memory))

/-- **An accepted text is read.** -/
theorem LineStart.reads (malloc : Nat → Bool) {raws : List RawHeader} (hreads : ReadsHeaders text raws)
    (h : LineStart mem bufEnd s text headers) :
    ∃ result, Runs malloc bufEnd s result ∧
      HeadersResult malloc mem bufEnd s.header.length headers raws result := by
  induction hreads generalizing s headers with
  | ended key rest hkey hends =>
    refine ⟨_, runs_key hkey h.rest h.valuePtr (runs_textEnds (h.rest.skip key rfl rfl) hends), ?_⟩
    exact .success s.mem s.header [] .nil (readHeaders_eq h.entries) nofun h.length h.behind
  | short key le rest raws hkey hshort hle _ ih =>
    obtain ⟨s', h', hsame, hruns⟩ := h.short malloc hkey hshort hle
    obtain ⟨result, hresult, hheaders⟩ := ih h'
    rw [hsame] at hheaders
    exact ⟨result, hruns result hresult, hheaders⟩
  | unended key space first value rest hkey hne hspace hvalue hends =>
    have hpos := List.length_pos_of_ne_nil hne
    have hcolon : Rest bufEnd { s with buf := s.buf + key.length }
        (0x3a :: (space ++ first :: (value ++ rest))) := h.rest.skip key rfl rfl
    have hlt := hcolon.lt
    have hptr : s.keyPtr ≠ s.buf + key.length := by
      rw [h.keyPtr]
      omega
    have hvalueRest : Rest bufEnd { s with
        mem := s.mem.set (s.buf + key.length) 0
        buf := s.buf + key.length + 1 + space.length + 1
        valuePtr := some (s.buf + key.length + 1 + space.length) } (value ++ rest) :=
      hcolon.value.skip [first] rfl rfl
    refine ⟨_, runs_key hkey h.rest h.valuePtr (runs_colon hcolon h.valuePtr hptr hspace
      (runs_value hvalue hvalueRest rfl (runs_textEnds (hvalueRest.skip value rfl rfl) hends))), ?_⟩
    refine .success _ s.header [] .nil ?_ nofun (List.length_set.trans h.length) ?_
    · exact readHeaders_eq (h.entries.imp fun _ _ he => he.set (Nat.le_add_right _ _) 0)
    · exact (List.drop_set_of_lt hlt).trans h.behind
  | header key space first value le rest raws hkey hne hspace hvalue hle _ ih =>
    obtain ⟨s', header, hseen, h', hcount, hnext, hmemory⟩ :=
      h.header malloc hkey hne hspace hvalue hle
    cases hmalloc : malloc s.header.length with
    | false =>
      obtain ⟨mem', hruns⟩ := hmemory hmalloc
      exact ⟨_, hruns, .memory mem' 0 (Nat.succ_pos _) hmalloc⟩
    | true =>
      obtain ⟨result, hresult, hheaders⟩ := ih h'
      refine ⟨result, hnext hmalloc result hresult, ?_⟩
      rw [hcount] at hheaders
      cases hheaders with
      | success mem' entries new hnew hentries hall hlen hbehind =>
        refine .success mem' entries (header :: new) (.cons hseen hnew) ?_ (fun k hk => ?_) hlen hbehind
        · rwa [List.reverse_cons, List.append_assoc, List.singleton_append]
        · cases k with
          | zero => exact hmalloc
          | succ k =>
            have hk' := hall k (Nat.lt_of_succ_lt_succ hk)
            rwa [Nat.add_right_comm] at hk'
      | memory mem' k hk hfalse =>
        refine .memory mem' (k + 1) (Nat.succ_lt_succ hk) ?_
        rwa [← Nat.add_assoc, Nat.add_right_comm]

/-- **A rejected text is rejected**, or there is no memory for one of the headers in front of the place
that is wrong. -/
theorem LineStart.rejects (malloc : Nat → Bool) (hrejects : RejectsHeaders text)
    (h : LineStart mem bufEnd s text headers) :
    ∃ mem', Runs malloc bufEnd s (.ok (mem', .error .invalidData)) ∨
      (∃ k, malloc k = false) ∧ Runs malloc bufEnd s (.ok (mem', .error .memory)) := by
  induction hrejects generalizing s headers with
  | noKey rest => exact ⟨_, .inl h.noKey⟩
  | noColon key le rest hkey hlong hle => exact ⟨_, .inl (h.noColon hkey hlong hle)⟩
  | noValue key space hkey hne hspace =>
    obtain ⟨mem', hruns⟩ := h.noValue malloc hkey hne hspace
    exact ⟨mem', .inl hruns⟩
  | short key le rest hkey hshort hle _ ih =>
    obtain ⟨s', h', -, hruns⟩ := h.short malloc hkey hshort hle
    obtain ⟨mem', hresult⟩ := ih h'
    exact ⟨mem', hresult.imp (hruns _) (And.imp_right (hruns _))⟩
  | header key space first value le rest hkey hne hspace hvalue hle _ ih =>
    obtain ⟨s', header, -, h', -, hnext, hmemory⟩ := h.header malloc hkey hne hspace hvalue hle
    cases hmalloc : malloc s.header.length with
    | false =>
      obtain ⟨mem', hruns⟩ := hmemory hmalloc
      exact ⟨mem', .inr ⟨⟨_, hmalloc⟩, hruns⟩⟩
    | true =>
      obtain ⟨mem', hresult⟩ := ih h'
      exact ⟨mem', hresult.imp (hnext hmalloc _) (And.imp_right (hnext hmalloc _))⟩

/-! ## The parser -/

/-- The text that is given to the parser. -/
theorem lineStart_init {buf bufSize : Nat} (h : buf + bufSize ≤ mem.length) :
    LineStart mem (buf + bufSize) ⟨mem, buf, buf, none, []⟩ (slice mem buf bufSize) [] where
  rest :=
    { holds := List.take_prefix _ _
      ends := congrArg (buf + ·) (by rw [slice, List.length_take, List.length_drop]; omega) }
  keyPtr := rfl
  valuePtr := rfl
  entries := .nil
  length := rfl
  behind := rfl

theorem httpHeaderParse_reads (malloc : Nat → Bool) {raws : List RawHeader} {buf bufSize : Nat}
    (h : buf + bufSize ≤ mem.length)
    (hreads : ReadsHeaders (slice mem buf bufSize) raws) :
    HeadersResult malloc mem (buf + bufSize) 0 [] raws (httpHeaderParse malloc mem buf bufSize) := by
  obtain ⟨result, hruns, hheaders⟩ := (lineStart_init h).reads malloc hreads
  rw [← hruns bufSize (Nat.le_refl _)] at hheaders
  exact hheaders

theorem httpHeaderParse_rejects (malloc : Nat → Bool) {buf bufSize : Nat} (h : buf + bufSize ≤ mem.length)
    (hrejects : RejectsHeaders (slice mem buf bufSize)) :
    ∃ mem', httpHeaderParse malloc mem buf bufSize = .ok (mem', .error .invalidData) ∨
      (∃ k, malloc k = false) ∧ httpHeaderParse malloc mem buf bufSize = .ok (mem', .error .memory) := by
  obtain ⟨mem', hresult⟩ := (lineStart_init h).rejects malloc hrejects
  exact ⟨mem', hresult.imp (fun hruns => hruns bufSize (Nat.le_refl _))
    (And.imp_right fun hruns => hruns bufSize (Nat.le_refl _))⟩

/-! ## Headers that were rendered -/

/-- A header, and how its line is written. -/
structure RenderedHeader where
  header : HttpHeader
  space : Bool
  crlf : Bool

/-- `key ':' value`, with or without a space behind the colon, and with one of the line ends. -/
def RenderedHeader.render (line : RenderedHeader) : Bytes :=
  line.header.key.bytes ++ 0x3a :: ((if line.space then [0x20] else []) ++ (line.header.value.bytes
    ++ if line.crlf then [0x0d, 0x0a] else [0x0a]))

/-- The strings that a line can hold. None of them has a NUL. -/
structure RenderedHeader.Valid (line : RenderedHeader) : Prop where
  key_ne : line.header.key.bytes ≠ []
  key : ∀ c ∈ line.header.key.bytes, c ≠ 0x3a ∧ c ≠ 0x0d ∧ c ≠ 0x0a
  value_ne : line.header.value.bytes ≠ []
  value_space : line.header.value.bytes.head? ≠ some 0x20
  value : ∀ c ∈ line.header.value.bytes, c ≠ 0x0d ∧ c ≠ 0x0a

def RenderedHeader.raw (line : RenderedHeader) : RawHeader := (line.header.key.bytes, line.header.value.bytes)

/-- One line is read, in front of any text. -/
theorem readsHeaders_render {line : RenderedHeader} (h : line.Valid) {rest : Bytes} {raws : List RawHeader}
    (hrest : ReadsHeaders rest raws) : ReadsHeaders (line.render ++ rest) (line.raw :: raws) := by
  obtain ⟨⟨⟨key, hkeyNul⟩, ⟨value, hvalueNul⟩⟩, space, crlf⟩ := line
  obtain ⟨hne, hkey, hvalueNe, hspace, hvalue⟩ := h
  obtain ⟨first, value, rfl⟩ := List.exists_cons_of_ne_nil hvalueNe
  have hkeyText : KeyText key := fun c hc => by
    obtain ⟨hcolon, hcr, hlf⟩ := hkey c hc
    exact ⟨fun hnul => hkeyNul (hnul ▸ hc), hcolon, not_or.mpr ⟨hcr, hlf⟩⟩
  have hvalueText : ValueText value := fun c hc => by
    obtain ⟨hcr, hlf⟩ := hvalue c (List.mem_cons_of_mem _ hc)
    exact ⟨fun hnul => hvalueNul (hnul ▸ List.mem_cons_of_mem _ hc), not_or.mpr ⟨hcr, hlf⟩⟩
  have hseparates : Separates (if space then [0x20] else []) first := by
    cases space with
    | true => exact .inr rfl
    | false => exact .inl ⟨rfl, fun h => hspace (congrArg some h)⟩
  cases crlf with
  | true =>
    have hline := ReadsHeaders.header key _ first value 0x0d _ raws hkeyText hne hseparates hvalueText (.inl rfl)
      (.short [] 0x0a rest raws nofun (Nat.zero_le _) (.inr rfl) hrest)
    simpa [RenderedHeader.render, RenderedHeader.raw] using hline
  | false =>
    have hline := ReadsHeaders.header key _ first value 0x0a _ raws hkeyText hne hseparates hvalueText (.inr rfl)
      hrest
    simpa [RenderedHeader.render, RenderedHeader.raw] using hline

theorem readsHeaders_blank {blank : Bytes} (h : ∀ c ∈ blank, isLineEnd c) : ReadsHeaders blank [] := by
  induction blank with
  | nil => exact .ended [] [] nofun (.inl rfl)
  | cons c blank ih =>
    obtain ⟨hc, hrest⟩ := List.forall_mem_cons.mp h
    exact .short [] c blank [] nofun (Nat.zero_le _) hc (ih hrest)

theorem readsHeaders_rendered {lines : List RenderedHeader} (h : ∀ line ∈ lines, line.Valid) {blank : Bytes}
    (hblank : ∀ c ∈ blank, isLineEnd c) :
    ReadsHeaders (lines.flatMap RenderedHeader.render ++ blank) (lines.map RenderedHeader.raw) := by
  induction lines with
  | nil => exact readsHeaders_blank hblank
  | cons line lines ih =>
    obtain ⟨hline, hlines⟩ := List.forall_mem_cons.mp h
    rw [List.flatMap_cons, List.append_assoc]
    exact readsHeaders_render hline (ih hlines)

/-- A string without a NUL is seen as it is. -/
theorem eq_of_seenAs {lines : List RenderedHeader} {new : List HttpHeader}
    (h : List.Forall₂ SeenAs (lines.map RenderedHeader.raw) new) : new = lines.map RenderedHeader.header := by
  induction lines generalizing new with
  | nil =>
    cases h
    rfl
  | cons line lines ih =>
    cases h with
    | @cons _ header _ new hseen hrest =>
      have hvalue := hseen.value
      have hself : line.header.value.bytes.takeWhile (fun c => c ≠ 0) = line.header.value.bytes := by
        refine List.takeWhile_eq_self_iff.mpr fun c hc => ?_
        have hne : c ≠ 0 := fun hnul => line.header.value.noNul (hnul ▸ hc)
        simpa using hne
      have hheader : header = line.header := by
        obtain ⟨key, value⟩ := header
        exact congrArg₂ HttpHeader.mk (CString.ext hseen.key) (CString.ext (hvalue.trans hself))
      rw [hheader, ih hrest]
      rfl

/-- **Headers that were rendered are read again**, the last one first, however each line was written and
however many line ends are behind the last one. It fails only without memory. -/
theorem httpHeaderParse_rendered {lines : List RenderedHeader} (hvalid : ∀ line ∈ lines, line.Valid)
    {blank : Bytes} (hblank : ∀ c ∈ blank, isLineEnd c) {buf bufSize : Nat} (hmem : buf + bufSize ≤ mem.length)
    (htext : slice mem buf bufSize = lines.flatMap RenderedHeader.render ++ blank) :
    ((∀ k < lines.length, malloc k = true) → ∃ mem' entries,
      httpHeaderParse malloc mem buf bufSize = .ok (mem', .ok entries) ∧
        readHeaders mem' entries = some (lines.map RenderedHeader.header).reverse) ∧
    ((∃ k < lines.length, malloc k = false) →
      ∃ mem', httpHeaderParse malloc mem buf bufSize = .ok (mem', .error .memory)) := by
  have hreads := readsHeaders_rendered hvalid hblank
  rw [← htext] at hreads
  have hresult := httpHeaderParse_reads malloc hmem hreads
  generalize httpHeaderParse malloc mem buf bufSize = result at hresult ⊢
  cases hresult with
  | success mem' entries new hnew hentries hmalloc hlen hbehind =>
    rw [List.append_nil, eq_of_seenAs hnew] at hentries
    refine ⟨fun _ => ⟨mem', entries, rfl, hentries⟩, fun ⟨k, hk, hfalse⟩ => ?_⟩
    have htrue := hmalloc k (by rwa [List.length_map])
    rw [Nat.zero_add, hfalse] at htrue
    cases htrue
  | memory mem' k hk hfalse =>
    rw [List.length_map] at hk
    rw [Nat.zero_add] at hfalse
    refine ⟨fun hall => ?_, fun _ => ⟨mem', rfl⟩⟩
    rw [hall k hk] at hfalse
    cases hfalse

/-- The two headers of the tests, with a space and without one, and a blank line behind them. -/
theorem httpHeaderParse_rendered_two : ∃ mem' entries,
    httpHeaderParse (fun _ => true) [0x61, 0x3a, 0x20, 0x62, 0x0d, 0x0a, 0x63, 0x3a, 0x64, 0x0a, 0x0d, 0x0a] 0 12
      = .ok (mem', .ok entries) ∧
    readHeaders mem' entries
      = some [⟨⟨[0x63], by decide⟩, ⟨[0x64], by decide⟩⟩, ⟨⟨[0x61], by decide⟩, ⟨[0x62], by decide⟩⟩] := by
  refine (@httpHeaderParse_rendered (fun _ => true) _ [⟨⟨⟨[0x61], by decide⟩, ⟨[0x62], by decide⟩⟩, true, true⟩,
    ⟨⟨⟨[0x63], by decide⟩, ⟨[0x64], by decide⟩⟩, false, false⟩]
    (List.forall_mem_cons.mpr ⟨?_, List.forall_mem_singleton.mpr ?_⟩) [0x0d, 0x0a]
    (List.forall_mem_cons.mpr ⟨.inl rfl, List.forall_mem_singleton.mpr (.inr rfl)⟩) 0 12 (by decide) rfl).1
    fun _ _ => rfl
  · exact ⟨by decide, List.forall_mem_singleton.mpr (by decide), by decide, by decide,
      List.forall_mem_singleton.mpr (by decide)⟩
  · exact ⟨by decide, List.forall_mem_singleton.mpr (by decide), by decide, by decide,
      List.forall_mem_singleton.mpr (by decide)⟩

end Chiaki
