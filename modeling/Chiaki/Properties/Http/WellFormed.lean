import Chiaki.Properties.Http.Header

/-!
# When only well-formed headers are read

The parser does not look at the first character of a value, and it drops a line of one character. Hence
it accepts lines without a value or without a colon (`httpHeaderParse_wellFormed_iff`).
-/

namespace Chiaki

open Infra

/-! ## Lines -/

/-- The lines of a text that have an end: a line feed, a carriage return, or both of them. A NUL ends the
text. `line` is what has been seen of the current line, and `cr` says that a carriage return was seen
last. -/
def endedLines : Bytes → Bool → Bytes → List Bytes
  | _, _, [] => []
  | line, cr, c :: rest =>
    if c = 0 then []
    else if c = 0x0a ∧ cr = true then endedLines line false rest
    else if isLineEnd c then line :: endedLines [] (decide (c = 0x0d)) rest
    else endedLines (line ++ [c]) false rest

/-- The lines up to the first blank one. -/
def headerLines (cr : Bool) (text : Bytes) : List Bytes :=
  (endedLines [] cr text).takeWhile fun line => line ≠ []

/-- The key, and the value without one space in front of it. -/
def headerOfLine (line : Bytes) : RawHeader :=
  (line.takeWhile fun c => c ≠ 0x3a,
    let value := (line.dropWhile fun c => c ≠ 0x3a).drop 1
    if value.head? = some 0x20 then value.drop 1 else value)

/-- A line without a key, without a colon, or without a value. -/
inductive LacksPart : Bytes → Prop
  | key (rest : Bytes) : LacksPart (0x3a :: rest)
  | colon (line : Bytes) (h : 0x3a ∉ line) : LacksPart line
  | value (key space : Bytes) (hkey : 0x3a ∉ key) (hspace : space = [] ∨ space = [0x20]) :
    LacksPart (key ++ 0x3a :: space)

variable {malloc : Nat → Bool} {mem text : Bytes} {buf bufSize : Nat} {raws : List RawHeader}

/-- Only well-formed text is accepted: no string that is returned is empty or has a line end, every header
line has a colon and has become one header, and a line that lacks a part is rejected. Without memory for
a header, all of it is. -/
structure AcceptsOnlyHeaders (malloc : Nat → Bool) (mem : Bytes) (buf bufSize : Nat) : Prop where
  strings : ∀ mem' entries headers, httpHeaderParse malloc mem buf bufSize = .ok (mem', .ok entries) →
    readHeaders mem' entries = some headers → ∀ header ∈ headers,
      header.key.bytes ≠ [] ∧ header.value.bytes ≠ [] ∧
        ∀ c ∈ header.key.bytes ++ header.value.bytes, ¬ isLineEnd c
  lines : ∀ mem' entries headers, httpHeaderParse malloc mem buf bufSize = .ok (mem', .ok entries) →
    readHeaders mem' entries = some headers → ∃ first more, headers.reverse = first ++ more ∧
      List.Forall₂ (fun line header => 0x3a ∈ line ∧ SeenAs (headerOfLine line) header)
        (headerLines false (slice mem buf bufSize)) first
  rejects : ∀ line ∈ headerLines false (slice mem buf bufSize), LacksPart line →
    ∃ mem', httpHeaderParse malloc mem buf bufSize = .ok (mem', .error .invalidData) ∨
      (∃ k, malloc k = false) ∧ httpHeaderParse malloc mem buf bufSize = .ok (mem', .error .memory)

/-- No header line is a single character other than a colon, or has no value, and no value that is read
begins with a NUL or a line end. -/
structure PlainHeaders (text : Bytes) : Prop where
  single : ∀ line ∈ headerLines false text, line.length = 1 → line = [0x3a]
  noValue : ∀ line ∈ headerLines false text, ∀ key space, line = key ++ 0x3a :: space → 0x3a ∉ key →
    ¬ (space = [] ∨ space = [0x20])
  first : ∀ raws, ReadsHeaders text raws → ∀ raw ∈ raws, ∀ c ∈ raw.2.head?, c ≠ 0 ∧ ¬ isLineEnd c

/-- There is no memory for a header of the text. -/
def OutOfMemory (malloc : Nat → Bool) (text : Bytes) : Prop :=
  ∃ raws, ReadsHeaders text raws ∧ ∃ k < raws.length, malloc k = false

/-! ## Accepted texts, line by line -/

theorem KeyText.valueText {key : Bytes} (h : KeyText key) : ValueText key :=
  fun c hc => ⟨(h c hc).1, (h c hc).2.2⟩

theorem KeyText.notMem {key : Bytes} (h : KeyText key) : 0x3a ∉ key := fun hc => (h _ hc).2.1 rfl

theorem endedLines_append {value : Bytes} (hvalue : ValueText value) (line rest : Bytes) (cr : Bool) :
    endedLines line cr (value ++ rest) = endedLines (line ++ value) (cr && value.isEmpty) rest := by
  induction value generalizing line cr with
  | nil => simp
  | cons c value ih =>
    obtain ⟨⟨hnul, hle⟩, hvalue⟩ := List.forall_mem_cons.mp hvalue
    have hlf : ¬ (c = 0x0a ∧ cr = true) := fun h => hle (.inr h.1)
    rw [List.cons_append, endedLines, if_neg hnul, if_neg hlf, if_neg hle, ih hvalue]
    simp

theorem endedLines_textEnds {rest : Bytes} (h : TextEnds rest) (line : Bytes) (cr : Bool) :
    endedLines line cr rest = [] := by
  rcases h with rfl | ⟨rest, rfl⟩
  · rfl
  · rw [endedLines, if_pos rfl]

theorem isLineEnd.ne_zero {c : UInt8} (h : isLineEnd c) : c ≠ 0 := by
  rcases h with rfl | rfl <;> decide

/-- A line that ends. -/
theorem endedLines_end {le : UInt8} (hle : isLineEnd le) (line rest : Bytes) :
    endedLines line false (le :: rest) = line :: endedLines [] (decide (le = 0x0d)) rest := by
  rw [endedLines, if_neg hle.ne_zero, if_neg (fun h => absurd h.2 (by decide)), if_pos hle]

/-- A line with something on it, and the lines behind it. -/
theorem headerLines_line {line rest : Bytes} {le : UInt8} (hline : ValueText line) (hne : line ≠ [])
    (hle : isLineEnd le) (cr : Bool) :
    headerLines cr (line ++ le :: rest) = line :: headerLines (decide (le = 0x0d)) rest := by
  have hflag : (cr && line.isEmpty) = false := by simp [hne]
  rw [headerLines, endedLines_append hline, hflag, List.nil_append, endedLines_end hle,
    List.takeWhile_cons_of_pos (by simpa using hne)]
  rfl

theorem headerLines_ended {line rest : Bytes} (hline : ValueText line) (hrest : TextEnds rest) (cr : Bool) :
    headerLines cr (line ++ rest) = [] := by
  rw [headerLines, endedLines_append hline, endedLines_textEnds hrest]
  rfl

theorem headerLines_blank {rest : Bytes} {le : UInt8} (hle : isLineEnd le) (cr : Bool)
    (hnot : ¬ (le = 0x0a ∧ cr = true)) : headerLines cr (le :: rest) = [] := by
  rw [headerLines, endedLines, if_neg hle.ne_zero, if_neg hnot, if_pos hle]
  rfl

/-- The line feed of a carriage return that has ended a line. -/
theorem headerLines_lineFeed (rest : Bytes) : headerLines true (0x0a :: rest) = headerLines false rest := by
  rw [headerLines, endedLines, if_neg (by decide), if_pos ⟨rfl, rfl⟩]
  rfl

theorem valueText_append {a b : Bytes} (ha : ValueText a) (hb : ValueText b) : ValueText (a ++ b) :=
  fun c hc => (List.mem_append.mp hc).elim (ha c) (hb c)

/-- What a line begins with. -/
theorem valueText_colon {key space : Bytes} {first : UInt8} (hkey : KeyText key)
    (hspace : Separates space first) : ValueText (key ++ 0x3a :: space) := by
  refine valueText_append hkey.valueText (List.forall_mem_cons.mpr ⟨by decide, ?_⟩)
  rcases hspace with ⟨rfl, -⟩ | rfl
  · nofun
  · exact List.forall_mem_singleton.mpr (by decide)

/-- A line is cut at its first colon. -/
theorem cut_colon {key : Bytes} (h : 0x3a ∉ key) (rest : Bytes) :
    (key ++ 0x3a :: rest).takeWhile (fun c => c ≠ 0x3a) = key ∧
      (key ++ 0x3a :: rest).dropWhile (fun c => c ≠ 0x3a) = 0x3a :: rest := by
  have hall : ∀ c ∈ key, decide (c ≠ 0x3a) = true := fun c hc => decide_eq_true fun he => h (he ▸ hc)
  rw [List.takeWhile_append_of_pos hall, List.dropWhile_append_of_pos hall]
  simp

/-- A line with all of its parts is read as one header. -/
theorem headerOfLine_eq {key space value : Bytes} {first : UInt8} (hkey : KeyText key)
    (hspace : Separates space first) :
    headerOfLine (key ++ 0x3a :: (space ++ first :: value)) = (key, first :: value) := by
  obtain ⟨htake, hdrop⟩ := cut_colon hkey.notMem (space ++ first :: value)
  rw [headerOfLine, htake, hdrop]
  rcases hspace with ⟨rfl, hfirst⟩ | rfl
  · simp [hfirst]
  · simp

theorem not_lacksPart {key space value : Bytes} {first : UInt8} (hkey : KeyText key) (hne : key ≠ [])
    (hspace : Separates space first) : ¬ LacksPart (key ++ 0x3a :: (space ++ first :: value)) := by
  generalize hline : key ++ 0x3a :: (space ++ first :: value) = line
  intro hlacks
  cases hlacks with
  | key rest =>
    obtain ⟨c, key, rfl⟩ := List.exists_cons_of_ne_nil hne
    exact (hkey c (List.mem_cons_self ..)).2.1 (List.cons.inj hline).1
  | colon _ h => exact h (hline ▸ List.mem_append_right _ (List.mem_cons_self ..))
  | value key' space' hkey' hspace' =>
    have hrest : space ++ first :: value = space' := by
      have hdrop := congrArg (List.dropWhile fun c => c ≠ 0x3a) hline
      rw [(cut_colon hkey.notMem _).2, (cut_colon hkey' _).2] at hdrop
      exact (List.cons.inj hdrop).2
    rcases hspace with ⟨rfl, hfirst⟩ | rfl
    · rcases hspace' with rfl | rfl
      · cases hrest
      · exact hfirst (List.cons.inj hrest).1
    · rcases hspace' with rfl | rfl
      · cases hrest
      · cases (List.cons.inj hrest).2

/-- **The header lines of a text that is accepted are its first headers**, if no line is odd. -/
theorem ReadsHeaders.lines (h : ReadsHeaders text raws) (cr : Bool)
    (hsingle : ∀ line ∈ headerLines cr text, line.length = 1 → line = [0x3a])
    (hnoValue : ∀ line ∈ headerLines cr text, ∀ key space, line = key ++ 0x3a :: space → 0x3a ∉ key →
      ¬ (space = [] ∨ space = [0x20]))
    (hfirst : ∀ raw ∈ raws, ∀ c ∈ raw.2.head?, c ≠ 0 ∧ ¬ isLineEnd c) :
    ∃ first more, raws = first ++ more ∧
      List.Forall₂ (fun line raw => 0x3a ∈ line ∧ ¬ LacksPart line ∧ headerOfLine line = raw)
        (headerLines cr text) first := by
  induction h generalizing cr with
  | ended key rest hkey hends =>
    rw [headerLines_ended hkey.valueText hends]
    exact ⟨[], [], rfl, .nil⟩
  | short key le rest raws hkey hshort hle _ ih =>
    match key, hshort with
    | [], _ =>
      by_cases hfeed : le = 0x0a ∧ cr = true
      · obtain ⟨rfl, rfl⟩ := hfeed
        rw [List.nil_append, headerLines_lineFeed] at hsingle hnoValue ⊢
        exact ih false hsingle hnoValue hfirst
      · rw [List.nil_append, headerLines_blank hle cr hfeed]
        exact ⟨[], raws, rfl, .nil⟩
    | [c], _ =>
      rw [headerLines_line hkey.valueText (by simp) hle] at hsingle
      have hc := hsingle [c] (List.mem_cons_self ..) rfl
      exact absurd (List.cons.inj hc).1 (hkey c (List.mem_cons_self ..)).2.1
  | unended key space first value rest hkey hne hspace hvalue hends =>
    have hcolon := valueText_colon hkey hspace
    have hsplit : key ++ 0x3a :: (space ++ first :: (value ++ rest))
        = (key ++ 0x3a :: space) ++ first :: (value ++ rest) := by simp
    rw [hsplit] at hnoValue ⊢
    by_cases hle : isLineEnd first
    · -- the line has ended without a value
      rw [headerLines_line hcolon (by simp) hle] at hnoValue
      refine absurd ?_ (hnoValue _ (List.mem_cons_self ..) key space rfl hkey.notMem)
      exact hspace.imp And.left id
    · refine ⟨[], [], rfl, ?_⟩
      by_cases hnul : first = 0
      · rw [headerLines_ended hcolon (.inr ⟨value ++ rest, by rw [hnul]⟩)]
        exact .nil
      · have hline : ValueText ((key ++ 0x3a :: space) ++ first :: value) :=
          valueText_append hcolon (List.forall_mem_cons.mpr ⟨⟨hnul, hle⟩, hvalue⟩)
        have hassoc : (key ++ 0x3a :: space) ++ first :: (value ++ rest)
            = ((key ++ 0x3a :: space) ++ first :: value) ++ rest := by simp
        rw [hassoc, headerLines_ended hline hends]
        exact .nil
  | header key space first value le rest raws hkey hne hspace hvalue hle _ ih =>
    obtain ⟨hgood, hrest⟩ := List.forall_mem_cons.mp hfirst
    have hline : ValueText (key ++ 0x3a :: (space ++ first :: value)) := by
      have happend := valueText_append (valueText_colon hkey hspace)
        (List.forall_mem_cons.mpr ⟨hgood first rfl, hvalue⟩)
      simpa using happend
    have hsplit : key ++ 0x3a :: (space ++ first :: (value ++ le :: rest))
        = (key ++ 0x3a :: (space ++ first :: value)) ++ le :: rest := by simp
    rw [hsplit, headerLines_line hline (by simp) hle] at hsingle hnoValue ⊢
    obtain ⟨hsingle', hsingleRest⟩ := List.forall_mem_cons.mp hsingle
    obtain ⟨hnoValue', hnoValueRest⟩ := List.forall_mem_cons.mp hnoValue
    obtain ⟨firsts, more, rfl, hforall⟩ := ih (decide (le = 0x0d)) hsingleRest hnoValueRest hrest
    refine ⟨(key, first :: value) :: firsts, more, rfl, .cons ⟨?_, ?_, headerOfLine_eq hkey hspace⟩ hforall⟩
    · exact List.mem_append_right _ (List.mem_cons_self ..)
    · exact not_lacksPart hkey hne hspace

/-- What the grammar says of a header. -/
theorem ReadsHeaders.raw (h : ReadsHeaders text raws) : ∀ raw ∈ raws, KeyText raw.1 ∧ raw.1 ≠ [] ∧
    ∃ first value, raw.2 = first :: value ∧ ValueText value := by
  induction h with
  | ended => nofun
  | unended => nofun
  | short _ _ _ _ _ _ _ _ ih => exact ih
  | header key space first value le rest raws hkey hne hspace hvalue hle _ ih =>
    exact List.forall_mem_cons.mpr ⟨⟨hkey, hne, first, value, rfl, hvalue⟩, ih⟩

/-! ## What is accepted -/

theorem exists_of_forall₂ {α β : Type} {R : α → β → Prop} {l : List α} {l' : List β}
    (h : List.Forall₂ R l l') {a : α} (ha : a ∈ l) : ∃ b ∈ l', R a b := by
  induction h with
  | nil => exact absurd ha List.not_mem_nil
  | cons hab _ ih =>
    rcases List.mem_cons.mp ha with rfl | ha
    · exact ⟨_, List.mem_cons_self .., hab⟩
    · obtain ⟨b, hb, hrel⟩ := ih ha
      exact ⟨b, List.mem_cons_of_mem _ hb, hrel⟩

theorem forall₂_of_seenAs {lines : List Bytes} {first more : List RawHeader} {new : List HttpHeader}
    (h : List.Forall₂ (fun line raw => 0x3a ∈ line ∧ ¬ LacksPart line ∧ headerOfLine line = raw) lines first)
    (hnew : List.Forall₂ SeenAs (first ++ more) new) :
    ∃ newFirst newMore, new = newFirst ++ newMore ∧
      List.Forall₂ (fun line header => 0x3a ∈ line ∧ SeenAs (headerOfLine line) header) lines newFirst := by
  induction h generalizing new with
  | nil => exact ⟨[], new, rfl, .nil⟩
  | cons hline _ ih =>
    cases hnew with
    | cons hseen hrest =>
      obtain ⟨newFirst, newMore, rfl, hforall⟩ := ih hrest
      obtain ⟨hcolon, -, rfl⟩ := hline
      exact ⟨_ :: newFirst, newMore, rfl, .cons ⟨hcolon, hseen⟩ hforall⟩

/-- The strings of a header whose value begins as it should. -/
theorem strings_of_seenAs {raw : RawHeader} {header : HttpHeader} (hseen : SeenAs raw header)
    (hkey : KeyText raw.1) (hne : raw.1 ≠ [])
    (hvalue : ∃ first value, raw.2 = first :: value ∧ ValueText value)
    (hfirst : ∀ c ∈ raw.2.head?, c ≠ 0 ∧ ¬ isLineEnd c) :
    header.key.bytes ≠ [] ∧ header.value.bytes ≠ [] ∧
      ∀ c ∈ header.key.bytes ++ header.value.bytes, ¬ isLineEnd c := by
  obtain ⟨first, value, hraw, hvalue⟩ := hvalue
  have hgood := hfirst first (by rw [hraw]; rfl)
  have hbytes : header.value.bytes = first :: value := by
    rw [hseen.value, hraw, takeWhile_value hvalue hgood.1]
  rw [hseen.key, hbytes]
  refine ⟨hne, List.cons_ne_nil _ _, fun c hc => ?_⟩
  rcases List.mem_append.mp hc with hc | hc
  · exact (hkey c hc).2.2
  · have hall : ValueText (first :: value) := List.forall_mem_cons.mpr ⟨hgood, hvalue⟩
    exact (hall c hc).2

/-- A value that begins as it should not is seen. -/
theorem first_of_seenAs {raw : RawHeader} {header : HttpHeader} (hseen : SeenAs raw header)
    (hne : header.value.bytes ≠ []) (hend : ∀ c ∈ header.value.bytes, ¬ isLineEnd c) :
    ∀ c ∈ raw.2.head?, c ≠ 0 ∧ ¬ isLineEnd c := by
  intro c hc
  obtain ⟨value, hraw⟩ : ∃ value, raw.2 = c :: value := by
    cases hraw : raw.2 with
    | nil =>
      rw [hraw] at hc
      cases hc
    | cons d value =>
      rw [hraw] at hc
      cases hc
      exact ⟨value, rfl⟩
  have hvalue := hseen.value
  rw [hraw] at hvalue
  by_cases hnul : c = 0
  · rw [hnul] at hvalue
    exact absurd hvalue hne
  · rw [List.takeWhile_cons_of_pos (by simpa using hnul)] at hvalue
    exact ⟨hnul, hend c (hvalue ▸ List.mem_cons_self ..)⟩

/-- A text that is not accepted has nothing to be well-formed. -/
theorem acceptsOnlyHeaders_of_error {mem' : Bytes} (h :
    httpHeaderParse malloc mem buf bufSize = .ok (mem', .error .invalidData) ∨
      (∃ k, malloc k = false) ∧ httpHeaderParse malloc mem buf bufSize = .ok (mem', .error .memory)) :
    AcceptsOnlyHeaders malloc mem buf bufSize := by
  have hfails : ∀ mem'' entries,
      httpHeaderParse malloc mem buf bufSize ≠ .ok (mem'', .ok entries) := by
    intro mem'' entries hok
    rcases h with h | ⟨-, h⟩ <;> cases h.symm.trans hok
  exact ⟨fun _ _ _ hok => absurd hok (hfails _ _), fun _ _ _ hok => absurd hok (hfails _ _),
    fun _ _ _ => ⟨mem', h⟩⟩

theorem acceptsOnlyHeaders_of_plain (hmem : buf + bufSize ≤ mem.length)
    (hreads : ReadsHeaders (slice mem buf bufSize) raws) (hplain : PlainHeaders (slice mem buf bufSize)) :
    AcceptsOnlyHeaders malloc mem buf bufSize := by
  have hfirst := hplain.first raws hreads
  obtain ⟨first, more, hraws, hlines⟩ := hreads.lines false hplain.single hplain.noValue hfirst
  have hresult := httpHeaderParse_reads malloc hmem hreads
  generalize hparse : httpHeaderParse malloc mem buf bufSize = result at hresult
  cases hresult with
  | memory mem' k hk hmalloc =>
    exact acceptsOnlyHeaders_of_error (.inr ⟨⟨_, hmalloc⟩, hparse⟩)
  | success mem' entries new hnew hentries hmalloc hlen hbehind =>
    rw [List.append_nil] at hentries
    refine ⟨fun mem'' entries' headers hok hread header hmem => ?_,
      fun mem'' entries' headers hok hread => ?_, fun line hline hlacks => ?_⟩
    · cases hparse.symm.trans hok
      cases hentries.symm.trans hread
      obtain ⟨raw, hraw, hseen⟩ := exists_of_forall₂ hnew.flip (List.mem_reverse.mp hmem)
      obtain ⟨hkey, hne, hvalue⟩ := hreads.raw raw hraw
      exact strings_of_seenAs hseen hkey hne hvalue (hfirst raw hraw)
    · cases hparse.symm.trans hok
      cases hentries.symm.trans hread
      rw [hraws] at hnew
      obtain ⟨newFirst, newMore, rfl, hforall⟩ := forall₂_of_seenAs hlines hnew
      exact ⟨newFirst, newMore, List.reverse_reverse _, hforall⟩
    · obtain ⟨-, -, -, hnot, -⟩ := exists_of_forall₂ hlines hline
      exact absurd hlacks hnot

/-- **Only well-formed headers are accepted if and only if** the text is rejected because of another
line, or there is no memory, or no line is odd. -/
theorem httpHeaderParse_wellFormed_iff (malloc : Nat → Bool) (hmem : buf + bufSize ≤ mem.length) :
    AcceptsOnlyHeaders malloc mem buf bufSize ↔
      RejectsHeaders (slice mem buf bufSize) ∨ OutOfMemory malloc (slice mem buf bufSize) ∨
        PlainHeaders (slice mem buf bufSize) := by
  constructor
  · intro h
    by_cases hrejects : RejectsHeaders (slice mem buf bufSize)
    · exact .inl hrejects
    by_cases hmemory : OutOfMemory malloc (slice mem buf bufSize)
    · exact .inr (.inl hmemory)
    obtain ⟨raws, hreads⟩ := (readsHeaders_or_rejects (slice mem buf bufSize)).resolve_left hrejects
    have hresult := httpHeaderParse_reads malloc hmem hreads
    generalize hparse : httpHeaderParse malloc mem buf bufSize = result at hresult
    cases hresult with
    | memory mem' k hk hmalloc =>
      exact absurd ⟨raws, hreads, k, hk, (Nat.zero_add k) ▸ hmalloc⟩ hmemory
    | success mem' entries new hnew hentries hmalloc hlen hbehind =>
      have hlacks : ∀ line ∈ headerLines false (slice mem buf bufSize), ¬ LacksPart line := by
        intro line hline hlacks
        obtain ⟨mem'', herr | ⟨-, herr⟩⟩ := h.rejects line hline hlacks <;> cases hparse.symm.trans herr
      refine .inr (.inr ⟨fun line hline hone => ?_, fun line hline key space hsplit hkey hspace => ?_,
        fun raws' hreads' raw hraw => ?_⟩)
      · by_contra hne
        refine hlacks line hline (.colon line fun hcolon => hne ?_)
        obtain ⟨c, rfl⟩ := List.length_eq_one_iff.mp hone
        rw [List.mem_singleton.mp hcolon]
      · exact hlacks line hline (hsplit ▸ .value key space hkey hspace)
      · have hresult' := httpHeaderParse_reads malloc hmem hreads'
        rw [hparse] at hresult'
        cases hresult' with
        | success _ _ new' hnew' hentries' =>
          obtain ⟨header, hheader, hseen⟩ := exists_of_forall₂ hnew' hraw
          obtain ⟨-, hne, hend⟩ := h.strings mem' entries _ hparse hentries' header
            (List.mem_append_left _ (List.mem_reverse.mpr hheader))
          exact first_of_seenAs hseen hne fun c hc => hend c (List.mem_append_right _ hc)
  · rintro (hrejects | ⟨raws, hreads, k, hk, hmalloc⟩ | hplain)
    · obtain ⟨mem', herr⟩ := httpHeaderParse_rejects malloc hmem hrejects
      exact acceptsOnlyHeaders_of_error herr
    · have hresult := httpHeaderParse_reads malloc hmem hreads
      generalize hparse : httpHeaderParse malloc mem buf bufSize = result at hresult
      cases hresult with
      | success _ _ _ _ _ hall =>
        have htrue := hall k hk
        rw [Nat.zero_add, hmalloc] at htrue
        cases htrue
      | memory mem' => exact acceptsOnlyHeaders_of_error (.inr ⟨⟨k, hmalloc⟩, hparse⟩)
    · rcases readsHeaders_or_rejects (slice mem buf bufSize) with hrejects | ⟨raws, hreads⟩
      · obtain ⟨mem', herr⟩ := httpHeaderParse_rejects malloc hmem hrejects
        exact acceptsOnlyHeaders_of_error herr
      · exact acceptsOnlyHeaders_of_plain hmem hreads hplain

/-- A header that is as it should be. -/
theorem httpHeaderParse_wellFormed_one :
    AcceptsOnlyHeaders (fun _ => true) [0x61, 0x3a, 0x62, 0x0a] 0 4 := by
  refine (httpHeaderParse_wellFormed_iff (fun _ => true) (by decide)).mpr (.inr (.inr ⟨?_, ?_, ?_⟩))
  · decide
  · intro line hline key space hsplit hkey hspace
    have hcut := (cut_colon hkey space).2
    rw [← hsplit, List.mem_singleton.mp (show line ∈ [[0x61, 0x3a, 0x62]] from hline)] at hcut
    obtain rfl : [0x62] = space := (List.cons.inj hcut).2
    exact absurd hspace (by decide)
  · intro raws hreads raw hraw
    have hresult := @httpHeaderParse_reads [0x61, 0x3a, 0x62, 0x0a] (fun _ => true) raws 0 4 (by decide) hreads
    rw [show httpHeaderParse (fun _ => true) [0x61, 0x3a, 0x62, 0x0a] 0 4
      = .ok ([0x61, 0, 0x62, 0], .ok [⟨0, 2⟩]) from rfl] at hresult
    cases hresult with
    | success _ _ new hnew hentries =>
      obtain ⟨header, hheader, hseen⟩ := exists_of_forall₂ hnew hraw
      have hread : readHeaders [0x61, 0, 0x62, 0] [⟨0, 2⟩]
          = some [⟨⟨[0x61], by decide⟩, ⟨[0x62], by decide⟩⟩] := by decide
      rw [hread] at hentries
      have hmem := List.mem_append_left [] (List.mem_reverse.mpr hheader)
      rw [← Option.some.inj hentries, List.mem_singleton] at hmem
      refine first_of_seenAs hseen ?_ ?_ <;> rw [hmem]
      · decide
      · exact List.forall_mem_singleton.mpr (by decide)

/-- A line without a value becomes a header whose value is the carriage return, and a line of one
character is dropped. -/
theorem not_httpHeaderParse_wellFormed :
    ¬ AcceptsOnlyHeaders (fun _ => true) [0x61, 0x3a, 0x0d, 0x0a] 0 4 ∧
      ¬ AcceptsOnlyHeaders (fun _ => true) [0x61, 0x0a] 0 2 ∧
      httpHeaderParse (fun _ => true) [0x61, 0x3a, 0x0d, 0x0a] 0 4
        = .ok ([0x61, 0, 0x0d, 0], .ok [⟨0, 2⟩]) := by
  have hvalue : httpHeaderParse (fun _ => true) [0x61, 0x3a, 0x0d, 0x0a] 0 4
      = .ok ([0x61, 0, 0x0d, 0], .ok [⟨0, 2⟩]) := rfl
  have hdropped : httpHeaderParse (fun _ => true) [0x61, 0x0a] 0 2 = .ok ([0x61, 0x0a], .ok []) := rfl
  refine ⟨fun h => ?_, fun h => ?_, hvalue⟩
  · obtain ⟨mem', herr | ⟨-, herr⟩⟩ := h.rejects [0x61, 0x3a] (by decide)
      (.value [0x61] [] (by decide) (.inl rfl)) <;> cases hvalue.symm.trans herr
  · obtain ⟨mem', herr | ⟨-, herr⟩⟩ := h.rejects [0x61] (by decide) (.colon [0x61] (by decide)) <;>
      cases hdropped.symm.trans herr

end Chiaki
