import Chiaki.Common
import Chiaki.Infra.CString

/-!
# Parsing HTTP headers (`http.c`)

The headers are parsed in place: a NUL is written behind every key and every value, and a header is two
pointers into the buffer. Pointers are indices. Which calls of `malloc` succeed is a parameter.
-/

namespace Chiaki

open Infra

/-- The two strings of a header. -/
structure HttpHeader where
  key : CString
  value : CString
  deriving DecidableEq

/-- `ChiakiHttpHeader`: where its two strings begin. -/
structure HttpHeaderEntry where
  key : Nat
  value : Nat
  deriving DecidableEq

/-- The strings are read. -/
def HttpHeaderEntry.read (mem : Bytes) (entry : HttpHeaderEntry) : Option HttpHeader := do
  let key ← CString.read mem entry.key
  let value ← CString.read mem entry.value
  return ⟨key, value⟩

/-- The list of headers, as it is read by those who walk along it. -/
def readHeaders (mem : Bytes) (entries : List HttpHeaderEntry) : Option (List HttpHeader) :=
  entries.mapM (HttpHeaderEntry.read mem)

/-- The variables of `chiaki_http_header_parse`. The last entry that was made is the first one of
`header`. -/
structure HttpHeaderParser where
  mem : Bytes
  buf : Nat
  keyPtr : Nat
  valuePtr : Option Nat
  header : List HttpHeaderEntry
  deriving DecidableEq

/-- How one turn of the loop ends. -/
inductive HttpHeaderStep
  | next (s : HttpHeaderParser)
  | done
  | fail (mem : Bytes) (err : ErrorCode)

def isLineEnd (c : UInt8) : Prop := c = 0x0d ∨ c = 0x0a

instance (c : UInt8) : Decidable (isLineEnd c) := inferInstanceAs (Decidable (_ ∨ _))

/-- `*ptr` -/
def readChar (mem : Bytes) (ptr : Nat) : Except Fault UInt8 :=
  match mem[ptr]? with
  | some c => .ok c
  | none => .error .outOfBounds

/-- What follows a colon: `buf` is behind it. The first character of the value is not looked at. -/
def httpHeaderValue (bufEnd : Nat) (s : HttpHeaderParser) : Except Fault HttpHeaderStep := do
  if s.buf = bufEnd then return .fail s.mem .invalidData
  let c ← readChar s.mem s.buf
  let buf := if c = 0x20 then s.buf + 1 else s.buf
  if buf = bufEnd then return .fail s.mem .invalidData
  return .next { s with buf := buf + 1, valuePtr := some buf }

/-- The body of the loop of `chiaki_http_header_parse`, with the `buf++` behind it. -/
def httpHeaderStep (malloc : Nat → Bool) (bufEnd : Nat) (s : HttpHeaderParser) :
    Except Fault HttpHeaderStep := do
  let c ← readChar s.mem s.buf
  if c = 0 then return .done
  match s.valuePtr with
  | none =>
    if c = 0x3a then
      if s.keyPtr = s.buf then return .fail s.mem .invalidData
      httpHeaderValue bufEnd { s with mem := s.mem.set s.buf 0, buf := s.buf + 1 }
    else if isLineEnd c then
      if s.keyPtr + 1 < s.buf then return .fail s.mem .invalidData
      return .next { s with keyPtr := s.buf + 1, buf := s.buf + 1 }
    else return .next { s with buf := s.buf + 1 }
  | some valuePtr =>
    if isLineEnd c then
      if valuePtr = s.buf then return .fail s.mem .invalidData
      let mem := s.mem.set s.buf 0
      if !malloc s.header.length then return .fail mem .memory
      return .next
        { mem := mem
          buf := s.buf + 1
          keyPtr := s.buf + 1
          valuePtr := none
          header := ⟨s.keyPtr, valuePtr⟩ :: s.header }
    else return .next { s with buf := s.buf + 1 }

/-- The loop of `chiaki_http_header_parse`: the buffer as it has left it, and the headers. Those that
were there when it failed are freed. -/
def httpHeaderParseLoop (malloc : Nat → Bool) (bufEnd : Nat) :
    Nat → HttpHeaderParser → Except Fault (Bytes × Except ErrorCode (List HttpHeaderEntry))
  | 0, s => .ok (s.mem, .ok s.header)
  | fuel + 1, s =>
    if s.buf < bufEnd then do
      match ← httpHeaderStep malloc bufEnd s with
      | .next s => httpHeaderParseLoop malloc bufEnd fuel s
      | .done => return (s.mem, .ok s.header)
      | .fail mem err => return (mem, .error err)
    else .ok (s.mem, .ok s.header)

/-- `chiaki_http_header_parse` of the `bufSize` bytes at `buf`. -/
def httpHeaderParse (malloc : Nat → Bool) (mem : Bytes) (buf bufSize : Nat) :
    Except Fault (Bytes × Except ErrorCode (List HttpHeaderEntry)) :=
  httpHeaderParseLoop malloc (buf + bufSize) bufSize ⟨mem, buf, buf, none, []⟩

end Chiaki
