import Chiaki.Http.Header
import Chiaki.Infra.StrTo

/-!
# Parsing an HTTP response (`http.c`)

The status line, and the headers behind it.
-/

namespace Chiaki

open Infra

/-- `ChiakiHttpResponse`. The headers are pointers into the buffer. -/
structure HttpResponse where
  code : Int
  headers : List HttpHeaderEntry
  deriving DecidableEq

/-- `http_version` -/
def httpVersion : Bytes := ascii "HTTP/1.1 "

/-- `http_version_size` -/
def httpVersionSize : Nat := 9

/-- `chiaki_http_response_parse` of the first `bufSize` bytes of `mem`: the buffer as it is afterwards,
and the response. -/
def httpResponseParse (malloc : Nat → Bool) (mem : Bytes) (bufSize : Nat) :
    Except Fault (Bytes × Except ErrorCode HttpResponse) :=
  if bufSize < httpVersionSize then .ok (mem, .error .invalidData)
  else if mem.length < bufSize then .error .outOfBounds
  else if slice mem 0 httpVersionSize ≠ httpVersion then .ok (mem, .error .invalidData)
  else
    match (slice mem httpVersionSize (bufSize - httpVersionSize)).findIdx? (fun c => c = 0x0a) with
    | none => .ok (mem, .error .invalidData)
    | some lineEnd =>
      let lineLength := lineEnd + 1
      if bufSize - httpVersionSize ≤ lineLength then .ok (mem, .error .invalidData)
      else
        let terminator :=
          if lineLength > 1 ∧ mem[httpVersionSize + lineEnd - 1]? = some 0x0d then lineEnd - 1 else lineEnd
        let mem := mem.set (httpVersionSize + terminator) 0
        match CString.read mem httpVersionSize with
        | none => .error .outOfBounds
        | some line =>
          let code := (StrTo.strtol 10 line.bytes).bmod (2 ^ 32)
          if code = 0 then .ok (mem, .error .invalidData)
          else do
            let (mem, headers) ← httpHeaderParse malloc mem (httpVersionSize + lineLength)
              (bufSize - httpVersionSize - lineLength)
            return (mem, headers.map fun headers => ⟨code, headers⟩)

end Chiaki
