import WireSpan.Http.Section

/-! The first line of a message. -/

namespace WireSpan.Http

open Scan

def version : Scan (Located String) := located do
  let name ← literal "HTTP version" (Ascii.bytes ['H', 'T', 'T', 'P', '/'])
  let major ← byteOf "major version digit" Ascii.isDigit
  let dot ← literal "'.'" (Ascii.bytes ['.'])
  let minor ← byteOf "minor version digit" Ascii.isDigit
  return Ascii.latin1 (name.value ++ [major.value] ++ dot.value ++ [minor.value])

def singleSpace : Scan (Located Bytes) := literal "SP" [Ascii.space]

structure RequestLine where
  method : Located String
  target : Located String
  version : Located String
deriving DecidableEq, Repr

def requestLine (settings : Settings) : Scan RequestLine := do
  let method ← takeWhile1 "method token" isTokenByte
  let _ ← singleSpace
  let target ← takeWhile1 "request target" isTargetByte
  let _ ← singleSpace
  let version ← version
  let _ ← lineEnd settings
  return ⟨method.map Ascii.latin1, target.map Ascii.latin1, version⟩

structure StatusLine where
  version : Located String
  status : Located Nat
  reason : Located String
deriving DecidableEq, Repr

def statusCode : Scan (Located Nat) := located do
  let digits ← times 3 (byteOf "status code digit" Ascii.isDigit)
  return Ascii.decimalNumber (digits.map (·.value))

def reasonPart : Scan (Located String) := do
  let _ ← singleSpace
  let reason ← takeWhile isFieldByte
  return reason.map Ascii.latin1

/-- The reason of a status line; an absent one is empty, right after the status. -/
def reason : Scan (Located String) := do
  let start ← here
  return (← Scan.optional reasonPart).getD ⟨"", Span.emptyAt start⟩

def statusLine (settings : Settings) : Scan StatusLine := do
  let version ← version
  let _ ← singleSpace
  let status ← statusCode
  let reason ← reason
  lineEndAfter settings "CRLF after status line"
  return ⟨version, status, reason⟩

end WireSpan.Http
