import WireSpan.Http.Field
import WireSpan.Scan.Many
import WireSpan.Settings

/-! The lines of a field section, and what ends a line. -/

namespace WireSpan.Http

open Scan

def isTokenByte (b : UInt8) : Bool :=
  Ascii.isDigit b || Ascii.isUpper b || Ascii.isLower b ||
    (Ascii.bytes ['!', '#', '$', '%', '&', '\x27', '*', '+', '-', '.', '^', '_', '\x60', '|',
      '~']).contains b

def isTargetByte (b : UInt8) : Bool := (decide (0x21 ≤ b) && decide (b ≤ 0x7e)) || decide (0x80 ≤ b)

def isFieldByte (b : UInt8) : Bool := b == Ascii.tab || (decide (0x20 ≤ b) && b != 0x7f)

def lineEndName : String := "CRLF"

def lineEnd (settings : Settings) : Scan (Located Bytes) :=
  if settings.bareLf then
    orElse (literal lineEndName Ascii.crlf) (literal lineEndName [Ascii.lineFeed])
  else literal lineEndName Ascii.crlf

/-- A line end that must follow; input that has run out before it is missing `what`. -/
def lineEndAfter (settings : Settings) (what : String) : Scan Unit := do
  match ← peek? with
  | none => runOut what
  | some _ => let _ ← lineEnd settings

def fieldName : Scan (Located String) := do
  let name ← takeWhile isTokenByte
  match ← peek? with
  | none => runOut "':' after header name"
  | some b =>
    if name.value.isEmpty || b != Ascii.byte ':' then fail (.malformedFieldName b)
    else
      skip 1
      return name.map Ascii.latin1

def fieldValue : Scan (Located Bytes) := do
  let _ ← takeWhile Ascii.isSpaceOrTab
  let raw ← takeWhile isFieldByte
  let trimmed := Ascii.trimRight raw.value
  return ⟨trimmed, Span.ofLength raw.span.start trimmed.length⟩

def field (settings : Settings) : Scan (Located Field) := located do
  let name ← fieldName
  let value ← fieldValue
  lineEndAfter settings "CRLF after header value"
  return ⟨name, value⟩

def fieldsWithin (settings : Settings) : (left : Nat) → Scan Fields
  | 0 => do
    match ← Scan.optional (lineEnd settings) with
    | some _ => return []
    | none => fail (.tooManyFields settings.fieldLimit)
  | left + 1 => do
    match ← Scan.optional (lineEnd settings) with
    | some _ => return []
    | none => return (← field settings) :: (← fieldsWithin settings left)

def fieldSection (settings : Settings) : Scan Fields := fieldsWithin settings settings.fieldLimit

end WireSpan.Http
