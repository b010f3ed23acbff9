import WireSpan.Json.Numeral
import WireSpan.Json.StringLiteral
import WireSpan.Settings

/-! Values and whole documents. Blanks may stand around every value, key, comma and colon. -/

namespace WireSpan.Json

open Scan

def isBlank (b : UInt8) : Bool :=
  b == Ascii.space || b == Ascii.tab || b == Ascii.lineFeed || b == Ascii.carriageReturn

def blanks : Scan Unit := do let _ ← takeWhile isBlank

def closes (closing : UInt8) (expected : String) : Scan Bool := do
  match ← peek? with
  | none => runOut expected
  | some b =>
    if b = Ascii.byte ',' then
      skip 1
      return false
    else if b = closing then
      skip 1
      return true
    else fail (.unexpected expected [b])

def entryTurn {α : Type} (closing : UInt8) (expected : String) (entry : Scan α) :
    Scan (α ⊕ α) := do
  blanks
  let value ← entry
  blanks
  return if ← closes closing expected then .inr value else .inl value

def entries {α : Type} (closing : UInt8) (expected : String) (entry : Scan α) :
    Scan (List α) := do
  skip 1
  blanks
  if ← accept closing then return []
  else
    let (values, last) ← collect (entryTurn closing expected entry)
    return values ++ [last]

def arrayNode (value : Scan (Located Json)) : Scan (Located Json) := located do
  return .array (← entries (Ascii.byte ']') "',' or ']'" value)

def memberKey : Scan (Located String) := do
  match ← peek? with
  | none => runOut "object key"
  | some b =>
    if b = Ascii.doubleQuote then stringLiteral else fail (.unexpected "object key string" [b])

def member (value : Scan (Located Json)) : Scan (Member Json) := do
  let key ← memberKey
  blanks
  let _ ← literal "':'" [Ascii.byte ':']
  blanks
  return ⟨key, ← value⟩

def objectNode (value : Scan (Located Json)) : Scan (Located Json) := located do
  return .object (← entries (Ascii.byte '\x7d') "',' or '\x7d'" (member value))

def word (name : String) (text : List Char) (value : Json) : Scan (Located Json) := do
  return (← literal name (Ascii.bytes text)).map fun _ => value

def valueWith (arrayScan objectScan : Scan (Located Json)) : Scan (Located Json) := do
  match ← peek? with
  | none => runOut "JSON value"
  | some b =>
    if b = Ascii.byte '\x7b' then objectScan
    else if b = Ascii.byte '[' then arrayScan
    else if b = Ascii.doubleQuote then return (← stringLiteral).map .string
    else if b = Ascii.byte 't' then word "'true'" ['t', 'r', 'u', 'e'] (.bool true)
    else if b = Ascii.byte 'f' then word "'false'" ['f', 'a', 'l', 's', 'e'] (.bool false)
    else if b = Ascii.byte 'n' then word "'null'" ['n', 'u', 'l', 'l'] .null
    else if b = Ascii.byte '-' || Ascii.isDigit b then numberNode
    else fail (.unexpected "JSON value" [b])

/-- A value inside which `levels` more containers may be opened. -/
def value (limit : Nat) : (levels : Nat) → Scan (Located Json)
  | 0 => valueWith (fail (.nestedTooDeep limit)) (fail (.nestedTooDeep limit))
  | levels + 1 => valueWith (arrayNode (value limit levels)) (objectNode (value limit levels))

/-- A value with blanks before it, such as one that begins inside a larger buffer. -/
def document (settings : Settings) : Scan (Located Json) := do
  blanks
  value settings.depthLimit settings.depthLimit

def nothingElse : Scan Unit := do
  blanks
  match ← peek? with
  | none => return ()
  | some _ => fail .trailingData

def documentThen (settings : Settings) (anything : Bool) : Scan (Located Json) := do
  let root ← document settings
  if anything then return root
  else
    nothingElse
    return root

/-- The document that a buffer holds. What may follow it is the caller's choice, or that of the
settings where the caller makes none. -/
def parse (settings : Settings) (trailing : Option Bool) (buffer : Bytes) :
    Except Failure (Located Json) :=
  match documentThen settings (trailing.getD settings.trailingData) (Input.ofBytes buffer) with
  | .ok (root, _) => .ok root
  | .error failure => .error (failure.reportedBy .json)

end WireSpan.Json
