import WireSpan.Ascii
import WireSpan.Matcher

/-! Matchers as expressions, and the values that they read. -/

namespace WireSpan

inductive Value where
  | bytes (value : Bytes)
  | text (value : String)
  | number (value : Int)
  /-- The results of several parts, absent where an optional part read nothing. -/
  | tuple (parts : List (Option (Located Value)))
  | bare (values : List (Option Value))

namespace Value

def shape : Value → Shape
  | bytes _ => .bytes
  | text _ => .text
  | number _ => .number
  | tuple _ => .tuple
  | bare _ => .tuple

def latin1 : Value → Except Fault Value
  | bytes value => .ok (text (Ascii.latin1 value))
  | other => .error (.lacks other.shape .decode)

def length : Value → Except Fault Value
  | bytes value => .ok (number value.length)
  | text value => .ok (number value.length)
  | tuple parts => .ok (number parts.length)
  | bare values => .ok (number values.length)
  | number _ => .error (.unsuited .number .size)

def whole : Value → Except Fault Value
  | bytes value => ((Decimal.wholeOfBytes? value).map number).mapError .numeral
  | text value => ((Decimal.wholeOfText? value).map number).mapError .numeral
  | number value => .ok (number value)
  | other => .error (.unsuited other.shape .numeral)

/-- What is left of items that have no place, given by their shapes. Absent items stay absent; one
that is there has no value to take out, and the first such item is at fault. -/
def unplaced (items : List (Option Shape)) : Except Fault Value :=
  match items.findSome? id with
  | some shape => .error (.lacks shape .value)
  | none => .ok (bare (items.map fun _ => none))

/-- The values of the parts, without their places; a part that is absent stays absent. Parts that
have lost their places have no values to take out, nor have bytes and text, which are made of
numbers and of text. -/
def values : Value → Except Fault Value
  | tuple parts => .ok (bare (parts.map (·.map (·.value))))
  | bare values => unplaced (values.map (·.map shape))
  | bytes value => unplaced (value.map fun _ => some .number)
  | text value => unplaced (value.toList.map fun _ => some .text)
  | number _ => .error (.unsuited .number .parts)

end Value

/-- A matcher expression. Bounds and counts are as the caller wrote them. -/
inductive Pattern where
  | literal (text : Bytes) (expected : Option String)
  | byteOf (accepts : UInt8 → Bool) (expected : String)
  | takeWhile1 (accepts : UInt8 → Bool) (expected : String)
  | takeWhile (accepts : UInt8 → Bool)
  | take (count : Int)
  | takeUntil (delimiter : Bytes) (limit : Option Int)
  | sequence (parts : List Pattern)
  | optional (part : Pattern)
  | repeated (part : Pattern) (minimum : Int) (maximum : Option Int)
  | choice (branches : List Pattern)
  | map (part : Pattern) (f : Value → Except Fault Value)
  | chain (first second : Pattern)
deriving Inhabited

namespace Pattern

def literalName (text : Bytes) (expected : Option String) : String :=
  match expected with
  | some name => if name.isEmpty then Text.quoteBytes text else name
  | none => Text.quoteBytes text

def bounds? (minimum : Int) (maximum : Option Int) : Except Fault (Nat × Option Nat) :=
  if minimum < 0 ∨ maximum.any (· < minimum) then .error (.invalidRepetition minimum maximum)
  else .ok (minimum.toNat, maximum.map Int.toNat)

def bytesOf (scan : Scan (Located Bytes)) : Matcher (Option (Located Value)) :=
  Matcher.present (Located.map .bytes <$> scan)

def tupleOf (part : Matcher (Located (List (Option (Located Value))))) :
    Matcher (Option (Located Value)) := fun input =>
  match part input with
  | ⟨.ok x, after⟩ => ⟨.ok (some (x.map .tuple)), after⟩
  | ⟨.error fault, after⟩ => ⟨.error fault, after⟩

mutual

/-- The matcher that a pattern describes. Parts are built before what they are part of, from left
to right, and the first mistake found is the answer. -/
def matcher? : Pattern → Except Fault (Matcher (Option (Located Value)))
  | literal text expected => .ok (bytesOf (Scan.literal (literalName text expected) text))
  | byteOf accepts expected =>
    .ok (bytesOf (Located.map (fun b => [b]) <$> Scan.byteOf expected accepts))
  | takeWhile1 accepts expected => .ok (bytesOf (Scan.takeWhile1 expected accepts))
  | takeWhile accepts => .ok (bytesOf (Scan.takeWhile accepts))
  | take count => .ok (bytesOf (Scan.takeCount count))
  | takeUntil delimiter limit => .ok (bytesOf (Scan.takeUntil delimiter limit))
  | sequence parts => do return tupleOf (Matcher.sequence (← matchers? parts))
  | optional part => do return Matcher.optional (← matcher? part)
  | repeated part minimum maximum => do
    let part ← matcher? part
    let (minimum, maximum) ← bounds? minimum maximum
    return tupleOf (part.repeated minimum maximum)
  | choice branches => do
    match ← matchers? branches with
    | [] => throw .noAlternative
    | branch :: branches => return Matcher.choice branch branches
  | map part f => do return (← matcher? part).map f
  | chain first second => do
    let first ← matcher? first
    let second ← matcher? second
    return Matcher.chain first second

def matchers? : List Pattern → Except Fault (List (Matcher (Option (Located Value))))
  | [] => .ok []
  | part :: parts => do
    let part ← matcher? part
    let parts ← matchers? parts
    return part :: parts

end

def run (pattern : Pattern) : Matcher (Option (Located Value)) := fun input =>
  match pattern.matcher? with
  | .ok part => part input
  | .error fault => ⟨.error fault, input⟩

end Pattern

end WireSpan
