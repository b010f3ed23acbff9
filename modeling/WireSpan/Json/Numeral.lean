import WireSpan.Ascii
import WireSpan.Decimal.Whole
import WireSpan.Json.Tree
import WireSpan.Scan.Many

/-! Numerals: an optional minus, an integer without leading zeros, and optionally a fraction and an
exponent. -/

namespace WireSpan.Json

open Scan

/-- The parts of a numeral, each as it is written, without the marks between them. -/
structure Numeral where
  negative : Bool
  integer : Bytes
  fraction : Option Bytes
  exponent : Option (Bool × Bytes)
deriving DecidableEq, Repr

def accept (b : UInt8) : Scan Bool := do
  if (← peek?) = some b then
    skip 1
    return true
  else return false

def integerPart : Scan Bytes := do
  let first ← byteOf "digit" Ascii.isDigit
  if Ascii.isNonzeroDigit first.value then
    return first.value :: (← takeWhile Ascii.isDigit).value
  else return [first.value]

def fractionPart : Scan (Option Bytes) := do
  if ← accept (Ascii.byte '.') then
    return some (← takeWhile1 "digit after '.'" Ascii.isDigit).value
  else return none

def exponentPart : Scan (Option (Bool × Bytes)) := do
  if (← accept (Ascii.byte 'e')) then digits
  else if (← accept (Ascii.byte 'E')) then digits
  else return none
where
  digits : Scan (Option (Bool × Bytes)) := do
    let negative ← accept (Ascii.byte '-')
    if !negative then let _ ← accept (Ascii.byte '+')
    return some (negative, (← takeWhile1 "exponent digit" Ascii.isDigit).value)

def numeral : Scan Numeral := do
  let negative ← accept (Ascii.byte '-')
  return ⟨negative, ← integerPart, ← fractionPart, ← exponentPart⟩

def signed (negative : Bool) (value : Nat) : Int := if negative then -(value : Int) else value

/-- The number that a numeral denotes: exactly, or with a fraction or an exponent the nearest
binary64 number. -/
def Numeral.number (numeral : Numeral) : Number :=
  if numeral.fraction.isNone && numeral.exponent.isNone then
    let value := signed numeral.negative (Ascii.decimalNumber numeral.integer)
    if numeral.integer.length ≤ Decimal.maxDigits then .integer value else .decimal value
  else
    let fraction := numeral.fraction.getD []
    let exponent := match numeral.exponent with
      | some (negative, digits) => signed negative (Ascii.decimalNumber digits)
      | none => 0
    .float (.ofDecimal numeral.negative (Ascii.decimalNumber (numeral.integer ++ fraction))
      (exponent - fraction.length))

def numberNode : Scan (Located Json) := fun input =>
  match located numeral input with
  | .ok (⟨numeral, span⟩, after) =>
    let text := Ascii.latin1 (input.rest.take span.length)
    .ok (⟨.number numeral.number text, span⟩, after)
  | .error failure => .error failure

end WireSpan.Json
