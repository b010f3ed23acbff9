import WireSpan.Text.Blank
import WireSpan.Text.Digits
import WireSpan.Text.Quoted

/-! Whole numbers written in decimal: a sign, then digits with single underscores between them,
blanks around the whole. A numeral may have 4300 digits. -/

namespace WireSpan.Decimal

def ofDigits (digits : List Char) : Nat :=
  digits.foldl (fun value c => value * 10 + (c.toNat - '0'.toNat)) 0

/-- The largest number of digits that a numeral is converted with. -/
def maxDigits : Nat := 4300

inductive WholeError where
  /-- The text has another form; `shown` is its quoted form, cut to 200 characters. -/
  | malformed (shown : String)
  | tooLong (digits : Nat)
deriving DecidableEq, Repr

namespace WholeError

def message : WholeError → String
  | malformed shown => s!"invalid literal for int() with base 10: {shown}"
  | tooLong digits =>
    s!"Exceeds the limit ({maxDigits} digits) for integer string conversion: value has {digits} " ++
      "digits; use sys.set_int_max_str_digits() to increase the limit"

end WholeError

/-- Digits with underscores between them, never one at an end and never two together. -/
def isGrouped : List Char → Bool
  | [] => false
  | [c] => c.isDigit
  | '_' :: _ => false
  | c :: '_' :: rest => c.isDigit && isGrouped rest
  | c :: rest => c.isDigit && isGrouped rest

def splitSign : List Char → Bool × List Char
  | '-' :: rest => (true, rest)
  | '+' :: rest => (false, rest)
  | text => (false, text)

/-- Reads an ASCII numeral. The grouping of the digits is looked at first, then their number, and
last what follows them; `shown` is how a text of another form is reported. -/
def readAscii (shown : String) (text : List Char) : Except WholeError Int :=
  let (negative, unsigned) := splitSign (text.dropWhile Text.isAsciiBlank)
  let isBody (c : Char) : Bool := c.isDigit || c == '_'
  let body := unsigned.takeWhile isBody
  let digits := body.filter Char.isDigit
  if !isGrouped body then .error (.malformed shown)
  else if maxDigits < digits.length then .error (.tooLong digits.length)
  else if !(unsigned.dropWhile isBody).all Text.isAsciiBlank then .error (.malformed shown)
  else .ok (if negative then -(ofDigits digits : Int) else ofDigits digits)

/-- The ASCII character that stands for `c` in a numeral: a blank for any blank, the digit of the
same value for a digit of any script, and a character without a meaning for all others. -/
def asciiOf (c : Char) : Char :=
  if c.toNat < 0x7f then c
  else if Text.isWideBlank c then ' '
  else match Text.digitValue? c with
    | some value => Nat.digitChar value
    | none => '?'

def shownLength : Nat := 200

def cut (quoted : String) : String := String.ofList (quoted.toList.take shownLength)

def wholeOfText? (text : String) : Except WholeError Int :=
  readAscii (cut (Text.quoteText text)) (text.toList.map asciiOf)

def wholeOfBytes? (bytes : Bytes) : Except WholeError Int :=
  readAscii (cut (Text.quoteBytes (bytes.take shownLength))) (Text.ofBytes bytes)

end WireSpan.Decimal
