import WireSpan.Span

/-! Bytes by their ASCII characters, and the classes of bytes that the grammars share. -/

namespace WireSpan.Ascii

def byte (c : Char) : UInt8 := c.toUInt8

def bytes (text : List Char) : Bytes := text.map byte

def tab : UInt8 := 0x09

def lineFeed : UInt8 := 0x0a

def carriageReturn : UInt8 := 0x0d

def space : UInt8 := 0x20

def doubleQuote : UInt8 := 0x22

def backslash : UInt8 := 0x5c

def crlf : Bytes := [carriageReturn, lineFeed]

def isDigit (b : UInt8) : Bool := decide (0x30 ≤ b) && decide (b ≤ 0x39)

def isNonzeroDigit (b : UInt8) : Bool := isDigit b && b != 0x30

def isUpper (b : UInt8) : Bool := decide (0x41 ≤ b) && decide (b ≤ 0x5a)

def isLower (b : UInt8) : Bool := decide (0x61 ≤ b) && decide (b ≤ 0x7a)

def isHexDigit (b : UInt8) : Bool :=
  isDigit b || (decide (0x41 ≤ b) && decide (b ≤ 0x46)) || (decide (0x61 ≤ b) && decide (b ≤ 0x66))

def hexValue (b : UInt8) : Nat :=
  if b ≤ 0x39 then b.toNat - 0x30 else if b ≤ 0x46 then b.toNat - 0x37 else b.toNat - 0x57

def hexNumber (digits : Bytes) : Nat := digits.foldl (fun n b => n * 16 + hexValue b) 0

def decimalNumber (digits : Bytes) : Nat := digits.foldl (fun n b => n * 10 + (b.toNat - 0x30)) 0

def isSpaceOrTab (b : UInt8) : Bool := b == space || b == tab

def lower (b : UInt8) : UInt8 := if isUpper b then b + 0x20 else b

def trimRight (bytes : Bytes) : Bytes := (bytes.reverse.dropWhile isSpaceOrTab).reverse

def trim (bytes : Bytes) : Bytes := trimRight (bytes.dropWhile isSpaceOrTab)

def splitCommas : Bytes → List Bytes
  | [] => [[]]
  | b :: rest =>
    if b = 0x2c then [] :: splitCommas rest
    else match splitCommas rest with
      | [] => [[b]]
      | piece :: pieces => (b :: piece) :: pieces

/-- Text with one character per byte, of the same code. -/
def latin1 (bytes : Bytes) : String := String.ofList (bytes.map fun b => Char.ofNat b.toNat)

end WireSpan.Ascii
