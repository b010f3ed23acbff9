/-! Blanks around a numeral. -/

namespace WireSpan.Text

def isAsciiBlank (c : Char) : Bool :=
  (decide ('\t' ≤ c) && decide (c ≤ '\r')) || c == ' '

def wideBlanks : List Nat :=
  [0x85, 0xa0, 0x1680, 0x2000, 0x2001, 0x2002, 0x2003, 0x2004, 0x2005, 0x2006, 0x2007, 0x2008,
    0x2009, 0x200a, 0x2028, 0x2029, 0x202f, 0x205f, 0x3000]

def isWideBlank (c : Char) : Bool := wideBlanks.contains c.toNat

end WireSpan.Text
