/-! Letter case, for comparison with words that hold ASCII letters only. -/

namespace WireSpan.Text

/-- The lower case of a character wherever that is an ASCII character. Outside ASCII this is the
case for the Kelvin sign alone; all other characters are left as they are, and so are no part of
an ASCII word. -/
def lowerChar (c : Char) : Char := if c = '\u212A' then 'k' else c.toLower

/-- The upper case of a character wherever that is an ASCII character. Outside ASCII this is the
case for the dotless i and the long s. -/
def upperChar (c : Char) : Char :=
  if c = '\u0131' then 'I' else if c = '\u017F' then 'S' else c.toUpper

def lower (text : String) : String := String.ofList (text.toList.map lowerChar)

def upper (text : String) : String := String.ofList (text.toList.map upperChar)

end WireSpan.Text
