import WireSpan.Span
import WireSpan.Text.Printable

/-! The quoted form in which reports show bytes and text. A quote is single unless the content
holds a single quote and no double one; the quote in use and the backslash are escaped, and so
is whatever cannot be shown. -/

namespace WireSpan.Text

def hexDigits (width n : Nat) : List Char :=
  match width with
  | 0 => []
  | width + 1 => hexDigits width (n / 16) ++ [Nat.digitChar (n % 16)]

def singleQuote : Char := '\x27'

def doubleQuote : Char := '\x22'

def backslash : Char := '\x5c'

def quoteFor (content : List Char) : Char :=
  if content.contains singleQuote && !content.contains doubleQuote then doubleQuote
  else singleQuote

def shortEscape? (quote c : Char) : Option (List Char) :=
  if c = quote ∨ c = backslash then some [backslash, c]
  else if c = '\t' then some [backslash, 't']
  else if c = '\n' then some [backslash, 'n']
  else if c = '\r' then some [backslash, 'r']
  else none

def codeEscape (c : Char) : List Char :=
  if c.toNat < 0x100 then backslash :: 'x' :: hexDigits 2 c.toNat
  else if c.toNat < 0x10000 then backslash :: 'u' :: hexDigits 4 c.toNat
  else backslash :: 'U' :: hexDigits 8 c.toNat

/-- The text `content` between quotes, where `visible` says which characters need no escape. -/
def quoteWith (visible : Char → Bool) (content : List Char) : List Char :=
  let quote := quoteFor content
  let shown (c : Char) : List Char :=
    (shortEscape? quote c).getD (if visible c then [c] else codeEscape c)
  quote :: content.flatMap shown ++ [quote]

def ofBytes (bytes : Bytes) : List Char := bytes.map fun b => Char.ofNat b.toNat

def quoteBytes (bytes : Bytes) : String :=
  String.ofList ('b' :: quoteWith (fun c => decide (' ' ≤ c) && decide (c ≤ '~')) (ofBytes bytes))

def quoteText (text : String) : String := String.ofList (quoteWith isPrintable text.toList)

end WireSpan.Text
