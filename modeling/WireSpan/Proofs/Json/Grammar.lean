import WireSpan.Json.Numeral
import WireSpan.Proofs.Scan.Passage

/-! The grammar of JSON documents (RFC 8259), as relations between bytes and what they spell. The
relations mention no scanner. A value is related to its text and to the offset of the text, since
the tree records where each of its parts stands. -/

namespace WireSpan.Json

/-- `ws`: any number of spaces, tabs, line feeds and carriage returns. -/
def BlankText (text : Bytes) : Prop := ∀ b ∈ text, b ∈ [0x20, 0x09, 0x0a, 0x0d]

/-- One or more decimal digits. -/
structure DigitsText (text : Bytes) : Prop where
  nonempty : text ≠ []
  digits : ∀ b ∈ text, Ascii.isDigit b = true

/-- `minus`, which may be missing. -/
inductive SignText : Bytes → Bool → Prop where
  | absent : SignText [] false
  | minus : SignText (Ascii.bytes ['-']) true

/-- `int`: a zero, or digits of which the first is none. -/
inductive IntegerText : Bytes → Prop where
  | zero : IntegerText (Ascii.bytes ['0'])
  | digits {first : UInt8} {more : Bytes} (nonzero : first ≠ Ascii.byte '0')
      (digits : DigitsText (first :: more)) : IntegerText (first :: more)

/-- `frac`, which may be missing. -/
inductive FractionText : Bytes → Option Bytes → Prop where
  | absent : FractionText [] none
  | present {digits : Bytes} (run : DigitsText digits) :
      FractionText (Ascii.byte '.' :: digits) (some digits)

/-- The sign of an exponent. -/
inductive ExponentSign : Bytes → Bool → Prop where
  | absent : ExponentSign [] false
  | plus : ExponentSign (Ascii.bytes ['+']) false
  | minus : ExponentSign (Ascii.bytes ['-']) true

/-- `exp`, which may be missing. -/
inductive ExponentText : Bytes → Option (Bool × Bytes) → Prop where
  | absent : ExponentText [] none
  | present {letter : UInt8} {sign digits : Bytes} {negative : Bool}
      (marked : letter = Ascii.byte 'e' ∨ letter = Ascii.byte 'E')
      (signed : ExponentSign sign negative) (run : DigitsText digits) :
      ExponentText (letter :: sign ++ digits) (some (negative, digits))

/-- `number`. -/
inductive NumeralText : Bytes → Numeral → Prop where
  | mk {sign integer fraction exponent : Bytes} {negative : Bool} {fractionDigits : Option Bytes}
      {exponentParts : Option (Bool × Bytes)} (signed : SignText sign negative)
      (whole : IntegerText integer) (part : FractionText fraction fractionDigits)
      (scale : ExponentText exponent exponentParts) :
      NumeralText (sign ++ integer ++ fraction ++ exponent)
        ⟨negative, integer, fractionDigits, exponentParts⟩

/-- The eight escapes of one letter, each with the character that it stands for. -/
def shortEscapes : List (UInt8 × Char) :=
  [(Ascii.doubleQuote, '\x22'), (Ascii.backslash, '\x5c'), (Ascii.byte '/', '/'),
    (Ascii.byte 'b', '\x08'), (Ascii.byte 'f', '\x0c'), (Ascii.byte 'n', '\x0a'),
    (Ascii.byte 'r', '\x0d'), (Ascii.byte 't', '\x09')]

/-- A backslash, a `u` and four hexadecimal digits of either case, which spell a code unit. -/
inductive UnitText : Bytes → Nat → Prop where
  | mk {a b c d : UInt8} (hex : ∀ digit ∈ [a, b, c, d], Ascii.isHexDigit digit = true) :
      UnitText [Ascii.backslash, Ascii.byte 'u', a, b, c, d] (Ascii.hexNumber [a, b, c, d])

/-- `char`: a scalar value in UTF-8 or as an escape. Code units of a pair occur in pairs only. -/
inductive CharText : Bytes → Char → Prop where
  | plain {c : Char} (visible : 0x20 ≤ c.toNat) (notQuote : c ≠ '\x22')
      (notBackslash : c ≠ '\x5c') : CharText (String.utf8EncodeChar c) c
  | short {letter : UInt8} {c : Char} (listed : (letter, c) ∈ shortEscapes) :
      CharText [Ascii.backslash, letter] c
  | unit {text : Bytes} {unit : Nat} (spelled : UnitText text unit)
      (single : unit < 0xd800 ∨ 0xe000 ≤ unit) : CharText text (Char.ofNat unit)
  | pair {first second : Bytes} {leading trailing : Nat} (spelled : UnitText first leading)
      (followed : UnitText second trailing) (leads : 0xd800 ≤ leading ∧ leading < 0xdc00)
      (trails : 0xdc00 ≤ trailing ∧ trailing < 0xe000) :
      CharText (first ++ second)
        (Char.ofNat (0x10000 + (leading - 0xd800) * 0x400 + (trailing - 0xdc00)))

inductive CharsText : Bytes → List Char → Prop where
  | nil : CharsText [] []
  | cons {text more : Bytes} {c : Char} {chars : List Char} (spelled : CharText text c)
      (rest : CharsText more chars) : CharsText (text ++ more) (c :: chars)

/-- `string`: characters between quotes. -/
inductive StringText : Bytes → String → Prop where
  | mk {body : Bytes} {chars : List Char} (spelled : CharsText body chars) :
      StringText (Ascii.doubleQuote :: body ++ [Ascii.doubleQuote]) (String.ofList chars)

/-- The entries of a container, at least one, each with blanks around it and commas between
them. -/
inductive EntriesText {α : Type} (entry : Nat → Bytes → α → Prop) :
    Nat → Bytes → List α → Prop where
  | last {offset : Nat} {before text after : Bytes} {value : α} (blankBefore : BlankText before)
      (spelled : entry (offset + before.length) text value) (blankAfter : BlankText after) :
      EntriesText entry offset (before ++ text ++ after) [value]
  | more {offset : Nat} {before text after rest : Bytes} {value : α} {values : List α}
      (blankBefore : BlankText before) (spelled : entry (offset + before.length) text value)
      (blankAfter : BlankText after)
      (continued : EntriesText entry (offset + (before ++ text ++ after).length + 1) rest values) :
      EntriesText entry offset (before ++ text ++ after ++ Ascii.byte ',' :: rest)
        (value :: values)

mutual

/-- `value`, with the span of its text. The first index is the offset of the text. -/
inductive ValueText : Nat → Bytes → Located Json → Prop where
  | null {offset : Nat} :
      ValueText offset (Ascii.bytes ['n', 'u', 'l', 'l']) ⟨.null, Span.ofLength offset 4⟩
  | true {offset : Nat} :
      ValueText offset (Ascii.bytes ['t', 'r', 'u', 'e']) ⟨.bool true, Span.ofLength offset 4⟩
  | false {offset : Nat} :
      ValueText offset (Ascii.bytes ['f', 'a', 'l', 's', 'e']) ⟨.bool false, Span.ofLength offset 5⟩
  | number {offset : Nat} {text : Bytes} {numeral : Numeral} (spelled : NumeralText text numeral) :
      ValueText offset text
        ⟨.number numeral.number (Ascii.latin1 text), Span.ofLength offset text.length⟩
  | string {offset : Nat} {text : Bytes} {value : String} (spelled : StringText text value) :
      ValueText offset text ⟨.string value, Span.ofLength offset text.length⟩
  | emptyArray {offset : Nat} {blank : Bytes} (between : BlankText blank) :
      ValueText offset (Ascii.byte '[' :: blank ++ [Ascii.byte ']'])
        ⟨.array [], Span.ofLength offset (blank.length + 2)⟩
  | array {offset : Nat} {text : Bytes} {items : List (Located Json)}
      (inside : EntriesText ValueText (offset + 1) text items) :
      ValueText offset (Ascii.byte '[' :: text ++ [Ascii.byte ']'])
        ⟨.array items, Span.ofLength offset (text.length + 2)⟩
  | emptyObject {offset : Nat} {blank : Bytes} (between : BlankText blank) :
      ValueText offset (Ascii.byte '\x7b' :: blank ++ [Ascii.byte '\x7d'])
        ⟨.object [], Span.ofLength offset (blank.length + 2)⟩
  | object {offset : Nat} {text : Bytes} {members : List (Member Json)}
      (inside : EntriesText MemberText (offset + 1) text members) :
      ValueText offset (Ascii.byte '\x7b' :: text ++ [Ascii.byte '\x7d'])
        ⟨.object members, Span.ofLength offset (text.length + 2)⟩

/-- `member`: a key, a colon and a value, with blanks around the colon. -/
inductive MemberText : Nat → Bytes → Member Json → Prop where
  | mk {offset : Nat} {name before after text : Bytes} {key : String} {value : Located Json}
      (named : StringText name key) (blankBefore : BlankText before) (blankAfter : BlankText after)
      (spelled : ValueText (offset + (name ++ before ++ Ascii.byte ':' :: after).length) text
        value) :
      MemberText offset (name ++ before ++ Ascii.byte ':' :: after ++ text)
        ⟨⟨key, Span.ofLength offset name.length⟩, value⟩

end

/-- `JSON-text`: a value with blanks around it. -/
inductive DocumentText : Bytes → Located Json → Prop where
  | mk {before text after : Bytes} {root : Located Json} (blankBefore : BlankText before)
      (spelled : ValueText before.length text root) (blankAfter : BlankText after) :
      DocumentText (before ++ text ++ after) root

end WireSpan.Json
