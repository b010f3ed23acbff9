import Mathlib.Data.List.Basic
import WireSpan.Proofs.Http.Spelling.Fields

/-! Every head that a sender may write is read back as the parts it was written from. -/

namespace WireSpan.Http

open Scan

variable {bareLf : Bool} {offset : Nat}

/-- A visible character, or a byte outside ASCII. -/
def TargetByte (b : UInt8) : Prop := (0x21 ≤ b ∧ b ≤ 0x7e) ∨ 0x80 ≤ b

instance (b : UInt8) : Decidable (TargetByte b) :=
  inferInstanceAs (Decidable ((0x21 ≤ b ∧ b ≤ 0x7e) ∨ 0x80 ≤ b))

private theorem isTargetByte_iff {b : UInt8} : isTargetByte b = true ↔ TargetByte b := by
  simp [isTargetByte, TargetByte]

/-- The byte of a decimal digit. -/
def digitByte (digit : Nat) : UInt8 := UInt8.ofNat (0x30 + digit)

private theorem digitByte_toNat {digit : Nat} (small : digit < 10) :
    (digitByte digit).toNat = 0x30 + digit := by
  apply UInt8.toNat_ofNat_of_lt
  show 0x30 + digit < 256
  omega

private theorem isDigit_digitByte {digit : Nat} (small : digit < 10) :
    Ascii.isDigit (digitByte digit) = true := by
  have value := digitByte_toNat small
  simp only [Ascii.isDigit, Bool.and_eq_true, decide_eq_true_eq, UInt8.le_iff_toNat_le, value]
  constructor
  · simp
  · simp
    omega

/-- A version, as `HTTP/1.1` is one. -/
def versionText (major minor : Fin 10) : Bytes :=
  Ascii.bytes ['H', 'T', 'T', 'P', '/'] ++ [digitByte major, Ascii.byte '.', digitByte minor]

private theorem versionText_spelled (major minor : Fin 10) :
    VersionText (versionText major minor) := by
  refine .mk fun b member => ?_
  simp only [List.mem_cons, List.not_mem_nil, or_false] at member
  rcases member with rfl | rfl
  · exact isDigit_digitByte major.isLt
  · exact isDigit_digitByte minor.isLt

/-- A status in three digits. -/
def statusText (status : Fin 1000) : Bytes :=
  [digitByte (status / 100), digitByte (status / 10 % 10), digitByte (status % 10)]

private theorem isDigit_of_mem_statusText (status : Fin 1000) :
    ∀ b ∈ statusText status, Ascii.isDigit b = true := by
  intro b member
  obtain ⟨status, small⟩ := status
  simp only [statusText, List.mem_cons, List.not_mem_nil, or_false] at member
  rcases member with rfl | rfl | rfl
  all_goals
    apply isDigit_digitByte
    omega

private theorem decimalNumber_statusText (status : Fin 1000) :
    Ascii.decimalNumber (statusText status) = status := by
  obtain ⟨status, small⟩ := status
  have hundreds := digitByte_toNat (show status / 100 < 10 by omega)
  have tens := digitByte_toNat (show status / 10 % 10 < 10 by omega)
  have ones := digitByte_toNat (show status % 10 < 10 by omega)
  simp only [Ascii.decimalNumber, statusText, List.foldl_cons, List.foldl_nil, hundreds, tens, ones]
  omega

/-- A request line as a sender may write it. -/
structure RequestLineSpelling (bareLf : Bool) where
  method : Bytes
  target : Bytes
  major : Fin 10
  minor : Fin 10
  ending : LineEnd bareLf
  named : method ≠ []
  token : ∀ b ∈ method, TokenByte b
  targeted : target ≠ []
  visible : ∀ b ∈ target, TargetByte b

namespace RequestLineSpelling

variable (line : RequestLineSpelling bareLf)

/-- The version that is written. -/
def version : Bytes := versionText line.major line.minor

/-- What is written. -/
def text : Bytes :=
  line.method ++ Ascii.space :: (line.target ++ Ascii.space :: (line.version ++ line.ending.text))

/-- The parts of a line that begins at `offset`. -/
def parts (offset : Nat) : RequestLine where
  method := ⟨Ascii.latin1 line.method, Span.ofLength offset line.method.length⟩
  target :=
    ⟨Ascii.latin1 line.target, Span.ofLength (offset + line.method.length + 1) line.target.length⟩
  version :=
    ⟨Ascii.latin1 line.version,
      Span.ofLength (offset + line.method.length + 1 + line.target.length + 1) line.version.length⟩

theorem spelled : RequestLineText bareLf offset line.text (line.parts offset) :=
  .mk ⟨line.named, fun b member => isTokenByte_iff.mpr (line.token b member)⟩
    ⟨line.targeted, fun b member => isTargetByte_iff.mpr (line.visible b member)⟩
    (versionText_spelled line.major line.minor) line.ending.ended

end RequestLineSpelling

/-- A status line as a sender may write it, with a space and a reason or without both. -/
structure StatusLineSpelling (bareLf : Bool) where
  major : Fin 10
  minor : Fin 10
  status : Fin 1000
  reason : Option Bytes
  ending : LineEnd bareLf
  visible : ∀ text ∈ reason, ∀ b ∈ text, ValueByte b

namespace StatusLineSpelling

variable (line : StatusLineSpelling bareLf)

/-- The version that is written. -/
def version : Bytes := versionText line.major line.minor

/-- The reason that is written, with the space before it. -/
def reasonText : Bytes :=
  match line.reason with
  | none => []
  | some text => Ascii.space :: text

/-- What is written. -/
def text : Bytes :=
  line.version ++ Ascii.space :: (statusText line.status ++ (line.reasonText ++ line.ending.text))

/-- The reason where the status ends at `offset`. -/
def phrase (offset : Nat) : Located String :=
  match line.reason with
  | none => ⟨"", Span.emptyAt offset⟩
  | some text => ⟨Ascii.latin1 text, Span.ofLength (offset + 1) text.length⟩

/-- The parts of a line that begins at `offset`. -/
def parts (offset : Nat) : StatusLine where
  version := ⟨Ascii.latin1 line.version, Span.ofLength offset line.version.length⟩
  status := ⟨line.status, Span.ofLength (offset + line.version.length + 1) 3⟩
  reason := line.phrase (offset + line.version.length + 1 + 3)

theorem reasonText_spelled : ReasonText offset line.reasonText (line.phrase offset) := by
  unfold reasonText phrase
  cases reasoned : line.reason with
  | none => exact .absent
  | some text =>
    exact .present fun b member => isFieldByte_iff.mpr (line.visible text reasoned b member)

theorem spelled : StatusLineText bareLf offset line.text (line.parts offset) := by
  have reasoned : ReasonText (offset + line.version.length + 1 + 3) line.reasonText _ :=
    line.reasonText_spelled
  have whole := StatusLineText.mk (versionText_spelled line.major line.minor) rfl
    (isDigit_of_mem_statusText line.status) reasoned line.ending.ended
  rwa [decimalNumber_statusText] at whole

end StatusLineSpelling

private theorem head_readsFrom_of_spelled {α : Type} {settings : Settings} {startLine : Scan α}
    {spells : Nat → Bytes → α → Prop} {text : Bytes} {parts : α} {before after : Bytes}
    (complete : ∀ text parts rest, spells before.length text parts →
      Reads startLine before.length text parts rest)
    (spelled : spells before.length text parts) (lines : SectionSpelling settings) :
    (head settings startLine).ReadsFrom (before ++ (text ++ lines.text) ++ after) before.length
      ⟨(parts, lines.fields (before.length + text.length)),
        Span.ofLength before.length (text ++ lines.text).length⟩
      (before.length + (text ++ lines.text).length) := by
  have headed : HeadText settings spells before.length (text ++ lines.text) _ :=
    .mk spelled lines.spelled lines.length_fields
  exact (headed.reads complete).between

/-- A head that is written anywhere in a buffer is read as its parts, and ends right after its empty
line. -/
theorem head_readsFrom_spelling (settings : Settings) (lines : SectionSpelling settings)
    (before after : Bytes) :
    (∀ line : RequestLineSpelling settings.bareLf,
      (head settings (requestLine settings)).ReadsFrom
        (before ++ (line.text ++ lines.text) ++ after) before.length
        ⟨(line.parts before.length, lines.fields (before.length + line.text.length)),
          Span.ofLength before.length (line.text ++ lines.text).length⟩
        (before.length + (line.text ++ lines.text).length)) ∧
    ∀ line : StatusLineSpelling settings.bareLf,
      (head settings (statusLine settings)).ReadsFrom
        (before ++ (line.text ++ lines.text) ++ after) before.length
        ⟨(line.parts before.length, lines.fields (before.length + line.text.length)),
          Span.ofLength before.length (line.text ++ lines.text).length⟩
        (before.length + (line.text ++ lines.text).length) := by
  constructor
  · intro line
    exact head_readsFrom_of_spelled (fun _ _ _ => RequestLineText.reads) line.spelled lines
  · intro line
    exact head_readsFrom_of_spelled (fun _ _ _ => StatusLineText.reads) line.spelled lines

/-- A padded value, and an empty one between blanks. -/
def paddedLines : SectionSpelling .standard where
  lines :=
    [{ name := Ascii.bytes ['A']
       before := [Ascii.space, Ascii.space]
       value := Ascii.bytes ['b', ' ', 'c']
       behind := [Ascii.tab]
       ending := .crlf
       named := by decide
       token := List.forall_iff_forall_mem.mp (by decide)
       blankBefore := List.all_eq_true.mp rfl
       visible := List.forall_iff_forall_mem.mp (by decide)
       trimmed := ⟨by rintro _ ⟨⟩; rfl, by rintro _ ⟨⟩; rfl⟩
       blankBehind := List.all_eq_true.mp rfl },
     { name := Ascii.bytes ['E']
       before := [Ascii.tab]
       value := []
       behind := [Ascii.tab]
       ending := .lineFeed
       named := by decide
       token := List.forall_iff_forall_mem.mp (by decide)
       blankBefore := List.all_eq_true.mp rfl
       visible := List.forall_iff_forall_mem.mp (by decide)
       trimmed := ⟨by rintro _ ⟨⟩, by rintro _ ⟨⟩⟩
       blankBehind := List.all_eq_true.mp rfl }]
  emptyLine := .crlf
  counted := by decide

/-- Where the parts of `paddedLines` stand behind the first 17 bytes. -/
def paddedFields : Fields :=
  [⟨⟨⟨"A", Span.ofLength 17 1⟩, ⟨Ascii.bytes ['b', ' ', 'c'], Span.ofLength 21 3⟩⟩,
    Span.ofLength 17 10⟩,
   ⟨⟨⟨"E", Span.ofLength 27 1⟩, ⟨[], Span.emptyAt 31⟩⟩, Span.ofLength 27 5⟩]

def getLine : RequestLineSpelling true where
  method := Ascii.bytes ['G', 'E', 'T']
  target := Ascii.bytes ['/']
  major := 1
  minor := 1
  ending := .crlf
  named := by decide
  token := List.forall_iff_forall_mem.mp (by decide)
  targeted := by decide
  visible := List.forall_iff_forall_mem.mp (by decide)

def okLine : StatusLineSpelling true where
  major := 1
  minor := 0
  status := 200
  reason := some (Ascii.bytes ['O', 'K'])
  ending := .lineFeed
  visible := by
    rintro _ ⟨⟩
    exact List.forall_iff_forall_mem.mp (by decide)

theorem head_readsFrom_spelling_padded :
    (head .standard (requestLine .standard)).ReadsFrom
      (Ascii.bytes ['>', 'G', 'E', 'T', ' ', '/', ' ', 'H', 'T', 'T', 'P', '/', '1', '.', '1', '\r',
        '\n', 'A', ':', ' ', ' ', 'b', ' ', 'c', '\t', '\r', '\n', 'E', ':', '\t', '\t', '\n', '\r',
        '\n', '<']) 1
      ⟨(⟨⟨"GET", Span.ofLength 1 3⟩, ⟨"/", Span.ofLength 5 1⟩, ⟨"HTTP/1.1", Span.ofLength 7 8⟩⟩,
        paddedFields), Span.ofLength 1 33⟩ 34 ∧
    (head .standard (statusLine .standard)).ReadsFrom
      (Ascii.bytes ['>', 'H', 'T', 'T', 'P', '/', '1', '.', '0', ' ', '2', '0', '0', ' ', 'O', 'K',
        '\n', 'A', ':', ' ', ' ', 'b', ' ', 'c', '\t', '\r', '\n', 'E', ':', '\t', '\t', '\n', '\r',
        '\n', '<']) 1
      ⟨(⟨⟨"HTTP/1.0", Span.ofLength 1 8⟩, ⟨200, Span.ofLength 10 3⟩, ⟨"OK", Span.ofLength 14 2⟩⟩,
        paddedFields), Span.ofLength 1 33⟩ 34 := by
  have read := head_readsFrom_spelling .standard paddedLines [Ascii.byte '>'] [Ascii.byte '<']
  exact ⟨read.1 getLine, read.2 okLine⟩

end WireSpan.Http
