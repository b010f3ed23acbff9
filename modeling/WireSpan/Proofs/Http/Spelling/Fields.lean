import WireSpan.Proofs.Http.Message

/-! Field lines as a sender may write them, and where their parts then stand. What a sender may
write is said in the words of the standards, apart from the classes that the scanners test. -/

namespace WireSpan

/-- A scanner goes from one offset of a buffer to another and reads `value` on the way. -/
def Scan.ReadsFrom {α : Type} (scan : Scan α) (buffer : Bytes) (start : Nat) (value : α)
    (stop : Nat) : Prop :=
  scan ((Input.ofBytes buffer).advance start) = .ok (value, (Input.ofBytes buffer).advance stop)

/-- A scanner that reads a text does so anywhere in a buffer. -/
theorem Scan.Reads.between {α : Type} {scan : Scan α} {text rest : Bytes} {value : α}
    {before : Bytes} (read : Reads scan before.length text value rest) :
    scan.ReadsFrom (before ++ text ++ rest) before.length value (before.length + text.length) := by
  unfold Scan.ReadsFrom
  have start : (Input.ofBytes (before ++ text ++ rest)).advance before.length =
      ⟨before.length, text ++ rest⟩ := by
    simp [Input.advance, Input.ofBytes]
  have stop : (Input.ofBytes (before ++ text ++ rest)).advance (before.length + text.length) =
      ⟨before.length + text.length, rest⟩ := by
    rw [← List.length_append]
    simp [Input.advance, Input.ofBytes]
  rw [start, stop]
  exact read

/-- What is true of the first 256 numbers, taken as bytes, is true of every byte. -/
theorem forall_byte {holds : UInt8 → Prop} (checked : ∀ n < 256, holds (UInt8.ofNat n))
    (b : UInt8) : holds b := by
  have found := checked b.toNat b.toNat_lt
  rwa [UInt8.ofNat_toNat] at found

section

variable {α β : Type} (text : α → Bytes) (place : α → Nat → β)

/-- What is read from texts that follow one another, each placed where its text begins. -/
def laidOut : List α → Nat → List β
  | [], _ => []
  | x :: xs, offset => place x offset :: laidOut xs (offset + (text x).length)

private theorem length_laidOut (xs : List α) (offset : Nat) :
    (laidOut text place xs offset).length = xs.length := by
  induction xs generalizing offset with
  | nil => rfl
  | cons x xs ih => rw [laidOut, List.length_cons, List.length_cons, ih]

end

namespace Http

variable {bareLf : Bool} {offset : Nat}

/-- One of the line ends that a reader accepts. -/
structure LineEnd (bareLf : Bool) where
  text : Bytes
  ended : LineEndText bareLf text

def LineEnd.crlf : LineEnd bareLf := ⟨Ascii.crlf, .both⟩

def LineEnd.lineFeed : LineEnd true := ⟨[Ascii.lineFeed], .lone rfl⟩

/-- The visible ASCII characters that no token holds, since they set tokens apart. -/
def delimiters : Bytes :=
  Ascii.bytes ['\x22', '(', ')', ',', '/', ':', ';', '<', '=', '>', '?', '@', '[', '\x5c', ']',
    '\x7b', '\x7d']

/-- A visible ASCII character other than a delimiter. -/
def TokenByte (b : UInt8) : Prop := 0x21 ≤ b ∧ b ≤ 0x7e ∧ b ∉ delimiters

instance (b : UInt8) : Decidable (TokenByte b) :=
  inferInstanceAs (Decidable (0x21 ≤ b ∧ b ≤ 0x7e ∧ b ∉ delimiters))

/-- A visible character, a byte outside ASCII, the space or the tab. -/
def ValueByte (b : UInt8) : Prop := b = 0x09 ∨ (0x20 ≤ b ∧ b ≠ 0x7f)

instance (b : UInt8) : Decidable (ValueByte b) :=
  inferInstanceAs (Decidable (b = 0x09 ∨ (0x20 ≤ b ∧ b ≠ 0x7f)))

theorem isTokenByte_iff : ∀ {b : UInt8}, isTokenByte b = true ↔ TokenByte b := by
  apply forall_byte
  decide +kernel

theorem isFieldByte_iff {b : UInt8} : isFieldByte b = true ↔ ValueByte b := by
  simp [isFieldByte, ValueByte, Ascii.tab]

/-- A field line as a sender may write it, with blanks on either side of the value. -/
structure FieldSpelling (bareLf : Bool) where
  name : Bytes
  before : Bytes
  value : Bytes
  behind : Bytes
  ending : LineEnd bareLf
  named : name ≠ []
  token : ∀ b ∈ name, TokenByte b
  blankBefore : SpacingText before
  visible : ∀ b ∈ value, ValueByte b
  trimmed : Trimmed value
  blankBehind : SpacingText behind

namespace FieldSpelling

variable (line : FieldSpelling bareLf)

/-- What is written. -/
def text : Bytes :=
  line.name ++ Ascii.byte ':' :: (line.before ++ (line.value ++ (line.behind ++ line.ending.text)))

/-- Where the value stands in a line that begins at `offset`. One that is empty stands right before
the line end, behind all blanks. -/
def valueStart (offset : Nat) : Nat :=
  if line.value = [] then offset + line.text.length - line.ending.text.length
  else offset + line.name.length + 1 + line.before.length

/-- The field of a line that begins at `offset`. -/
def field (offset : Nat) : Located Field where
  value :=
    { name := ⟨Ascii.latin1 line.name, Span.ofLength offset line.name.length⟩
      value := ⟨line.value, Span.ofLength (line.valueStart offset) line.value.length⟩ }
  span := Span.ofLength offset line.text.length

theorem spelled : FieldText bareLf offset line.text (line.field offset) := by
  have named : RunText isTokenByte line.name :=
    ⟨line.named, fun b member => isTokenByte_iff.mpr (line.token b member)⟩
  have visible : ∀ b ∈ line.value, isFieldByte b = true :=
    fun b member => isFieldByte_iff.mpr (line.visible b member)
  by_cases empty : line.value = []
  · -- All blanks then count as standing before the value.
    have blank : SpacingText (line.before ++ line.behind) := by
      intro b member
      rcases List.mem_append.mp member with first | later
      · exact line.blankBefore b first
      · exact line.blankBehind b later
    have same : line.text = line.name ++ Ascii.byte ':' :: ((line.before ++ line.behind) ++
        (line.value ++ ([] ++ line.ending.text))) := by
      simp only [text, empty, List.append_assoc, List.nil_append]
    have start : line.valueStart offset =
        offset + line.name.length + 1 + (line.before ++ line.behind).length := by
      rw [valueStart, if_pos empty]
      simp only [text, empty, List.length_append, List.length_cons, List.length_nil]
      omega
    rw [field, start, same]
    exact .mk named blank visible line.trimmed nofun (fun _ => rfl) line.ending.ended
  · have start : line.valueStart offset = offset + line.name.length + 1 + line.before.length :=
      if_neg empty
    rw [field, start]
    exact .mk named line.blankBefore visible line.trimmed line.blankBehind
      (fun none => absurd none empty) line.ending.ended

end FieldSpelling

private theorem sectionText_of_lines (lines : List (FieldSpelling bareLf))
    (emptyLine : LineEnd bareLf)
    (offset : Nat) :
    SectionText bareLf offset (lines.flatMap FieldSpelling.text ++ emptyLine.text)
      (laidOut FieldSpelling.text FieldSpelling.field lines offset) := by
  induction lines generalizing offset with
  | nil => exact .done emptyLine.ended
  | cons line lines ih =>
    rw [List.flatMap_cons, List.append_assoc]
    exact .more line.spelled (ih _)

/-- A field section as a sender may write it, within the limit that the settings set. -/
structure SectionSpelling (settings : Settings) where
  lines : List (FieldSpelling settings.bareLf)
  emptyLine : LineEnd settings.bareLf
  counted : lines.length ≤ settings.fieldLimit

namespace SectionSpelling

variable {settings : Settings} (lines : SectionSpelling settings)

/-- What is written. -/
def text : Bytes := lines.lines.flatMap FieldSpelling.text ++ lines.emptyLine.text

/-- The fields of a section that begins at `offset`. -/
def fields (offset : Nat) : Fields :=
  laidOut FieldSpelling.text FieldSpelling.field lines.lines offset

theorem length_fields : (lines.fields offset).length ≤ settings.fieldLimit := by
  rw [fields, length_laidOut]
  exact lines.counted

theorem spelled : SectionText settings.bareLf offset lines.text (lines.fields offset) :=
  sectionText_of_lines lines.lines lines.emptyLine offset

end SectionSpelling

end Http

end WireSpan
