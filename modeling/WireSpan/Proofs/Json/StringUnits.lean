import WireSpan.Proofs.Json.StringLiteral
import WireSpan.Proofs.Text.Hexadecimal

/-! Strings by the units that spell them. A unit is a character in UTF-8 or an escape, and it cannot
be built for what stands for no character. What is read of a string are the scalar values of its
units, and bytes that begin no unit are reported where they begin. -/

namespace WireSpan.Json

open Scan

/-- The four digits of an escape by code unit. -/
structure CodeUnit where
  a : UInt8
  b : UInt8
  c : UInt8
  d : UInt8
  hex : ∀ digit ∈ [a, b, c, d], Ascii.isHexDigit digit = true

namespace CodeUnit

/-- The escape itself. -/
def text (unit : CodeUnit) : Bytes :=
  [Ascii.backslash, Ascii.byte 'u', unit.a, unit.b, unit.c, unit.d]

def number (unit : CodeUnit) : Nat := Ascii.hexNumber [unit.a, unit.b, unit.c, unit.d]

theorem spelled (unit : CodeUnit) : UnitText unit.text unit.number := .mk unit.hex

theorem number_lt (unit : CodeUnit) : unit.number < 0x10000 := by
  have bound := Ascii.hexNumber_lt unit.hex
  simpa [number] using bound

end CodeUnit

/-- One way to write one character between quotes. Code units of a pair occur in pairs only. -/
inductive StringUnit where
  | plain (c : Char) (visible : 0x20 ≤ c.toNat) (notQuote : c ≠ '\x22') (notBackslash : c ≠ '\x5c')
  | short (letter : UInt8) (c : Char) (listed : (letter, c) ∈ shortEscapes)
  | single (unit : CodeUnit) (outside : unit.number < 0xd800 ∨ 0xe000 ≤ unit.number)
  | pair (leading trailing : CodeUnit) (leads : 0xd800 ≤ leading.number ∧ leading.number < 0xdc00)
      (trails : 0xdc00 ≤ trailing.number ∧ trailing.number < 0xe000)

namespace StringUnit

/-- The bytes of the unit. -/
def text : StringUnit → Bytes
  | plain c _ _ _ => String.utf8EncodeChar c
  | short letter _ _ => [Ascii.backslash, letter]
  | single unit _ => unit.text
  | pair leading trailing _ _ => leading.text ++ trailing.text

/-- The number of the character that the unit stands for. -/
def codePoint : StringUnit → Nat
  | plain c _ _ _ => c.toNat
  | short _ c _ => c.toNat
  | single unit _ => unit.number
  | pair leading trailing _ _ =>
    0x10000 + (leading.number - 0xd800) * 0x400 + (trailing.number - 0xdc00)

/-- Every unit stands for a scalar value. -/
theorem codePoint_valid (unit : StringUnit) : unit.codePoint.isValidChar := by
  cases unit with
  | plain c => exact c.valid
  | short _ c => exact c.valid
  | single unit outside =>
    have bound := unit.number_lt
    show unit.number < 0xd800 ∨ 0xdfff < unit.number ∧ unit.number < 0x110000
    omega
  | pair leading trailing leads trails =>
    refine .inr (?_ : 0xdfff < 0x10000 + (leading.number - 0xd800) * 0x400 +
      (trailing.number - 0xdc00) ∧ 0x10000 + (leading.number - 0xd800) * 0x400 +
        (trailing.number - 0xdc00) < 0x110000)
    omega

/-- The character that the unit stands for. -/
def char (unit : StringUnit) : Char := Char.ofNat unit.codePoint

theorem toNat_char (unit : StringUnit) : unit.char.toNat = unit.codePoint :=
  Text.Utf8.toNat_ofNat unit.codePoint_valid

theorem spelled (unit : StringUnit) : CharText unit.text unit.char := by
  cases unit with
  | plain c visible notQuote notBackslash =>
    show CharText (String.utf8EncodeChar c) (Char.ofNat c.toNat)
    rw [Char.ofNat_toNat]
    exact .plain visible notQuote notBackslash
  | short letter c listed =>
    show CharText [Ascii.backslash, letter] (Char.ofNat c.toNat)
    rw [Char.ofNat_toNat]
    exact .short listed
  | single unit outside => exact .unit unit.spelled outside
  | pair leading trailing leads trails => exact .pair leading.spelled trailing.spelled leads trails

end StringUnit

/-- A string as it is written: its units between quotes. -/
def quoted (units : List StringUnit) : Bytes :=
  Ascii.doubleQuote :: units.flatMap StringUnit.text ++ [Ascii.doubleQuote]

/-- Bytes that no character begins with, of which the first would be allowed between quotes. -/
structure IllFormed (bytes : Bytes) : Prop where
  visible : ∃ b ∈ bytes.head?, 0x20 ≤ b ∧ b ≠ Ascii.doubleQuote ∧ b ≠ Ascii.backslash
  noCharacter : ∀ c, ¬ String.utf8EncodeChar c <+: bytes

/-- What is read of a string at the front of an input. -/
structure StringOutcome (input : Input) (result : Except Failure (Located String × Input)) :
    Prop where
  accepted : (∃ found, result = .ok found) ↔ ∃ units, quoted units <+: input.rest
  decoded : ∀ units : List StringUnit, quoted units <+: input.rest →
    ∃ value : String, value.toList.map Char.toNat = units.map StringUnit.codePoint ∧
      (∀ unit ∈ units, unit.codePoint.isValidChar) ∧
        result = .ok (⟨value, Span.ofLength input.offset (quoted units).length⟩,
          input.advance (quoted units).length)
  respelled : ∀ (units : List StringUnit) (value : String),
    units.map StringUnit.codePoint = value.toList.map Char.toNat → quoted units <+: input.rest →
      result = .ok (⟨value, Span.ofLength input.offset (quoted units).length⟩,
        input.advance (quoted units).length)
  illFormed : ∀ (units : List StringUnit) (bad : Bytes),
    input.rest = Ascii.doubleQuote :: units.flatMap StringUnit.text ++ bad → IllFormed bad →
      result = .error ⟨.unexpected "valid UTF-8" ((bad.take shownCharBytes).takeWhile isPlainByte),
        (input.offset + 1 + (units.flatMap StringUnit.text).length : Nat), .general⟩

variable {input after : Input} {text rest bad : Bytes} {offset : Nat} {c : Char}
  {chars : List Char} {units : List StringUnit} {failure : Failure}

theorem CharText.exists_unit (spelled : CharText text c) :
    ∃ unit : StringUnit, unit.text = text ∧ unit.char = c := by
  cases spelled with
  | plain visible notQuote notBackslash =>
    exact ⟨.plain c visible notQuote notBackslash, rfl, Char.ofNat_toNat c⟩
  | @short letter c listed => exact ⟨.short letter c listed, rfl, Char.ofNat_toNat c⟩
  | unit spelled outside =>
    cases spelled with
    | @mk a b c d hex => exact ⟨.single ⟨a, b, c, d, hex⟩ outside, rfl, rfl⟩
  | pair spelled followed leads trails =>
    cases spelled with
    | @mk a b c d hex =>
      cases followed with
      | @mk e f g h hex' =>
        exact ⟨.pair ⟨a, b, c, d, hex⟩ ⟨e, f, g, h, hex'⟩ leads trails, rfl, rfl⟩

private theorem charsText_of_units (units : List StringUnit) :
    CharsText (units.flatMap StringUnit.text) (units.map StringUnit.char) := by
  induction units with
  | nil => exact .nil
  | cons unit units ih => exact .cons unit.spelled ih

theorem CharsText.exists_units (spelled : CharsText text chars) :
    ∃ units : List StringUnit, units.flatMap StringUnit.text = text ∧
      units.map StringUnit.char = chars := by
  induction spelled with
  | nil => exact ⟨[], rfl, rfl⟩
  | cons first others ih =>
    obtain ⟨unit, rfl, rfl⟩ := first.exists_unit
    obtain ⟨units, rfl, rfl⟩ := ih
    exact ⟨unit :: units, rfl, rfl⟩

private theorem stringText_quoted (units : List StringUnit) :
    StringText (quoted units) (String.ofList (units.map StringUnit.char)) :=
  .mk (charsText_of_units units)

private theorem map_toNat_char (units : List StringUnit) :
    (units.map StringUnit.char).map Char.toNat = units.map StringUnit.codePoint := by
  rw [List.map_map]
  exact List.map_congr_left fun unit _ => unit.toNat_char

/-- Units that stand for the scalar values of a string spell that string. -/
theorem map_char_of_codePoint {value : String}
    (same : units.map StringUnit.codePoint = value.toList.map Char.toNat) :
    String.ofList (units.map StringUnit.char) = value := by
  rw [← map_toNat_char, List.map_inj_right fun _ _ => Char.toNat_inj.mp] at same
  rw [same, String.ofList_toList]

private theorem quoted_reads (standing : quoted units <+: input.rest) :
    stringLiteral input =
      .ok (⟨String.ofList (units.map StringUnit.char),
        Span.ofLength input.offset (quoted units).length⟩,
          input.advance (quoted units).length) := by
  obtain ⟨offset, bytes⟩ := input
  obtain ⟨rest, rfl⟩ := standing
  have read : Reads stringLiteral offset _ _ rest := (stringText_quoted units).reads
  unfold Reads at read
  rw [read, Input.advance, List.drop_left]

private theorem plainChar_refuses (noCharacter : ∀ c, ¬ String.utf8EncodeChar c <+: bad) :
    Refuses plainChar ⟨offset, bad⟩ ⟨.unexpected "valid UTF-8"
      ((bad.take shownCharBytes).takeWhile isPlainByte), offset, .general⟩ := by
  unfold Refuses plainChar
  cases found : Text.Utf8.decode? bad with
  | none => rfl
  | some result =>
    obtain ⟨more, begins, -⟩ := Text.Utf8.decode?_sound found
    exact absurd ⟨more, begins.symm⟩ (noCharacter result.1)

private theorem stringTurn_refuses (illFormed : IllFormed bad) :
    Refuses stringTurn ⟨offset, bad⟩ ⟨.unexpected "valid UTF-8"
      ((bad.take shownCharBytes).takeWhile isPlainByte), offset, .general⟩ := by
  obtain ⟨⟨b, next, visible, notQuote, notBackslash⟩, noCharacter⟩ := illFormed
  have plain : isPlainByte b = true := by simp [isPlainByte, visible, notQuote, notBackslash]
  unfold Refuses
  rw [stringTurn, peek?_bind, Option.mem_def.mp next]
  simp only [if_neg notQuote, if_neg notBackslash, if_pos plain]
  exact (plainChar_refuses noCharacter).bind

/-- The turns that read units lead to a turn that fails. -/
theorem turns_refuse
    (refused : Refuses stringTurn ⟨offset + (units.flatMap StringUnit.text).length, bad⟩ failure) :
    Refuses (collect stringTurn) ⟨offset, units.flatMap StringUnit.text ++ bad⟩ failure := by
  induction units generalizing offset with
  | nil => exact refused.collect stringTurn_readsOn
  | cons unit units ih =>
    have read : Reads stringTurn offset unit.text (.inl unit.char)
        (units.flatMap StringUnit.text ++ bad) := unit.spelled.reads
    unfold Reads at read
    rw [List.flatMap_cons, List.length_append, ← Nat.add_assoc] at refused
    rw [List.flatMap_cons, List.append_assoc]
    exact Refuses.collectMore stringTurn_readsOn read (ih refused)

theorem opened_refuses
    (refused : Refuses stringTurn ⟨offset + 1 + (units.flatMap StringUnit.text).length, bad⟩
      failure) :
    Refuses stringLiteral ⟨offset, Ascii.doubleQuote :: units.flatMap StringUnit.text ++ bad⟩
      failure := by
  apply Refuses.located
  have opened : Reads (literal "'\x22'" [Ascii.doubleQuote]) offset [Ascii.doubleQuote] _
      (units.flatMap StringUnit.text ++ bad) := Reads.literal "'\x22'"
  exact Refuses.behind opened (turns_refuse refused).bind

private theorem stringLiteral_refuses (illFormed : IllFormed bad) :
    Refuses stringLiteral ⟨offset, Ascii.doubleQuote :: units.flatMap StringUnit.text ++ bad⟩
      ⟨.unexpected "valid UTF-8" ((bad.take shownCharBytes).takeWhile isPlainByte),
        (offset + 1 + (units.flatMap StringUnit.text).length : Nat), .general⟩ :=
  opened_refuses (stringTurn_refuses illFormed)

/-- A string is read exactly where units stand between quotes, and it has their scalar values. The
first byte of what is no UTF-8 between them is where reading fails. -/
theorem stringLiteral_exact (input : Input) : StringOutcome input (stringLiteral input) where
  accepted := by
    constructor
    · rintro ⟨⟨⟨value, span⟩, after⟩, read⟩
      obtain ⟨text, passes, spelled, -⟩ := stringLiteral_sound read
      simp only at spelled
      cases spelled with
      | mk spelled =>
        obtain ⟨units, rfl, -⟩ := spelled.exists_units
        exact ⟨units, after.rest, passes.rest.symm⟩
    · rintro ⟨units, standing⟩
      exact ⟨_, quoted_reads standing⟩
  decoded units standing := by
    refine ⟨_, ?_, fun unit _ => unit.codePoint_valid, quoted_reads standing⟩
    rw [String.toList_ofList, map_toNat_char]
  respelled units value same standing := by
    rw [← map_char_of_codePoint same]
    exact quoted_reads standing
  illFormed units bad standing illFormed := by
    obtain ⟨offset, bytes⟩ := input
    obtain rfl : bytes = _ := standing
    exact stringLiteral_refuses illFormed

end WireSpan.Json
