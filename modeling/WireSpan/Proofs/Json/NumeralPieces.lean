import Mathlib.Data.Nat.Digits.Defs
import Mathlib.Logic.ExistsUnique
import WireSpan.Json.Numeral
import WireSpan.Proofs.Scan.Passage

/-! The pieces of a numeral at the front of some bytes: a minus, an integer, a fraction and an
exponent, each of them as long as it can be. They are determined by the bytes. A piece that begins
may turn out to have no digit, and then the bytes hold no numeral. -/

namespace WireSpan.Json

open Scan

/-- A byte of the class, if one comes next. -/
inductive OptionalByte (accepts : UInt8 → Bool) : Bytes → Bytes → Prop where
  | absent {rest : Bytes} (stops : Stops accepts rest) : OptionalByte accepts [] rest
  | present {b : UInt8} {rest : Bytes} (accepted : accepts b = true) :
      OptionalByte accepts [b] rest

/-- All digits that come next; there may be none. -/
structure DigitRun (digits rest : Bytes) : Prop where
  digits : ∀ b ∈ digits, Ascii.isDigit b = true
  stops : Stops Ascii.isDigit rest

/-- A zero alone, or else all digits that come next. -/
inductive IntegerPiece : Bytes → Bytes → Prop where
  | zero {rest : Bytes} : IntegerPiece (Ascii.bytes ['0']) rest
  | run {digits rest : Bytes} (nonzero : digits.head? ≠ some (Ascii.byte '0'))
      (run : DigitRun digits rest) : IntegerPiece digits rest

/-- The digits after a point, if one comes next. -/
inductive FractionPiece : Option Bytes → Bytes → Prop where
  | absent {rest : Bytes} (noPoint : rest.head? ≠ some (Ascii.byte '.')) : FractionPiece none rest
  | present {digits rest : Bytes} (run : DigitRun digits rest) : FractionPiece (some digits) rest

/-- The letter of an exponent. -/
def isMark (b : UInt8) : Bool := b == Ascii.byte 'e' || b == Ascii.byte 'E'

def isSign (b : UInt8) : Bool := b == Ascii.byte '+' || b == Ascii.byte '-'

/-- The letter with the sign after it, and the digits behind them, if a letter comes next. -/
inductive ExponentPiece : Option (Bytes × Bytes) → Bytes → Prop where
  | absent {rest : Bytes} (stops : Stops isMark rest) : ExponentPiece none rest
  | present {letter : UInt8} {sign digits rest : Bytes} (marked : isMark letter = true)
      (signed : OptionalByte isSign sign (digits ++ rest)) (run : DigitRun digits rest) :
      ExponentPiece (some (letter :: sign, digits)) rest

/-- The pieces of a numeral, and the bytes behind them. -/
structure Pieces where
  minus : Bytes
  integer : Bytes
  /-- The digits after the point, where there is one. -/
  fraction : Option Bytes
  /-- The letter with its sign, and the digits behind them, where there is a letter. -/
  exponent : Option (Bytes × Bytes)
  rest : Bytes

def fractionText : Option Bytes → Bytes
  | some digits => Ascii.byte '.' :: digits
  | none => []

def exponentText : Option (Bytes × Bytes) → Bytes
  | some (mark, digits) => mark ++ digits
  | none => []

namespace Pieces

def text (pieces : Pieces) : Bytes :=
  pieces.minus ++ (pieces.integer ++
    (fractionText pieces.fraction ++ exponentText pieces.exponent))

/-- The pieces are cut from the front of the bytes, each as long as it can be. -/
structure Cut (pieces : Pieces) (bytes : Bytes) : Prop where
  whole : bytes = pieces.text ++ pieces.rest
  minus : OptionalByte (· == Ascii.byte '-') pieces.minus (pieces.integer ++
    (fractionText pieces.fraction ++ (exponentText pieces.exponent ++ pieces.rest)))
  integer : IntegerPiece pieces.integer
    (fractionText pieces.fraction ++ (exponentText pieces.exponent ++ pieces.rest))
  fraction : FractionPiece pieces.fraction (exponentText pieces.exponent ++ pieces.rest)
  exponent : ExponentPiece pieces.exponent pieces.rest

/-- The places where there has to be a digit, each with the digits that are there. -/
def digitPlaces (pieces : Pieces) : List (Nat × Bytes) :=
  (pieces.minus.length, pieces.integer) ::
    (pieces.fraction.toList.map fun digits =>
      ((pieces.minus ++ pieces.integer).length + 1, digits)) ++
    pieces.exponent.toList.map fun scale =>
      ((pieces.minus ++ pieces.integer ++ fractionText pieces.fraction ++ scale.1).length, scale.2)

/-- The first place where a digit is missing. -/
def missing? (pieces : Pieces) : Option Nat :=
  (pieces.digitPlaces.find? fun place => place.2.isEmpty).map Prod.fst

/-- The numeral has neither a fraction nor an exponent. -/
def isWhole (pieces : Pieces) : Bool := pieces.fraction.isNone && pieces.exponent.isNone

/-- The integer that the digits before the point spell. -/
def integerValue (pieces : Pieces) : Int :=
  signed (!pieces.minus.isEmpty)
    (Nat.ofDigits 10 (pieces.integer.reverse.map fun digit => digit.toNat - 0x30))

end Pieces

variable {accepts : UInt8 → Bool} {text rest : Bytes} {b : UInt8}

section Unique

variable {other after : Bytes}

theorem OptionalByte.unique (first : OptionalByte accepts text rest)
    (second : OptionalByte accepts other after) (same : text ++ rest = other ++ after) :
    text = other ∧ rest = after := by
  cases first with
  | absent stops =>
    cases second with
    | absent => exact ⟨rfl, same⟩
    | present accepted =>
      obtain rfl : rest = _ :: after := same
      exact absurd accepted (Bool.eq_false_iff.mp (stops _ rfl))
  | present accepted =>
    cases second with
    | absent stops =>
      obtain rfl : _ :: rest = after := same
      exact absurd accepted (Bool.eq_false_iff.mp (stops _ rfl))
    | present =>
      obtain ⟨rfl, rfl⟩ := List.cons.inj same
      exact ⟨rfl, rfl⟩

theorem DigitRun.eq (run : DigitRun text rest) :
    (text ++ rest).takeWhile Ascii.isDigit = text ∧
      (text ++ rest).dropWhile Ascii.isDigit = rest := by
  rw [List.takeWhile_append_of_pos run.digits, List.dropWhile_append_of_pos run.digits,
    run.stops.takeWhile.1, run.stops.takeWhile.2, List.append_nil]
  exact ⟨rfl, rfl⟩

theorem DigitRun.unique (first : DigitRun text rest) (second : DigitRun other after)
    (same : text ++ rest = other ++ after) : text = other ∧ rest = after := by
  have one := first.eq
  rw [same, second.eq.1, second.eq.2] at one
  exact ⟨one.1.symm, one.2.symm⟩

/-- A run of digits does not begin where an integer begins with a zero. -/
theorem DigitRun.not_zero (nonzero : text.head? ≠ some (Ascii.byte '0'))
    (run : DigitRun text rest) : text ++ rest ≠ Ascii.byte '0' :: after := by
  intro same
  cases text with
  | nil =>
    obtain rfl : rest = _ := same
    cases run.stops _ rfl
  | cons b more => exact nonzero (congrArg some (List.cons.inj same).1)

theorem IntegerPiece.unique (first : IntegerPiece text rest) (second : IntegerPiece other after)
    (same : text ++ rest = other ++ after) : text = other ∧ rest = after := by
  cases first with
  | zero =>
    cases second with
    | zero => exact ⟨rfl, (List.cons.inj same).2⟩
    | run nonzero run => exact absurd same.symm (run.not_zero nonzero)
  | run nonzero run =>
    cases second with
    | zero => exact absurd same (run.not_zero nonzero)
    | run _ again => exact run.unique again same

theorem FractionPiece.unique {one two : Option Bytes} (first : FractionPiece one rest)
    (second : FractionPiece two after)
    (same : fractionText one ++ rest = fractionText two ++ after) : one = two ∧ rest = after := by
  cases first with
  | absent noPoint =>
    cases second with
    | absent => exact ⟨rfl, same⟩
    | present => exact absurd (congrArg List.head? same) noPoint
  | present run =>
    cases second with
    | absent noPoint => exact absurd (congrArg List.head? same).symm noPoint
    | present again =>
      obtain ⟨rfl, rfl⟩ := run.unique again (List.cons.inj same).2
      exact ⟨rfl, rfl⟩

theorem ExponentPiece.unique {one two : Option (Bytes × Bytes)} (first : ExponentPiece one rest)
    (second : ExponentPiece two after)
    (same : exponentText one ++ rest = exponentText two ++ after) : one = two ∧ rest = after := by
  cases first with
  | absent stops =>
    cases second with
    | absent => exact ⟨rfl, same⟩
    | present marked =>
      obtain rfl : rest = _ :: _ := same
      exact absurd marked (Bool.eq_false_iff.mp (stops _ rfl))
  | present marked signed run =>
    cases second with
    | absent stops =>
      obtain rfl : _ :: _ = after := same
      exact absurd marked (Bool.eq_false_iff.mp (stops _ rfl))
    | present _ signedAgain again =>
      simp only [exponentText, List.cons_append, List.append_assoc] at same
      obtain ⟨rfl, behind⟩ := List.cons.inj same
      obtain ⟨rfl, digits⟩ := signed.unique signedAgain behind
      obtain ⟨rfl, rfl⟩ := run.unique again digits
      exact ⟨rfl, rfl⟩

theorem Pieces.Cut.bytes_eq {pieces : Pieces} {bytes : Bytes} (cut : pieces.Cut bytes) :
    bytes = pieces.minus ++ (pieces.integer ++ (fractionText pieces.fraction ++
      (exponentText pieces.exponent ++ pieces.rest))) := by
  rw [cut.whole, Pieces.text]
  simp only [List.append_assoc]

theorem Pieces.Cut.unique {pieces others : Pieces} {bytes : Bytes} (first : pieces.Cut bytes)
    (second : others.Cut bytes) : pieces = others := by
  have same := first.bytes_eq.symm.trans second.bytes_eq
  obtain ⟨minus, same⟩ := first.minus.unique second.minus same
  obtain ⟨integer, same⟩ := first.integer.unique second.integer same
  obtain ⟨fraction, same⟩ := first.fraction.unique second.fraction same
  obtain ⟨exponent, rest⟩ := first.exponent.unique second.exponent same
  cases pieces
  cases others
  simp only at minus integer fraction exponent rest
  rw [minus, integer, fraction, exponent, rest]

end Unique

section Exists

private theorem exists_optionalByte (accepts : UInt8 → Bool) (bytes : Bytes) :
    ∃ text rest, bytes = text ++ rest ∧ OptionalByte accepts text rest := by
  cases bytes with
  | nil => exact ⟨[], [], rfl, .absent (Stops.nil _)⟩
  | cons b more =>
    cases accepted : accepts b with
    | true => exact ⟨[b], more, rfl, .present accepted⟩
    | false => exact ⟨[], b :: more, rfl, .absent (Stops.cons accepted more)⟩

private theorem exists_digitRun (bytes : Bytes) :
    ∃ digits rest, bytes = digits ++ rest ∧ DigitRun digits rest := by
  refine ⟨_, _, List.takeWhile_append_dropWhile.symm, ?_, stops_dropWhile Ascii.isDigit bytes⟩
  intro b member
  exact List.all_eq_true.mp List.all_takeWhile b member

private theorem exists_integerPiece (bytes : Bytes) :
    ∃ integer rest, bytes = integer ++ rest ∧ IntegerPiece integer rest := by
  by_cases zero : bytes.head? = some (Ascii.byte '0')
  · obtain ⟨rest, rfl⟩ := List.head?_eq_some_iff.mp zero
    exact ⟨_, rest, rfl, .zero⟩
  · obtain ⟨digits, rest, rfl, run⟩ := exists_digitRun bytes
    refine ⟨digits, rest, rfl, .run ?_ run⟩
    intro first
    rw [List.head?_append, first] at zero
    exact zero rfl

private theorem exists_fractionPiece (bytes : Bytes) :
    ∃ fraction rest, bytes = fractionText fraction ++ rest ∧ FractionPiece fraction rest := by
  by_cases point : bytes.head? = some (Ascii.byte '.')
  · obtain ⟨more, rfl⟩ := List.head?_eq_some_iff.mp point
    obtain ⟨digits, rest, rfl, run⟩ := exists_digitRun more
    exact ⟨some digits, rest, rfl, .present run⟩
  · exact ⟨none, bytes, rfl, .absent point⟩

private theorem exists_exponentPiece (bytes : Bytes) :
    ∃ exponent rest, bytes = exponentText exponent ++ rest ∧ ExponentPiece exponent rest := by
  obtain ⟨letter, behindLetter, rfl, marked⟩ := exists_optionalByte isMark bytes
  cases marked with
  | absent stops => exact ⟨none, behindLetter, rfl, .absent stops⟩
  | @present letter _ marked =>
    obtain ⟨sign, behindSign, rfl, signed⟩ := exists_optionalByte isSign behindLetter
    obtain ⟨digits, rest, rfl, run⟩ := exists_digitRun behindSign
    refine ⟨some (letter :: sign, digits), rest, ?_, .present marked signed run⟩
    simp only [exponentText, List.cons_append, List.append_assoc, List.nil_append]

theorem Pieces.exists_cut (bytes : Bytes) : ∃ pieces : Pieces, pieces.Cut bytes := by
  obtain ⟨minus, behindMinus, rfl, signed⟩ := exists_optionalByte (· == Ascii.byte '-') bytes
  obtain ⟨integer, behindInteger, rfl, whole⟩ := exists_integerPiece behindMinus
  obtain ⟨fraction, behindFraction, rfl, part⟩ := exists_fractionPiece behindInteger
  obtain ⟨exponent, rest, rfl, scale⟩ := exists_exponentPiece behindFraction
  refine ⟨⟨minus, integer, fraction, exponent, rest⟩, ?_, signed, whole, part, scale⟩
  simp only [Pieces.text, List.append_assoc]

end Exists

namespace Pieces

variable {pieces : Pieces}

theorem missing?_eq_none : pieces.missing? = none ↔ pieces.integer ≠ [] ∧
    pieces.fraction ≠ some [] ∧ ∀ mark, pieces.exponent ≠ some (mark, []) := by
  obtain ⟨minus, integer, fraction, exponent, rest⟩ := pieces
  rcases fraction with - | digits <;> rcases exponent with - | ⟨mark, scale⟩ <;>
    simp [Pieces.missing?, Pieces.digitPlaces]

theorem missing?_of_integer (missing : pieces.integer = []) :
    pieces.missing? = some pieces.minus.length := by
  simp [missing?, digitPlaces, missing]

theorem missing?_of_fraction (whole : pieces.integer ≠ [])
    (missing : pieces.fraction = some []) :
    pieces.missing? = some (pieces.minus.length + pieces.integer.length + 1) := by
  simp [missing?, digitPlaces, whole, missing]

theorem missing?_of_exponent {mark : Bytes} (whole : pieces.integer ≠ [])
    (part : pieces.fraction ≠ some []) (missing : pieces.exponent = some (mark, [])) :
    pieces.missing? = some (pieces.minus.length + pieces.integer.length +
      (fractionText pieces.fraction).length + mark.length) := by
  cases same : pieces.fraction with
  | none => simp [missing?, digitPlaces, whole, same, missing, Nat.add_assoc]
  | some digits =>
    have nonempty : digits ≠ [] := by
      rintro rfl
      exact part same
    simp [missing?, digitPlaces, whole, same, nonempty, missing, Nat.add_assoc]

end Pieces

end WireSpan.Json
