import WireSpan.Proofs.Decimal.Whole
import WireSpan.Proofs.Json.Faltering
import WireSpan.Proofs.Text.Hexadecimal

/-! The conversions that reading a document relies on, each with what it refuses. They refuse
nothing that the scanners of documents hand over to them. -/

namespace WireSpan.Json

open Scan

/-- Why a conversion gives no result. -/
inductive Refusal where
  /-- No scalar value has this number. -/
  | scalar (code : Nat)
  /-- There are no digits, or other bytes among them. -/
  | hexadecimal (digits : Bytes)
  /-- Some byte is no ASCII character. -/
  | ascii (text : Bytes)
  /-- The text is no numeral. -/
  | numeral (text : Bytes)
  /-- Too many values are being read at once. -/
  | depth
deriving DecidableEq, Repr

/-- The character of a scalar value. Surrogates are refused too, since no character is one. -/
def scalar? (code : Nat) : Except Refusal Char :=
  if code.isValidChar then .ok (Char.ofNat code) else .error (.scalar code)

/-- The number that hexadecimal digits spell. -/
def hexadecimal? (digits : Bytes) : Except Refusal Nat :=
  if !digits.isEmpty && digits.all Ascii.isHexDigit then .ok (Ascii.hexNumber digits)
  else .error (.hexadecimal digits)

/-- The text of ASCII bytes. -/
def ascii? (text : Bytes) : Except Refusal String :=
  if text.all fun b => decide (b < 0x80) then .ok (Ascii.latin1 text) else .error (.ascii text)

/-- The parts of a text that is a numeral from its first byte to its last. -/
def parts? (text : Bytes) : Except Refusal Numeral :=
  match numeral (Input.ofBytes text) with
  | .ok (parts, ⟨_, []⟩) => .ok parts
  | _ => .error (.numeral text)

/-- The binary64 number nearest to what a numeral denotes. -/
def Numeral.nearest (parts : Numeral) : Decimal.Binary64 :=
  let fraction := parts.fraction.getD []
  let exponent := match parts.exponent with
    | some (negative, digits) => signed negative (Ascii.decimalNumber digits)
    | none => 0
  .ofDecimal parts.negative (Ascii.decimalNumber (parts.integer ++ fraction))
    (exponent - fraction.length)

/-- A numeral converted to binary64. -/
def float? (text : Bytes) : Except Refusal Number := do
  let parts ← parts? text
  return .float parts.nearest

/-- A numeral converted as a whole number. Where that is refused, for whatever reason, its digits
are converted one by one. -/
def whole? (text : Bytes) : Except Refusal Number :=
  match Decimal.wholeOfText? (Ascii.latin1 text) with
  | .ok value => .ok (.integer value)
  | .error _ => do
    let parts ← parts? text
    return .decimal (signed parts.negative (Ascii.decimalNumber parts.integer))

/-- The numeral has neither a fraction nor an exponent. -/
def Numeral.isWhole (parts : Numeral) : Bool := parts.fraction.isNone && parts.exponent.isNone

/-- The number that a numeral with the given parts denotes, converted from its text. -/
def number? (parts : Numeral) (text : Bytes) : Except Refusal Number :=
  if parts.isWhole then whole? text else float? text

section Scalars

variable {digits : Bytes} {unit leading trailing : Nat}

theorem hexadecimal?_eq (nonempty : digits ≠ []) (hex : ∀ b ∈ digits, Ascii.isHexDigit b = true) :
    hexadecimal? digits = .ok (Ascii.hexNumber digits) := by
  rw [hexadecimal?, List.all_eq_true.mpr hex, List.isEmpty_eq_false_iff.mpr nonempty]
  rfl

/-- A code unit that belongs to no pair is a scalar value. -/
theorem scalar?_unit (small : unit < 0x10000) (notTrailing : ¬ isTrailing unit = true)
    (notLeading : ¬ isLeading unit = true) : scalar? unit = .ok (Char.ofNat unit) := by
  rw [isTrailing_iff] at notTrailing
  rw [isLeading_iff] at notLeading
  have valid : unit.isValidChar := by
    unfold Nat.isValidChar
    omega
  exact if_pos valid

/-- The two code units of a pair make up a scalar value. -/
theorem scalar?_pair (leads : isLeading leading = true) (trails : isTrailing trailing = true) :
    scalar? (pairValue leading trailing) = .ok (Char.ofNat (pairValue leading trailing)) := by
  rw [isLeading_iff] at leads
  rw [isTrailing_iff] at trails
  have valid : (pairValue leading trailing).isValidChar := by
    unfold Nat.isValidChar pairValue
    omega
  exact if_pos valid

end Scalars

section Numerals

variable {text : Bytes} {parts : Numeral}

theorem NumeralText.ascii?_eq (spelled : NumeralText text parts) :
    ascii? text = .ok (Ascii.latin1 text) :=
  if_pos (List.all_eq_true.mpr fun b member => decide_eq_true (spelled.ascii b member))

theorem NumeralText.parts?_eq (spelled : NumeralText text parts) : parts? text = .ok parts := by
  have read : Reads numeral 0 text parts [] := spelled.reads (Stops.nil _)
  unfold Reads at read
  rw [List.append_nil] at read
  rw [parts?, Input.ofBytes, read]

theorem number_of_not_isWhole (fractional : parts.isWhole = false) :
    parts.number = .float parts.nearest := by
  have decided : ¬ (parts.fraction.isNone && parts.exponent.isNone) = true := by
    rw [← Numeral.isWhole, fractional]
    exact Bool.false_ne_true
  rw [Numeral.number, if_neg decided]
  rfl

theorem IntegerText.run (spelled : IntegerText text) : DigitsText text := by
  cases spelled with
  | zero => exact ⟨List.cons_ne_nil _ _, List.forall_mem_singleton.mpr rfl⟩
  | digits nonzero run => exact run

/-- A whole numeral is converted as a plain one. -/
theorem NumeralText.wholeOfText? (spelled : NumeralText text parts)
    (whole : parts.isWhole = true) :
    Decimal.wholeOfText? (Ascii.latin1 text) =
      if Decimal.maxDigits < parts.integer.length then .error (.tooLong parts.integer.length)
      else .ok (signed parts.negative (Ascii.decimalNumber parts.integer)) := by
  cases spelled with
  | mk sign integer part scale =>
    cases part with
    | present => cases whole
    | absent =>
      cases scale with
      | present => cases whole
      | absent =>
        obtain ⟨nonempty, digits⟩ := integer.run
        rw [List.append_nil, List.append_nil]
        cases sign with
        | absent => exact Decimal.wholeOfText?_latin1 false nonempty digits
        | minus => exact Decimal.wholeOfText?_latin1 true nonempty digits

/-- A whole numeral denotes an integer or, if it has too many digits, a decimal number. -/
theorem NumeralText.whole?_eq (spelled : NumeralText text parts) (whole : parts.isWhole = true) :
    whole? text = .ok parts.number := by
  have exact : (parts.fraction.isNone && parts.exponent.isNone) = true := whole
  rw [whole?, spelled.wholeOfText? whole, Numeral.number, if_pos exact]
  by_cases long : Decimal.maxDigits < parts.integer.length
  · rw [if_pos long, if_neg (Nat.not_le.mpr long), spelled.parts?_eq]
    rfl
  · rw [if_neg long, if_pos (Nat.not_lt.mp long)]

theorem NumeralText.number?_eq (spelled : NumeralText text parts) :
    number? parts text = .ok parts.number := by
  unfold number?
  split
  · rename_i whole
    exact spelled.whole?_eq whole
  · rename_i fractional
    rw [float?, spelled.parts?_eq, number_of_not_isWhole (by simpa using fractional)]
    rfl

end Numerals

end WireSpan.Json
