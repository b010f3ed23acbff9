import WireSpan.Proofs.Json.Failures
import WireSpan.Proofs.Json.StringUnits

/-! Where a document is reported to end too early. That is at the end of the buffer, except behind
the first half of a pair of code units: if the one byte after it is a backslash, it is the second
half that is reported missing, and the place is before the backslash. -/

namespace WireSpan.Json

open Scan

/-- A string that was cut off behind the backslash of the second half of a pair. -/
def cutInPair (units : List StringUnit) (leading : CodeUnit) : Bytes :=
  Ascii.doubleQuote :: units.flatMap StringUnit.text ++ (leading.text ++ [Ascii.backslash])

variable {offset : Nat} {units : List StringUnit} {leading : CodeUnit} {failure : Failure}

private theorem length_cutInPair :
    (cutInPair units leading).length = 1 + (units.flatMap StringUnit.text).length + 6 + 1 := by
  simp only [cutInPair, CodeUnit.text, List.length_append, List.length_cons, List.length_nil]
  omega

private theorem unitChar_refuses (leads : isLeading leading.number = true) (start : Nat) :
    Refuses (unitChar start)
      ⟨offset, [leading.a, leading.b, leading.c, leading.d] ++ [Ascii.backslash]⟩
      ⟨secondHalfMissing, (offset + 4 : Nat), .general⟩ := by
  have notTrailing : ¬ isTrailing leading.number = true := by
    rw [isLeading_iff] at leads
    rw [isTrailing_iff]
    omega
  have read : Reads hexFour offset [leading.a, leading.b, leading.c, leading.d] leading.number
      [Ascii.backslash] := hexFour_reads leading.hex
  have alone : Refuses (trailingUnit start) ⟨offset + 4, [Ascii.backslash]⟩
      ⟨secondHalfMissing, (offset + 4 : Nat), .general⟩ := rfl
  refine Refuses.behind read ?_
  rw [if_neg notTrailing, if_pos leads]
  exact alone.bind

private theorem stringTurn_refuses_pair (leads : isLeading leading.number = true) :
    Refuses stringTurn ⟨offset, leading.text ++ [Ascii.backslash]⟩
      ⟨secondHalfMissing, (offset + 6 : Nat), .general⟩ := by
  have behind : Refuses (unitChar offset >>= fun c => pure (.inl c : Char ⊕ Unit))
      ⟨offset + 2, [leading.a, leading.b, leading.c, leading.d] ++ [Ascii.backslash]⟩
      ⟨secondHalfMissing, (offset + 2 + 4 : Nat), .general⟩ := (unitChar_refuses leads offset).bind
  exact behind

private theorem stringLiteral_refuses_pair (leads : isLeading leading.number = true) :
    Refuses stringLiteral ⟨offset, cutInPair units leading⟩
      ⟨secondHalfMissing, (offset + (1 + (units.flatMap StringUnit.text).length + 6) : Nat),
        .general⟩ := by
  rw [← Nat.add_assoc, ← Nat.add_assoc]
  exact opened_refuses (stringTurn_refuses_pair leads)

/-- A buffer fails as a document as the string fails that it begins with. -/
theorem parse_of_stringLiteral {settings : Settings} {trailing : Option Bool} {rest : Bytes}
    (refused : Refuses stringLiteral ⟨0, Ascii.doubleQuote :: rest⟩ failure) :
    parse settings trailing (Ascii.doubleQuote :: rest) = .error (failure.reportedBy .json) := by
  -- the quote alone says what kind of value begins here
  have valued (arrays objects : Scan (Located Json)) :
      Refuses (valueWith arrays objects) ⟨0, Ascii.doubleQuote :: rest⟩ failure := refused.bind
  have noBlanks : blanks ⟨0, Ascii.doubleQuote :: rest⟩ = .ok ((), ⟨0, Ascii.doubleQuote :: rest⟩) :=
    rfl
  have document : Refuses (document settings) ⟨0, Ascii.doubleQuote :: rest⟩ failure := by
    refine Refuses.behind noBlanks ?_
    cases settings.depthLimit with
    | zero => exact valued _ _
    | succ levels => exact valued _ _
  exact parse_of_refused document

/-- What says that bytes are missing points to the end of the buffer, or to a backslash right before
it that could have begun the second half of a pair. The latter is what becomes of every string that
is cut off there. -/
theorem parse_endOfInput_offset (settings : Settings) (trailing : Option Bool) (buffer : Bytes) :
    (∀ failure, parse settings trailing buffer = .error failure → failure.kind = .endOfInput →
      failure.offset = buffer.length ∨
        failure.cause = secondHalfMissing ∧ failure.offset + 1 = buffer.length ∧
          EndsInPair buffer) ∧
    ∀ units leading, isLeading leading.number = true → buffer = cutInPair units leading →
      parse settings trailing buffer = .error ⟨secondHalfMissing, buffer.length - 1, .json⟩ := by
  constructor
  · intro failure failed ran
    have finish : (Input.ofBytes buffer).finish = buffer.length := Nat.zero_add _
    obtain ⟨-, failing⟩ := parse_fails failed
    have place := failing.ranOut ran
    rw [finish] at place
    exact place
  · rintro units leading leads rfl
    have refused : Refuses stringLiteral ⟨0, cutInPair units leading⟩ _ :=
      stringLiteral_refuses_pair leads
    have place : ((cutInPair units leading).length : Int) - 1 =
        (0 + (1 + (units.flatMap StringUnit.text).length + 6) : Nat) := by
      rw [length_cutInPair]
      omega
    rw [place]
    exact parse_of_stringLiteral refused

/-- The code unit `d800`, the first of those that begin a pair. -/
def firstLeading : CodeUnit :=
  ⟨Ascii.byte 'd', Ascii.byte '8', Ascii.byte '0', Ascii.byte '0', List.all_eq_true.mp rfl⟩

/-- A string of which nothing but the first half of a pair and a backslash has arrived. -/
theorem parse_endOfInput_offset_before_backslash :
    parse .standard none (cutInPair [] firstLeading) = .error ⟨secondHalfMissing, 8 - 1, .json⟩ ∧
      EndsInPair (cutInPair [] firstLeading) := by
  have reported := parse_endOfInput_offset .standard none (cutInPair [] firstLeading)
  have refused := reported.2 [] firstLeading (by decide) rfl
  rcases reported.1 _ refused rfl with atEnd | ⟨-, -, ends⟩
  · have impossible : (8 - 1 : Int) = 8 := atEnd
    omega
  · exact ⟨refused, ends⟩

end WireSpan.Json
