import WireSpan.Proofs.Json.Acceptance
import WireSpan.Proofs.Json.Conversions
import WireSpan.Proofs.Json.NumeralPieces

/-! How far a numeral is read, and what it denotes. Where a value begins with a minus or a digit,
the scanner reads all the pieces of a numeral if each of them has its digits. Otherwise it fails at
the first place without the digit that has to be there. -/

namespace WireSpan.Scan

variable {α β : Type} {accepts : UInt8 → Bool} {text rest : Bytes} {offset place : Nat}
  {first : Scan α} {next : α → Scan β} {a : α} {input : Input} {expected : String}

/-- The scanner fails at the given place, because the input ends there or goes on with another byte
than the scanner has to find. -/
def Lacks (scan : Scan α) (input : Input) (place : Nat) : Prop :=
  ∃ failure, scan input = .error failure ∧ failure.offset = place ∧
    failure.kind = if place = input.finish then .endOfInput else .unexpected

theorem Lacks.bind (lacks : Lacks first input place) : Lacks (first >>= next) input place := by
  obtain ⟨failure, failed, found⟩ := lacks
  exact ⟨failure, Refuses.bind failed, found⟩

theorem Lacks.behind (read : Reads first offset text a rest)
    (lacks : Lacks (next a) ⟨offset + text.length, rest⟩ place) :
    Lacks (first >>= next) ⟨offset, text ++ rest⟩ place := by
  obtain ⟨failure, failed, found, kind⟩ := lacks
  refine ⟨failure, Refuses.behind read failed, found, ?_⟩
  rwa [(Input.passes_append offset text rest).finish] at kind

private theorem byteOf_lacks (stops : Stops accepts rest) :
    Lacks (byteOf expected accepts) ⟨offset, rest⟩ offset := by
  cases rest with
  | nil => exact ⟨_, rfl, rfl, (if_pos rfl).symm⟩
  | cons b more =>
    refine ⟨_, if_neg (Bool.eq_false_iff.mp (stops b rfl)), rfl, (if_neg ?_).symm⟩
    simp only [Input.finish, List.length_cons]
    omega

private theorem takeWhile1_lacks (stops : Stops accepts rest) :
    Lacks (takeWhile1 expected accepts) ⟨offset, rest⟩ offset := by
  obtain ⟨failure, failed, found⟩ : Lacks (byteOf expected accepts) ⟨offset, rest⟩ offset :=
    byteOf_lacks stops
  exact ⟨failure, takeWhile1_eq_error.mpr failed, found⟩

end WireSpan.Scan

namespace WireSpan.Json

open Scan

variable {text rest : Bytes} {b : UInt8}

section Scanning

variable {offset place : Nat} {fraction : Option Bytes} {exponent : Option (Bytes × Bytes)}
  {pieces : Pieces} {bytes : Bytes}

theorem OptionalByte.reads (piece : OptionalByte (· == b) text rest) :
    Reads (accept b) offset text (!text.isEmpty) rest := by
  cases piece with
  | absent stops =>
    refine accept_reads_other fun next => ?_
    exact absurd (stops b next) (by simp)
  | present accepted =>
    obtain rfl := beq_iff_eq.mp accepted
    exact accept_reads

theorem IntegerPiece.reads (piece : IntegerPiece text rest) (nonempty : text ≠ []) :
    Reads integerPart offset text text rest := by
  cases piece with
  | zero => exact (Reads.byteOf "digit" (by decide)).thenNothing (Reads.pure _)
  | run nonzero run =>
    obtain ⟨first, more, rfl⟩ := List.exists_cons_of_ne_nil nonempty
    have other : first ≠ Ascii.byte '0' := fun zero => nonzero (congrArg some zero)
    exact (IntegerText.digits other ⟨nonempty, run.digits⟩).reads run.stops

theorem IntegerPiece.lacks (piece : IntegerPiece [] rest) :
    Lacks integerPart ⟨offset, rest⟩ offset := by
  cases piece with
  | run nonzero run => exact (byteOf_lacks run.stops).bind

theorem FractionPiece.reads (piece : FractionPiece fraction rest) (complete : fraction ≠ some []) :
    Reads fractionPart offset (fractionText fraction) fraction rest := by
  cases piece with
  | absent noPoint => exact (accept_reads_other noPoint).nothingThen (Reads.pure _)
  | present run =>
    have nonempty : _ ≠ [] := fun missing => complete (congrArg some missing)
    refine accept_reads.byteThen ?_
    exact (Reads.takeWhile1 _ nonempty run.digits run.stops).map fun digits : Located Bytes =>
      some digits.value

theorem FractionPiece.lacks (piece : FractionPiece (some []) rest) :
    Lacks fractionPart ⟨offset, Ascii.byte '.' :: rest⟩ (offset + 1) := by
  cases piece with
  | present run => exact Lacks.behind accept_reads (takeWhile1_lacks run.stops).bind

theorem OptionalByte.exponentSign {sign : Bytes} (signed : OptionalByte isSign sign rest) :
    ∃ negative, ExponentSign sign negative ∧ (sign = [] →
      rest.head? ≠ some (Ascii.byte '-') ∧ rest.head? ≠ some (Ascii.byte '+')) := by
  cases signed with
  | absent stops =>
    have noMinus : rest.head? ≠ some (Ascii.byte '-') := fun next => by cases stops _ next
    have noPlus : rest.head? ≠ some (Ascii.byte '+') := fun next => by cases stops _ next
    exact ⟨false, .absent, fun _ => ⟨noMinus, noPlus⟩⟩
  | @present b _ accepted =>
    rcases Bool.or_eq_true_iff.mp accepted with plus | minus
    · obtain rfl := beq_iff_eq.mp plus
      exact ⟨false, .plus, fun missing => absurd missing (List.cons_ne_nil _ _)⟩
    · obtain rfl := beq_iff_eq.mp minus
      exact ⟨true, .minus, fun missing => absurd missing (List.cons_ne_nil _ _)⟩

/-- The letter of an exponent and its sign are passed over, whatever comes then. -/
theorem exponentPart_entered {letter : UInt8} {sign : Bytes} (marked : isMark letter = true)
    (signed : OptionalByte isSign sign rest) :
    ∃ negative, ∀ offset, exponentPart ⟨offset, (letter :: sign) ++ rest⟩ =
      (takeWhile1 "exponent digit" Ascii.isDigit >>= fun digits =>
        pure (some (negative, digits.value))) ⟨offset + (letter :: sign).length, rest⟩ := by
  have entered (offset : Nat) : exponentPart ⟨offset, letter :: (sign ++ rest)⟩ =
      exponentPart.digits ⟨offset + 1, sign ++ rest⟩ := by
    rcases Bool.or_eq_true_iff.mp marked with small | capital
    · obtain rfl := beq_iff_eq.mp small
      exact accept_reads.run_bind
    · obtain rfl := beq_iff_eq.mp capital
      have noSmall : (Ascii.byte 'E' :: (sign ++ rest)).head? ≠ some (Ascii.byte 'e') :=
        head?_ne_of_ne (by decide)
      exact (accept_reads_other noSmall).run_bind.trans accept_reads.run_bind
  obtain ⟨negative, spelled, unsigned⟩ := signed.exponentSign
  refine ⟨negative, fun offset => (entered offset).trans ?_⟩
  rw [spelled.run_digits unsigned, List.length_cons, Nat.add_assoc, Nat.add_comm 1]

theorem ExponentPiece.reads (piece : ExponentPiece exponent rest)
    (complete : ∀ mark, exponent ≠ some (mark, [])) :
    ∃ parts, (∀ offset, Reads exponentPart offset (exponentText exponent) parts rest) ∧
      parts.isNone = exponent.isNone := by
  cases piece with
  | absent stops =>
    have noSmall : rest.head? ≠ some (Ascii.byte 'e') := fun next => by cases stops _ next
    have noCapital : rest.head? ≠ some (Ascii.byte 'E') := fun next => by cases stops _ next
    refine ⟨none, fun offset => ?_, rfl⟩
    have skipped : Reads exponentPart offset [] none rest := by
      refine (accept_reads_other noSmall).nothingThen ?_
      refine (accept_reads_other noCapital).nothingThen ?_
      exact Reads.pure none
    exact skipped
  | @present letter sign digits _ marked signed run =>
    have nonempty : digits ≠ [] := by
      rintro rfl
      exact complete _ rfl
    obtain ⟨negative, entered⟩ := exponentPart_entered marked signed
    refine ⟨some (negative, digits), fun offset => ?_, rfl⟩
    unfold Reads
    rw [exponentText, List.append_assoc, entered, List.length_append, ← Nat.add_assoc]
    exact (Reads.takeWhile1 _ nonempty run.digits run.stops).map fun digits : Located Bytes =>
      some (negative, digits.value)

theorem ExponentPiece.lacks {mark : Bytes} (piece : ExponentPiece (some (mark, [])) rest) :
    Lacks exponentPart ⟨offset, mark ++ rest⟩ (offset + mark.length) := by
  cases piece with
  | @present letter sign _ _ marked signed run =>
    obtain ⟨negative, entered⟩ := exponentPart_entered marked signed
    obtain ⟨failure, failed, found, kind⟩ :
        Lacks _ ⟨offset + (letter :: sign).length, rest⟩ _ := (takeWhile1_lacks run.stops).bind
    refine ⟨failure, (entered offset).trans failed, found, ?_⟩
    rwa [(Input.passes_append offset (letter :: sign) rest).finish] at kind

/-- All pieces are read if each of them has its digits. -/
theorem Pieces.Cut.reads (cut : pieces.Cut bytes) (complete : pieces.missing? = none) :
    ∃ result, (∀ offset, Reads numeral offset pieces.text result pieces.rest) ∧
      result.negative = !pieces.minus.isEmpty ∧ result.integer = pieces.integer ∧
        result.isWhole = pieces.isWhole := by
  obtain ⟨whole, part, scale⟩ := Pieces.missing?_eq_none.mp complete
  obtain ⟨parts, exponent, present⟩ := cut.exponent.reads scale
  refine ⟨⟨!pieces.minus.isEmpty, pieces.integer, pieces.fraction, parts⟩, fun offset => ?_, rfl,
    rfl, ?_⟩
  · unfold Reads
    rw [← cut.whole, cut.bytes_eq, Pieces.text]
    simp only [List.length_append, ← Nat.add_assoc]
    refine cut.minus.reads.run_bind.trans ?_
    refine (cut.integer.reads whole).run_bind.trans ?_
    refine (cut.fraction.reads part).run_bind.trans ?_
    exact (exponent _).run_bind
  · rw [Numeral.isWhole, Pieces.isWhole, present]

/-- Where a piece has no digit the scanner fails, and at the first such place. -/
theorem Pieces.Cut.lacks (cut : pieces.Cut bytes) (missing : pieces.missing? = some place) :
    Lacks numeral ⟨offset, bytes⟩ (offset + place) := by
  rw [cut.bytes_eq]
  refine Lacks.behind cut.minus.reads ?_
  by_cases whole : pieces.integer = []
  · obtain rfl := Option.some.inj ((missing?_of_integer whole).symm.trans missing)
    have integer := cut.integer
    rw [whole] at integer ⊢
    exact integer.lacks.bind
  refine Lacks.behind (cut.integer.reads whole) ?_
  by_cases part : pieces.fraction = some []
  · obtain rfl := Option.some.inj ((missing?_of_fraction whole part).symm.trans missing)
    have fraction := cut.fraction
    rw [part] at fraction ⊢
    simp only [← Nat.add_assoc]
    exact fraction.lacks.bind
  refine Lacks.behind (cut.fraction.reads part) ?_
  by_cases scale : ∃ mark, pieces.exponent = some (mark, [])
  · obtain ⟨mark, scale⟩ := scale
    obtain rfl := Option.some.inj ((missing?_of_exponent whole part scale).symm.trans missing)
    have exponent := cut.exponent
    rw [scale] at exponent ⊢
    simp only [exponentText, List.append_nil, ← Nat.add_assoc]
    exact exponent.lacks.bind
  · have complete : pieces.missing? = none :=
      Pieces.missing?_eq_none.mpr ⟨whole, part, fun mark same => scale ⟨mark, same⟩⟩
    rw [complete] at missing
    cases missing

end Scanning

section Numbers

variable {place : Nat} {pieces : Pieces}

/-- What the pieces of a numeral denote. Without fraction and exponent that is the integer which
its digits spell, whether or not they are too many to be converted as an integer. -/
inductive Pieces.Denotes (pieces : Pieces) : Number → Prop where
  | integer (whole : pieces.isWhole = true) (short : pieces.integer.length ≤ Decimal.maxDigits)
      (converted : Decimal.wholeOfText? (Ascii.latin1 pieces.text) = .ok pieces.integerValue) :
      Denotes pieces (.integer pieces.integerValue)
  | decimal (whole : pieces.isWhole = true) (long : Decimal.maxDigits < pieces.integer.length)
      (refused : Decimal.wholeOfText? (Ascii.latin1 pieces.text) =
        .error (.tooLong pieces.integer.length)) : Denotes pieces (.decimal pieces.integerValue)
  | float {value : Decimal.Binary64} (fractional : pieces.isWhole = false)
      (converted : float? pieces.text = .ok (.float value)) : Denotes pieces (.float value)

/-- What is read of a numeral whose pieces all have their digits. -/
structure Pieces.Accepted (pieces : Pieces) (bytes : Bytes) (number : Number) : Prop where
  denotes : pieces.Denotes number
  value : ∀ limit levels offset, value limit levels ⟨offset, bytes⟩ =
    .ok (⟨.number number (Ascii.latin1 pieces.text), Span.ofLength offset pieces.text.length⟩,
      ⟨offset + pieces.text.length, pieces.rest⟩)
  document : ∀ settings trailing before, BlankText before →
    (parse settings trailing (before ++ bytes) = .ok
        ⟨.number number (Ascii.latin1 pieces.text),
          Span.ofLength before.length pieces.text.length⟩ ↔
      trailing.getD settings.trailingData = true ∨ BlankText pieces.rest)

/-- How reading fails at the place where a digit is missing. -/
structure RefusedAt (bytes : Bytes) (place : Nat) : Prop where
  value : ∀ limit levels offset, Lacks (value limit levels) ⟨offset, bytes⟩ (offset + place)
  document : ∀ settings trailing before, BlankText before →
    ∃ failure, parse settings trailing (before ++ bytes) = .error failure ∧
      failure.offset = (before.length + place : Nat) ∧
        failure.kind = if place = bytes.length then .endOfInput else .unexpected

theorem Pieces.denotes_of_text {result : Numeral} (spelled : NumeralText pieces.text result)
    (sign : result.negative = !pieces.minus.isEmpty) (integer : result.integer = pieces.integer)
    (form : result.isWhole = pieces.isWhole) : pieces.Denotes result.number := by
  cases whole : pieces.isWhole with
  | false =>
    rw [whole] at form
    rw [number_of_not_isWhole form]
    refine .float whole ?_
    rw [float?, spelled.parts?_eq]
    rfl
  | true =>
    rw [whole] at form
    have value : signed result.negative (Ascii.decimalNumber result.integer) =
        pieces.integerValue := by
      rw [Pieces.integerValue, sign, integer, Decimal.decimalNumber_eq]
    have converted := spelled.wholeOfText? form
    have exact : (result.fraction.isNone && result.exponent.isNone) = true := form
    rw [value, integer] at converted
    rw [Numeral.number, if_pos exact, value, integer]
    by_cases long : Decimal.maxDigits < pieces.integer.length
    · rw [if_neg (Nat.not_le.mpr long)]
      exact .decimal whole long (converted.trans (if_pos long))
    · rw [if_pos (Nat.not_lt.mp long)]
      exact .integer whole (Nat.not_lt.mp long) (converted.trans (if_neg long))

private theorem numberNode_lacks {input : Input} (lacks : Lacks numeral input place) :
    Lacks numberNode input place := by
  obtain ⟨failure, failed, found⟩ := lacks
  refine ⟨failure, ?_, found⟩
  have located := Refuses.located failed
  unfold Refuses at located
  rw [numberNode, located]

/-- Behind blanks a document begins with the value. -/
theorem document_behind {settings : Settings} {before : Bytes}
    (begun : beginsNumeral b = true) (blank : BlankText before) :
    document settings (Input.ofBytes (before ++ b :: rest)) =
      Json.value settings.depthLimit settings.depthLimit ⟨before.length, b :: rest⟩ := by
  have spaced : Reads blanks 0 before () (b :: rest) :=
    blank.reads (Stops.cons (isBlank_of_beginsNumeral begun) rest)
  have behind : document settings ⟨0, before ++ b :: rest⟩ =
      Json.value settings.depthLimit settings.depthLimit ⟨0 + before.length, b :: rest⟩ :=
    spaced.run_bind
  rwa [Nat.zero_add] at behind

theorem Pieces.Cut.accepted (cut : pieces.Cut (b :: rest))
    (begun : beginsNumeral b = true) (complete : pieces.missing? = none) :
    ∃ number, pieces.Accepted (b :: rest) number := by
  obtain ⟨result, reads, sign, integer, form⟩ := cut.reads complete
  obtain ⟨text, passes, spelled⟩ := numeral_sound (reads 0)
  obtain rfl := List.append_cancel_right passes.rest
  have value (limit levels offset : Nat) : Json.value limit levels ⟨offset, b :: rest⟩ = .ok
      (⟨.number result.number (Ascii.latin1 pieces.text),
        Span.ofLength offset pieces.text.length⟩, ⟨offset + pieces.text.length, pieces.rest⟩) := by
    rw [value_numeral begun, cut.whole]
    exact numberNode_reads (reads offset)
  refine ⟨result.number, Pieces.denotes_of_text spelled sign integer form, value, ?_⟩
  intro settings trailing before blank
  have read := (document_behind begun blank).trans
    (value settings.depthLimit settings.depthLimit before.length)
  rw [parse_eq_ok]
  constructor
  · rintro ⟨after, found⟩
    obtain ⟨stop, again, ends⟩ := documentThen_eq_ok.mp found
    obtain ⟨-, rfl⟩ := Prod.mk.inj (Except.ok.inj (read.symm.trans again))
    rcases ends with ⟨anything, -⟩ | ⟨-, ended⟩
    · exact .inl anything
    · exact .inr (nothingElse_sound ended)
  · rintro (anything | blankRest)
    · exact ⟨_, documentThen_eq_ok.mpr ⟨_, read, .inl ⟨anything, rfl⟩⟩⟩
    · cases anything : trailing.getD settings.trailingData with
      | true => exact ⟨_, documentThen_eq_ok.mpr ⟨_, read, .inl ⟨rfl, rfl⟩⟩⟩
      | false =>
        exact ⟨_, documentThen_eq_ok.mpr ⟨_, read, .inr ⟨rfl, blankRest.nothingElse⟩⟩⟩

theorem Pieces.Cut.refusedAt (cut : pieces.Cut (b :: rest))
    (begun : beginsNumeral b = true) (missing : pieces.missing? = some place) :
    RefusedAt (b :: rest) place := by
  have value (limit levels offset : Nat) :
      Lacks (Json.value limit levels) ⟨offset, b :: rest⟩ (offset + place) := by
    obtain ⟨failure, failed, found⟩ : Lacks numberNode ⟨offset, b :: rest⟩ (offset + place) :=
      numberNode_lacks (cut.lacks missing)
    exact ⟨failure, (value_numeral begun).trans failed, found⟩
  refine ⟨value, fun settings trailing before blank => ?_⟩
  obtain ⟨failure, failed, found, kind⟩ :=
    value settings.depthLimit settings.depthLimit before.length
  refine ⟨failure.reportedBy .json,
    parse_of_refused ((document_behind begun blank).trans failed), found, kind.trans ?_⟩
  simp only [Input.finish, Nat.add_left_cancel_iff]

/-- Where a value begins with a minus or a digit, there is one way to cut the bytes into the pieces
of a numeral, each as long as it can be. If every piece has its digits they are read, and denote
exactly what they spell; and otherwise reading fails at the first place where a digit is missing. -/
theorem value_extent (b : UInt8) (rest : Bytes) (begun : beginsNumeral b = true) :
    (∃! pieces : Pieces, pieces.Cut (b :: rest)) ∧ ∀ pieces : Pieces, pieces.Cut (b :: rest) →
      (pieces.missing? = none → ∃ number, pieces.Accepted (b :: rest) number) ∧
        ∀ place, pieces.missing? = some place → RefusedAt (b :: rest) place := by
  constructor
  · obtain ⟨pieces, cut⟩ := Pieces.exists_cut (b :: rest)
    exact ⟨pieces, cut, fun others again => again.unique cut⟩
  · intro pieces cut
    exact ⟨cut.accepted begun, fun place => cut.refusedAt begun⟩

/-- A numeral that ends before a comma, and one of which the fraction has no digit. -/
theorem value_extent_before_comma :
    beginsNumeral (Ascii.byte '-') = true ∧
      (∃ number, (Pieces.mk (Ascii.bytes ['-']) (Ascii.bytes ['1', '0']) none none
        (Ascii.bytes [','])).Accepted (Ascii.bytes ['-', '1', '0', ',']) number) ∧
      RefusedAt (Ascii.bytes ['-', '1', '.', ',']) 3 := by
  have begun : beginsNumeral (Ascii.byte '-') = true := rfl
  have stops : Stops Ascii.isDigit (Ascii.bytes [',']) := Stops.cons rfl _
  refine ⟨begun, ?_, ?_⟩
  · have cut : (Pieces.mk (Ascii.bytes ['-']) (Ascii.bytes ['1', '0']) none none
        (Ascii.bytes [','])).Cut (Ascii.bytes ['-', '1', '0', ',']) :=
      ⟨rfl, .present rfl, .run (by decide) ⟨List.all_eq_true.mp rfl, stops⟩, .absent (by decide),
        .absent (Stops.cons rfl _)⟩
    exact ((value_extent (Ascii.byte '-') _ begun).2 _ cut).1 rfl
  · have cut : (Pieces.mk (Ascii.bytes ['-']) (Ascii.bytes ['1']) (some []) none
        (Ascii.bytes [','])).Cut (Ascii.bytes ['-', '1', '.', ',']) :=
      ⟨rfl, .present rfl, .run (by decide) ⟨List.all_eq_true.mp rfl, Stops.cons rfl _⟩,
        .present ⟨nofun, stops⟩, .absent (Stops.cons rfl _)⟩
    exact ((value_extent (Ascii.byte '-') _ begun).2 _ cut).2 3 rfl

end Numbers

end WireSpan.Json
