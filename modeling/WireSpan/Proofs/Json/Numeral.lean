import WireSpan.Proofs.Json.Grammar

/-! The scanner of numerals and the grammar of numerals agree. What is read is spelled by the bytes
passed over; and a numeral is read whole wherever the byte after it cannot continue it. -/

namespace WireSpan.Json

open Scan

variable {input after : Input} {offset : Nat} {text rest : Bytes} {b : UInt8}

theorem accept_eq_ok {accepted : Bool} :
    accept b input = .ok (accepted, after) ↔
      (accepted = true ∧ input.Passes [b] after) ∨
        (accepted = false ∧ after = input ∧ input.rest.head? ≠ some b) := by
  rw [accept, peek?_bind]
  split
  · rename_i next
    have head := Input.passes_head next
    rw [skip_bind, pure_eq_ok]
    constructor
    · rintro ⟨rfl, rfl⟩
      exact .inl ⟨rfl, head⟩
    · rintro (⟨rfl, passes⟩ | ⟨-, -, other⟩)
      · exact ⟨rfl, head.unique passes⟩
      · exact absurd next other
  · rename_i other
    rw [pure_eq_ok]
    constructor
    · rintro ⟨rfl, rfl⟩
      exact .inr ⟨rfl, rfl, other⟩
    · rintro (⟨-, passes⟩ | ⟨rfl, rfl, -⟩)
      · exact absurd (by rw [passes.rest]; rfl) other
      · exact ⟨rfl, rfl⟩

theorem accept_reads : Reads (accept b) offset [b] true rest :=
  accept_eq_ok.mpr (.inl ⟨rfl, Input.passes_append offset [b] rest⟩)

theorem accept_reads_other (other : rest.head? ≠ some b) :
    Reads (accept b) offset [] false rest :=
  accept_eq_ok.mpr (.inr ⟨rfl, rfl, other⟩)

theorem head?_ne_of_ne {c : UInt8} (different : b ≠ c) : (b :: rest).head? ≠ some c :=
  fun next => different (Option.some.inj next)

private theorem isDigit_of_isNonzeroDigit (nonzero : Ascii.isNonzeroDigit b = true) :
    Ascii.isDigit b = true ∧ b ≠ Ascii.byte '0' := by
  simp only [Ascii.isNonzeroDigit, Bool.and_eq_true, bne_iff_ne] at nonzero
  exact nonzero

private theorem eq_zero_of_not_isNonzeroDigit (digit : Ascii.isDigit b = true)
    (notNonzero : ¬ Ascii.isNonzeroDigit b = true) : b = Ascii.byte '0' := by
  rw [Ascii.isNonzeroDigit, digit, Bool.true_and, bne_iff_ne] at notNonzero
  exact Decidable.not_not.mp notNonzero

theorem integerPart_sound {integer : Bytes} (read : integerPart input = .ok (integer, after)) :
    input.Passes integer after ∧ IntegerText integer := by
  obtain ⟨first, mid, found, later⟩ := bind_eq_ok.mp read
  obtain ⟨passes, digit, -⟩ := byteOf_sound found
  by_cases nonzero : Ascii.isNonzeroDigit first.value = true
  · rw [if_pos nonzero] at later
    obtain ⟨more, last, run, result⟩ := bind_eq_ok.mp later
    obtain ⟨rfl, rfl⟩ := pure_eq_ok.mp result
    obtain ⟨passed, digits, -, -⟩ := takeWhile_sound run
    refine ⟨passes.trans passed, .digits (isDigit_of_isNonzeroDigit nonzero).2 ⟨by simp, ?_⟩⟩
    intro c member
    rcases List.mem_cons.mp member with rfl | member
    · exact digit
    · exact digits c member
  · rw [if_neg nonzero] at later
    obtain ⟨rfl, rfl⟩ := pure_eq_ok.mp later
    refine ⟨passes, ?_⟩
    rw [eq_zero_of_not_isNonzeroDigit digit nonzero]
    exact .zero

/-- A run of at least one digit. -/
theorem digits_sound {expected : String} {x : Located Bytes}
    (read : takeWhile1 expected Ascii.isDigit input = .ok (x, after)) :
    input.Passes x.value after ∧ DigitsText x.value := by
  obtain ⟨nonempty, run⟩ := takeWhile1_sound read
  obtain ⟨passes, digits, -, -⟩ := takeWhile_sound run
  exact ⟨passes, nonempty, digits⟩

theorem fractionPart_sound {fraction : Option Bytes}
    (read : fractionPart input = .ok (fraction, after)) :
    ∃ text, input.Passes text after ∧ FractionText text fraction := by
  obtain ⟨marked, mid, found, later⟩ := bind_eq_ok.mp read
  rcases accept_eq_ok.mp found with ⟨rfl, passes⟩ | ⟨rfl, rfl, -⟩
  · obtain ⟨digits, last, run, result⟩ := bind_eq_ok.mp later
    obtain ⟨rfl, rfl⟩ := pure_eq_ok.mp result
    obtain ⟨passed, spelled⟩ := digits_sound run
    exact ⟨_, passes.trans passed, .present spelled⟩
  · obtain ⟨rfl, rfl⟩ := pure_eq_ok.mp later
    exact ⟨[], .refl _, .absent⟩

private theorem exponentDigits_sound {exponent : Option (Bool × Bytes)}
    (read : exponentPart.digits input = .ok (exponent, after)) :
    ∃ sign digits negative, input.Passes (sign ++ digits) after ∧ ExponentSign sign negative ∧
      DigitsText digits ∧ exponent = some (negative, digits) := by
  obtain ⟨negative, mid, found, later⟩ := bind_eq_ok.mp read
  rcases accept_eq_ok.mp found with ⟨rfl, passes⟩ | ⟨rfl, rfl, -⟩
  · obtain ⟨digits, last, run, result⟩ := bind_eq_ok.mp later
    obtain ⟨rfl, rfl⟩ := pure_eq_ok.mp result
    obtain ⟨passed, spelled⟩ := digits_sound run
    exact ⟨_, _, true, passes.trans passed, .minus, spelled, rfl⟩
  · obtain ⟨positive, next, plus, more⟩ := bind_eq_ok.mp later
    obtain ⟨digits, last, run, result⟩ := bind_eq_ok.mp more
    obtain ⟨rfl, rfl⟩ := pure_eq_ok.mp result
    obtain ⟨passed, spelled⟩ := digits_sound run
    rcases accept_eq_ok.mp plus with ⟨rfl, passes⟩ | ⟨rfl, rfl, -⟩
    · exact ⟨_, _, false, passes.trans passed, .plus, spelled, rfl⟩
    · exact ⟨[], _, false, passed, .absent, spelled, rfl⟩

private theorem exponentPart_sound {exponent : Option (Bool × Bytes)}
    (read : exponentPart input = .ok (exponent, after)) :
    ∃ text, input.Passes text after ∧ ExponentText text exponent := by
  obtain ⟨small, mid, found, later⟩ := bind_eq_ok.mp read
  rcases accept_eq_ok.mp found with ⟨rfl, passes⟩ | ⟨rfl, rfl, -⟩
  · obtain ⟨sign, digits, negative, passed, signed, run, rfl⟩ := exponentDigits_sound later
    exact ⟨_, passes.trans passed, .present (.inl rfl) signed run⟩
  · obtain ⟨capital, next, second, more⟩ := bind_eq_ok.mp later
    rcases accept_eq_ok.mp second with ⟨rfl, passes⟩ | ⟨rfl, rfl, -⟩
    · obtain ⟨sign, digits, negative, passed, signed, run, rfl⟩ := exponentDigits_sound more
      exact ⟨_, passes.trans passed, .present (.inr rfl) signed run⟩
    · obtain ⟨rfl, rfl⟩ := pure_eq_ok.mp more
      exact ⟨[], .refl _, .absent⟩

theorem numeral_sound {result : Numeral} (read : numeral input = .ok (result, after)) :
    ∃ text, input.Passes text after ∧ NumeralText text result := by
  obtain ⟨negative, first, found, later⟩ := bind_eq_ok.mp read
  obtain ⟨integer, second, whole, later⟩ := bind_eq_ok.mp later
  obtain ⟨fraction, third, part, later⟩ := bind_eq_ok.mp later
  obtain ⟨exponent, fourth, scale, later⟩ := bind_eq_ok.mp later
  obtain ⟨rfl, rfl⟩ := pure_eq_ok.mp later
  obtain ⟨passedWhole, spelledWhole⟩ := integerPart_sound whole
  obtain ⟨partText, passedPart, spelledPart⟩ := fractionPart_sound part
  obtain ⟨scaleText, passedScale, spelledScale⟩ := exponentPart_sound scale
  rcases accept_eq_ok.mp found with ⟨rfl, passes⟩ | ⟨rfl, rfl, -⟩
  · exact ⟨_, ((passes.trans passedWhole).trans passedPart).trans passedScale,
      .mk .minus spelledWhole spelledPart spelledScale⟩
  · exact ⟨_, ((Input.Passes.refl _ |>.trans passedWhole).trans passedPart).trans passedScale,
      .mk .absent spelledWhole spelledPart spelledScale⟩

theorem numberNode_sound {node : Located Json} (read : numberNode input = .ok (node, after)) :
    ∃ text, input.Passes text after ∧ ValueText input.offset text node ∧ node.value.depth = 0 := by
  unfold numberNode at read
  split at read
  · rename_i result span rest found
    cases read
    obtain ⟨value, scanned, same⟩ := located_eq_ok.mp found
    cases same
    obtain ⟨text, passes, spelled⟩ := numeral_sound scanned
    refine ⟨text, passes, ?_, by simp [depth]⟩
    have shown : input.rest.take (input.spanTo after).length = text := by
      simp [passes.spanTo, Span.length, Span.ofLength, passes.rest]
    rw [shown, passes.spanTo]
    exact .number spelled
  · cases read

/-- A numeral is made of digits and five other bytes. -/
theorem NumeralText.forall {keeps : UInt8 → Prop} {result : Numeral}
    (digits : ∀ b, Ascii.isDigit b = true → keeps b)
    (marks : ∀ b ∈ Ascii.bytes ['-', '+', '.', 'e', 'E'], keeps b)
    (spelled : NumeralText text result) : ∀ b ∈ text, keeps b := by
  have mark {c : Char} (listed : Ascii.byte c ∈ Ascii.bytes ['-', '+', '.', 'e', 'E']) :
      ∀ b ∈ [Ascii.byte c], keeps b := List.forall_mem_singleton.mpr (marks _ listed)
  have run {digitBytes : Bytes} (run : DigitsText digitBytes) : ∀ b ∈ digitBytes, keeps b :=
    fun b member => digits b (run.digits b member)
  cases spelled with
  | @mk sign integer fraction exponent _ _ _ signed whole part scale =>
    have signs : ∀ b ∈ sign, keeps b := by
      cases signed with
      | absent => exact List.forall_mem_nil _
      | minus => exact mark (by decide)
    have integers : ∀ b ∈ integer, keeps b := by
      cases whole with
      | zero => exact List.forall_mem_singleton.mpr (digits _ (by decide))
      | digits nonzero all => exact run all
    have fractions : ∀ b ∈ fraction, keeps b := by
      cases part with
      | absent => exact List.forall_mem_nil _
      | present all => exact List.forall_mem_append.mpr ⟨mark (by decide), run all⟩
    have exponents : ∀ b ∈ exponent, keeps b := by
      cases scale with
      | absent => exact List.forall_mem_nil _
      | present marked signed all =>
        refine List.forall_mem_append.mpr ⟨List.forall_mem_cons.mpr ⟨?_, ?_⟩, run all⟩
        · rcases marked with rfl | rfl <;> exact marks _ (by decide)
        · cases signed with
          | absent => exact List.forall_mem_nil _
          | plus => exact mark (by decide)
          | minus => exact mark (by decide)
    simp only [List.forall_mem_append]
    exact ⟨⟨⟨signs, integers⟩, fractions⟩, exponents⟩

/-- A byte that goes on with a numeral. -/
def isNumeralByte (b : UInt8) : Bool :=
  Ascii.isDigit b || b == Ascii.byte '.' || b == Ascii.byte 'e' || b == Ascii.byte 'E'

private theorem stops_numeral (stops : Stops isNumeralByte rest) :
    Stops Ascii.isDigit rest ∧ rest.head? ≠ some (Ascii.byte '.') ∧
      rest.head? ≠ some (Ascii.byte 'e') ∧ rest.head? ≠ some (Ascii.byte 'E') := by
  have other (c : UInt8) (continues : isNumeralByte c = true) : rest.head? ≠ some c := by
    intro next
    simp [stops c next] at continues
  refine ⟨?_, other _ (by decide), other _ (by decide), other _ (by decide)⟩
  intro c next
  have stopped := stops c next
  simp only [isNumeralByte, Bool.or_eq_false_iff] at stopped
  exact stopped.1.1.1

theorem ExponentText.stops {exponent : Option (Bool × Bytes)}
    (spelled : ExponentText text exponent) (stops : Stops isNumeralByte rest) :
    Stops Ascii.isDigit (text ++ rest) ∧ (text ++ rest).head? ≠ some (Ascii.byte '.') := by
  cases spelled with
  | absent => exact ⟨(stops_numeral stops).1, (stops_numeral stops).2.1⟩
  | present marked signed run =>
    rcases marked with rfl | rfl
    · exact ⟨Stops.cons (by decide) _, head?_ne_of_ne (by decide)⟩
    · exact ⟨Stops.cons (by decide) _, head?_ne_of_ne (by decide)⟩

theorem FractionText.stops {fraction : Option Bytes} (spelled : FractionText text fraction)
    (stops : Stops Ascii.isDigit rest) : Stops Ascii.isDigit (text ++ rest) := by
  cases spelled with
  | absent => exact stops
  | present run => exact Stops.cons (by decide) _

theorem IntegerText.reads (spelled : IntegerText text) (stops : Stops Ascii.isDigit rest) :
    Reads integerPart offset text text rest := by
  cases spelled with
  | zero =>
    exact (Reads.byteOf "digit" (by decide)).thenNothing (Reads.pure _)
  | @digits first more nonzero run =>
    have digit : Ascii.isDigit first = true := run.digits first (by simp)
    have others : ∀ c ∈ more, Ascii.isDigit c = true :=
      fun c member => run.digits c (by simp [member])
    have counts : Ascii.isNonzeroDigit first = true := by
      simp only [Ascii.isNonzeroDigit, digit, Bool.true_and, bne_iff_ne]
      exact nonzero
    refine (Reads.byteOf "digit" digit).byteThen ?_
    rw [if_pos counts]
    exact (Reads.takeWhile others stops).map fun run => first :: run.value

theorem DigitsText.reads (expected : String) (spelled : DigitsText text)
    (stops : Stops Ascii.isDigit rest) :
    Reads (takeWhile1 expected Ascii.isDigit) offset text
      ⟨text, Span.ofLength offset text.length⟩ rest :=
  Reads.takeWhile1 expected spelled.nonempty spelled.digits stops

theorem FractionText.reads {fraction : Option Bytes} (spelled : FractionText text fraction)
    (stops : Stops Ascii.isDigit rest) (noPoint : rest.head? ≠ some (Ascii.byte '.')) :
    Reads fractionPart offset text fraction rest := by
  cases spelled with
  | absent => exact (accept_reads_other noPoint).nothingThen (Reads.pure _)
  | present run =>
    refine accept_reads.bind ?_
    rw [if_pos rfl]
    exact (run.reads _ stops).map fun digits : Located Bytes => some digits.value

/-- The sign of an exponent is passed over, whatever comes then. -/
theorem ExponentSign.run_digits {sign : Bytes} {negative : Bool}
    (signed : ExponentSign sign negative)
    (unsigned : sign = [] →
      rest.head? ≠ some (Ascii.byte '-') ∧ rest.head? ≠ some (Ascii.byte '+')) :
    exponentPart.digits ⟨offset, sign ++ rest⟩ =
      (takeWhile1 "exponent digit" Ascii.isDigit >>= fun digits =>
        pure (some (negative, digits.value))) ⟨offset + sign.length, rest⟩ := by
  cases signed with
  | absent =>
    obtain ⟨noMinus, noPlus⟩ := unsigned rfl
    exact (accept_reads_other noMinus).run_bind.trans (accept_reads_other noPlus).run_bind
  | plus =>
    have noMinus : (Ascii.byte '+' :: rest).head? ≠ some (Ascii.byte '-') :=
      head?_ne_of_ne (by decide)
    exact (accept_reads_other noMinus).run_bind.trans accept_reads.run_bind
  | minus => exact accept_reads.run_bind

theorem ExponentSign.reads {sign digits : Bytes} {negative : Bool}
    (signed : ExponentSign sign negative) (run : DigitsText digits)
    (stops : Stops Ascii.isDigit rest) :
    Reads exponentPart.digits offset (sign ++ digits) (some (negative, digits)) rest := by
  have unsigned (c : UInt8) (noDigit : Ascii.isDigit c = false) :
      (digits ++ rest).head? ≠ some c := by
    obtain ⟨first, more, rfl⟩ := List.exists_cons_of_ne_nil run.nonempty
    exact head?_ne_of_ne (ne_of_accepts (run.digits first (by simp)) noDigit)
  unfold Reads
  rw [List.append_assoc, List.length_append, ← Nat.add_assoc,
    signed.run_digits fun _ => ⟨unsigned _ (by decide), unsigned _ (by decide)⟩]
  exact (run.reads _ stops).map fun digits : Located Bytes => some (negative, digits.value)

theorem ExponentText.reads {exponent : Option (Bool × Bytes)}
    (spelled : ExponentText text exponent) (stops : Stops isNumeralByte rest) :
    Reads exponentPart offset text exponent rest := by
  obtain ⟨noDigit, -, noSmall, noCapital⟩ := stops_numeral stops
  cases spelled with
  | absent =>
    refine (accept_reads_other noSmall).nothingThen ?_
    refine (accept_reads_other noCapital).nothingThen ?_
    exact Reads.pure none
  | present marked signed run =>
    rcases marked with rfl | rfl
    · exact accept_reads.bind (signed.reads run noDigit)
    · refine (accept_reads_other (head?_ne_of_ne (by decide))).nothingThen ?_
      exact accept_reads.bind (signed.reads run noDigit)

theorem IntegerText.head_ne_minus (spelled : IntegerText text) :
    (text ++ rest).head? ≠ some (Ascii.byte '-') := by
  cases spelled with
  | zero => exact head?_ne_of_ne (by decide)
  | @digits first more nonzero run =>
    have digit := run.digits first (by simp)
    exact head?_ne_of_ne (ne_of_accepts digit (by decide))

/-- A numeral is read whole where no byte follows that could continue it. -/
theorem NumeralText.reads {result : Numeral} (spelled : NumeralText text result)
    (stops : Stops isNumeralByte rest) : Reads numeral offset text result rest := by
  cases spelled with
  | mk signed whole part scale =>
    obtain ⟨noDigit, noPoint⟩ := scale.stops stops
    have wholeStops := part.stops noDigit
    rw [← List.append_assoc] at wholeStops
    simp only [List.append_assoc]
    cases signed with
    | absent =>
      refine (accept_reads_other ?_).nothingThen ?_
      · rw [List.nil_append, List.append_assoc]
        exact whole.head_ne_minus
      · exact (whole.reads wholeStops).bind
          ((part.reads noDigit noPoint).bind ((scale.reads stops).map (Numeral.mk false _ _)))
    | minus =>
      exact accept_reads.bind ((whole.reads wholeStops).bind
        ((part.reads noDigit noPoint).bind ((scale.reads stops).map (Numeral.mk true _ _))))

theorem numberNode_reads {result : Numeral} (read : Reads numeral offset text result rest) :
    Reads numberNode offset text
      ⟨.number result.number (Ascii.latin1 text), Span.ofLength offset text.length⟩ rest := by
  have located : Reads (located numeral) offset text _ rest := read.located
  unfold Reads at located ⊢
  rw [numberNode, located]
  simp [Span.length, Span.ofLength]

theorem NumeralText.readsNode {result : Numeral} (spelled : NumeralText text result)
    (stops : Stops isNumeralByte rest) :
    Reads numberNode offset text
      ⟨.number result.number (Ascii.latin1 text), Span.ofLength offset text.length⟩ rest :=
  numberNode_reads (spelled.reads stops)

end WireSpan.Json
