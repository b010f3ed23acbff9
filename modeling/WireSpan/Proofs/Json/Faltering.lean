import WireSpan.Proofs.Json.Entries
import WireSpan.Proofs.Json.StringLiteral
import WireSpan.Proofs.Scan.Truncation

/-! How scanners fail on a text of which only the first bytes have arrived, and what strings and
numerals do there. A scanner runs out of input, except where the cut falls inside a character of a
string: there the bytes before the cut are no UTF-8. -/

namespace WireSpan.Json

open Scan

/-- How a reader fails whose text would go on with `missing`. It runs out of input, unless the
first missing byte goes on with a character. -/
def cutKind (missing : Bytes) : Kind :=
  match missing.head?.bind Text.Utf8.continuation? with
  | some _ => .unexpected
  | none => .endOfInput

/-- Characters of one byte each. -/
def AsciiText (text : Bytes) : Prop := ∀ b ∈ text, b < 0x80

variable {α β : Type} {scan first : Scan α} {next : α → Scan β} {a : α} {offset : Nat}
  {text more missing : Bytes} {b : UInt8} {tentative loose : Prop}

theorem cutKind_append (nonempty : missing ≠ []) : cutKind (missing ++ more) = cutKind missing := by
  obtain ⟨b, rest, rfl⟩ := List.exists_cons_of_ne_nil nonempty
  rfl

theorem cutKind_of_ascii (ascii : b < 0x80) : cutKind (b :: missing) = .endOfInput := by
  have starts : Text.Utf8.continuation? b = none := by
    rw [Text.Utf8.continuation?, if_neg]
    exact fun within => absurd ascii (UInt8.not_lt.mpr within.1)
  simp only [cutKind, List.head?_cons, Option.bind_some, starts]

theorem AsciiText.cutKind (ascii : AsciiText text) {front : Bytes}
    (same : front ++ missing = text) : Json.cutKind missing = .endOfInput := by
  cases missing with
  | nil => rfl
  | cons b rest => exact cutKind_of_ascii (ascii b (by simp [← same]))

/-- Where its text is cut off the scanner fails, for want of bytes or inside a character. A `loose`
scanner may instead read all that is left. -/
def Falters (loose : Prop) (scan : Scan α) (offset : Nat) (text : Bytes) : Prop :=
  ∀ front missing, front ++ missing = text → missing ≠ [] →
    FailsAs scan ⟨offset, front⟩ (cutKind missing) ∨
      (loose ∧ cutKind missing = .endOfInput ∧ ∃ a, Reads scan offset front a [])

theorem truncates_of_append {front : Bytes} (same : front ++ missing = text)
    (nonempty : missing ≠ []) : Truncates front text where
  begins := ⟨missing, same⟩
  short := by
    have some := List.length_pos_iff.mpr nonempty
    rw [← same, List.length_append]
    omega

/-- A text of two parts is cut off inside the first part, or behind it. -/
theorem append_cut {front : Bytes} (same : front ++ missing = text ++ more) :
    (∃ rest, rest ≠ [] ∧ front ++ rest = text ∧ missing = rest ++ more) ∨
      ∃ rest, front = text ++ rest ∧ rest ++ missing = more := by
  rcases List.append_eq_append_iff.mp same with ⟨rest, inside, left⟩ | ⟨rest, behind, left⟩
  · cases rest with
    | nil =>
      rw [List.append_nil] at inside
      exact .inr ⟨[], by rw [inside, List.append_nil], left⟩
    | cons b rest => exact .inl ⟨b :: rest, List.cons_ne_nil _ _, inside.symm, left⟩
  · exact .inr ⟨rest, behind, left.symm⟩

theorem falters_of_waits (ascii : AsciiText text) (waits : Waits scan offset text) :
    Falters loose scan offset text := by
  intro front missing same nonempty
  rw [ascii.cutKind same]
  exact .inl (waits front (truncates_of_append same nonempty)).failsAs

theorem falters_of_yields (ascii : AsciiText text) (yields : Yields scan offset text) :
    Falters True scan offset text := by
  intro front missing same nonempty
  rw [ascii.cutKind same]
  rcases yields front (truncates_of_append same nonempty) with ended | read
  · exact .inl ended.failsAs
  · exact .inr ⟨trivial, rfl, read⟩

theorem Falters.weaken (falters : Falters tentative scan offset text)
    (weaker : tentative → loose) : Falters loose scan offset text := by
  intro front missing same nonempty
  rcases falters front missing same nonempty with fails | ⟨allowed, read⟩
  · exact .inl fails
  · exact .inr ⟨weaker allowed, read⟩

theorem Falters.fails (falters : Falters False scan offset text) {front : Bytes}
    (same : front ++ missing = text) (nonempty : missing ≠ []) :
    FailsAs scan ⟨offset, front⟩ (Json.cutKind missing) := by
  rcases falters front missing same nonempty with fails | ⟨impossible, -⟩
  · exact fails
  · exact impossible.elim

/-- A first scanner may content itself with less than its text where the second then runs out. -/
theorem Falters.bind (falters : Falters tentative first offset text)
    (hungry : tentative → ∀ a, Hungry (next a))
    (reads : ∀ front, Truncates front more → Reads first offset text a front)
    (continued : Falters loose (next a) (offset + text.length) more) :
    Falters loose (first >>= next) offset (text ++ more) := by
  intro front missing same nonempty
  rcases append_cut same with ⟨rest, some, within, rfl⟩ | ⟨rest, rfl, behind⟩
  · rw [cutKind_append some]
    rcases falters front rest within some with fails | ⟨allowed, kind, less, read⟩
    · exact .inl fails.bind
    · rw [kind]
      exact .inl (RunsOut.afterAll read (hungry allowed less _)).failsAs
  · have read := reads rest (truncates_of_append behind nonempty)
    rcases continued rest missing behind nonempty with fails | ⟨allowed, kind, value, later⟩
    · exact .inl (fails.after read)
    · rw [← List.append_nil rest] at read
      exact .inr ⟨allowed, kind, value, read.bind later⟩

theorem Falters.thenNothing (falters : Falters False first offset text) :
    Falters loose (first >>= next) offset text :=
  fun _ _ same nonempty => .inl (falters.fails same nonempty).bind

theorem Falters.map (f : α → β) (falters : Falters loose scan offset text) :
    Falters loose (scan >>= fun a => pure (f a)) offset text := by
  intro front missing same nonempty
  rcases falters front missing same nonempty with fails | ⟨allowed, kind, value, read⟩
  · exact .inl fails.bind
  · exact .inr ⟨allowed, kind, f value, read.map f⟩

theorem Falters.located (falters : Falters loose scan offset text) :
    Falters loose (located scan) offset text := by
  intro front missing same nonempty
  rcases falters front missing same nonempty with fails | ⟨allowed, kind, value, read⟩
  · exact .inl fails.located
  · exact .inr ⟨allowed, kind, _, read.located⟩

/-- A scanner that goes by the first byte falters as the one does that it becomes. -/
theorem Falters.ofHead {other : Scan α} (falters : Falters loose other offset (b :: more))
    (ascii : b < 0x80) (hungry : Hungry scan)
    (becomes : ∀ rest, scan ⟨offset, b :: rest⟩ = other ⟨offset, b :: rest⟩) :
    Falters loose scan offset (b :: more) := by
  intro front missing same nonempty
  cases front with
  | nil =>
    obtain rfl : missing = b :: more := same
    rw [cutKind_of_ascii ascii]
    exact .inl (hungry offset).failsAs
  | cons c front =>
    obtain ⟨rfl, -⟩ := List.cons.inj same
    have outcome := falters (c :: front) missing same nonempty
    unfold FailsAs Reads at outcome ⊢
    rwa [List.cons_append, becomes, becomes, ← List.cons_append]

variable {turn : Scan (α ⊕ β)}

theorem Falters.collectLast (readsOn : ReadsOn turn) (falters : Falters False turn offset text) :
    Falters False (collect turn) offset text :=
  fun _ _ same nonempty => .inl ((falters.fails same nonempty).bind.collect readsOn)

theorem Falters.collectMore {value : α} (readsOn : ReadsOn turn)
    (falters : Falters False turn offset text)
    (reads : ∀ rest, Reads turn offset text (.inl value) rest)
    (continued : Falters False (collect turn) (offset + text.length) more) :
    Falters False (collect turn) offset (text ++ more) := by
  intro front missing same nonempty
  refine .inl (FailsAs.collect readsOn (Falters.fails ?_ same nonempty))
  exact falters.bind False.elim (fun rest _ => reads rest) continued.thenNothing

section Texts

variable {c : Char} {unit start : Nat}

theorem asciiText_append : AsciiText (text ++ more) ↔ AsciiText text ∧ AsciiText more := by
  simp only [AsciiText, List.forall_mem_append]

theorem asciiText_cons : AsciiText (b :: text) ↔ b < 0x80 ∧ AsciiText text := by
  simp only [AsciiText, List.forall_mem_cons]

theorem AsciiText.nil : AsciiText [] := nofun

theorem asciiText_of_all (all : text.all (fun b => decide (b < 0x80)) = true) : AsciiText text :=
  fun b member => of_decide_eq_true (List.all_eq_true.mp all b member)

private theorem isHexDigit_ascii (hex : Ascii.isHexDigit b = true) : b < 0x80 := by
  simp only [Ascii.isHexDigit, Ascii.isDigit, Bool.or_eq_true, Bool.and_eq_true,
    decide_eq_true_eq, UInt8.le_iff_toNat_le, UInt8.lt_iff_toNat_lt, UInt8.reduceToNat] at hex ⊢
  omega

private theorem isDigit_ascii (digit : Ascii.isDigit b = true) : b < 0x80 := by
  apply isHexDigit_ascii
  rw [Ascii.isHexDigit, digit, Bool.true_or, Bool.true_or]

theorem BlankText.ascii (blank : BlankText text) : AsciiText text := by
  intro b member
  have listed := blank b member
  simp only [List.mem_cons, List.not_mem_nil, or_false] at listed
  rcases listed with rfl | rfl | rfl | rfl
  all_goals decide

theorem UnitText.ascii (spelled : UnitText text unit) : AsciiText text := by
  cases spelled with
  | mk hex =>
    exact asciiText_cons.mpr ⟨by decide, asciiText_cons.mpr
      ⟨by decide, fun b member => isHexDigit_ascii (hex b member)⟩⟩

private theorem hexFour_waits {x y z w : UInt8}
    (hex : ∀ digit ∈ [x, y, z, w], Ascii.isHexDigit digit = true) :
    Waits hexFour offset [x, y, z, w] := by
  refine (Waits.byteOf _ _).byteThen (fun _ _ => Reads.byteOf _ (hex x (by simp))) ?_
  refine (Waits.byteOf _ _).byteThen (fun _ _ => Reads.byteOf _ (hex y (by simp))) ?_
  refine (Waits.byteOf _ _).byteThen (fun _ _ => Reads.byteOf _ (hex z (by simp))) ?_
  exact (Waits.byteOf _ _).thenNothing

/-- Whoever has read the first half of a pair waits for the second. -/
theorem UnitText.trailing_falters (spelled : UnitText text unit) :
    Falters loose (trailingUnit start) offset text := by
  have ascii := spelled.ascii
  cases spelled with
  | @mk x y z w hex =>
    intro front missing same nonempty
    rw [ascii.cutKind same]
    rcases (truncates_of_append same nonempty).cons_cases with rfl | ⟨front, rfl, second⟩
    · exact .inl ⟨_, rfl, rfl⟩
    · rcases second.cons_cases with rfl | ⟨front, rfl, third⟩
      · exact .inl ⟨_, rfl, rfl⟩
      · have ended : RunsOut (hexFour >>= fun unit => if isTrailing unit = true then pure unit else
            failAt start (.unexpected "trailing surrogate after leading surrogate" []))
            ⟨offset + 2, front⟩ := (hexFour_waits hex front third).bind
        exact .inl ended.failsAs

private theorem unitTurn_falters (falters : Falters False (unitChar offset) (offset + 2) text) :
    Falters False stringTurn offset (Ascii.backslash :: Ascii.byte 'u' :: text) := by
  intro front missing same nonempty
  left
  rcases List.append_eq_cons_iff.mp same with ⟨rfl, rfl⟩ | ⟨front, rfl, later⟩
  · rw [cutKind_of_ascii (by decide)]
    exact ⟨_, rfl, rfl⟩
  · rcases List.append_eq_cons_iff.mp later.symm with ⟨rfl, rfl⟩ | ⟨front, rfl, rfl⟩
    · rw [cutKind_of_ascii (by decide)]
      exact ⟨_, rfl, rfl⟩
    · have turn : FailsAs (unitChar offset >>= fun c => (pure (.inl c) : Scan (Char ⊕ Unit)))
        ⟨offset + 2, front⟩ (Json.cutKind missing) := (falters.fails rfl nonempty).bind
      exact turn

theorem UnitText.falters (spelled : UnitText text unit) : Falters False stringTurn offset text := by
  have ascii := spelled.ascii
  cases spelled with
  | mk hex =>
    apply unitTurn_falters
    exact falters_of_waits (asciiText_cons.mp (asciiText_cons.mp ascii).2).2
      (hexFour_waits hex).thenNothing

theorem UnitText.falters_pair {first second : Bytes} {leading trailing : Nat}
    (spelled : UnitText first leading) (followed : UnitText second trailing)
    (leads : 0xd800 ≤ leading ∧ leading < 0xdc00) :
    Falters False stringTurn offset (first ++ second) := by
  have ascii := spelled.ascii
  cases spelled with
  | @mk x y z w hex =>
    have notTrailing : ¬ isTrailing (Ascii.hexNumber [x, y, z, w]) = true := by
      rw [isTrailing_iff]
      omega
    apply unitTurn_falters
    refine (falters_of_waits (asciiText_cons.mp (asciiText_cons.mp ascii).2).2
      (hexFour_waits hex)).bind False.elim (fun _ _ => hexFour_reads hex) ?_
    rw [if_neg notTrailing, if_pos (isLeading_iff.mpr leads)]
    exact followed.trailing_falters.map _

private theorem short_falters {letter : UInt8} (listed : (letter, c) ∈ shortEscapes) :
    Falters False stringTurn offset [Ascii.backslash, letter] := by
  have ascii : letter < 0x80 := by
    simp only [shortEscapes, List.mem_cons, Prod.mk.injEq, List.not_mem_nil, or_false] at listed
    rcases listed with ⟨rfl, -⟩ | ⟨rfl, -⟩ | ⟨rfl, -⟩ | ⟨rfl, -⟩ | ⟨rfl, -⟩ | ⟨rfl, -⟩ | ⟨rfl, -⟩ |
      ⟨rfl, -⟩
    all_goals decide
  refine falters_of_waits
    (asciiText_cons.mpr ⟨by decide, asciiText_cons.mpr ⟨ascii, AsciiText.nil⟩⟩) ?_
  intro front truncated
  rcases truncated.cons_cases with rfl | ⟨front, rfl, second⟩
  · exact ⟨_, rfl⟩
  · rw [second.eq_nil]
    exact ⟨_, rfl⟩

/-- The bytes before a cut inside a character are not taken for one. -/
theorem plain_falters (visible : 0x20 ≤ c.toNat) (notQuote : c ≠ '\x22')
    (notBackslash : c ≠ '\x5c') : Falters False stringTurn offset (String.utf8EncodeChar c) := by
  intro front missing same nonempty
  left
  obtain ⟨d, rest, rfl⟩ := List.exists_cons_of_ne_nil nonempty
  have continues := Text.Utf8.continuation?_encodeChar same.symm
  cases front with
  | nil =>
    have starts : Text.Utf8.continuation? d = none := by simpa using continues
    simp only [Json.cutKind, List.head?_cons, Option.bind_some, starts]
    exact ⟨_, rfl, rfl⟩
  | cons b front =>
    obtain ⟨bits, within⟩ := Option.isSome_iff_exists.mp (continues.mpr (List.cons_ne_nil _ _))
    have plain := (isPlainByte_encodeChar same.symm).mpr ⟨visible, notQuote, notBackslash⟩
    have split := plain
    simp only [isPlainByte, Bool.and_eq_true, bne_iff_ne] at split
    have undecoded := Text.Utf8.decode?_of_cut (List.cons_ne_nil _ _) same.symm
    have fails : FailsAs plainChar ⟨offset, b :: front⟩ .unexpected :=
      ⟨_, by rw [plainChar]; simp only [undecoded]; rfl, rfl⟩
    have turn : FailsAs (plainChar >>= fun c => (pure (.inl c) : Scan (Char ⊕ Unit)))
      ⟨offset, b :: front⟩ .unexpected := fails.bind
    unfold FailsAs at turn ⊢
    rw [stringTurn, peek?_bind, List.head?_cons]
    simp only [if_neg split.1.1, if_neg split.1.2, if_pos plain, Json.cutKind, List.head?_cons,
      Option.bind_some, within]
    exact turn

theorem CharText.falters (spelled : CharText text c) : Falters False stringTurn offset text := by
  cases spelled with
  | plain visible notQuote notBackslash => exact plain_falters visible notQuote notBackslash
  | short listed => exact short_falters listed
  | unit spelled single => exact spelled.falters
  | pair spelled followed leads trails => exact spelled.falters_pair followed leads

theorem CharsText.falters {chars : List Char} (spelled : CharsText text chars) :
    Falters False (collect stringTurn) offset (text ++ [Ascii.doubleQuote]) := by
  induction spelled generalizing offset with
  | nil =>
    refine Falters.collectLast stringTurn_readsOn (falters_of_waits ?_ ?_)
    · exact asciiText_of_all rfl
    · intro front truncated
      rw [truncated.eq_nil]
      exact ⟨_, rfl⟩
  | cons spelled others ih =>
    rw [List.append_assoc]
    exact spelled.falters.collectMore stringTurn_readsOn (fun _ => spelled.reads) ih

theorem StringText.falters {value : String} (spelled : StringText text value) :
    Falters False stringLiteral offset text := by
  apply Falters.located
  cases spelled with
  | mk spelled =>
    have quote : Falters False (literal "'\x22'" [Ascii.doubleQuote]) offset [Ascii.doubleQuote] :=
      falters_of_waits (asciiText_of_all rfl) (Waits.literal _)
    exact quote.bind False.elim (fun _ _ => Reads.literal _) (spelled.falters.map _)

theorem NumeralText.ascii {result : Numeral} (spelled : NumeralText text result) :
    AsciiText text := spelled.forall (fun _ => isDigit_ascii) (asciiText_of_all rfl)

end Texts

section Numerals

private theorem accept_yields : Yields (accept b) offset [b] := by
  intro front truncated
  rw [truncated.eq_nil]
  exact .inr ⟨false, accept_reads_other nofun⟩

/-- What is left of an integer is none, or an integer itself. -/
theorem IntegerText.yields (spelled : IntegerText text) : Yields integerPart offset text := by
  intro front truncated
  cases front with
  | nil => exact .inl ⟨_, rfl⟩
  | cons c front =>
    have left : IntegerText (c :: front) := by
      cases spelled with
      | zero => cases truncated.eq_nil
      | digits nonzero run =>
        have digits := truncated.all run.digits
        obtain ⟨rest, same⟩ := truncated.begins
        cases same
        exact .digits nonzero ⟨List.cons_ne_nil _ _, digits⟩
    exact .inr ⟨_, left.reads (Stops.nil _)⟩

theorem FractionText.yields {fraction : Option Bytes} (spelled : FractionText text fraction) :
    Yields fractionPart offset text := by
  cases spelled with
  | absent => exact fun _ truncated => absurd truncated Truncates.not_nil
  | present run =>
    refine accept_yields.bind ?_ (fun _ _ => accept_reads) ?_
    · intro marked offset
      cases marked with
      | false => exact .inr ⟨none, rfl⟩
      | true => exact .inl ⟨_, rfl⟩
    · exact (Yields.takeWhile1 _ run.digits).map _

theorem ExponentSign.yields {sign digits : Bytes} {negative : Bool}
    (signed : ExponentSign sign negative) (run : DigitsText digits) :
    Yields exponentPart.digits offset (sign ++ digits) := by
  have digitsYield (negative : Bool) (offset : Nat) :
      Yields (takeWhile1 "exponent digit" Ascii.isDigit >>= fun digits =>
        pure (some (negative, digits.value))) offset digits :=
    (Yields.takeWhile1 _ run.digits).map _
  have unsigned (c : UInt8) (noDigit : Ascii.isDigit c = false) : digits.head? ≠ some c := by
    obtain ⟨first, more, rfl⟩ := List.exists_cons_of_ne_nil run.nonempty
    exact head?_ne_of_ne (ne_of_accepts (run.digits first (by simp)) noDigit)
  cases signed with
  | absent =>
    refine Yields.afterNothing (fun front truncated => accept_reads_other
      (truncated.head?_ne (unsigned (Ascii.byte '-') rfl))) ?_
    exact Yields.afterNothing (fun front truncated => accept_reads_other
      (truncated.head?_ne (unsigned (Ascii.byte '+') rfl))) (digitsYield false _)
  | plus =>
    refine Yields.afterNothing (fun front truncated => accept_reads_other
      (truncated.head?_ne (head?_ne_of_ne (by decide)))) ?_
    exact accept_yields.bind (fun _ _ => .inl ⟨_, rfl⟩) (fun _ _ => accept_reads)
      (digitsYield false _)
  | minus =>
    refine accept_yields.bind ?_ (fun _ _ => accept_reads) (digitsYield true _)
    intro negative offset
    cases negative with
    | false => exact .inl ⟨_, rfl⟩
    | true => exact .inl ⟨_, rfl⟩

theorem ExponentText.yields {exponent : Option (Bool × Bytes)}
    (spelled : ExponentText text exponent) : Yields exponentPart offset text := by
  cases spelled with
  | absent => exact fun _ truncated => absurd truncated Truncates.not_nil
  | present marked signed run =>
    rcases marked with rfl | rfl
    · refine accept_yields.bind ?_ (fun _ _ => accept_reads) (signed.yields run)
      intro marked offset
      cases marked with
      | false => exact .inr ⟨none, rfl⟩
      | true => exact .inl ⟨_, rfl⟩
    · refine Yields.afterNothing (fun front truncated => accept_reads_other
        (truncated.head?_ne (head?_ne_of_ne (by decide)))) ?_
      refine accept_yields.bind ?_ (fun _ _ => accept_reads) (signed.yields run)
      intro marked offset
      cases marked with
      | false => exact .inr ⟨none, rfl⟩
      | true => exact .inl ⟨_, rfl⟩

theorem NumeralText.yields {result : Numeral} (spelled : NumeralText text result) :
    Yields numeral offset text := by
  cases spelled with
  | @mk sign integer fraction exponent negative _ _ signed whole part scale =>
    obtain ⟨noDigit, noPoint⟩ := scale.stops (Stops.nil _)
    have wholeStops := part.stops noDigit
    rw [List.append_nil] at noDigit noPoint wholeStops
    have unsigned (negative : Bool) (offset : Nat) :
        Yields (integerPart >>= fun integer => fractionPart >>= fun fraction =>
          exponentPart >>= fun exponent =>
            pure (Numeral.mk negative integer fraction exponent)) offset
          (integer ++ (fraction ++ exponent)) := by
      refine whole.yields.bind (fun _ _ => .inr ⟨_, rfl⟩)
        (fun _ truncated => whole.reads (truncated.stops wholeStops)) ?_
      refine part.yields.bind (fun _ _ => .inr ⟨_, rfl⟩)
        (fun _ truncated => part.reads (truncated.stops noDigit) (truncated.head?_ne noPoint)) ?_
      exact scale.yields.map _
    rw [List.append_assoc, List.append_assoc]
    cases signed with
    | absent =>
      refine Yields.afterNothing (fun front truncated => accept_reads_other
        (truncated.head?_ne ?_)) (unsigned false _)
      exact whole.head_ne_minus
    | minus =>
      exact accept_yields.bind (fun _ _ => .inl ⟨_, rfl⟩) (fun _ _ => accept_reads)
        (unsigned true _)

theorem NumeralText.yieldsNode {result : Numeral} (spelled : NumeralText text result) :
    Yields numberNode offset text := by
  intro front truncated
  rcases spelled.yields.located front truncated with ⟨expected, failed⟩ | ⟨value, read⟩
  · exact .inl ⟨expected, by rw [numberNode, failed]⟩
  · unfold Reads at read ⊢
    refine .inr ?_
    rw [numberNode, read]
    exact ⟨_, rfl⟩

end Numerals

end WireSpan.Json
