import Mathlib.Data.List.Forall2
import Mathlib.Data.List.Induction
import Mathlib.Data.List.TakeWhile
import Mathlib.Data.Nat.Digits.Defs
import WireSpan.Proofs.Decimal.Whole
import WireSpan.Proofs.Http.Faults

/-! What the length fields of a message announce. All of their items count, in the order in which
they stand: together they announce a number if each of them is a numeral for it, and otherwise the
first one that is not decides what is reported. -/

namespace WireSpan

namespace Text

/-- A word of ASCII letters other than k is the lower case of the same texts under both foldings. -/
theorem map_lowerChar_iff {chars word : List Char} (noK : 'k' ∉ word)
    (noKelvin : '\u212A' ∉ word) :
    chars.map lowerChar = word ↔ chars.map Char.toLower = word := by
  induction word generalizing chars with
  | nil => simp
  | cons d word ih =>
    rw [List.mem_cons, not_or] at noK noKelvin
    cases chars with
    | nil => simp
    | cons c chars =>
      have same : lowerChar c = d ↔ c.toLower = d := by
        unfold lowerChar
        by_cases kelvin : c = '\u212A'
        · subst kelvin
          exact iff_of_false noK.1 noKelvin.1
        · rw [if_neg kelvin]
      rw [List.map_cons, List.map_cons, List.cons.injEq, List.cons.injEq, ih noK.2 noKelvin.2, same]

end Text

namespace Http

/-- The field has this name, in any letter case. The name is given in lower case. -/
def Field.HasName (field : Field) (name : String) : Prop :=
  field.name.value.toList.map Char.toLower = name.toList

instance (field : Field) (name : String) : Decidable (field.HasName name) :=
  inferInstanceAs (Decidable (_ = _))

/-- What stands between the commas of a value, in order. -/
structure CommaPieces (value : Bytes) (pieces : List Bytes) : Prop where
  nonempty : pieces ≠ []
  joined : value = List.intercalate [Ascii.byte ','] pieces
  apart : ∀ piece ∈ pieces, Ascii.byte ',' ∉ piece

/-- A piece of a list and what is left of it without the spaces and tabs at both ends. -/
inductive Stripped : Bytes → Bytes → Prop where
  | mk {before item after : Bytes} (blankBefore : SpacingText before) (trimmed : Trimmed item)
      (blankAfter : SpacingText after) : Stripped (before ++ item ++ after) item

/-- All items of the fields that announce a length, each with the field it stands in. -/
inductive LengthItems : Fields → List (Located Field × Bytes) → Prop where
  | nil : LengthItems [] []
  | other {field : Located Field} {fields : Fields} {items : List (Located Field × Bytes)}
      (otherwise : ¬ field.value.HasName "content-length") (later : LengthItems fields items) :
      LengthItems (field :: fields) items
  | length {field : Located Field} {fields : Fields} {items : List (Located Field × Bytes)}
      {pieces own : List Bytes} (named : field.value.HasName "content-length")
      (listed : CommaPieces field.value.value.value pieces)
      (stripped : List.Forall₂ Stripped pieces own) (later : LengthItems fields items) :
      LengthItems (field :: fields) (own.map (Prod.mk field) ++ items)

/-- A numeral, and the number that its digits make up from the last one on. -/
structure DecimalText (item : Bytes) (number : Nat) : Prop where
  run : RunText Ascii.isDigit item
  value : Nat.ofDigits 10 (item.reverse.map fun digit => digit.toNat - 0x30) = number

/-- The failure that the first item gives rise to which is no numeral, or one for another number
than the items before it. -/
inductive FirstOffence (items : List (Located Field × Bytes)) : Failure → Prop where
  | malformed {earlier later : List (Located Field × Bytes)} {field : Located Field} {item : Bytes}
      {length : Nat} (split : items = earlier ++ (field, item) :: later)
      (agreed : ∀ other ∈ earlier, DecimalText other.2 length)
      (malformed : ¬ RunText Ascii.isDigit item) :
      FirstOffence items ⟨.unexpected "decimal Content-Length"
        (field.value.value.value.take shownValueBytes), field.value.value.span.start, .general⟩
  | conflicting {earlier later : List (Located Field × Bytes)} {field : Located Field}
      {item : Bytes} {length other : Nat} (split : items = earlier ++ (field, item) :: later)
      (nonempty : earlier ≠ []) (agreed : ∀ other ∈ earlier, DecimalText other.2 length)
      (numeral : DecimalText item other) (differs : other ≠ length) :
      FirstOffence items ⟨.conflictingLengths length other, field.span.start, .general⟩

/-- What fields with these length items announce. -/
structure LengthOutcome (fields : Fields) (items : List (Located Field × Bytes))
    (result : Except Fault (Option Nat)) : Prop where
  absent : result = .ok none ↔ ∀ field ∈ fields, ¬ field.value.HasName "content-length"
  agreed : ∀ length, result = .ok (some length) ↔
    items ≠ [] ∧ ∀ item ∈ items, DecimalText item.2 length
  refused : ∀ fault, result = .error fault ↔
    ∃ failure, fault = .failed failure ∧ FirstOffence items failure

section Items

variable {fields : Fields} {field : Located Field} {value piece item : Bytes} {pieces : List Bytes}
  {items : List (Located Field × Bytes)} {length : Nat}

private theorem isNamed_iff {field : Field} {name : String} (folded : Text.lower name = name)
    (noK : 'k' ∉ name.toList) (noKelvin : '\u212A' ∉ name.toList) :
    field.isNamed name = true ↔ field.HasName name := by
  rw [Field.isNamed, beq_iff_eq, folded, Field.HasName, ← Text.map_lowerChar_iff noK noKelvin,
    Text.lower, ← String.toList_inj, String.toList_ofList]

private theorem isNamed_length {field : Field} :
    field.isNamed "content-length" = true ↔ field.HasName "content-length" :=
  isNamed_iff (by decide) (by decide) (by decide)

private theorem isNamed_coding {field : Field} :
    field.isNamed "transfer-encoding" = true ↔ field.HasName "transfer-encoding" :=
  isNamed_iff (by decide) (by decide) (by decide)

private theorem splitCommas_of_not_mem (apart : Ascii.byte ',' ∉ piece) :
    Ascii.splitCommas piece = [piece] := by
  induction piece with
  | nil => rfl
  | cons b piece ih =>
    rw [List.mem_cons, not_or] at apart
    exact splitCommas_cons (Ne.symm apart.1) (ih apart.2)

private theorem splitCommas_append (apart : Ascii.byte ',' ∉ piece) (rest : Bytes) :
    Ascii.splitCommas (piece ++ Ascii.byte ',' :: rest) = piece :: Ascii.splitCommas rest := by
  induction piece with
  | nil => exact splitCommas_comma rest
  | cons b piece ih =>
    rw [List.mem_cons, not_or] at apart
    exact splitCommas_cons (Ne.symm apart.1) (ih apart.2)

private theorem splitCommas_intercalate (nonempty : pieces ≠ [])
    (apart : ∀ piece ∈ pieces, Ascii.byte ',' ∉ piece) :
    Ascii.splitCommas (List.intercalate [Ascii.byte ','] pieces) = pieces := by
  induction pieces with
  | nil => exact absurd rfl nonempty
  | cons piece pieces ih =>
    obtain ⟨noComma, others⟩ := List.forall_mem_cons.mp apart
    cases pieces with
    | nil => rw [List.intercalate_singleton, splitCommas_of_not_mem noComma]
    | cons next pieces =>
      rw [List.intercalate_cons_cons, List.append_assoc, List.singleton_append,
        splitCommas_append noComma, ih (List.cons_ne_nil next pieces) others]

private theorem commaPieces_splitCommas (value : Bytes) :
    CommaPieces value (Ascii.splitCommas value) := by
  induction value with
  | nil => exact ⟨by simp [Ascii.splitCommas], rfl, by simp [Ascii.splitCommas]⟩
  | cons b rest ih =>
    obtain ⟨nonempty, joined, apart⟩ := ih
    obtain ⟨piece, pieces, split⟩ := List.exists_cons_of_ne_nil nonempty
    rw [split] at joined apart
    obtain ⟨noComma, others⟩ := List.forall_mem_cons.mp apart
    by_cases comma : b = Ascii.byte ','
    · subst comma
      rw [splitCommas_comma, split]
      refine ⟨List.cons_ne_nil _ _, ?_, List.forall_mem_cons.mpr ⟨List.not_mem_nil, apart⟩⟩
      rw [List.intercalate_cons_cons, joined]
      rfl
    · rw [splitCommas_cons comma split]
      refine ⟨List.cons_ne_nil _ _, ?_, List.forall_mem_cons.mpr ⟨?_, others⟩⟩
      · rw [joined]
        cases pieces with
        | nil => rw [List.intercalate_singleton, List.intercalate_singleton]
        | cons next pieces =>
          rw [List.intercalate_cons_cons, List.intercalate_cons_cons, List.cons_append,
            List.cons_append]
      · rw [List.mem_cons, not_or]
        exact ⟨Ne.symm comma, noComma⟩

/-- A value has its pieces only in one way. -/
theorem commaPieces_iff : CommaPieces value pieces ↔ pieces = Ascii.splitCommas value := by
  constructor
  · rintro ⟨nonempty, rfl, apart⟩
    exact (splitCommas_intercalate nonempty apart).symm
  · rintro rfl
    exact commaPieces_splitCommas value

private theorem trimmed_trim (bytes : Bytes) : Trimmed (Ascii.trim bytes) := by
  obtain ⟨blank, same, -, last⟩ := trimRight_spec (bytes.dropWhile Ascii.isSpaceOrTab)
  refine ⟨?_, last⟩
  intro b first
  obtain ⟨more, trimmed⟩ := List.head?_eq_some_iff.mp first
  apply stops_dropWhile Ascii.isSpaceOrTab bytes b
  rw [same]
  unfold Ascii.trim at trimmed
  rw [trimmed]
  rfl

private theorem trim_blank (blank : SpacingText piece) : Ascii.trim piece = [] := by
  rw [Ascii.trim, List.dropWhile_eq_nil_iff.mpr blank]
  rfl

private theorem stripped_iff : Stripped piece item ↔ item = Ascii.trim piece := by
  constructor
  · rintro ⟨blankBefore, trimmed, blankAfter⟩
    by_cases empty : item = []
    · subst empty
      rw [List.append_nil, trim_blank (List.forall_mem_append.mpr ⟨blankBefore, blankAfter⟩)]
    · exact (trim_append blankBefore trimmed empty blankAfter).symm
  · rintro rfl
    obtain ⟨before, after, same, blankBefore, blankAfter⟩ := trim_spec piece
    have stripped := Stripped.mk blankBefore (trimmed_trim piece) blankAfter
    rwa [← same] at stripped

private theorem forall₂_stripped {own : List Bytes} :
    List.Forall₂ Stripped pieces own ↔ own = pieces.map Ascii.trim := by
  induction pieces generalizing own with
  | nil => simp
  | cons piece pieces ih =>
    cases own with
    | nil => simp
    | cons item own => rw [List.forall₂_cons, stripped_iff, ih, List.map_cons, List.cons.injEq]

/-- The items that are looked at are those that the fields have. -/
theorem lengthItems_iff :
    LengthItems fields items ↔ items = listItems (lengthFields fields) := by
  induction fields generalizing items with
  | nil =>
    constructor
    · rintro ⟨⟩
      rfl
    · rintro rfl
      exact .nil
  | cons field fields ih =>
    by_cases named : field.value.HasName "content-length"
    · have kept : lengthFields (field :: fields) = field :: lengthFields fields := by
        simp [lengthFields, Fields.named, isNamed_length.mpr named]
      rw [kept, listItems, List.flatMap_cons, ← listItems]
      constructor
      · intro listed
        cases listed with
        | other otherwise => exact absurd named otherwise
        | length _ listed stripped later =>
          obtain rfl := commaPieces_iff.mp listed
          obtain rfl := forall₂_stripped.mp stripped
          rw [ih.mp later, List.map_map]
          rfl
      · rintro rfl
        have listed := LengthItems.length named (commaPieces_splitCommas _)
          (forall₂_stripped.mpr rfl) (ih.mpr rfl)
        rwa [List.map_map] at listed
    · have dropped : lengthFields (field :: fields) = lengthFields fields := by
        simp [lengthFields, Fields.named, mt isNamed_length.mp named]
      rw [dropped, ← ih]
      constructor
      · intro listed
        cases listed with
        | other _ later => exact later
        | length otherwise => exact absurd otherwise named
      · exact .other named

/-- There is an item wherever there is a field, since every value has a piece. -/
theorem LengthItems.eq_nil_iff (listed : LengthItems fields items) :
    items = [] ↔ ∀ field ∈ fields, ¬ field.value.HasName "content-length" := by
  induction listed with
  | nil => simp
  | other otherwise later ih => rw [ih, List.forall_mem_cons, and_iff_right otherwise]
  | @length field fields items pieces own named listed stripped later ih =>
    have some : own ≠ [] := by
      rintro rfl
      exact listed.nonempty (List.forall₂_nil_right_iff.mp stripped)
    simp [some, named]

end Items

section Numerals

variable {item : Bytes} {number : Nat}

private theorem denotes_iff (short : item.length ≤ Decimal.maxDigits) :
    Denotes item number ↔ DecimalText item number := by
  constructor
  · rintro ⟨run, -, value⟩
    exact ⟨run, by rw [← Decimal.decimalNumber_eq, value]⟩
  · rintro ⟨run, value⟩
    exact ⟨run, short, by rw [Decimal.decimalNumber_eq, value]⟩

private theorem decimalText_of_run (run : RunText Ascii.isDigit item) :
    ∃ number, DecimalText item number := ⟨_, run, rfl⟩

end Numerals

section Resolution

variable {fields : Fields} {items earlier later : List (Located Field × Bytes)} {length : Nat}
  {failure : Failure}

private theorem denotes_of_agreed (short : ∀ item ∈ items, item.2.length ≤ Decimal.maxDigits)
    (agreed : ∀ item ∈ items, DecimalText item.2 length) :
    ∀ item ∈ items, Denotes item.2 length :=
  fun item member => (denotes_iff (short item member)).mpr (agreed item member)

private theorem resolveLengths_agreeing {resolved : Option Nat}
    (denote : ∀ item ∈ earlier, Denotes item.2 length)
    (agrees : ∀ other, resolved = some other → other = length) (nonempty : earlier ≠ []) :
    resolveLengths resolved (earlier ++ later) = resolveLengths (some length) later := by
  induction earlier generalizing resolved with
  | nil => exact absurd rfl nonempty
  | cons first earlier ih =>
    obtain ⟨denotes, others⟩ := List.forall_mem_cons.mp denote
    rw [List.cons_append, resolveLengths_cons denotes agrees]
    cases earlier with
    | nil => rfl
    | cons second earlier =>
      refine ih others ?_ (List.cons_ne_nil second earlier)
      rintro other found
      exact (Option.some.inj found).symm

/-- Items that all denote one number leave the rest to be compared with it. -/
theorem resolveLengths_append (denote : ∀ item ∈ earlier, Denotes item.2 length)
    (nonempty : earlier ≠ []) :
    resolveLengths none (earlier ++ later) = resolveLengths (some length) later :=
  resolveLengths_agreeing denote nofun nonempty

private theorem resolveLengths_reaches (denote : ∀ item ∈ earlier, Denotes item.2 length) :
    ∃ resolved, resolveLengths none (earlier ++ later) = resolveLengths resolved later := by
  by_cases first : earlier = []
  · exact ⟨none, by rw [first]; rfl⟩
  · exact ⟨some length, resolveLengths_append denote first⟩

/-- Later items do not undo an offence. -/
theorem FirstOffence.append (offence : FirstOffence items failure)
    (more : List (Located Field × Bytes)) : FirstOffence (items ++ more) failure := by
  cases offence with
  | malformed split agreed malformed =>
    rw [split, List.append_assoc, List.cons_append]
    exact .malformed rfl agreed malformed
  | conflicting split nonempty agreed numeral differs =>
    rw [split, List.append_assoc, List.cons_append]
    exact .conflicting rfl nonempty agreed numeral differs

/-- Either all items denote one number, or there is a first one that does not. -/
theorem agreed_or_firstOffence (items : List (Located Field × Bytes)) :
    (∃ length, ∀ item ∈ items, DecimalText item.2 length) ∨
      ∃ failure, FirstOffence items failure := by
  induction items using List.reverseRecOn with
  | nil => exact .inl ⟨0, by simp⟩
  | append_singleton items last ih =>
    obtain ⟨field, item⟩ := last
    rcases ih with ⟨length, agreed⟩ | ⟨failure, offence⟩
    · by_cases run : RunText Ascii.isDigit item
      · obtain ⟨number, numeral⟩ := decimalText_of_run run
        by_cases alone : items = []
        · subst alone
          exact .inl ⟨number, List.forall_mem_singleton.mpr numeral⟩
        · by_cases same : number = length
          · subst same
            exact .inl ⟨number, List.forall_mem_append.mpr
              ⟨agreed, List.forall_mem_singleton.mpr numeral⟩⟩
          · exact .inr ⟨_, .conflicting rfl alone agreed numeral same⟩
      · exact .inr ⟨_, .malformed rfl agreed run⟩
    · exact .inr ⟨failure, offence.append _⟩

private theorem resolveLengths_malformed {resolved : Option Nat} {field : Located Field}
    {item : Bytes}
    (malformed : ¬ RunText Ascii.isDigit item) :
    resolveLengths resolved ((field, item) :: later) =
      misframed (.unexpected "decimal Content-Length"
        (field.value.value.value.take shownValueBytes)) field.value.value.span.start := by
  rw [resolveLengths, if_pos]
  rw [← Bool.not_eq_false]
  exact mt runText_isDigit.mp malformed

private theorem resolveLengths_conflicting {field : Located Field} {item : Bytes} {other : Nat}
    (denotes : Denotes item other) (differs : other ≠ length) :
    resolveLengths (some length) ((field, item) :: later) =
      misframed (.conflictingLengths length other) field.span.start := by
  rw [resolveLengths, if_neg (Bool.eq_false_iff.mp (runText_isDigit.mpr denotes.run)),
    if_neg (Nat.not_lt.mpr denotes.short)]
  simp only [denotes.value, if_neg differs]

private theorem resolveLengths_agreed (nonempty : items ≠ [])
    (short : ∀ item ∈ items, item.2.length ≤ Decimal.maxDigits)
    (agreed : ∀ item ∈ items, DecimalText item.2 length) :
    resolveLengths none items = .ok (some length) := by
  rw [← List.append_nil items, resolveLengths_append (denotes_of_agreed short agreed) nonempty]
  rfl

private theorem resolveLengths_refused (short : ∀ item ∈ items, item.2.length ≤ Decimal.maxDigits)
    (offence : FirstOffence items failure) :
    resolveLengths none items = .error (.failed failure) := by
  cases offence with
  | malformed split agreed malformed =>
    rw [split] at short ⊢
    obtain ⟨before, -⟩ := List.forall_mem_append.mp short
    obtain ⟨resolved, reached⟩ := resolveLengths_reaches (denotes_of_agreed before agreed)
    rw [reached]
    exact resolveLengths_malformed malformed
  | conflicting split nonempty agreed numeral differs =>
    rw [split] at short ⊢
    obtain ⟨before, behind⟩ := List.forall_mem_append.mp short
    obtain ⟨here, -⟩ := List.forall_mem_cons.mp behind
    rw [resolveLengths_append (denotes_of_agreed before agreed) nonempty]
    exact resolveLengths_conflicting ((denotes_iff here).mpr numeral) differs

private theorem resolveLengths_cases (short : ∀ item ∈ items, item.2.length ≤ Decimal.maxDigits) :
    (items = [] ∧ resolveLengths none items = .ok none) ∨
      (∃ length, items ≠ [] ∧ (∀ item ∈ items, DecimalText item.2 length) ∧
        resolveLengths none items = .ok (some length)) ∨
      ∃ failure, FirstOffence items failure ∧
        resolveLengths none items = .error (.failed failure) := by
  by_cases empty : items = []
  · subst empty
    exact .inl ⟨rfl, rfl⟩
  · rcases agreed_or_firstOffence items with ⟨length, agreed⟩ | ⟨failure, offence⟩
    · exact .inr (.inl ⟨length, empty, agreed, resolveLengths_agreed empty short agreed⟩)
    · exact .inr (.inr ⟨failure, offence, resolveLengths_refused short offence⟩)

private theorem contentLength_uncoded
    (uncoded : ∀ field ∈ fields, ¬ field.value.HasName "transfer-encoding") :
    contentLength fields = resolveLengths none (listItems (lengthFields fields)) := by
  have none : codingFields fields = [] := by
    apply List.filter_eq_nil_iff.mpr
    intro field member named
    exact uncoded field member (isNamed_coding.mp named)
  unfold contentLength
  rw [none]
  cases lengthFields fields <;> rfl

/-- Without transfer codings, and with items short enough to be converted, the length fields
announce what their items do. -/
theorem contentLength_exact
    (uncoded : ∀ field ∈ fields, ¬ field.value.HasName "transfer-encoding")
    (listed : LengthItems fields items)
    (short : ∀ item ∈ items, item.2.length ≤ Decimal.maxDigits) :
    LengthOutcome fields items (contentLength fields) := by
  rw [contentLength_uncoded uncoded, ← lengthItems_iff.mp listed]
  have ends := resolveLengths_cases short
  constructor
  · rw [← listed.eq_nil_iff]
    constructor
    · intro resolved
      rcases ends with ⟨empty, -⟩ | ⟨length, -, -, found⟩ | ⟨failure, -, found⟩
      · exact empty
      · cases found.symm.trans resolved
      · cases found.symm.trans resolved
    · rintro rfl
      rfl
  · intro length
    constructor
    · intro resolved
      rcases ends with ⟨-, found⟩ | ⟨number, nonempty, agreed, found⟩ | ⟨failure, -, found⟩
      · cases found.symm.trans resolved
      · cases found.symm.trans resolved
        exact ⟨nonempty, agreed⟩
      · cases found.symm.trans resolved
    · rintro ⟨nonempty, agreed⟩
      exact resolveLengths_agreed nonempty short agreed
  · intro fault
    constructor
    · intro failed
      rcases ends with ⟨-, found⟩ | ⟨length, -, -, found⟩ | ⟨failure, offence, found⟩
      · cases found.symm.trans failed
      · cases found.symm.trans failed
      · cases found.symm.trans failed
        exact ⟨failure, rfl, offence⟩
    · rintro ⟨failure, rfl, offence⟩
      exact resolveLengths_refused short offence

/-- Two fields with three items between them, of which one has a zero in front. -/
theorem contentLength_exact_two_fields :
    contentLength
      [⟨⟨⟨"Content-Length", .ofLength 16 14⟩, ⟨Ascii.bytes ['5', ',', ' ', '0', '5'],
          .ofLength 32 5⟩⟩, .ofLength 16 23⟩,
        ⟨⟨⟨"content-LENGTH", .ofLength 39 14⟩, ⟨Ascii.bytes ['5'], .ofLength 54 1⟩⟩,
          .ofLength 39 18⟩] = .ok (some 5) := by
  refine ((contentLength_exact (by decide) (lengthItems_iff.mpr rfl) (by decide)).agreed 5).mpr
    ⟨by decide, ?_⟩
  intro item member
  have digits : item.2 = [0x35] ∨ item.2 = [0x30, 0x35] := by decide +revert
  rcases digits with same | same <;> rw [same] <;> exact ⟨runText_isDigit.mp rfl, by decide⟩

end Resolution

end Http

end WireSpan
