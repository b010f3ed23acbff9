import WireSpan.Proofs.Json.Subtrees
import WireSpan.Proofs.Span.Rebasing

/-! Where the parts of a document stand. Every value and every key covers the bytes that spell it,
and a container consists of its brackets, its parts in their order, and gaps that hold blanks, one
comma between entries and one colon inside a member. -/

namespace WireSpan.Json

/-- A bracket, anything, and another bracket. -/
def Bracketed (opening closing : UInt8) (bytes : Bytes) : Prop :=
  ∃ inside, bytes = opening :: inside ++ [closing]

/-- The bytes begin and end as the form of the value asks. A literal or a numeral is all of them. -/
def Delimited : Json → Bytes → Prop
  | null, bytes => bytes = Ascii.bytes ['n', 'u', 'l', 'l']
  | bool true, bytes => bytes = Ascii.bytes ['t', 'r', 'u', 'e']
  | bool false, bytes => bytes = Ascii.bytes ['f', 'a', 'l', 's', 'e']
  | number value text, bytes =>
    Ascii.latin1 bytes = text ∧ ∃ numeral, NumeralText bytes numeral ∧ numeral.number = value
  | string value, bytes => StringText bytes value
  | array _, bytes => Bracketed (Ascii.byte '[') (Ascii.byte ']') bytes
  | object _, bytes => Bracketed (Ascii.byte '\x7b') (Ascii.byte '\x7d') bytes

/-- One mark among blanks. -/
def Marked (mark : UInt8) (bytes : Bytes) : Prop :=
  ∃ before after, bytes = before ++ mark :: after ∧ BlankText before ∧ BlankText after

/-- The span of a key or a value in a container, and what is said of the gap before it. -/
abbrev Part := (Bytes → Prop) × Span

/-- Parts that are not empty follow one another from `start` to `stop`, each behind its gap. -/
def Parted (buffer : Bytes) : (start : Nat) → List Part → (stop : Nat) → Prop
  | start, [], stop => start = stop
  | start, (holds, span) :: parts, stop =>
    (∃ gap, Stands buffer start gap ∧ start + gap.length = span.start ∧ holds gap) ∧
      span.start < span.stop ∧ Parted buffer span.stop parts stop

/-- The parts of entries with commas between them. -/
def entryParts {α : Type} (parts : (Bytes → Prop) → α → List Part) :
    (Bytes → Prop) → List α → List Part
  | _, [] => []
  | gap, entry :: entries => parts gap entry ++ entryParts parts (Marked (Ascii.byte ',')) entries

def itemParts (gap : Bytes → Prop) (item : Located Json) : List Part := [(gap, item.span)]

/-- A key, and a value behind a colon. -/
def memberParts (gap : Bytes → Prop) (member : Member Json) : List Part :=
  [(gap, member.key.span), (Marked (Ascii.byte ':'), member.value.span)]

/-- Brackets at both ends of a span, and between them the parts, in their order and apart from one
another, with blanks after the last. -/
structure Partitioned (buffer : Bytes) (span : Span) (opening closing : UInt8)
    (parts : List Part) : Prop where
  opens : Stands buffer span.start [opening]
  parted : ∃ last blank, Parted buffer (span.start + 1) parts last ∧ Stands buffer last blank ∧
    BlankText blank ∧ last + blank.length + 1 = span.stop
  closes : Stands buffer (span.stop - 1) [closing]
  within : ∀ part ∈ parts, span.start < part.2.start ∧ part.2.stop < span.stop
  ordered : parts.Pairwise fun first second =>
    first.2.start < second.2.start ∧ first.2.stop ≤ second.2.start ∧
      first.2.disjoint second.2 = true

/-- A container consists of its parts. -/
def ContainerPartitioned (buffer : Bytes) (node : Located Json) : Prop :=
  match node.value with
  | array items =>
    Partitioned buffer node.span (Ascii.byte '[') (Ascii.byte ']')
      (entryParts itemParts BlankText items)
  | object members =>
    Partitioned buffer node.span (Ascii.byte '\x7b') (Ascii.byte '\x7d')
      (entryParts memberParts BlankText members)
  | _ => True

/-- A value of a tree stands where its span says. -/
structure ValuePlaced (buffer : Bytes) (root node : Located Json) : Prop where
  nonempty : node.span.isEmpty = false
  delimited : ∃ bytes, node.span.extract? buffer = .ok bytes ∧ Delimited node.value bytes
  partitioned : ContainerPartitioned buffer node
  reslices : Reslices buffer root.span node.span

/-- A key of a tree stands where its span says. -/
structure KeyPlaced (buffer : Bytes) (root : Located Json) (key : Located String) : Prop where
  nonempty : key.span.isEmpty = false
  quoted : ∃ bytes, key.span.extract? buffer = .ok bytes ∧ StringText bytes key.value
  reslices : Reslices buffer root.span key.span

variable {α : Type} {buffer text gap : Bytes} {offset start mid stop last : Nat}
  {holds : Bytes → Prop} {span : Span} {parts others : List Part} {opening closing : UInt8}

theorem Parted.le (parted : Parted buffer start parts stop) : start ≤ stop := by
  induction parts generalizing start with
  | nil => exact Nat.le_of_eq parted
  | cons part parts ih =>
    obtain ⟨⟨gap, -, place, -⟩, nonempty, later⟩ := parted
    have behind := ih later
    omega

theorem Parted.append (first : Parted buffer start parts mid)
    (second : Parted buffer mid others stop) : Parted buffer start (parts ++ others) stop := by
  induction parts generalizing start with
  | nil =>
    obtain rfl : start = mid := first
    exact second
  | cons part parts ih =>
    obtain ⟨held, nonempty, later⟩ := first
    exact ⟨held, nonempty, ih later⟩

theorem Parted.within (parted : Parted buffer start parts stop) :
    ∀ part ∈ parts, start ≤ part.2.start ∧ part.2.stop ≤ stop := by
  induction parts generalizing start with
  | nil => nofun
  | cons first parts ih =>
    obtain ⟨⟨gap, -, place, -⟩, nonempty, later⟩ := parted
    intro part member
    rcases List.mem_cons.mp member with rfl | member
    · have behind := later.le
      omega
    · have inside := ih later part member
      omega

theorem Parted.ordered (parted : Parted buffer start parts stop) :
    parts.Pairwise fun first second =>
      first.2.start < second.2.start ∧ first.2.stop ≤ second.2.start ∧
        first.2.disjoint second.2 = true := by
  induction parts generalizing start with
  | nil => exact List.Pairwise.nil
  | cons first parts ih =>
    obtain ⟨-, nonempty, later⟩ := parted
    refine List.Pairwise.cons (fun part member => ?_) (ih later)
    have behind := (later.within part member).1
    have apart : first.2.disjoint part.2 = true := by
      simp only [Span.disjoint, behind, decide_true, Bool.true_or]
    exact ⟨Nat.lt_of_lt_of_le nonempty behind, behind, apart⟩

/-- A part that stands behind its gap. -/
theorem Parted.single (stands : Stands buffer start (gap ++ text)) (held : holds gap)
    (nonempty : text ≠ []) (place : start + gap.length = offset) :
    Parted buffer start [(holds, Span.ofLength offset text.length)] (offset + text.length) := by
  have some := List.length_pos_iff.mpr nonempty
  exact ⟨⟨gap, (stands_append.mp stands).1, place, held⟩, Nat.lt_add_of_pos_right some, rfl⟩

private theorem partitioned_of_parted {blank : Bytes} (opens : Stands buffer span.start [opening])
    (parted : Parted buffer (span.start + 1) parts last)
    (stands : Stands buffer last (blank ++ [closing])) (between : BlankText blank)
    (ends : last + blank.length + 1 = span.stop) :
    Partitioned buffer span opening closing parts := by
  obtain ⟨standsBlank, standsClosing⟩ := stands_append.mp stands
  have place : last + blank.length = span.stop - 1 := by omega
  refine ⟨opens, ⟨last, blank, parted, standsBlank, between, ends⟩, ?_, ?_, parted.ordered⟩
  · rwa [← place]
  · intro part member
    have inside := parted.within part member
    omega

/-- Wherever an entry stands behind its gap, its parts do. -/
def EntryParted (buffer : Bytes) (entry : Nat → Bytes → α → Prop)
    (partsOf : (Bytes → Prop) → α → List Part) : Prop :=
  ∀ ⦃holds : Bytes → Prop⦄ ⦃start offset : Nat⦄ ⦃gap text : Bytes⦄ ⦃value : α⦄,
    entry offset text value → Stands buffer start (gap ++ text) → holds gap →
      start + gap.length = offset → Parted buffer start (partsOf holds value) (offset + text.length)

section Entries

variable {entry : Nat → Bytes → α → Prop} {values : List α}
  {partsOf : (Bytes → Prop) → α → List Part}

/-- Entries are parted as each of them is, whatever stands in the gap before the first. -/
theorem EntriesText.parted (single : EntryParted buffer entry partsOf)
    (spelled : EntriesText entry offset text values)
    (stands : Stands buffer start (gap ++ text))
    (held : ∀ blank, BlankText blank → holds (gap ++ blank)) (place : start + gap.length = offset) :
    ∃ last blank, Parted buffer start (entryParts partsOf holds values) last ∧
      Stands buffer last blank ∧ BlankText blank ∧ last + blank.length = offset + text.length := by
  induction spelled generalizing start gap holds with
  | @last offset before text blank value blankBefore spelled blankAfter =>
    have whole : gap ++ (before ++ text ++ blank) = gap ++ before ++ text ++ blank := by
      simp only [List.append_assoc]
    rw [whole] at stands
    obtain ⟨standsText, standsBlank⟩ := stands_append.mp stands
    have here : start + (gap ++ before).length = offset + before.length := by
      rw [List.length_append, ← Nat.add_assoc, place]
    have first := single spelled standsText (held before blankBefore) here
    rw [List.length_append, ← Nat.add_assoc, here] at standsBlank
    refine ⟨_, blank, first.append rfl, standsBlank, blankAfter, ?_⟩
    simp only [List.length_append, Nat.add_assoc]
  | @more offset before text blank rest value values blankBefore spelled blankAfter continued ih =>
    have whole : gap ++ (before ++ text ++ blank ++ Ascii.byte ',' :: rest) =
        gap ++ before ++ text ++ (blank ++ [Ascii.byte ','] ++ rest) := by
      simp only [List.append_assoc, List.cons_append, List.nil_append]
    rw [whole] at stands
    obtain ⟨standsText, standsRest⟩ := stands_append.mp stands
    have here : start + (gap ++ before).length = offset + before.length := by
      rw [List.length_append, ← Nat.add_assoc, place]
    have first := single spelled standsText (held before blankBefore) here
    rw [List.length_append, ← Nat.add_assoc, here] at standsRest
    have comma (after : Bytes) (blankFirst : BlankText after) :
        Marked (Ascii.byte ',') (blank ++ [Ascii.byte ','] ++ after) :=
      ⟨blank, after, List.append_assoc _ _ _, blankAfter, blankFirst⟩
    obtain ⟨last, final, later, standsFinal, blankFinal, ends⟩ := ih standsRest comma (by
      simp only [List.length_append, List.length_singleton, Nat.add_assoc])
    refine ⟨last, final, first.append later, standsFinal, blankFinal, ?_⟩
    rw [ends]
    simp only [List.length_append, List.length_cons, Nat.add_assoc, Nat.add_comm 1]

/-- What stands between the brackets of a container with entries is parted. -/
theorem EntriesText.partitioned (single : EntryParted buffer entry partsOf)
    (spelled : EntriesText entry (offset + 1) text values)
    (stands : Stands buffer offset (opening :: text ++ [closing])) :
    Partitioned buffer (Span.ofLength offset (text.length + 2)) opening closing
      (entryParts partsOf BlankText values) := by
  obtain ⟨opens, stands⟩ := stands_cons.mp stands
  obtain ⟨standsText, closes⟩ := stands_append.mp stands
  have noGap : Stands buffer (offset + 1) ([] ++ text) := standsText
  obtain ⟨last, blank, parted, standsBlank, blankLast, ends⟩ :=
    spelled.parted single noGap (fun _ blank => blank) rfl
  refine partitioned_of_parted opens parted (stands_append.mpr ⟨standsBlank, ?_⟩) blankLast ?_
  · rwa [ends]
  · rw [ends]
    simp only [Span.ofLength, Nat.add_assoc, Nat.add_comm 1]

end Entries

theorem BlankText.partitioned (blank : BlankText text)
    (stands : Stands buffer offset (opening :: text ++ [closing])) :
    Partitioned buffer (Span.ofLength offset (text.length + 2)) opening closing [] := by
  obtain ⟨opens, stands⟩ := stands_cons.mp stands
  refine partitioned_of_parted opens rfl stands blank ?_
  simp only [Span.ofLength, Nat.add_assoc, Nat.add_comm 1]

theorem ValueText.ne_nil {node : Located Json} (spelled : ValueText offset text node) :
    text ≠ [] := by
  obtain ⟨b, more, rfl, -⟩ := spelled.begins
  exact List.cons_ne_nil _ _

theorem StringText.ne_nil {value : String} (spelled : StringText text value) : text ≠ [] := by
  obtain ⟨more, rfl⟩ := spelled.head
  exact List.cons_ne_nil _ _

private theorem item_parted : EntryParted buffer ValueText itemParts := by
  intro holds start offset gap text item spelled stands held place
  rw [itemParts, spelled.span]
  exact Parted.single stands held spelled.ne_nil place

private theorem member_parted : EntryParted buffer MemberText memberParts := by
  intro holds start offset gap text member spelled stands held place
  cases spelled with
  | @mk _ name before after text key value named blankBefore blankAfter spelled =>
    have whole : gap ++ (name ++ before ++ Ascii.byte ':' :: after ++ text) =
        gap ++ name ++ (before ++ Ascii.byte ':' :: after ++ text) := by
      simp only [List.append_assoc]
    rw [whole] at stands
    obtain ⟨standsName, standsRest⟩ := stands_append.mp stands
    rw [List.length_append, ← Nat.add_assoc, place] at standsRest
    have colon : Marked (Ascii.byte ':') (before ++ Ascii.byte ':' :: after) :=
      ⟨before, after, rfl, blankBefore, blankAfter⟩
    have first := Parted.single standsName held named.ne_nil place
    have second := Parted.single standsRest colon spelled.ne_nil rfl
    have both := first.append second
    rw [memberParts, spelled.span]
    simpa only [List.length_append, List.cons_append, List.nil_append, Nat.add_assoc] using both

theorem ValueText.partitioned {node : Located Json} (spelled : ValueText offset text node)
    (stands : Stands buffer offset text) : ContainerPartitioned buffer node := by
  cases spelled with
  | emptyArray between => exact between.partitioned stands
  | array inside => exact inside.partitioned item_parted stands
  | emptyObject between => exact between.partitioned stands
  | object inside => exact inside.partitioned member_parted stands
  | _ => trivial

theorem ValueText.delimited {node : Located Json} (spelled : ValueText offset text node) :
    Delimited node.value text := by
  cases spelled with
  | null => rfl
  | true => rfl
  | false => rfl
  | number spelled => exact ⟨rfl, _, spelled, rfl⟩
  | string spelled => exact spelled
  | emptyArray => exact ⟨_, rfl⟩
  | array => exact ⟨_, rfl⟩
  | emptyObject => exact ⟨_, rfl⟩
  | object => exact ⟨_, rfl⟩

private theorem isEmpty_ofLength (nonempty : text ≠ []) :
    (Span.ofLength offset text.length).isEmpty = false := by
  have some := List.length_pos_iff.mpr nonempty
  simp only [Span.isEmpty, Span.ofLength, beq_eq_false_iff_ne]
  omega

theorem Inside.placed {root node : Located Json} (inside : Inside root node)
    (spelled : ValueText offset text root) (stands : Stands buffer offset text) :
    ValuePlaced buffer root node := by
  obtain ⟨front, part, back, rfl, within⟩ := inside.spelled spelled
  refine ⟨?_, ⟨part, ?_, within.delimited⟩, within.partitioned stands.part, ?_⟩
  · rw [within.span]
    exact isEmpty_ofLength within.ne_nil
  · rw [within.span]
    exact stands.part.extract
  · rw [within.span, spelled.span]
    exact stands.reslices

theorem KeyInside.placed {root : Located Json} {key : Located String} (inside : KeyInside root key)
    (spelled : ValueText offset text root) (stands : Stands buffer offset text) :
    KeyPlaced buffer root key := by
  obtain ⟨front, part, back, rfl, quoted, place⟩ := inside.spelled spelled
  refine ⟨?_, ⟨part, ?_, quoted⟩, ?_⟩
  · rw [place]
    exact isEmpty_ofLength quoted.ne_nil
  · rw [place]
    exact stands.part.extract
  · rw [place, spelled.span]
    exact stands.reslices

/-- In a tree that is read, every value and every key has the span of the bytes that spell it, and
every container consists of its brackets, its parts in order, and gaps. -/
theorem document_spans (settings : Settings) (trailing : Option Bool) (buffer : Bytes)
    (root : Located Json) (parsed : parse settings trailing buffer = .ok root) :
    (∀ node, Inside root node → ValuePlaced buffer root node) ∧
      ∀ key, KeyInside root key → KeyPlaced buffer root key := by
  obtain ⟨before, text, after, same, -, spelled, -⟩ := parse_stands parsed
  have stands : Stands buffer before.length text := ⟨before, after, same, rfl⟩
  exact ⟨fun _ inside => inside.placed spelled stands,
    fun _ inside => inside.placed spelled stands⟩

/-- An object with one member, between blanks. -/
theorem document_spans_member :
    ∃ root, parse .standard none (Ascii.bytes [' ', '\x7b', ' ', '\x22', 'a', '\x22', ' ', ':', '[',
        '1', ',', '2', ']', '\x7d', '\n']) = .ok root ∧
      (∀ node, Inside root node → ValuePlaced (Ascii.bytes [' ', '\x7b', ' ', '\x22', 'a', '\x22',
        ' ', ':', '[', '1', ',', '2', ']', '\x7d', '\n']) root node) ∧
      ∀ key, KeyInside root key → KeyPlaced (Ascii.bytes [' ', '\x7b', ' ', '\x22', 'a', '\x22',
        ' ', ':', '[', '1', ',', '2', ']', '\x7d', '\n']) root key :=
  ⟨_, rfl, document_spans .standard none _ _ rfl⟩

end WireSpan.Json
