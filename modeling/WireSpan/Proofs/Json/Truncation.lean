import WireSpan.Proofs.Json.Acceptance
import WireSpan.Proofs.Json.Faltering

/-! What becomes of a document of which only the first bytes have arrived. -/

namespace WireSpan.Json

open Scan

variable {α : Type} {scan : Scan α} {entry : Nat → Bytes → α → Prop} {offset levels : Nat}
  {text rest : Bytes} {closing : UInt8} {expected : String}

private theorem hungry_closes : Hungry (closes closing expected) := fun _ => ⟨_, rfl⟩

theorem BlankText.yields (blank : BlankText text) : Yields blanks offset text :=
  (Yields.takeWhile blank.all).map _

/-- Blanks take nothing from a scanner that finds no input. -/
theorem Hungry.afterBlanks {next : Unit → Scan α} (hungry : Hungry (next ())) :
    Hungry (blanks >>= next) := by
  intro offset
  have passed : Reads blanks offset [] () [] := BlankText.nil.reads (Stops.nil _)
  exact RunsOut.after passed (hungry _)

private theorem hungry_entryTurn (hungry : Hungry scan) :
    Hungry (entryTurn closing expected scan) :=
  Hungry.afterBlanks hungry.bind

/-- A scanner that reads the entries of a relation, and that falters where one is cut off. -/
structure EntryScan (closing : UInt8) (scan : Scan α) (entry : Nat → Bytes → α → Prop) : Prop where
  sound : Sound scan entry
  complete : Complete scan entry
  hungry : Hungry scan
  begins : ∀ offset text value, entry offset text value → Begins closing text
  falters : ∀ offset text value, entry offset text value → Falters True scan offset text

/-- A mark that may follow an entry. It is neither a blank nor a part of a numeral. -/
structure EntryEnd (mark : UInt8) : Prop where
  ascii : mark < 0x80
  noBlank : isBlank mark = false
  noNumeral : isNumeralByte mark = false

private theorem entryEnd_comma : EntryEnd (Ascii.byte ',') := ⟨by decide, by decide, by decide⟩

section Entries

variable {before blank : Bytes} {mark opening : UInt8} {value : α} {values : List α}

/-- The blanks and the mark after an entry. -/
theorem closes_waits {β : Type} {finish : Bool → Scan β} (blankAfter : BlankText blank)
    (noBlank : isBlank mark = false) :
    Waits (blanks >>= fun _ => closes closing expected >>= finish) offset (blank ++ [mark]) := by
  refine blankAfter.yields.thenWaits (fun _ => hungry_closes.bind)
    (fun _ truncated => blankAfter.reads (truncated.stops (Stops.cons noBlank _))) ?_
  intro front truncated
  rw [truncated.eq_nil]
  exact hungry_closes.bind _

theorem EntryScan.turn_falters (reader : EntryScan closing scan entry)
    (blankBefore : BlankText before) (spelled : entry (offset + before.length) text value)
    (blankAfter : BlankText blank) (ends : EntryEnd mark) :
    Falters False (entryTurn closing expected scan) offset
      (before ++ text ++ blank ++ [mark]) := by
  have begins := reader.begins _ _ _ spelled
  rw [List.append_assoc, List.append_assoc]
  refine (falters_of_yields blankBefore.ascii blankBefore.yields).bind
    (fun _ _ => reader.hungry.bind)
    (fun _ truncated => blankBefore.reads (truncated.stops begins.stops)) ?_
  have stopped : Stops isNumeralByte (blank ++ [mark]) :=
    blankAfter.stops_numeral (Stops.cons ends.noNumeral _)
  refine (reader.falters _ _ _ spelled).bind (fun _ _ => Hungry.afterBlanks hungry_closes.bind)
    (fun _ truncated => reader.complete spelled (truncated.stops stopped)) ?_
  refine falters_of_waits (asciiText_append.mpr ⟨blankAfter.ascii, ?_⟩) ?_
  · exact asciiText_cons.mpr ⟨ends.ascii, AsciiText.nil⟩
  · exact closes_waits blankAfter ends.noBlank

/-- The turns that read the entries run out, or fail as an entry does. -/
theorem EntriesText.turns_falter (expected : String) (reader : EntryScan closing scan entry)
    (ends : EntryEnd closing) (spelled : EntriesText entry offset text values) :
    Falters False (collect (entryTurn closing expected scan)) offset (text ++ [closing]) := by
  have readsOn : ReadsOn (entryTurn closing expected scan) := entryTurn_readsOn reader.sound
  induction spelled with
  | last blankBefore spelled blankAfter =>
    exact (reader.turn_falters blankBefore spelled blankAfter ends).collectLast readsOn
  | @more offset before text blank more value values blankBefore spelled blankAfter continued ih =>
    have same : before ++ text ++ blank ++ Ascii.byte ',' :: more ++ [closing] =
        before ++ text ++ blank ++ [Ascii.byte ','] ++ (more ++ [closing]) := by
      simp only [List.append_assoc, List.cons_append, List.nil_append]
    have turn : Falters False (entryTurn closing expected scan) offset
        (before ++ text ++ blank ++ [Ascii.byte ',']) :=
      reader.turn_falters blankBefore spelled blankAfter entryEnd_comma
    have read (rest : Bytes) : Reads (entryTurn closing expected scan) offset
        (before ++ text ++ blank ++ [Ascii.byte ',']) (.inl value) rest :=
      entryTurn_reads blankBefore (reader.begins _ _ _ spelled) blankAfter entryEnd_comma.noBlank
        (reader.complete spelled
          (blankAfter.stops_numeral (Stops.cons entryEnd_comma.noNumeral _)))
        fun _ => closes_reads_comma
    rw [same]
    refine turn.collectMore readsOn read ?_
    rw [List.length_append, List.length_singleton, ← Nat.add_assoc]
    exact ih

/-- The entries of a container and the closing bracket, from behind the opening one. -/
def entriesBehind (closing : UInt8) (expected : String) (scan : Scan α) : Scan (List α) := do
  blanks
  if ← accept closing then return []
  else
    let (values, last) ← collect (entryTurn closing expected scan)
    return values ++ [last]

private theorem entries_eq : entries closing expected scan =
    (do
      skip 1
      entriesBehind closing expected scan) := rfl

theorem EntryScan.hungry_chosen (reader : EntryScan closing scan entry) :
    Hungry (do
      if ← accept closing then return []
      else
        let (values, last) ← collect (entryTurn closing expected scan)
        return values ++ [last]) := by
  intro offset
  have other : Reads (accept closing) offset [] false [] := accept_reads_other nofun
  refine RunsOut.after other ?_
  exact ((hungry_entryTurn reader.hungry).collect (entryTurn_readsOn reader.sound)).bind _

theorem EntryScan.hungry_behind (reader : EntryScan closing scan entry) :
    Hungry (entriesBehind closing expected scan) := Hungry.afterBlanks reader.hungry_chosen

theorem BlankText.waits_behind (expected : String) (reader : EntryScan closing scan entry)
    (ends : EntryEnd closing) (blank : BlankText text) :
    Waits (entriesBehind closing expected scan) offset (text ++ [closing]) := by
  refine blank.yields.thenWaits (fun _ => reader.hungry_chosen)
    (fun _ truncated => blank.reads (truncated.stops (Stops.cons ends.noBlank _))) ?_
  intro front truncated
  rw [truncated.eq_nil]
  exact reader.hungry_chosen _

theorem EntriesText.falter_behind (expected : String) (reader : EntryScan closing scan entry)
    (ends : EntryEnd closing) (spelled : EntriesText entry offset text values) :
    Falters False (entriesBehind closing expected scan) offset (text ++ [closing]) := by
  intro front missing same nonempty
  have fails := (spelled.turns_falter expected reader ends).fails same nonempty
  obtain ⟨before, inside, rfl, blankBefore, begun⟩ := spelled.begins reader.begins
  -- Blanks are passed over, and what follows them is no closing bracket.
  obtain ⟨passed, rest, rfl, read, other⟩ : ∃ passed rest, front = passed ++ rest ∧
      Reads blanks offset passed () rest ∧ rest.head? ≠ some closing := by
    have truncated := truncates_of_append same nonempty
    rw [List.append_assoc] at truncated
    rcases truncated.append_cases with within | ⟨rest, rfl, behind⟩
    · have blank : BlankText front := fun b member => blankBefore b (within.begins.subset member)
      exact ⟨front, [], (List.append_nil _).symm, blank.reads (Stops.nil _), nofun⟩
    · refine ⟨before, rest, rfl, blankBefore.reads (behind.stops begun.stops), ?_⟩
      obtain ⟨b, more, rfl, -, noClosing⟩ := begun
      exact behind.head?_ne (head?_ne_of_ne noClosing)
  unfold FailsAs at fails
  rw [← collect_after_blanks reader.sound read] at fails
  have later : FailsAs (collect (entryTurn closing expected scan)) ⟨_, rest⟩ (cutKind missing) :=
    fails
  exact .inl (FailsAs.after read (FailsAs.after (accept_reads_other other) later.bind))

/-- A container falters wherever it is cut off, with or without entries. -/
theorem container_falters (build : List α → Json) (expected : String)
    (reader : EntryScan closing scan entry) (ends : EntryEnd closing) (ascii : opening < 0x80)
    (inside : BlankText text ∨ ∃ values, EntriesText entry (offset + 1) text values) :
    Falters False (located (entries closing expected scan >>= fun values => pure (build values)))
      offset (opening :: text ++ [closing]) := by
  have behind : Falters False (entriesBehind closing expected scan) (offset + 1)
      (text ++ [closing]) := by
    rcases inside with blank | ⟨values, spelled⟩
    · refine falters_of_waits (asciiText_append.mpr ⟨blank.ascii, ?_⟩)
        (blank.waits_behind expected reader ends)
      exact asciiText_cons.mpr ⟨ends.ascii, AsciiText.nil⟩
    · exact spelled.falter_behind expected reader ends
  refine Falters.located (Falters.map build ?_)
  intro front missing same nonempty
  left
  rw [entries_eq]
  rcases List.append_eq_cons_iff.mp same with ⟨rfl, rfl⟩ | ⟨front, rfl, rest⟩
  · rw [cutKind_of_ascii ascii]
    exact FailsAs.after rfl (reader.hungry_behind (offset + 1)).failsAs
  · exact FailsAs.after rfl (behind.fails rest.symm nonempty)

end Entries

private theorem hungry_value (limit levels : Nat) : Hungry (value limit levels) := by
  intro offset
  cases levels with
  | zero => exact ⟨_, rfl⟩
  | succ levels => exact ⟨_, rfl⟩

theorem StringText.falters_key {key : String} (spelled : StringText text key) :
    Falters False memberKey offset text := by
  have falters : Falters False stringLiteral offset text := spelled.falters
  obtain ⟨more, rfl⟩ := spelled.head
  exact falters.ofHead (by decide) (fun _ => ⟨_, rfl⟩) fun _ => rfl

section Values

variable {nodes : Scan (Located Json)} {node : Located Json}

private theorem member_falters {member : Member Json}
    (reader : EntryScan (Ascii.byte ']') nodes (ValueWithin levels))
    (within : MemberWithin levels offset text member) :
    Falters True (Json.member nodes) offset text := by
  obtain ⟨spelled, shallow⟩ := within
  cases spelled with
  | @mk _ name before after text key value named blankBefore blankAfter spelled =>
    have place : offset + (name ++ before ++ Ascii.byte ':' :: after).length =
        offset + name.length + before.length + 1 + after.length := by
      simp only [List.length_append, List.length_cons]
      omega
    rw [place] at spelled
    have colon (offset : Nat) : Falters False (literal "':'" [Ascii.byte ':']) offset
        [Ascii.byte ':'] :=
      falters_of_waits (asciiText_of_all rfl) (Waits.literal _)
    have stops : Stops isBlank (text ++ []) := spelled.begins.stops
    rw [List.append_nil] at stops
    rw [List.append_assoc, List.append_assoc, List.cons_append]
    refine named.falters_key.bind False.elim (fun _ _ => named.readsKey) ?_
    refine (falters_of_yields blankBefore.ascii blankBefore.yields).bind
      (fun _ _ => (Hungry.literal _).bind)
      (fun _ truncated => blankBefore.reads (truncated.stops (Stops.cons (by decide) _))) ?_
    refine (colon _).bind False.elim (fun _ _ => Reads.literal _) ?_
    refine (falters_of_yields blankAfter.ascii blankAfter.yields).bind
      (fun _ _ => reader.hungry.bind)
      (fun _ truncated => blankAfter.reads (truncated.stops stops)) ?_
    exact (reader.falters _ _ _ ⟨spelled, shallow⟩).map _

private theorem entryScan_member (reader : EntryScan (Ascii.byte ']') nodes (ValueWithin levels)) :
    EntryScan (Ascii.byte '\x7d') (Json.member nodes) (MemberWithin levels) where
  sound := member_sound reader.sound
  complete := member_complete reader.complete
  hungry _ := ⟨_, rfl⟩
  begins _ _ _ within := within.1.begins
  falters _ _ _ within := member_falters reader within

private theorem arrayNode_falters {items : List (Located Json)}
    (reader : EntryScan (Ascii.byte ']') nodes (ValueWithin levels))
    (spelled : ValueText offset text node) (shallow : node.value.depth ≤ levels + 1)
    (array : node.value = .array items) : Falters False (arrayNode nodes) offset text := by
  have ends : EntryEnd (Ascii.byte ']') :=
    ⟨by decide, bracket_array.noBlank, bracket_array.noNumeral⟩
  cases spelled with
  | emptyArray between => exact container_falters _ _ reader ends (by decide) (.inl between)
  | array spelled =>
    simp only [depth, Nat.add_le_add_iff_right] at shallow
    have within := spelled.restrict (depthOfItems_le.mp shallow)
    exact container_falters _ _ reader ends (by decide) (.inr ⟨_, within⟩)
  | _ => cases array

private theorem objectNode_falters {members : List (Member Json)}
    (reader : EntryScan (Ascii.byte ']') nodes (ValueWithin levels))
    (spelled : ValueText offset text node) (shallow : node.value.depth ≤ levels + 1)
    (object : node.value = .object members) : Falters False (objectNode nodes) offset text := by
  have ends : EntryEnd (Ascii.byte '\x7d') :=
    ⟨by decide, bracket_object.noBlank, bracket_object.noNumeral⟩
  have member := entryScan_member reader
  cases spelled with
  | emptyObject between => exact container_falters _ _ member ends (by decide) (.inl between)
  | object spelled =>
    simp only [depth, Nat.add_le_add_iff_right] at shallow
    have within := spelled.restrict (depthOfMembers_le.mp shallow)
    exact container_falters _ _ member ends (by decide) (.inr ⟨_, within⟩)
  | _ => cases object

private theorem word_falters (name : String) (chars : List Char) (node : Json) {loose : Prop}
    (ascii : AsciiText (Ascii.bytes chars)) :
    Falters loose (word name chars node) offset (Ascii.bytes chars) :=
  falters_of_waits ascii (Waits.literal name).thenNothing

/-- A value falters where it is cut off as soon as the two containers do. Only what is left of a
numeral may be one itself. -/
theorem valueWith_falters {arrays objects : Scan (Located Json)}
    (spelled : ValueText offset text node)
    (array : ∀ items, node.value = .array items → Falters False arrays offset text)
    (object : ∀ members, node.value = .object members → Falters False objects offset text) :
    Falters (node.value.form = .number) (valueWith arrays objects) offset text := by
  have hungry : Hungry (valueWith arrays objects) := fun _ => ⟨_, rfl⟩
  cases spelled with
  | null =>
    exact (word_falters "'null'" ['n', 'u', 'l', 'l'] .null (asciiText_of_all rfl)).ofHead
      (by decide) hungry fun _ => rfl
  | true =>
    exact (word_falters "'true'" ['t', 'r', 'u', 'e'] (.bool true) (asciiText_of_all rfl)).ofHead
      (by decide) hungry fun _ => rfl
  | false =>
    exact (word_falters "'false'" ['f', 'a', 'l', 's', 'e'] (.bool false)
      (asciiText_of_all rfl)).ofHead (by decide) hungry fun _ => rfl
  | number spelled =>
    have falters : Falters True numberNode offset text :=
      falters_of_yields spelled.ascii spelled.yieldsNode
    have ascii := spelled.ascii
    obtain ⟨b, more, rfl, begun⟩ := spelled.head
    exact (falters.weaken fun _ => rfl).ofHead (asciiText_cons.mp ascii).1 hungry
      (valueWith_numeral begun)
  | string spelled =>
    have falters : Falters False (stringLiteral >>= fun x => pure (x.map Json.string)) offset
        text := spelled.falters.map _
    obtain ⟨more, rfl⟩ := spelled.head
    exact (falters.weaken False.elim).ofHead (by decide) hungry fun _ => rfl
  | emptyArray =>
    exact ((array _ rfl).weaken False.elim).ofHead (by decide) hungry fun _ => rfl
  | array => exact ((array _ rfl).weaken False.elim).ofHead (by decide) hungry fun _ => rfl
  | emptyObject =>
    exact ((object _ rfl).weaken False.elim).ofHead (by decide) hungry fun _ => rfl
  | object => exact ((object _ rfl).weaken False.elim).ofHead (by decide) hungry fun _ => rfl

private theorem value_falters (limit levels : Nat) (within : ValueWithin levels offset text node) :
    Falters (node.value.form = .number) (value limit levels) offset text := by
  induction levels generalizing offset text node with
  | zero =>
    obtain ⟨spelled, shallow⟩ := within
    apply valueWith_falters spelled
    · intro items same
      simp [same, depth] at shallow
    · intro members same
      simp [same, depth] at shallow
  | succ levels ih =>
    obtain ⟨spelled, shallow⟩ := within
    have reader : EntryScan (Ascii.byte ']') (value limit levels) (ValueWithin levels) :=
      { sound := value_sound limit levels
        complete := value_complete limit levels
        hungry := hungry_value limit levels
        begins := fun _ _ _ within => within.1.begins
        falters := fun _ _ _ within => (ih within).weaken fun _ => trivial }
    apply valueWith_falters spelled
    · intro items same
      exact arrayNode_falters reader spelled shallow same
    · intro members same
      exact objectNode_falters reader spelled shallow same

end Values

/-- A document whose root is no number and lacks its end is refused, in whichever mode it is read:
the input runs out, unless the first missing byte goes on with a character. -/
theorem document_cut (settings : Settings) (trailing again : Option Bool) (buffer : Bytes)
    (root : Located Json) (cut : Nat) (parsed : parse settings trailing buffer = .ok root)
    (notNumber : root.value.form ≠ .number) (short : cut < root.span.stop) :
    ∃ failure, parse settings again (buffer.take cut) = .error failure ∧
      failure.kind = cutKind (buffer.drop cut) := by
  obtain ⟨before, text, after, rfl, blankBefore, spelled, shallow⟩ := parse_stands parsed
  have whole : Falters False (document settings) 0 (before ++ text) := by
    have value : Falters False (value settings.depthLimit settings.depthLimit) before.length text :=
      (value_falters _ _ ⟨spelled, shallow⟩).weaken notNumber
    refine (falters_of_yields blankBefore.ascii blankBefore.yields).bind
      (fun _ _ => hungry_value _ _) (fun _ truncated => blankBefore.reads ?_) ?_
    · have stops : Stops isBlank (text ++ []) := spelled.begins.stops
      rw [List.append_nil] at stops
      exact truncated.stops stops
    · rw [Nat.zero_add]
      exact value
  rw [spelled.span] at short
  have inside : cut < (before ++ text).length := by
    rw [List.length_append]
    exact short
  have some : (before ++ text).drop cut ≠ [] := by
    intro none
    have length := congrArg List.length none
    rw [List.length_drop, List.length_nil] at length
    omega
  obtain ⟨failure, failed, kind⟩ := whole.fails (List.take_append_drop cut _) some
  refine ⟨failure.reportedBy .json, ?_, ?_⟩
  · have read : documentThen settings (again.getD settings.trailingData)
        (Input.ofBytes ((before ++ text).take cut)) = .error failure := by
      rw [documentThen, bind_run]
      simp only [Input.ofBytes, failed]
    rw [List.take_append_of_le_length (Nat.le_of_lt inside), parse, read]
  · rw [List.drop_append_of_le_length (Nat.le_of_lt inside), cutKind_append some]
    exact kind

/-- A string cut off inside its only character, and an array cut off behind an item. -/
theorem document_cut_in_character :
    (∃ failure, parse .standard none [0x22, 0xc3] = .error failure ∧ failure.kind = .unexpected) ∧
      ∃ failure, parse .standard (some true) (Ascii.bytes ['[', '1']) = .error failure ∧
        failure.kind = .endOfInput :=
  ⟨document_cut .standard none none [0x22, 0xc3, 0xa9, 0x22] _ 2 rfl nofun (by decide),
    document_cut .standard none (some true) (Ascii.bytes ['[', '1', '2', ']']) _ 2 rfl nofun
      (by decide)⟩

end WireSpan.Json
