import WireSpan.Json.Document
import WireSpan.Proofs.Json.Numeral
import WireSpan.Proofs.Scan.Repetition

/-! Blanks, and the entries of a container for whatever is read as an entry. Arrays and objects
are the two cases of the laws below. -/

namespace WireSpan.Json

open Scan

variable {input after : Input} {offset : Nat} {text rest : Bytes} {b : UInt8}

theorem isBlank_iff : isBlank b = true ↔ b ∈ [0x20, 0x09, 0x0a, 0x0d] := by
  simp [isBlank, Ascii.space, Ascii.tab, Ascii.lineFeed, Ascii.carriageReturn, or_assoc]

theorem BlankText.all (blank : BlankText text) : ∀ b ∈ text, isBlank b = true :=
  fun b member => isBlank_iff.mpr (blank b member)

theorem BlankText.nil : BlankText [] := nofun

theorem blanks_sound {u : Unit} (read : blanks input = .ok (u, after)) :
    ∃ text, input.Passes text after ∧ BlankText text ∧ Stops isBlank after.rest := by
  obtain ⟨run, mid, found, result⟩ := bind_eq_ok.mp read
  obtain ⟨-, rfl⟩ := pure_eq_ok.mp result
  obtain ⟨passes, all, stops, -⟩ := takeWhile_sound found
  exact ⟨_, passes, fun b member => isBlank_iff.mp (all b member), stops⟩

theorem BlankText.reads (blank : BlankText text) (stops : Stops isBlank rest) :
    Reads blanks offset text () rest :=
  (Reads.takeWhile blank.all stops).map fun _ => ()

private theorem closes_sound {closing : UInt8} {expected : String} {closed : Bool}
    (read : closes closing expected input = .ok (closed, after)) :
    (closed = false ∧ input.Passes [Ascii.byte ','] after) ∨
      (closed = true ∧ input.Passes [closing] after) := by
  rw [closes, peek?_bind] at read
  cases found : input.rest.head? with
  | none =>
    rw [found] at read
    cases read
  | some b =>
    have passes := Input.passes_head found
    rw [found] at read
    simp only at read
    split at read
    · rename_i comma
      rw [skip_bind] at read
      obtain ⟨rfl, rfl⟩ := pure_eq_ok.mp read
      exact .inl ⟨rfl, comma ▸ passes⟩
    · split at read
      · rename_i bracket
        rw [skip_bind] at read
        obtain ⟨rfl, rfl⟩ := pure_eq_ok.mp read
        exact .inr ⟨rfl, bracket ▸ passes⟩
      · cases read

theorem closes_reads_comma {closing : UInt8} {expected : String} :
    Reads (closes closing expected) offset [Ascii.byte ','] false rest := rfl

private theorem closes_reads_closing {closing : UInt8} {expected : String}
    (noComma : closing ≠ Ascii.byte ',') :
    Reads (closes closing expected) offset [closing] true rest := by
  unfold Reads
  rw [closes, peek?_bind, List.cons_append, List.head?_cons]
  simp only [if_neg noComma, ↓reduceIte]
  rfl

/-- A closing bracket is no comma, no blank and no part of a numeral. -/
structure Bracket (closing : UInt8) : Prop where
  noComma : closing ≠ Ascii.byte ','
  noBlank : isBlank closing = false
  noNumeral : isNumeralByte closing = false

/-- Text that begins with neither a blank nor the closing bracket. -/
def Begins (closing : UInt8) (text : Bytes) : Prop :=
  ∃ b more, text = b :: more ∧ isBlank b = false ∧ b ≠ closing

theorem Begins.stops {closing : UInt8} (begins : Begins closing text) :
    Stops isBlank (text ++ rest) := by
  obtain ⟨b, more, rfl, noBlank, -⟩ := begins
  exact Stops.cons noBlank _

/-- The scanner reads whatever the relation allows, where nothing follows that could continue a
numeral. -/
def Complete {α : Type} (scan : Scan α) (entry : Nat → Bytes → α → Prop) : Prop :=
  ∀ ⦃offset : Nat⦄ ⦃text : Bytes⦄ ⦃value : α⦄ ⦃rest : Bytes⦄, entry offset text value →
    Stops isNumeralByte rest → Reads scan offset text value rest

section Entries

variable {α : Type} {closing mark : UInt8} {expected : String} {scan : Scan α}
  {entry other : Nat → Bytes → α → Prop} {value last : α} {values : List α}

theorem EntriesText.imp (spelled : EntriesText entry offset text values)
    (weaker : ∀ offset text value, entry offset text value → other offset text value) :
    EntriesText other offset text values := by
  induction spelled with
  | last blankBefore spelled blankAfter => exact .last blankBefore (weaker _ _ _ spelled) blankAfter
  | more blankBefore spelled blankAfter continued ih =>
    exact .more blankBefore (weaker _ _ _ spelled) blankAfter ih

theorem EntriesText.all {keeps : α → Prop}
    (spelled : EntriesText (fun offset text value => entry offset text value ∧ keeps value)
      offset text values) : ∀ value ∈ values, keeps value := by
  induction spelled with
  | last _ spelled _ => simpa using spelled.2
  | more _ spelled _ _ ih => simpa using ⟨spelled.2, ih⟩

theorem EntriesText.restrict {keeps : α → Prop} (spelled : EntriesText entry offset text values)
    (kept : ∀ value ∈ values, keeps value) :
    EntriesText (fun offset text value => entry offset text value ∧ keeps value)
      offset text values := by
  induction spelled with
  | last blankBefore spelled blankAfter =>
    exact .last blankBefore ⟨spelled, kept _ (by simp)⟩ blankAfter
  | more blankBefore spelled blankAfter continued ih =>
    exact .more blankBefore ⟨spelled, kept _ (by simp)⟩ blankAfter
      (ih fun value member => kept value (by simp [member]))

theorem entryTurn_sound {result : α ⊕ α} (sound : Sound scan entry)
    (read : entryTurn closing expected scan input = .ok (result, after)) :
    ∃ before text blank value mark, input.Passes (before ++ text ++ blank ++ [mark]) after ∧
      BlankText before ∧ entry (input.offset + before.length) text value ∧ BlankText blank ∧
        ((result = .inl value ∧ mark = Ascii.byte ',') ∨
          (result = .inr value ∧ mark = closing)) := by
  obtain ⟨_, first, found, later⟩ := bind_eq_ok.mp read
  obtain ⟨value, second, entered, later⟩ := bind_eq_ok.mp later
  obtain ⟨_, third, follow, later⟩ := bind_eq_ok.mp later
  obtain ⟨closed, fourth, marked, result⟩ := bind_eq_ok.mp later
  obtain ⟨before, passBefore, blankBefore, -⟩ := blanks_sound found
  obtain ⟨text, passText, spelled⟩ := sound entered
  obtain ⟨blank, passAfter, blankAfter, -⟩ := blanks_sound follow
  rw [passBefore.offset] at spelled
  have passes := (passBefore.trans passText).trans passAfter
  rcases closes_sound marked with ⟨rfl, passMark⟩ | ⟨rfl, passMark⟩
  · obtain ⟨rfl, rfl⟩ := pure_eq_ok.mp result
    exact ⟨_, _, _, _, _, passes.trans passMark, blankBefore, spelled, blankAfter, .inl ⟨rfl, rfl⟩⟩
  · obtain ⟨rfl, rfl⟩ := pure_eq_ok.mp result
    exact ⟨_, _, _, _, _, passes.trans passMark, blankBefore, spelled, blankAfter, .inr ⟨rfl, rfl⟩⟩

theorem entryTurn_readsOn (sound : Sound scan entry) :
    ReadsOn (entryTurn closing expected scan) := by
  intro input value after read
  obtain ⟨before, text, blank, _, mark, passes, -⟩ := entryTurn_sound sound read
  rw [passes.length_rest, List.length_append, List.length_singleton]
  omega

private theorem entryTurns_sound (sound : Sound scan entry)
    (turns : Turns (entryTurn closing expected scan) input values last after) :
    ∃ text, input.Passes (text ++ [closing]) after ∧
      EntriesText entry input.offset text (values ++ [last]) := by
  induction turns with
  | done ended =>
    obtain ⟨_, _, _, value, mark, passes, blankBefore, spelled, blankAfter, final⟩ :=
      entryTurn_sound sound ended
    rcases final with ⟨different, -⟩ | ⟨same, rfl⟩
    · cases different
    · cases same
      exact ⟨_, passes, .last blankBefore spelled blankAfter⟩
  | step read more ih =>
    obtain ⟨_, _, _, value, mark, passes, blankBefore, spelled, blankAfter, final⟩ :=
      entryTurn_sound sound read
    obtain ⟨text, passed, continued⟩ := ih
    rcases final with ⟨same, rfl⟩ | ⟨different, -⟩
    · cases same
      rw [passes.offset, List.length_append, List.length_singleton, ← Nat.add_assoc] at continued
      refine ⟨_, ?_, .more blankBefore spelled blankAfter continued⟩
      have whole := passes.trans passed
      simpa only [List.append_assoc, List.cons_append, List.nil_append] using whole
    · cases different

/-- Blanks that were passed over before the first turn make no difference to it. -/
theorem collect_after_blanks {mid : Input} {u : Unit} (sound : Sound scan entry)
    (found : blanks input = .ok (u, mid)) :
    collect (entryTurn closing expected scan) mid =
      collect (entryTurn closing expected scan) input := by
  obtain ⟨-, -, -, stops⟩ := blanks_sound found
  apply collect_congr (entryTurn_readsOn sound)
  have again : blanks mid = .ok ((), mid) := BlankText.nil.reads stops
  unfold entryTurn
  rw [bind_run, bind_run, found, again]

/-- What stands between the brackets of a container: blanks, or entries. -/
theorem entries_sound (sound : Sound scan entry)
    (opened : input.rest.head? = some b)
    (read : entries closing expected scan input = .ok (values, after)) :
    ∃ text, input.Passes (b :: text ++ [closing]) after ∧
      ((values = [] ∧ BlankText text) ∨ EntriesText entry (input.offset + 1) text values) := by
  rw [entries, skip_bind] at read
  have opening := Input.passes_head opened
  obtain ⟨_, first, found, later⟩ := bind_eq_ok.mp read
  obtain ⟨before, passBefore, blankBefore, -⟩ := blanks_sound found
  obtain ⟨closed, second, accepted, chosen⟩ := bind_eq_ok.mp later
  rcases accept_eq_ok.mp accepted with ⟨rfl, passMark⟩ | ⟨rfl, rfl, -⟩
  · obtain ⟨rfl, rfl⟩ := pure_eq_ok.mp chosen
    refine ⟨before, ?_, .inl ⟨rfl, blankBefore⟩⟩
    exact opening.trans (passBefore.trans passMark)
  · rw [if_neg Bool.false_ne_true] at chosen
    obtain ⟨⟨init, last⟩, stop, run, result⟩ := bind_eq_ok.mp chosen
    obtain ⟨rfl, rfl⟩ := pure_eq_ok.mp result
    rw [collect_after_blanks sound found] at run
    obtain ⟨text, passes, spelled⟩ := entryTurns_sound sound (Turns.ofCollect run)
    refine ⟨text, ?_, .inr spelled⟩
    exact opening.trans passes

/-- A container spans its two brackets and what stands between them. -/
theorem container_sound {build : List α → Json} {node : Located Json} (sound : Sound scan entry)
    (opened : input.rest.head? = some b)
    (read : located (entries closing expected scan >>= fun values => pure (build values)) input =
      .ok (node, after)) :
    ∃ text values, input.Passes (b :: text ++ [closing]) after ∧
      node = ⟨build values, Span.ofLength input.offset (text.length + 2)⟩ ∧
        ((values = [] ∧ BlankText text) ∨ EntriesText entry (input.offset + 1) text values) := by
  obtain ⟨value, scanned, rfl⟩ := located_eq_ok.mp read
  obtain ⟨values, stop, run, result⟩ := bind_eq_ok.mp scanned
  obtain ⟨rfl, rfl⟩ := pure_eq_ok.mp result
  obtain ⟨text, passes, inside⟩ := entries_sound sound opened run
  have length : (b :: text ++ [closing]).length = text.length + 2 := by simp
  refine ⟨text, values, passes, ?_, inside⟩
  rw [passes.spanTo, length]

/-- Blanks do not continue a numeral. -/
theorem BlankText.stops_numeral (blank : BlankText text) (stops : Stops isNumeralByte rest) :
    Stops isNumeralByte (text ++ rest) := by
  cases text with
  | nil => exact stops
  | cons c text =>
    refine Stops.cons ?_ _
    have listed := blank c (by simp)
    revert listed
    simp only [List.mem_cons, List.not_mem_nil, or_false]
    rintro (rfl | rfl | rfl | rfl) <;> decide

theorem entryTurn_reads {before blank : Bytes} {closed : Bool} (blankBefore : BlankText before)
    (begins : Begins closing text) (blankAfter : BlankText blank)
    (noBlank : isBlank mark = false)
    (read : Reads scan (offset + before.length) text value (blank ++ mark :: rest))
    (marked : ∀ offset, Reads (closes closing expected) offset [mark] closed rest) :
    Reads (entryTurn closing expected scan) offset (before ++ text ++ blank ++ [mark])
      (if closed = true then .inr value else .inl value) rest := by
  rw [List.append_assoc, List.append_assoc]
  refine (blankBefore.reads ?_).bind (Reads.bind ?_ ((blankAfter.reads ?_).bind ((marked _).map
    fun closed : Bool => (if closed = true then .inr value else .inl value : α ⊕ α))))
  · rw [List.append_assoc]
    exact begins.stops
  · rw [List.append_assoc]
    exact read
  · exact Stops.cons noBlank _

/-- The turns that read the entries up to the closing bracket. -/
theorem EntriesText.turns (expected : String) (rest : Bytes) (bracket : Bracket closing)
    (complete : Complete scan entry)
    (begins : ∀ offset text value, entry offset text value → Begins closing text)
    (spelled : EntriesText entry offset text values) :
    ∃ init last, values = init ++ [last] ∧
      Turns (entryTurn closing expected scan) ⟨offset, text ++ closing :: rest⟩ init last
        ⟨offset + (text.length + 1), rest⟩ := by
  induction spelled with
  | @last offset before text blank value blankBefore spelled blankAfter =>
    have read : Reads (entryTurn closing expected scan) offset
        (before ++ text ++ blank ++ [closing]) (.inr value) rest :=
      entryTurn_reads blankBefore (begins _ _ _ spelled) blankAfter bracket.noBlank
        (complete spelled (blankAfter.stops_numeral (Stops.cons bracket.noNumeral _)))
        fun _ => closes_reads_closing bracket.noComma
    exact ⟨[], value, rfl, .done read.run_append⟩
  | @more offset before text blank more value values blankBefore spelled blankAfter continued ih =>
    have read : Reads (entryTurn closing expected scan) offset
        (before ++ text ++ blank ++ [Ascii.byte ',']) (.inl value) (more ++ closing :: rest) :=
      entryTurn_reads blankBefore (begins _ _ _ spelled) blankAfter (by decide)
        (complete spelled (blankAfter.stops_numeral (Stops.cons (by decide) _)))
        fun _ => closes_reads_comma
    obtain ⟨init, last, rfl, turns⟩ := ih
    refine ⟨value :: init, last, rfl, ?_⟩
    have place : offset + ((before ++ text ++ blank).length + (more.length + 1 + 1)) =
        offset + (before ++ text ++ blank).length + 1 + (more.length + 1) := by omega
    rw [List.append_assoc, List.length_append, List.length_cons, Nat.add_assoc, place]
    exact .step read.run_append turns

private theorem skip_one_reads {β : Type} {next : Unit → Scan β} {value : β} (first : UInt8)
    (continued : Reads (next ()) (offset + 1) text value rest) :
    Reads (skip 1 >>= next) offset (first :: text) value rest :=
  Reads.byteThen (a := ()) rfl continued

theorem BlankText.readsEntries (bracket : Bracket closing) (opening : UInt8)
    (blank : BlankText text) :
    Reads (entries closing expected scan) offset (opening :: text ++ [closing]) [] rest := by
  refine skip_one_reads opening ((blank.reads (Stops.cons bracket.noBlank _)).bind ?_)
  exact accept_reads.thenNothing (Reads.pure [])

theorem EntriesText.begins
    (begins : ∀ offset text value, entry offset text value → Begins closing text)
    (spelled : EntriesText entry offset text values) :
    ∃ before inside, text = before ++ inside ∧ BlankText before ∧ Begins closing inside := by
  cases spelled with
  | last blankBefore spelled blankAfter =>
    obtain ⟨b, more, rfl, noBlank, noClosing⟩ := begins _ _ _ spelled
    exact ⟨_, _, List.append_assoc _ _ _, blankBefore, b, _, rfl, noBlank, noClosing⟩
  | more blankBefore spelled blankAfter continued =>
    obtain ⟨b, more, rfl, noBlank, noClosing⟩ := begins _ _ _ spelled
    rw [List.append_assoc, List.append_assoc]
    exact ⟨_, _, rfl, blankBefore, b, _, rfl, noBlank, noClosing⟩

theorem EntriesText.reads (bracket : Bracket closing) (opening : UInt8)
    (sound : Sound scan entry) (complete : Complete scan entry)
    (begins : ∀ offset text value, entry offset text value → Begins closing text)
    (spelled : EntriesText entry (offset + 1) text values) :
    Reads (entries closing expected scan) offset (opening :: text ++ [closing]) values rest := by
  obtain ⟨before, inside, same, blankBefore, begun⟩ := spelled.begins begins
  have passed : Reads blanks (offset + 1) before () (inside ++ closing :: rest) :=
    blankBefore.reads begun.stops
  unfold Reads at passed
  rw [← List.append_assoc, ← same] at passed
  have other : (inside ++ closing :: rest).head? ≠ some closing := by
    obtain ⟨b, more, rfl, -, noClosing⟩ := begun
    exact head?_ne_of_ne noClosing
  obtain ⟨init, last, rfl, turns⟩ := spelled.turns expected rest bracket complete begins
  have run := turns.collect (entryTurn_readsOn sound)
  rw [← collect_after_blanks sound passed] at run
  have length : (opening :: text ++ [closing]).length = 1 + (text.length + 1) := by
    simp only [List.cons_append, List.length_cons, List.length_append, List.length_nil]
    omega
  unfold Reads
  rw [entries, skip_bind, List.append_assoc, length, ← Nat.add_assoc]
  refine bind_eq_ok.mpr ⟨_, _, passed, bind_eq_ok.mpr ⟨false, _, accept_reads_other other, ?_⟩⟩
  exact bind_eq_ok.mpr ⟨_, _, run, rfl⟩

theorem container_reads (build : List α → Json) {opening : UInt8}
    (read : Reads (entries closing expected scan) offset (opening :: text ++ [closing]) values
      rest) :
    Reads (located (entries closing expected scan >>= fun values => pure (build values))) offset
      (opening :: text ++ [closing]) ⟨build values, Span.ofLength offset (text.length + 2)⟩
        rest := by
  have length : (opening :: text ++ [closing]).length = text.length + 2 := by simp
  rw [← length]
  exact (read.map build).located

end Entries

end WireSpan.Json
