import WireSpan.Proofs.Json.Openings

/-! The limit on nesting. A document that is read under one limit is read as the same tree under
every other one that it keeps to, and refused at the first bracket or brace beyond any that it does
not. -/

namespace WireSpan

/-- The settings with another limit on nesting. -/
def Settings.withDepthLimit (settings : Settings) (limit : Nat) (positive : 1 ≤ limit)
    (bounded : limit ≤ maxDepthLimit) : Settings :=
  { settings with depthLimit := limit, depthLimit_pos := positive, depthLimit_le := bounded }

namespace Json

open Scan

/-- The scanner refuses its input for nesting too deeply, where the input first opens the level
`target`. -/
def Overruns {α : Type} (limit target : Nat) (scan : Scan α) (level : Nat) (input : Input) : Prop :=
  ∃ place : Nat, opening? target .outside input.offset level input.rest = some place ∧
    Refuses scan input ⟨.nestedTooDeep limit, place, .general⟩

/-- What becomes of a document under a limit, where another one gave it the tree `root`. -/
structure NestingRules (limit : Nat) (buffer : Bytes) (root : Located Json)
    (result : Except Failure (Located Json)) : Prop where
  within : root.value.depth ≤ limit → result = .ok root
  beyond : limit < root.value.depth → ∃ place : Nat,
    firstOpening? (limit + 1) buffer = some place ∧
      result = .error ⟨.nestedTooDeep limit, place, .json⟩

variable {limit target levels level level' offset : Nat} {text rest : Bytes} {input after : Input}

section Rules

variable {α β : Type} {scan first : Scan α} {next : α → Scan β} {turn : Scan (α ⊕ β)} {a : α}

theorem Overruns.bind (overrun : Overruns limit target first level input) :
    Overruns limit target (first >>= next) level input :=
  overrun.imp fun _ found => ⟨found.1, found.2.bind⟩

theorem Overruns.located (overrun : Overruns limit target scan level input) :
    Overruns limit target (located scan) level input :=
  overrun.imp fun _ found => ⟨found.1, found.2.located⟩

theorem Overruns.behind (read : Reads first offset text a rest)
    (crossed : Crosses target .outside level text .outside level')
    (overrun : Overruns limit target (next a) level' ⟨offset + text.length, rest⟩) :
    Overruns limit target (first >>= next) level ⟨offset, text ++ rest⟩ := by
  obtain ⟨place, opened, refused⟩ := overrun
  exact ⟨place, (crossed offset rest).trans opened, Refuses.behind read refused⟩

theorem Overruns.collect (readsOn : ReadsOn turn)
    (overrun : Overruns limit target turn level input) :
    Overruns limit target (Scan.collect turn) level input :=
  overrun.imp fun _ found => ⟨found.1, found.2.collect readsOn⟩

theorem Overruns.collectMore (readsOn : ReadsOn turn) (read : Reads turn offset text (.inl a) rest)
    (crossed : Crosses target .outside level text .outside level')
    (overrun : Overruns limit target (Scan.collect turn) level' ⟨offset + text.length, rest⟩) :
    Overruns limit target (Scan.collect turn) level ⟨offset, text ++ rest⟩ := by
  obtain ⟨place, opened, refused⟩ := overrun
  exact ⟨place, (crossed offset rest).trans opened, Refuses.collectMore readsOn read refused⟩

end Rules

section Entries

variable {α : Type} {closing opening : UInt8} {expected : String} {scan : Scan α}
  {entry : Nat → Bytes → α → Prop} {keeps : α → Prop} {values : List α}

/-- How entries are read of which only those that keep to the limit are read at all. -/
structure Guards (limit target level : Nat) (closing : UInt8) (scan : Scan α)
    (entry : Nat → Bytes → α → Prop) (keeps : α → Prop) : Prop where
  bracket : Bracket closing
  sound : Sound scan fun offset text value => entry offset text value ∧ keeps value
  complete : Complete scan fun offset text value => entry offset text value ∧ keeps value
  begins : ∀ offset text value, entry offset text value → Begins closing text
  keepsLevel : ∀ offset text value, entry offset text value → keeps value →
    KeepsLevel target level text
  overruns : ∀ offset text value rest, entry offset text value → ¬ keeps value →
    Overruns limit target scan level ⟨offset, text ++ rest⟩

theorem Guards.turn_overruns {before : Bytes} {value : α}
    (guards : Guards limit target level closing scan entry keeps) (blankBefore : BlankText before)
    (spelled : entry (offset + before.length) text value) (deep : ¬ keeps value) :
    Overruns limit target (entryTurn closing expected scan) level
      ⟨offset, before ++ text ++ rest⟩ := by
  have begun := guards.begins _ _ _ spelled
  have read : Reads blanks offset before () (text ++ rest) := blankBefore.reads begun.stops
  rw [List.append_assoc]
  exact Overruns.behind read blankBefore.keepsLevel (guards.overruns _ _ _ _ spelled deep).bind

/-- The first entry that does not keep to the limit ends the reading. -/
theorem Guards.turns_overrun (guards : Guards limit target level closing scan entry keeps)
    (spelled : EntriesText entry offset text values) (deep : ∃ value ∈ values, ¬ keeps value) :
    Overruns limit target (collect (entryTurn closing expected scan)) level
      ⟨offset, text ++ closing :: rest⟩ := by
  have readsOn : ReadsOn (entryTurn closing expected scan) := entryTurn_readsOn guards.sound
  induction spelled with
  | @last offset before text blank value blankBefore spelled blankAfter =>
    obtain ⟨other, only, tooDeep⟩ := deep
    rw [List.mem_singleton.mp only] at tooDeep
    rw [List.append_assoc]
    exact (guards.turn_overruns blankBefore spelled tooDeep).collect readsOn
  | @more offset before text blank more value values blankBefore spelled blankAfter continued ih =>
    by_cases kept : keeps value
    · have read : Reads (entryTurn closing expected scan) offset
          (before ++ text ++ blank ++ [Ascii.byte ',']) (.inl value) (more ++ closing :: rest) :=
        entryTurn_reads blankBefore (guards.begins _ _ _ spelled) blankAfter (by decide)
          (guards.complete ⟨spelled, kept⟩ (blankAfter.stops_numeral (Stops.cons (by decide) _)))
          fun _ => closes_reads_comma
      have entered := guards.keepsLevel _ _ _ spelled kept
      have crossed : KeepsLevel target level (before ++ text ++ blank ++ [Ascii.byte ',']) :=
        ((blankBefore.keepsLevel.append entered).append blankAfter.keepsLevel).append
          (keepsLevel_byte (by decide))
      obtain ⟨other, member, tooDeep⟩ := deep
      have later : other ∈ values := by
        rcases List.mem_cons.mp member with rfl | inside
        · exact absurd kept tooDeep
        · exact inside
      have overrun := ih ⟨other, later, tooDeep⟩
      have place : offset + (before ++ text ++ blank).length + 1 =
          offset + (before ++ text ++ blank ++ [Ascii.byte ',']).length := by
        simp only [List.length_append, List.length_singleton, Nat.add_assoc]
      rw [place] at overrun
      have whole := Overruns.collectMore readsOn read crossed overrun
      simpa only [List.append_assoc, List.cons_append, List.nil_append] using whole
    · rw [List.append_assoc, List.append_assoc]
      exact (guards.turn_overruns blankBefore spelled kept).collect readsOn

theorem Guards.entries_overrun
    (guards : Guards limit target (level + 1) closing scan entry keeps)
    (opens : isOpening opening = true) (other : level + 1 ≠ target)
    (spelled : EntriesText entry (offset + 1) text values)
    (deep : ∃ value ∈ values, ¬ keeps value) :
    Overruns limit target (entries closing expected scan) level
      ⟨offset, opening :: text ++ closing :: rest⟩ := by
  obtain ⟨before, inside, same, blankBefore, begun⟩ := spelled.begins guards.begins
  have passed : Reads blanks (offset + 1) before () (inside ++ closing :: rest) :=
    blankBefore.reads begun.stops
  unfold Reads at passed
  rw [← List.append_assoc, ← same] at passed
  have notClosed : (inside ++ closing :: rest).head? ≠ some closing := by
    obtain ⟨b, more, rfl, -, noClosing⟩ := begun
    exact head?_ne_of_ne noClosing
  obtain ⟨place, opened, refused⟩ :
      Overruns limit target (collect (entryTurn closing expected scan)) (level + 1)
        ⟨offset + 1, text ++ closing :: rest⟩ := guards.turns_overrun spelled deep
  refine ⟨place, ((crosses_opening opens other) offset _).trans opened, ?_⟩
  unfold Refuses at refused
  rw [← collect_after_blanks guards.sound passed] at refused
  unfold Refuses
  rw [entries, skip_bind]
  exact Refuses.behind passed (Refuses.behind (accept_reads_other notClosed) (Refuses.bind refused))

end Entries

section Values

variable {node : Located Json}

/-- A member opens a level too many where its value does. -/
theorem member_overruns {scan : Scan (Located Json)} {member : Member Json}
    (spelled : MemberText offset text member)
    (valued : ∀ offset text, ValueText offset text member.value →
      Overruns limit target scan level ⟨offset, text ++ rest⟩) :
    Overruns limit target (Json.member scan) level ⟨offset, text ++ rest⟩ := by
  cases spelled with
  | @mk _ name before after text key value named blankBefore blankAfter spelled =>
    have place : offset + (name ++ before ++ Ascii.byte ':' :: after).length =
        offset + name.length + before.length + 1 + after.length := by
      simp only [List.length_append, List.length_cons]
      omega
    have overrun := valued _ _ spelled
    rw [place] at overrun
    rw [List.append_assoc, List.append_assoc, List.append_assoc, List.cons_append,
      ← List.singleton_append]
    refine Overruns.behind named.readsKey named.keepsLevel ?_
    refine Overruns.behind (blankBefore.reads (Stops.cons (by decide) _)) blankBefore.keepsLevel ?_
    refine Overruns.behind (Reads.literal "':'") (keepsLevel_byte (by decide)) ?_
    exact Overruns.behind (blankAfter.reads spelled.begins.stops) blankAfter.keepsLevel overrun.bind

/-- What an array or an object of the given depth holds is read as the limit has it. -/
theorem guards_items (within : level + levels + 1 = target)
    (overruns : ∀ offset text node rest, ValueText offset text node → ¬ node.value.depth ≤ levels →
      Overruns limit target (value limit levels) level ⟨offset, text ++ rest⟩) :
    Guards limit target level (Ascii.byte ']') (value limit levels) ValueText
      fun node => node.value.depth ≤ levels where
  bracket := bracket_array
  sound := value_sound limit levels
  complete := value_complete limit levels
  begins _ _ _ spelled := spelled.begins
  keepsLevel _ _ _ spelled shallow := spelled.keepsLevel shallow (by omega)
  overruns := overruns

private theorem guards_members (within : level + levels + 1 = target)
    (overruns : ∀ offset text node rest, ValueText offset text node → ¬ node.value.depth ≤ levels →
      Overruns limit target (value limit levels) level ⟨offset, text ++ rest⟩) :
    Guards limit target level (Ascii.byte '\x7d') (Json.member (value limit levels)) MemberText
      fun member => member.value.value.depth ≤ levels where
  bracket := bracket_object
  sound := member_sound (value_sound limit levels)
  complete := member_complete (value_complete limit levels)
  begins _ _ _ spelled := spelled.begins
  keepsLevel _ _ _ spelled shallow :=
    spelled.keepsLevel fun _ _ valued => valued.keepsLevel shallow (by omega)
  overruns _ _ _ _ spelled deep :=
    member_overruns spelled fun _ _ valued => overruns _ _ _ _ valued deep

/-- A value of too many levels is refused where it opens the first of them that is too many. -/
theorem value_overruns (spelled : ValueText offset text node) (deep : ¬ node.value.depth ≤ levels)
    (within : level + levels + 1 = target) :
    Overruns limit target (value limit levels) level ⟨offset, text ++ rest⟩ := by
  induction levels generalizing offset text node level rest with
  | zero =>
    cases spelled with
    | emptyArray | array | emptyObject | object =>
      exact ⟨offset, opening?_here rfl within, rfl⟩
    | _ => simp [depth] at deep
  | succ levels ih =>
    have deeper (offset : Nat) (text : Bytes) (node : Located Json) (rest : Bytes)
        (spelled : ValueText offset text node) (deep : ¬ node.value.depth ≤ levels) :
        Overruns limit target (value limit levels) (level + 1) ⟨offset, text ++ rest⟩ :=
      ih spelled deep (by omega)
    cases spelled with
    | array inside =>
      simp only [depth, Nat.add_le_add_iff_right, depthOfItems_le, Classical.not_forall,
        exists_prop] at deep
      rw [List.append_assoc]
      exact ((guards_items (by omega) deeper).entries_overrun rfl (by omega) inside
        deep).bind.located
    | object inside =>
      simp only [depth, Nat.add_le_add_iff_right, depthOfMembers_le, Classical.not_forall,
        exists_prop] at deep
      rw [List.append_assoc]
      exact ((guards_members (by omega) deeper).entries_overrun rfl (by omega) inside
        deep).bind.located
    | emptyArray => simp [depth, depthOfItems] at deep
    | emptyObject => simp [depth, depthOfMembers] at deep
    | _ => simp [depth] at deep

/-- A tree does not depend on the limit that it keeps to. -/
theorem value_agrees {limit' levels' : Nat} (read : value limit levels input = .ok (node, after))
    (shallow : node.value.depth ≤ levels') : value limit' levels' input = .ok (node, after) := by
  obtain ⟨text, passes, spelled, -⟩ := value_sound limit levels read
  obtain ⟨offset, bytes⟩ := input
  obtain ⟨place, rest⟩ := after
  obtain ⟨same, position⟩ := passes
  simp only at same position spelled
  subst same position
  by_cases number : node.value.form = .number
  · cases spelled with
    | number spelled =>
      obtain ⟨b, more, rfl, begun⟩ := spelled.head
      rw [List.cons_append, value_numeral begun] at read ⊢
      exact read
    | _ => cases number
  · exact value_reads limit' ⟨spelled, shallow⟩ fun found => absurd found number

end Values

section Documents

variable {settings : Settings} {root : Located Json} {anything : Bool} {trailing : Option Bool}
  {buffer : Bytes} {positive : 1 ≤ limit} {bounded : limit ≤ maxDepthLimit}

private theorem parse_of_error {cause : Cause} {place : Int}
    (failed : Refuses (document settings) (Input.ofBytes buffer) ⟨cause, place, .general⟩) :
    parse settings trailing buffer = .error ⟨cause, place, .json⟩ := parse_of_refused failed

private theorem document_agrees (read : document settings input = .ok (root, after))
    (shallow : root.value.depth ≤ limit) :
    document (settings.withDepthLimit limit positive bounded) input = .ok (root, after) := by
  obtain ⟨_, mid, spaced, scanned⟩ := bind_eq_ok.mp read
  exact bind_eq_ok.mpr ⟨_, mid, spaced, value_agrees scanned shallow⟩

private theorem document_overruns
    (read : document settings (Input.ofBytes buffer) = .ok (root, after))
    (deep : ¬ root.value.depth ≤ limit) :
    Overruns limit (limit + 1) (document (settings.withDepthLimit limit positive bounded)) 0
      (Input.ofBytes buffer) := by
  obtain ⟨before, text, passes, blankBefore, spelled, -⟩ := document_sound read
  have whole : Input.ofBytes buffer = ⟨0, before ++ (text ++ after.rest)⟩ := by
    rw [← List.append_assoc, ← passes.rest]
    rfl
  rw [whole]
  refine Overruns.behind (blankBefore.reads spelled.begins.stops) blankBefore.keepsLevel ?_
  rw [Nat.zero_add]
  exact value_overruns spelled deep (congrArg (· + 1) (Nat.zero_add limit))

/-- A document that is accepted under some limit on nesting has the same tree under every limit that
it keeps to. Under any other it is refused at the first bracket or brace, in the order of the
document and outside strings, that opens a level beyond the limit. -/
theorem parse_withDepthLimit (settings : Settings) (trailing : Option Bool) (buffer : Bytes)
    (root : Located Json) (parsed : parse settings trailing buffer = .ok root) (limit : Nat)
    (positive : 1 ≤ limit) (bounded : limit ≤ maxDepthLimit) :
    NestingRules limit buffer root
      (parse (settings.withDepthLimit limit positive bounded) trailing buffer) := by
  obtain ⟨after, found⟩ := parse_eq_ok.mp parsed
  obtain ⟨stop, read, ended⟩ := documentThen_eq_ok.mp found
  constructor
  · intro shallow
    exact parse_eq_ok.mpr
      ⟨after, documentThen_eq_ok.mpr ⟨stop, document_agrees read shallow, ended⟩⟩
  · intro deep
    obtain ⟨place, opened, refused⟩ := document_overruns read (Nat.not_le.mpr deep)
    exact ⟨place, opened, parse_of_error refused⟩

/-- An object in an array, with a bracket as its key and an empty array as its value. -/
theorem parse_withDepthLimit_bracket_as_key :
    parse (Settings.standard.withDepthLimit 2 (by decide) (by decide)) none (Ascii.bytes ['[',
        '\x7b', '\x22', '[', '\x22', ':', '[', ']', '\x7d', ']']) =
      .error ⟨.nestedTooDeep 2, 6, .json⟩ := by
  have parsed : parse .standard none (Ascii.bytes ['[', '\x7b', '\x22', '[', '\x22', ':', '[', ']',
      '\x7d', ']']) = .ok ⟨.array [⟨.object [⟨⟨"[", .ofLength 2 3⟩, ⟨.array [], .ofLength 6 2⟩⟩],
        .ofLength 1 8⟩], .ofLength 0 10⟩ := rfl
  obtain ⟨place, opened, refused⟩ :=
    (parse_withDepthLimit .standard none _ _ parsed 2 (by decide) (by decide)).beyond (by decide)
  have here : some place = some 6 := opened.symm.trans (by decide)
  cases here
  exact refused

end Documents

end Json

end WireSpan
