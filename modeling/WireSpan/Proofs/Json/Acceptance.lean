import WireSpan.Proofs.Json.Entries
import WireSpan.Proofs.Json.StringLiteral

/-! The reader of documents accepts exactly the documents of the grammar that are not nested too
deeply, and returns the tree that the grammar gives them. -/

namespace WireSpan.Json

open Scan

variable {input after : Input} {offset levels : Nat} {text rest : Bytes}

theorem depthOfItems_le {items : List (Located Json)} :
    depthOfItems items ≤ levels ↔ ∀ item ∈ items, item.value.depth ≤ levels := by
  induction items with
  | nil => simp [depthOfItems]
  | cons item items ih => simp only [depthOfItems, Nat.max_le, ih, List.forall_mem_cons]

theorem depthOfMembers_le {members : List (Member Json)} :
    depthOfMembers members ≤ levels ↔ ∀ member ∈ members, member.value.value.depth ≤ levels := by
  induction members with
  | nil => simp [depthOfMembers]
  | cons member members ih => simp only [depthOfMembers, Nat.max_le, ih, List.forall_mem_cons]

/-- A value inside which at most `levels` containers are open at once. -/
def ValueWithin (levels offset : Nat) (text : Bytes) (node : Located Json) : Prop :=
  ValueText offset text node ∧ node.value.depth ≤ levels

/-- A member inside which at most `levels` containers are open at once. -/
def MemberWithin (levels offset : Nat) (text : Bytes) (member : Member Json) : Prop :=
  MemberText offset text member ∧ member.value.value.depth ≤ levels

theorem bracket_array : Bracket (Ascii.byte ']') := ⟨by decide, by decide, by decide⟩

theorem bracket_object : Bracket (Ascii.byte '\x7d') := ⟨by decide, by decide, by decide⟩

theorem memberKey_sound {key : Located String} (read : memberKey input = .ok (key, after)) :
    ∃ text, input.Passes text after ∧ StringText text key.value ∧
      key.span = Span.ofLength input.offset text.length := by
  rw [memberKey, peek?_bind] at read
  cases found : input.rest.head? with
  | none =>
    rw [found] at read
    cases read
  | some b =>
    rw [found] at read
    simp only at read
    split at read
    · exact stringLiteral_sound read
    · cases read

theorem member_sound {scan : Scan (Located Json)} (sound : Sound scan (ValueWithin levels)) :
    Sound (member scan) (MemberWithin levels) := by
  intro input after value read
  obtain ⟨key, first, named, later⟩ := bind_eq_ok.mp read
  obtain ⟨_, second, spaced, later⟩ := bind_eq_ok.mp later
  obtain ⟨_, third, colon, later⟩ := bind_eq_ok.mp later
  obtain ⟨_, fourth, follow, later⟩ := bind_eq_ok.mp later
  obtain ⟨node, stop, scanned, result⟩ := bind_eq_ok.mp later
  obtain ⟨rfl, rfl⟩ := pure_eq_ok.mp result
  obtain ⟨name, passName, named, place⟩ := memberKey_sound named
  obtain ⟨before, passBefore, blankBefore, -⟩ := blanks_sound spaced
  obtain ⟨passColon, -⟩ := literal_sound colon
  obtain ⟨after, passAfter, blankAfter, -⟩ := blanks_sound follow
  obtain ⟨text, passText, spelled, shallow⟩ := sound scanned
  have passes := ((passName.trans passBefore).trans passColon).trans passAfter
  rw [passes.offset, List.append_assoc, List.singleton_append] at spelled
  have whole := passes.trans passText
  rw [List.append_assoc _ _ after] at whole
  refine ⟨_, whole, ?_, shallow⟩
  have whole := MemberText.mk named blankBefore blankAfter spelled
  rwa [← place] at whole

private theorem arrayNode_sound {scan : Scan (Located Json)} {node : Located Json}
    (sound : Sound scan (ValueWithin levels)) (opened : input.rest.head? = some (Ascii.byte '['))
    (read : arrayNode scan input = .ok (node, after)) :
    ∃ text, input.Passes text after ∧ ValueWithin (levels + 1) input.offset text node := by
  obtain ⟨text, items, passes, rfl, inside⟩ := container_sound sound opened read
  refine ⟨_, passes, ?_⟩
  rcases inside with ⟨rfl, blank⟩ | spelled
  · exact ⟨.emptyArray blank, by simp [depth, depthOfItems]⟩
  · refine ⟨.array (spelled.imp fun _ _ _ => And.left), ?_⟩
    simp only [depth, Nat.add_le_add_iff_right]
    exact depthOfItems_le.mpr spelled.all

private theorem objectNode_sound {scan : Scan (Located Json)} {node : Located Json}
    (sound : Sound scan (ValueWithin levels))
    (opened : input.rest.head? = some (Ascii.byte '\x7b'))
    (read : objectNode scan input = .ok (node, after)) :
    ∃ text, input.Passes text after ∧ ValueWithin (levels + 1) input.offset text node := by
  obtain ⟨text, members, passes, rfl, inside⟩ := container_sound (member_sound sound) opened read
  refine ⟨_, passes, ?_⟩
  rcases inside with ⟨rfl, blank⟩ | spelled
  · exact ⟨.emptyObject blank, by simp [depth, depthOfMembers]⟩
  · refine ⟨.object (spelled.imp fun _ _ _ => And.left), ?_⟩
    simp only [depth, Nat.add_le_add_iff_right]
    exact depthOfMembers_le.mpr spelled.all

private theorem word_sound {name : String} {chars : List Char} {value : Json} {node : Located Json}
    (read : word name chars value input = .ok (node, after)) :
    input.Passes (Ascii.bytes chars) after ∧
      node = ⟨value, Span.ofLength input.offset (Ascii.bytes chars).length⟩ := by
  obtain ⟨found, mid, scanned, result⟩ := bind_eq_ok.mp read
  obtain ⟨rfl, rfl⟩ := pure_eq_ok.mp result
  obtain ⟨passes, rfl⟩ := literal_sound scanned
  exact ⟨passes, rfl⟩

/-- A value is spelled by its bytes as soon as the two containers are. -/
theorem valueWith_sound {arrays objects : Scan (Located Json)} {node : Located Json}
    (array : input.rest.head? = some (Ascii.byte '[') → arrays input = .ok (node, after) →
      ∃ text, input.Passes text after ∧ ValueWithin levels input.offset text node)
    (object : input.rest.head? = some (Ascii.byte '\x7b') → objects input = .ok (node, after) →
      ∃ text, input.Passes text after ∧ ValueWithin levels input.offset text node)
    (read : valueWith arrays objects input = .ok (node, after)) :
    ∃ text, input.Passes text after ∧ ValueWithin levels input.offset text node := by
  rw [valueWith, peek?_bind] at read
  cases found : input.rest.head? with
  | none =>
    rw [found] at read
    cases read
  | some b =>
    rw [found] at read
    simp only at read
    split at read
    · rename_i opening
      exact object (by rw [found, opening]) read
    split at read
    · rename_i opening
      exact array (by rw [found, opening]) read
    split at read
    · obtain ⟨value, mid, scanned, result⟩ := bind_eq_ok.mp read
      obtain ⟨rfl, rfl⟩ := pure_eq_ok.mp result
      obtain ⟨text, passes, spelled, place⟩ := stringLiteral_sound scanned
      refine ⟨text, passes, ?_, by simp [Located.map, depth]⟩
      rw [Located.map, place]
      exact .string spelled
    split at read
    · obtain ⟨passes, rfl⟩ := word_sound read
      exact ⟨_, passes, .true, by simp [depth]⟩
    split at read
    · obtain ⟨passes, rfl⟩ := word_sound read
      exact ⟨_, passes, .false, by simp [depth]⟩
    split at read
    · obtain ⟨passes, rfl⟩ := word_sound read
      exact ⟨_, passes, .null, by simp [depth]⟩
    split at read
    · obtain ⟨text, passes, spelled, flat⟩ := numberNode_sound read
      exact ⟨text, passes, spelled, by rw [flat]; exact Nat.zero_le _⟩
    · cases read

theorem value_sound (limit levels : Nat) : Sound (value limit levels) (ValueWithin levels) := by
  induction levels with
  | zero =>
    intro input after node read
    apply valueWith_sound _ _ read
    all_goals
      intro _ failed
      cases failed
  | succ levels ih =>
    intro input after node read
    exact valueWith_sound (arrayNode_sound ih) (objectNode_sound ih) read

theorem StringText.head {value : String} (spelled : StringText text value) :
    ∃ more, text = Ascii.doubleQuote :: more := by
  cases spelled
  exact ⟨_, rfl⟩

/-- A byte that a numeral may begin with. -/
def beginsNumeral (b : UInt8) : Bool := decide (b = Ascii.byte '-') || Ascii.isDigit b

theorem NumeralText.head {numeral : Numeral} (spelled : NumeralText text numeral) :
    ∃ b more, text = b :: more ∧ beginsNumeral b = true := by
  cases spelled with
  | mk signed whole part scale =>
    cases signed with
    | minus => exact ⟨_, _, rfl, rfl⟩
    | absent =>
      cases whole with
      | zero => exact ⟨_, _, rfl, rfl⟩
      | digits nonzero digits =>
        have digit := digits.digits _ (List.mem_cons_self ..)
        exact ⟨_, _, rfl, by simp [beginsNumeral, digit]⟩

theorem isBlank_of_beginsNumeral {b : UInt8} (begun : beginsNumeral b = true) :
    isBlank b = false := by
  cases blank : isBlank b with
  | false => rfl
  | true =>
    have listed := isBlank_iff.mp blank
    simp only [List.mem_cons, List.not_mem_nil, or_false] at listed
    rcases listed with rfl | rfl | rfl | rfl
    all_goals cases begun

/-- A byte that a value begins with stands for itself: it is no blank and closes nothing. -/
theorem ValueText.begins {node : Located Json} (spelled : ValueText offset text node) :
    Begins (Ascii.byte ']') text := by
  cases spelled with
  | null => exact ⟨_, _, rfl, by decide, by decide⟩
  | true => exact ⟨_, _, rfl, by decide, by decide⟩
  | false => exact ⟨_, _, rfl, by decide, by decide⟩
  | number spelled =>
    obtain ⟨b, more, rfl, begun⟩ := spelled.head
    exact ⟨_, _, rfl, isBlank_of_beginsNumeral begun, ne_of_accepts begun rfl⟩
  | string spelled =>
    obtain ⟨more, rfl⟩ := spelled.head
    exact ⟨_, _, rfl, by decide, by decide⟩
  | emptyArray => exact ⟨_, _, rfl, by decide, by decide⟩
  | array => exact ⟨_, _, rfl, by decide, by decide⟩
  | emptyObject => exact ⟨_, _, rfl, by decide, by decide⟩
  | object => exact ⟨_, _, rfl, by decide, by decide⟩

theorem ValueText.span {node : Located Json} (spelled : ValueText offset text node) :
    node.span = Span.ofLength offset text.length := by
  cases spelled with
  | emptyArray => simp
  | array => simp
  | emptyObject => simp
  | object => simp
  | _ => rfl

theorem MemberText.begins {member : Member Json} (spelled : MemberText offset text member) :
    Begins (Ascii.byte '\x7d') text := by
  cases spelled with
  | mk named =>
    obtain ⟨more, rfl⟩ := named.head
    exact ⟨_, _, rfl, by decide, by decide⟩

theorem StringText.readsKey {key : String} (spelled : StringText text key) :
    Reads memberKey offset text ⟨key, Span.ofLength offset text.length⟩ rest := by
  have read : Reads stringLiteral offset text _ rest := spelled.reads
  obtain ⟨more, rfl⟩ := spelled.head
  exact read

theorem member_complete {scan : Scan (Located Json)}
    (complete : Complete scan (ValueWithin levels)) :
    Complete (member scan) (MemberWithin levels) := by
  rintro offset text node rest ⟨spelled, shallow⟩ stops
  cases spelled with
  | @mk _ name before after text key value named blankBefore blankAfter spelled =>
    have place : offset + (name ++ before ++ Ascii.byte ':' :: after).length =
        offset + name.length + before.length + 1 + after.length := by
      simp only [List.length_append, List.length_cons]
      omega
    have read : Reads scan (offset + name.length + before.length + 1 + after.length) text value
        rest := by
      rw [← place]
      exact complete ⟨spelled, shallow⟩ stops
    rw [List.append_assoc, List.append_assoc, List.cons_append]
    refine named.readsKey.bind ((blankBefore.reads (Stops.cons (by decide) _)).bind ?_)
    refine (Reads.literal "':'").byteThen ((blankAfter.reads spelled.begins.stops).bind ?_)
    exact read.map (Member.mk ⟨key, Span.ofLength offset name.length⟩)

private theorem arrayNode_complete {scan : Scan (Located Json)} {node : Located Json}
    {items : List (Located Json)} (sound : Sound scan (ValueWithin levels))
    (complete : Complete scan (ValueWithin levels)) (spelled : ValueText offset text node)
    (shallow : node.value.depth ≤ levels + 1) (array : node.value = .array items) :
    Reads (arrayNode scan) offset text node rest := by
  cases spelled with
  | @emptyArray _ blank between =>
    exact container_reads Json.array (between.readsEntries bracket_array _)
  | @array _ inside items spelled =>
    simp only [depth, Nat.add_le_add_iff_right] at shallow
    have within := spelled.restrict (depthOfItems_le.mp shallow)
    apply container_reads Json.array
    exact within.reads bracket_array _ sound complete fun _ _ _ spelled => spelled.1.begins
  | _ => cases array

private theorem objectNode_complete {scan : Scan (Located Json)} {node : Located Json}
    {members : List (Member Json)} (sound : Sound scan (ValueWithin levels))
    (complete : Complete scan (ValueWithin levels)) (spelled : ValueText offset text node)
    (shallow : node.value.depth ≤ levels + 1) (object : node.value = .object members) :
    Reads (objectNode scan) offset text node rest := by
  cases spelled with
  | @emptyObject _ blank between =>
    exact container_reads Json.object (between.readsEntries bracket_object _)
  | @object _ inside members spelled =>
    simp only [depth, Nat.add_le_add_iff_right] at shallow
    have within := spelled.restrict (depthOfMembers_le.mp shallow)
    apply container_reads Json.object
    exact within.reads bracket_object _ (member_sound sound) (member_complete complete)
      fun _ _ _ spelled => spelled.1.begins
  | _ => cases object

/-- A byte that begins a numeral leads to the scanner of numerals. -/
theorem valueWith_numeral {arrays objects : Scan (Located Json)} {b : UInt8}
    (begun : beginsNumeral b = true) (rest : Bytes) :
    valueWith arrays objects ⟨offset, b :: rest⟩ = numberNode ⟨offset, b :: rest⟩ := by
  have other (c : UInt8) (rejected : beginsNumeral c = false) : b ≠ c :=
    ne_of_accepts begun rejected
  have number : (decide (b = Ascii.byte '-') || Ascii.isDigit b) = true := begun
  rw [valueWith, peek?_bind, List.head?_cons]
  simp only [if_neg (other (Ascii.byte '\x7b') rfl), if_neg (other (Ascii.byte '[') rfl),
    if_neg (other Ascii.doubleQuote rfl), if_neg (other (Ascii.byte 't') rfl),
    if_neg (other (Ascii.byte 'f') rfl), if_neg (other (Ascii.byte 'n') rfl), if_pos number]

theorem value_numeral {limit levels : Nat} {b : UInt8} (begun : beginsNumeral b = true) :
    value limit levels ⟨offset, b :: rest⟩ = numberNode ⟨offset, b :: rest⟩ := by
  cases levels with
  | zero => exact valueWith_numeral begun rest
  | succ levels => exact valueWith_numeral begun rest

theorem NumeralText.readsValue {arrays objects : Scan (Located Json)} {numeral : Numeral}
    (spelled : NumeralText text numeral) (stops : Stops isNumeralByte rest) :
    Reads (valueWith arrays objects) offset text
      ⟨.number numeral.number (Ascii.latin1 text), Span.ofLength offset text.length⟩ rest := by
  have read : Reads numberNode offset text _ rest := spelled.readsNode stops
  obtain ⟨b, more, rfl, begun⟩ := spelled.head
  unfold Reads at read ⊢
  rw [List.cons_append, valueWith_numeral begun]
  exact read

/-- Whatever is spelled is read, as soon as the two containers are. Only behind a numeral it matters
what follows. -/
theorem valueWith_complete {arrays objects : Scan (Located Json)} {node : Located Json}
    (spelled : ValueText offset text node)
    (stops : node.value.form = .number → Stops isNumeralByte rest)
    (array : ∀ items, node.value = .array items → Reads arrays offset text node rest)
    (object : ∀ members, node.value = .object members → Reads objects offset text node rest) :
    Reads (valueWith arrays objects) offset text node rest := by
  cases spelled with
  | null => rfl
  | true => rfl
  | false => rfl
  | number spelled => exact spelled.readsValue (stops rfl)
  | string spelled =>
    have read : Reads (stringLiteral >>= fun x => pure (x.map Json.string)) offset _ _ rest :=
      spelled.reads.map fun x => x.map Json.string
    obtain ⟨more, rfl⟩ := spelled.head
    exact read
  | emptyArray => exact array _ rfl
  | array => exact array _ rfl
  | emptyObject => exact object _ rfl
  | object => exact object _ rfl

theorem value_reads (limit : Nat) {node : Located Json}
    (within : ValueWithin levels offset text node)
    (stops : node.value.form = .number → Stops isNumeralByte rest) :
    Reads (value limit levels) offset text node rest := by
  induction levels generalizing offset text node rest with
  | zero =>
    obtain ⟨spelled, shallow⟩ := within
    apply valueWith_complete spelled stops
    · intro items same
      simp [same, depth] at shallow
    · intro members same
      simp [same, depth] at shallow
  | succ levels ih =>
    obtain ⟨spelled, shallow⟩ := within
    have sound := value_sound limit levels
    have complete : Complete (value limit levels) (ValueWithin levels) :=
      fun _ _ _ _ inner stopped => ih inner fun _ => stopped
    apply valueWith_complete spelled stops
    · intro items same
      exact arrayNode_complete sound complete spelled shallow same
    · intro members same
      exact objectNode_complete sound complete spelled shallow same

theorem value_complete (limit levels : Nat) :
    Complete (value limit levels) (ValueWithin levels) :=
  fun _ _ _ _ within stops => value_reads limit within fun _ => stops

theorem nothingElse_sound {u : Unit} (read : nothingElse input = .ok (u, after)) :
    BlankText input.rest := by
  obtain ⟨_, mid, found, later⟩ := bind_eq_ok.mp read
  obtain ⟨text, passes, blank, -⟩ := blanks_sound found
  rw [peek?_bind] at later
  cases next : mid.rest with
  | nil => rwa [passes.rest, next, List.append_nil]
  | cons b more =>
    rw [next] at later
    cases later

theorem BlankText.readsEnd (blank : BlankText text) : Reads nothingElse offset text () [] :=
  (blank.reads (Stops.nil _)).thenNothing rfl

theorem BlankText.nothingElse (blank : BlankText text) :
    Json.nothingElse ⟨offset, text⟩ = .ok ((), ⟨offset + text.length, []⟩) := by
  have read : Reads Json.nothingElse offset text () [] := blank.readsEnd
  unfold Reads at read
  rwa [List.append_nil] at read

/-- A document is read whole by every reader that may go deep enough. -/
theorem DocumentText.reads {root : Located Json} (limit : Nat) (spelled : DocumentText text root)
    (shallow : root.value.depth ≤ levels) :
    ∃ mid stop, blanks (Input.ofBytes text) = .ok ((), mid) ∧
      value limit levels mid = .ok (root, stop) ∧ BlankText stop.rest := by
  cases spelled with
  | @mk before text after root blankBefore spelled blankAfter =>
    have stops : Stops isNumeralByte after := by
      have stopped := blankAfter.stops_numeral (Stops.nil _)
      rwa [List.append_nil] at stopped
    have passed : Reads blanks 0 before () (text ++ after) := blankBefore.reads spelled.begins.stops
    have read : Reads (value limit levels) before.length text root after :=
      value_complete limit levels ⟨spelled, shallow⟩ stops
    unfold Reads at passed read
    rw [← List.append_assoc, Nat.zero_add] at passed
    exact ⟨_, _, passed, read, blankAfter⟩

/-- The grammar gives a document at most one tree. -/
theorem DocumentText.unique {root other : Located Json} (spelled : DocumentText text root)
    (again : DocumentText text other) : root = other := by
  have first := Nat.le_max_left root.value.depth other.value.depth
  have second := Nat.le_max_right root.value.depth other.value.depth
  obtain ⟨mid, stop, passed, read, -⟩ := spelled.reads 0 first
  obtain ⟨mid', stop', passed', read', -⟩ := again.reads 0 second
  rw [passed] at passed'
  cases passed'
  rw [read] at read'
  cases read'
  rfl

theorem document_sound {settings : Settings} {buffer : Bytes} {root : Located Json} {stop : Input}
    (read : document settings (Input.ofBytes buffer) = .ok (root, stop)) :
    ∃ before text, (Input.ofBytes buffer).Passes (before ++ text) stop ∧ BlankText before ∧
      ValueWithin settings.depthLimit before.length text root := by
  obtain ⟨_, mid, spaced, scanned⟩ := bind_eq_ok.mp read
  obtain ⟨before, passBefore, blankBefore, -⟩ := blanks_sound spaced
  obtain ⟨text, passText, within⟩ := value_sound _ _ scanned
  rw [passBefore.offset, Input.ofBytes, Nat.zero_add] at within
  exact ⟨before, text, passBefore.trans passText, blankBefore, within⟩

/-- A value behind blanks is read as a document. Only behind a numeral it matters what follows. -/
theorem document_reads {settings : Settings} {before : Bytes} {root : Located Json}
    (blankBefore : BlankText before)
    (within : ValueWithin settings.depthLimit before.length text root)
    (stops : root.value.form = .number → Stops isNumeralByte rest) :
    Reads (document settings) 0 (before ++ text) root rest := by
  refine (blankBefore.reads within.1.begins.stops).bind ?_
  rw [Nat.zero_add]
  exact value_reads settings.depthLimit within stops

section Parses

variable {settings : Settings} {anything : Bool} {trailing : Option Bool} {buffer : Bytes}
  {root : Located Json}

/-- What follows a document is looked at without regard to the settings. -/
theorem documentThen_eq_ok :
    documentThen settings anything input = .ok (root, after) ↔
      ∃ stop, document settings input = .ok (root, stop) ∧
        ((anything = true ∧ stop = after) ∨
          (anything = false ∧ nothingElse stop = .ok ((), after))) := by
  constructor
  · intro read
    obtain ⟨node, stop, found, later⟩ := bind_eq_ok.mp read
    cases anything with
    | true =>
      obtain ⟨rfl, rfl⟩ := pure_eq_ok.mp later
      exact ⟨stop, found, .inl ⟨rfl, rfl⟩⟩
    | false =>
      obtain ⟨_, last, ended, result⟩ := bind_eq_ok.mp later
      obtain ⟨rfl, rfl⟩ := pure_eq_ok.mp result
      exact ⟨stop, found, .inr ⟨rfl, ended⟩⟩
  · rintro ⟨stop, found, ⟨rfl, rfl⟩ | ⟨rfl, ended⟩⟩
    · exact bind_eq_ok.mpr ⟨_, _, found, rfl⟩
    · exact bind_eq_ok.mpr ⟨_, _, found, bind_eq_ok.mpr ⟨_, _, ended, rfl⟩⟩

theorem parse_eq_ok :
    parse settings trailing buffer = .ok root ↔
      ∃ after, documentThen settings (trailing.getD settings.trailingData)
        (Input.ofBytes buffer) = .ok (root, after) := by
  unfold parse
  split
  · rename_i result rest found
    simp [found]
  · rename_i failure found
    simp [found]

/-- Where a document fails, it does so whatever may follow it. -/
theorem parse_of_refused {failure : Failure}
    (failed : document settings (Input.ofBytes buffer) = .error failure) :
    parse settings trailing buffer = .error (failure.reportedBy .json) := by
  have whole : Refuses (documentThen settings (trailing.getD settings.trailingData))
      (Input.ofBytes buffer) failure := Refuses.bind failed
  unfold Refuses at whole
  rw [parse, whole]

/-- Whatever may follow it, a root stands in its buffer behind blanks. -/
theorem parse_stands (parsed : parse settings trailing buffer = .ok root) :
    ∃ before text after, buffer = before ++ text ++ after ∧ BlankText before ∧
      ValueWithin settings.depthLimit before.length text root := by
  obtain ⟨after, found⟩ := parse_eq_ok.mp parsed
  obtain ⟨stop, read, -⟩ := documentThen_eq_ok.mp found
  obtain ⟨before, text, passes, blankBefore, within⟩ := document_sound read
  exact ⟨before, text, stop.rest, passes.rest, blankBefore, within⟩

theorem parse_sound (read : parse settings (some false) buffer = .ok root) :
    DocumentText buffer root ∧ root.value.depth ≤ settings.depthLimit := by
  obtain ⟨after, found⟩ := parse_eq_ok.mp read
  obtain ⟨stop, document, ⟨anything, -⟩ | ⟨-, ended⟩⟩ := documentThen_eq_ok.mp found
  · cases anything
  · obtain ⟨before, text, passes, blankBefore, spelled, shallow⟩ := document_sound document
    have whole : buffer = before ++ text ++ stop.rest := passes.rest
    rw [whole]
    exact ⟨.mk blankBefore spelled (nothingElse_sound ended), shallow⟩

theorem parse_complete (spelled : DocumentText buffer root)
    (shallow : root.value.depth ≤ settings.depthLimit) :
    parse settings (some false) buffer = .ok root := by
  obtain ⟨mid, stop, passed, read, blank⟩ := spelled.reads settings.depthLimit shallow
  have ended : nothingElse stop = .ok ((), _) := blank.nothingElse
  have document : document settings (Input.ofBytes buffer) = .ok (root, stop) :=
    bind_eq_ok.mpr ⟨_, _, passed, read⟩
  exact parse_eq_ok.mpr ⟨_, documentThen_eq_ok.mpr ⟨stop, document, .inr ⟨rfl, ended⟩⟩⟩

end Parses

/-- A document is accepted exactly if the grammar has it and it is not nested too deeply, and what
is returned is its only tree. -/
theorem parse_eq_ok_iff (settings : Settings) (buffer : Bytes) (root : Located Json) :
    parse settings (some false) buffer = .ok root ↔
      DocumentText buffer root ∧ (∀ other, DocumentText buffer other → other = root) ∧
        root.value.depth ≤ settings.depthLimit := by
  constructor
  · intro read
    obtain ⟨spelled, shallow⟩ := parse_sound read
    exact ⟨spelled, fun other again => again.unique spelled, shallow⟩
  · rintro ⟨spelled, -, shallow⟩
    exact parse_complete spelled shallow

end WireSpan.Json
