import WireSpan.Proofs.Json.Hiding

/-! Masked documents. A document with its numbers and string values hidden is a document of the same
outline, whose numbers are nines and whose strings are stars, and masking it changes nothing. -/

namespace WireSpan.Json

mutual

/-- A tree without what its numbers and strings are. Its forms, spans, keys, booleans and nulls
remain. -/
def outline : Json → Json
  | number .. => number (.integer 0) ""
  | string _ => string ""
  | array items => array (outlineItems items)
  | object members => object (outlineMembers members)
  | other => other

def outlineItems : List (Located Json) → List (Located Json)
  | [] => []
  | ⟨value, span⟩ :: items => ⟨outline value, span⟩ :: outlineItems items

def outlineMembers : List (Member Json) → List (Member Json)
  | [] => []
  | ⟨key, ⟨value, span⟩⟩ :: members => ⟨key, ⟨outline value, span⟩⟩ :: outlineMembers members

end

/-- The outline of a tree at its place. -/
def outlineNode (node : Located Json) : Located Json := ⟨outline node.value, node.span⟩

def outlineMember (member : Member Json) : Member Json := ⟨member.key, outlineNode member.value⟩

def nodeWalk (depth : Nat) (node : Located Json) : List Visit :=
  visits (fun _ => false) depth node.span node.value

def memberWalk (depth : Nat) (member : Member Json) : List Visit :=
  .ofKey depth member.key :: nodeWalk depth member.value

/-- The walk through `value` replaces the text by one of the same length that spells something of
the same outline, the walk through which replaces nothing. -/
structure MasksTo {α : Type} (spells : Nat → Bytes → α → Prop) (walks : Nat → α → List Visit)
    (outlined : α → α) (offset : Nat) (text : Bytes) (value : α) (masked : Bytes) (again : α) :
    Prop where
  spelled : spells offset masked again
  length : masked.length = text.length
  outline : outlined again = outlined value
  hides : ∀ depth, Hides (walks depth value) offset text masked
  steady : ∀ depth, Hides (walks depth again) offset masked masked

/-- The text can be masked where it stands. -/
def Maskable {α : Type} (spells : Nat → Bytes → α → Prop) (walks : Nat → α → List Visit)
    (outlined : α → α) (offset : Nat) (text : Bytes) (value : α) : Prop :=
  ∃ masked again, MasksTo spells walks outlined offset text value masked again

variable {offset depth : Nat} {text : Bytes} {node : Located Json} {member : Member Json}

section Trees

private theorem outlineItems_eq (items : List (Located Json)) :
    outlineItems items = items.map outlineNode := by
  induction items with
  | nil => rfl
  | cons item items ih => rw [outlineItems, ih, List.map_cons, outlineNode]

private theorem outlineMembers_eq (members : List (Member Json)) :
    outlineMembers members = members.map outlineMember := by
  induction members with
  | nil => rfl
  | cons member members ih => rw [outlineMembers, ih, List.map_cons, outlineMember, outlineNode]

private theorem itemVisits_eq (items : List (Located Json)) :
    itemVisits (fun _ => false) depth items = items.flatMap (nodeWalk depth) := by
  induction items with
  | nil => rfl
  | cons item items ih => rw [itemVisits, ih, List.flatMap_cons, nodeWalk]

private theorem memberVisits_eq (members : List (Member Json)) :
    memberVisits (fun _ => false) depth members = members.flatMap (memberWalk depth) := by
  induction members with
  | nil => rfl
  | cons member members ih =>
    rw [memberVisits, ih, List.flatMap_cons, memberWalk, nodeWalk, List.cons_append]
    rfl

private theorem nodeWalk_array (items : List (Located Json)) (span : Span) :
    nodeWalk depth ⟨.array items, span⟩ =
      ⟨depth, .value (.array items), span⟩ :: items.flatMap (nodeWalk (depth + 1)) := by
  rw [nodeWalk, visits, if_neg Bool.false_ne_true, itemVisits_eq]

private theorem nodeWalk_object (members : List (Member Json)) (span : Span) :
    nodeWalk depth ⟨.object members, span⟩ =
      ⟨depth, .value (.object members), span⟩ :: members.flatMap (memberWalk (depth + 1)) := by
  rw [nodeWalk, visits, if_neg Bool.false_ne_true, memberVisits_eq]

mutual

/-- An outline is nested as deeply as the tree. -/
theorem depth_outline : (value : Json) → value.outline.depth = value.depth
  | .array items => congrArg (· + 1) (depth_outlineItems items)
  | .object members => congrArg (· + 1) (depth_outlineMembers members)
  | .null | .bool _ | .number .. | .string _ => rfl

theorem depth_outlineItems : (items : List (Located Json)) →
    depthOfItems (outlineItems items) = depthOfItems items
  | [] => rfl
  | ⟨value, _⟩ :: items => congrArg₂ max (depth_outline value) (depth_outlineItems items)

theorem depth_outlineMembers : (members : List (Member Json)) →
    depthOfMembers (outlineMembers members) = depthOfMembers members
  | [] => rfl
  | ⟨_, ⟨value, _⟩⟩ :: members => congrArg₂ max (depth_outline value) (depth_outlineMembers members)

end

end Trees

section Scalars

/-- Nines spell a number. -/
theorem numeralText_nines {count : Nat} (some : 0 < count) :
    NumeralText (List.replicate count 0x39) ⟨false, List.replicate count 0x39, none, none⟩ := by
  obtain ⟨fewer, rfl⟩ := Nat.exists_eq_succ_of_ne_zero (Nat.ne_of_gt some)
  have digits : DigitsText (List.replicate (fewer + 1) 0x39) :=
    ⟨nofun, fun b member => List.eq_of_mem_replicate member ▸ rfl⟩
  have nonzero : (0x39 : UInt8) ≠ Ascii.byte '0' := by decide
  have whole : IntegerText (List.replicate (fewer + 1) 0x39) := .digits nonzero digits
  have spelled := NumeralText.mk .absent whole .absent .absent
  rwa [List.nil_append, List.append_nil, List.append_nil] at spelled

/-- Stars spell characters. -/
theorem charsText_stars (count : Nat) :
    CharsText (List.replicate count 0x2a) (List.replicate count '*') := by
  induction count with
  | zero => exact .nil
  | succ count ih =>
    have star : CharText (String.utf8EncodeChar '*') '*' :=
      .plain (by decide) (by decide) (by decide)
    exact .cons star ih

/-- A value whose walk replaces nothing. -/
theorem Maskable.idle (spelled : ValueText offset text node)
    (steady : ∀ depth, Hides (nodeWalk depth node) offset text text) :
    Maskable ValueText nodeWalk outlineNode offset text node :=
  ⟨text, node, spelled, rfl, rfl, steady, steady⟩

theorem NumeralText.maskable {numeral : Numeral} (spelled : NumeralText text numeral) :
    Maskable ValueText nodeWalk outlineNode offset text
      ⟨.number numeral.number (Ascii.latin1 text), Span.ofLength offset text.length⟩ := by
  have valued : ValueText offset text _ := .number spelled
  have some := List.length_pos_iff.mpr valued.ne_nil
  refine ⟨List.replicate text.length 0x39, _, .number (numeralText_nines some),
    List.length_replicate, ?_, fun _ => hides_number rfl,
    fun _ => hides_number (by rw [List.length_replicate])⟩
  rw [outlineNode, outlineNode, List.length_replicate, outline, outline]

theorem StringText.maskable {value : String} (spelled : StringText text value) :
    Maskable ValueText nodeWalk outlineNode offset text
      ⟨.string value, Span.ofLength offset text.length⟩ := by
  cases spelled with
  | @mk body chars spelled =>
    have stars := StringText.mk (charsText_stars body.length)
    have length : (Ascii.doubleQuote :: List.replicate body.length 0x2a ++
        [Ascii.doubleQuote]).length =
        (Ascii.doubleQuote :: body ++ [Ascii.doubleQuote]).length := by
      simp only [List.cons_append, List.length_cons, List.length_append, List.length_replicate]
    refine ⟨_, _, .string stars, length, ?_, fun _ => hides_string rfl,
      fun _ => hides_string (by rw [List.length_replicate])⟩
    rw [outlineNode, outlineNode, length, outline, outline]

end Scalars

section Containers

variable {α : Type} {entry : Nat → Bytes → α → Prop} {walks : Nat → α → List Visit}
  {outlined : α → α} {values : List α}

/-- Entries are masked one behind the other. -/
theorem EntriesText.maskable
    (spelled : EntriesText (Maskable entry walks outlined) offset text values) :
    Maskable (EntriesText entry) (fun depth values => values.flatMap (walks depth))
      (List.map outlined) offset text values := by
  induction spelled with
  | @last offset before text after value blankBefore single blankAfter =>
    obtain ⟨masked, again, single⟩ := single
    refine ⟨before ++ masked ++ after, [again], .last blankBefore single.spelled blankAfter, ?_,
      congrArg (fun value => [value]) single.outline, fun depth => ?_, fun depth => ?_⟩
    · simp only [List.length_append, single.length]
    · simpa only [List.flatMap_cons, List.flatMap_nil, List.append_nil] using
        (single.hides depth).within
    · simpa only [List.flatMap_cons, List.flatMap_nil, List.append_nil] using
        (single.steady depth).within
  | @more offset before text after rest value values blankBefore single blankAfter _ ih =>
    obtain ⟨masked, again, single⟩ := single
    obtain ⟨maskedRest, others, later⟩ := ih
    have length : (before ++ masked ++ after).length = (before ++ text ++ after).length := by
      simp only [List.length_append, single.length]
    have spelled := later.spelled
    rw [← length] at spelled
    refine ⟨before ++ masked ++ after ++ Ascii.byte ',' :: maskedRest, again :: others,
      .more blankBefore single.spelled blankAfter spelled, ?_, ?_, fun depth => ?_, fun depth => ?_⟩
    · simp only [List.length_append, List.length_cons, single.length, later.length]
    · rw [List.map_cons, List.map_cons, single.outline, later.outline]
    · exact (single.hides depth).within.append length (later.hides depth).cons
    · have steady := later.steady depth
      rw [← length] at steady
      exact (single.steady depth).within.append rfl steady.cons

theorem MemberText.maskable (spelled : MemberText offset text member)
    (valued : ∀ offset text, ValueText offset text member.value →
      Maskable ValueText nodeWalk outlineNode offset text member.value) :
    Maskable MemberText memberWalk outlineMember offset text member := by
  cases spelled with
  | mk named blankBefore blankAfter spelled =>
    obtain ⟨masked, again, value⟩ := valued _ _ spelled
    refine ⟨_, _, .mk named blankBefore blankAfter value.spelled, ?_, ?_, fun depth => ?_,
      fun depth => ?_⟩
    · simp only [List.length_append, value.length]
    · rw [outlineMember, outlineMember, value.outline]
    · exact (value.hides depth).behind.skip fun _ => rfl
    · exact (value.steady depth).behind.skip fun _ => rfl

/-- Every value can be masked where it stands. -/
theorem ValueText.maskable (spelled : ValueText offset text node) :
    Maskable ValueText nodeWalk outlineNode offset text node := by
  -- On the depth of the value: an entry is a part of the container only through its depth.
  induction levels : node.value.depth using Nat.strongRecOn generalizing offset text node with
  | ind levels ih =>
    cases spelled with
    | null => exact .idle .null fun _ => Hides.nil.skip fun _ => rfl
    | true => exact .idle .true fun _ => Hides.nil.skip fun _ => rfl
    | false => exact .idle .false fun _ => Hides.nil.skip fun _ => rfl
    | number spelled => exact spelled.maskable
    | string spelled => exact spelled.maskable
    | emptyArray between => exact .idle (.emptyArray between) fun _ => Hides.nil.skip fun _ => rfl
    | emptyObject between =>
      exact .idle (.emptyObject between) fun _ => Hides.nil.skip fun _ => rfl
    | @array _ inside items entered =>
      have within := entered.restrict (depthOfItems_le.mp (Nat.le_refl _))
      have each := within.imp fun offset text item spelled =>
        ih item.value.depth (by rw [← levels]; exact Nat.lt_succ_of_le spelled.2) spelled.1 rfl
      obtain ⟨masked, again, inner⟩ := each.maskable
      refine ⟨_, _, .array inner.spelled, ?_, ?_, fun depth => ?_, fun depth => ?_⟩
      · simp only [List.length_append, List.length_cons, inner.length]
      · rw [outlineNode, outlineNode, inner.length, outline, outline, outlineItems_eq,
          outlineItems_eq, inner.outline]
      · rw [nodeWalk_array]
        exact (inner.hides (depth + 1)).bracketed.skip fun _ => rfl
      · rw [nodeWalk_array]
        exact (inner.steady (depth + 1)).bracketed.skip fun _ => rfl
    | @object _ inside members entered =>
      have within := entered.restrict (depthOfMembers_le.mp (Nat.le_refl _))
      have each := within.imp fun offset text member spelled =>
        spelled.1.maskable fun offset text valued =>
          ih member.value.value.depth (by rw [← levels]; exact Nat.lt_succ_of_le spelled.2)
            valued rfl
      obtain ⟨masked, again, inner⟩ := each.maskable
      refine ⟨_, _, .object inner.spelled, ?_, ?_, fun depth => ?_, fun depth => ?_⟩
      · simp only [List.length_append, List.length_cons, inner.length]
      · rw [outlineNode, outlineNode, inner.length, outline, outline, outlineMembers_eq,
          outlineMembers_eq, inner.outline]
      · rw [nodeWalk_object]
        exact (inner.hides (depth + 1)).bracketed.skip fun _ => rfl
      · rw [nodeWalk_object]
        exact (inner.steady (depth + 1)).bracketed.skip fun _ => rfl

end Containers

section Documents

variable {settings : Settings} {buffer : Bytes} {root : Located Json}

/-- A buffer is masked if the places of its numbers hold nines, those inside the quotes of its
string values hold stars, and all others hold what they held. -/
structure Masked (root : Located Json) (buffer masked : Bytes) : Prop where
  length : masked.length = buffer.length
  covered : ∀ node, Inside root node → ∀ place byte, cover? node place = some byte →
    masked[place]? = some byte
  others : ∀ place, (∀ node, Inside root node → cover? node place = none) →
    masked[place]? = buffer[place]?

private theorem mask_masked (placed : AllPlaced buffer root)
    (ends : root.span.stop ≤ buffer.length) :
    Masked root buffer (mask root buffer) := by
  have ordered := visits_ordered 0 root.span root.value placed
  refine ⟨length_hideAll, fun node inside place byte covered => ?_, fun place untouched => ?_⟩
  · obtain ⟨depth, member⟩ := inside.visited 0
    have written : (Visit.ofValue depth node).write? place = some byte := covered
    have stop := (write?_eq_some written).2.2
    have within := (ordered.within _ member).2.2
    exact getElem?_hideAll_of_mem ordered.preceding member written (by omega)
  · refine getElem?_hideAll_of_none fun visit member => ?_
    rcases comesFrom_of_mem 0 root.span root.value visit member with
      ⟨node, inside, same⟩ | ⟨key, -, same⟩
    · rw [same]
      exact untouched node inside
    · rw [same]
      rfl

/-- Masking a document hides its numbers and its strings, and nothing else. The result is a document
of the same outline, and masking it changes nothing. -/
theorem mask_document (settings : Settings) (buffer : Bytes) (root : Located Json)
    (parsed : parse settings (some false) buffer = .ok root) :
    Masked root buffer (mask root buffer) ∧ ∃ again,
      parse settings (some false) (mask root buffer) = .ok again ∧
        outlineNode again = outlineNode root ∧
          mask again (mask root buffer) = mask root buffer := by
  obtain ⟨document, shallow⟩ := parse_sound parsed
  have placed := parse_allPlaced parsed
  cases document with
  | @mk before text after _ blankBefore spelled blankAfter =>
    constructor
    · refine mask_masked placed ?_
      rw [spelled.span]
      simp only [Span.ofLength, List.length_append]
      omega
    · obtain ⟨masked, again, masks⟩ := spelled.maskable
      have hidden : mask root (before ++ text ++ after) = before ++ masked ++ after :=
        masks.hides 0 before after rfl
      have kept := congrArg Located.value masks.outline
      rw [hidden]
      refine ⟨again, ?_, masks.outline, masks.steady 0 before after rfl⟩
      refine parse_complete (.mk blankBefore masks.spelled blankAfter) ?_
      have depth : again.value.outline.depth = root.value.outline.depth := congrArg depth kept
      rw [depth_outline, depth_outline] at depth
      rwa [depth]

/-- A member whose key stays and whose string becomes a star. -/
theorem mask_document_member :
    ∃ root masked, parse .standard (some false) (Ascii.bytes ['\x7b', '\x22', 'k', '\x22', ':',
        '\x22', 'x', '\x22', '\x7d']) = .ok root ∧
      mask root (Ascii.bytes ['\x7b', '\x22', 'k', '\x22', ':', '\x22', 'x', '\x22', '\x7d']) =
        masked ∧
      Masked root (Ascii.bytes ['\x7b', '\x22', 'k', '\x22', ':', '\x22', 'x', '\x22', '\x7d'])
        masked ∧
      ∃ again, parse .standard (some false) masked = .ok again ∧
        outlineNode again = outlineNode root ∧ mask again masked = masked :=
  ⟨_, _, rfl, rfl, mask_document .standard _ _ rfl⟩

end Documents

end WireSpan.Json
