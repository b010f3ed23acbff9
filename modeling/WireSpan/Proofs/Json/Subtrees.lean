import WireSpan.Proofs.Json.Acceptance

/-! The values and keys inside a tree. Each of them is spelled by a part of the text that spells the
whole tree. -/

namespace WireSpan.Json

/-- A tree contains its root, and with a container its items and the values of its members. -/
inductive Inside (root : Located Json) : Located Json → Prop where
  | root : Inside root root
  | item {node item : Located Json} (inside : Inside root node) (listed : item ∈ node.value.items) :
      Inside root item
  | value {node : Located Json} {member : Member Json} (inside : Inside root node)
      (listed : member ∈ node.value.members) : Inside root member.value

/-- The keys of all objects in a tree. -/
inductive KeyInside (root : Located Json) : Located String → Prop where
  | key {node : Located Json} {member : Member Json} (inside : Inside root node)
      (listed : member ∈ node.value.members) : KeyInside root member.key

/-- A part of the text spells the value, at the offset where that part stands. -/
def PartSpells {α : Type} (spells : Nat → Bytes → α → Prop) (offset : Nat) (text : Bytes)
    (value : α) : Prop :=
  ∃ before part after, text = before ++ part ++ after ∧
    spells (offset + before.length) part value

/-- A key is spelled by a string that its span covers. -/
def KeyText (offset : Nat) (text : Bytes) (key : Located String) : Prop :=
  StringText text key.value ∧ key.span = Span.ofLength offset text.length

variable {α : Type} {spells entry : Nat → Bytes → α → Prop} {value : α} {values : List α}
  {offset : Nat} {text before part after : Bytes} {root node item : Located Json}
  {member : Member Json} {key : Located String}

theorem PartSpells.whole (spelled : spells offset text value) :
    PartSpells spells offset text value :=
  ⟨[], text, [], (List.append_nil _).symm, spelled⟩

theorem PartSpells.extend (spelled : PartSpells spells (offset + before.length) part value) :
    PartSpells spells offset (before ++ part ++ after) value := by
  obtain ⟨front, inner, back, rfl, spelled⟩ := spelled
  refine ⟨before ++ front, inner, back ++ after, by simp only [List.append_assoc], ?_⟩
  rwa [List.length_append, ← Nat.add_assoc]

theorem EntriesText.spellsEntry (spelled : EntriesText entry offset text values)
    (listed : value ∈ values) : PartSpells entry offset text value := by
  induction spelled with
  | last blankBefore spelled blankAfter =>
    obtain rfl := List.mem_singleton.mp listed
    exact ⟨_, _, _, rfl, spelled⟩
  | @more offset before text blank rest first values blankBefore spelled blankAfter continued ih =>
    rcases List.mem_cons.mp listed with rfl | later
    · exact ⟨before, text, blank ++ Ascii.byte ',' :: rest, List.append_assoc _ _ _, spelled⟩
    · have whole : before ++ text ++ blank ++ Ascii.byte ',' :: rest =
          before ++ text ++ blank ++ [Ascii.byte ','] ++ rest ++ [] := by
        simp only [List.append_assoc, List.cons_append, List.nil_append, List.append_nil]
      rw [whole]
      apply PartSpells.extend
      rw [List.length_append, List.length_singleton, ← Nat.add_assoc]
      exact ih later

/-- What stands between two brackets is a part of the whole. -/
theorem PartSpells.between {opening closing : UInt8}
    (spelled : PartSpells spells (offset + 1) text value) :
    PartSpells spells offset (opening :: text ++ [closing]) value := by
  rw [← List.singleton_append]
  exact PartSpells.extend spelled

theorem ValueText.spellsItem (spelled : ValueText offset text node)
    (listed : item ∈ node.value.items) : PartSpells ValueText offset text item := by
  cases spelled with
  | array inside => exact (inside.spellsEntry listed).between
  | _ => cases listed

theorem ValueText.spellsMember (spelled : ValueText offset text node)
    (listed : member ∈ node.value.members) : PartSpells MemberText offset text member := by
  cases spelled with
  | object inside => exact (inside.spellsEntry listed).between
  | _ => cases listed

theorem MemberText.spellsKey (spelled : MemberText offset text member) :
    PartSpells KeyText offset text member.key := by
  cases spelled with
  | @mk _ name before after text _ _ named =>
    exact ⟨[], name, before ++ Ascii.byte ':' :: after ++ text, by simp, named, rfl⟩

theorem MemberText.spellsValue (spelled : MemberText offset text member) :
    PartSpells ValueText offset text member.value := by
  cases spelled with
  | mk named blankBefore blankAfter spelled =>
    exact ⟨_, _, [], (List.append_nil _).symm, spelled⟩

theorem Inside.trans {part : Located Json} (outer : Inside root node) (inner : Inside node part) :
    Inside root part := by
  induction inner with
  | root => exact outer
  | item _ listed ih => exact ih.item listed
  | value _ listed ih => exact ih.value listed

/-- Every value inside a tree is spelled by a part of the text of the tree. -/
theorem Inside.spelled (inside : Inside root node) (spelled : ValueText offset text root) :
    PartSpells ValueText offset text node := by
  induction inside with
  | root => exact .whole spelled
  | item _ listed ih =>
    obtain ⟨before, part, after, rfl, inner⟩ := ih
    exact (inner.spellsItem listed).extend
  | value _ listed ih =>
    obtain ⟨before, part, after, rfl, inner⟩ := ih
    obtain ⟨front, name, back, rfl, member⟩ := inner.spellsMember listed
    exact member.spellsValue.extend.extend

theorem KeyInside.spelled (inside : KeyInside root key) (spelled : ValueText offset text root) :
    PartSpells KeyText offset text key := by
  cases inside with
  | key inside listed =>
    obtain ⟨before, part, after, rfl, inner⟩ := inside.spelled spelled
    obtain ⟨front, name, back, rfl, member⟩ := inner.spellsMember listed
    exact member.spellsKey.extend.extend

/-- No value inside a tree is nested deeper than the tree. -/
theorem Inside.depth_le (inside : Inside root node) : node.value.depth ≤ root.value.depth := by
  induction inside with
  | root => exact Nat.le_refl _
  | @item node item _ listed ih =>
    refine Nat.le_trans ?_ ih
    cases same : node.value with
    | array items =>
      rw [same] at listed
      rw [depth]
      exact Nat.le_succ_of_le (depthOfItems_le.mp (Nat.le_refl _) item listed)
    | _ =>
      rw [same] at listed
      cases listed
  | @value node member _ listed ih =>
    refine Nat.le_trans ?_ ih
    cases same : node.value with
    | object members =>
      rw [same] at listed
      rw [depth]
      exact Nat.le_succ_of_le (depthOfMembers_le.mp (Nat.le_refl _) member listed)
    | _ =>
      rw [same] at listed
      cases listed

end WireSpan.Json
