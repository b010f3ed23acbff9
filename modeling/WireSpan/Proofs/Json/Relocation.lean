import WireSpan.Json.Document
import WireSpan.Proofs.Scan.Relocation

/-! The readers of documents do not depend on where a document stands. Further right in a buffer
they read the same tree with all of its places moved, and refuse what they refuse for the same
cause. -/

namespace WireSpan

/-- The same member with its places moved right. -/
def Member.shiftBy (member : Member Json) (distance : Nat) : Member Json :=
  ⟨member.key.shiftBy distance, member.value.shiftWith (Json.shiftBy distance) distance⟩

namespace Json

open Scan

variable {α : Type} {distance : Nat} {move : α → α} {scan scan' : Scan α}

private theorem shiftItems_eq_map (distance : Nat) (items : List (Located Json)) :
    shiftItems distance items = items.map (Located.shiftWith (shiftBy distance) distance) := by
  induction items with
  | nil => rfl
  | cons item items ih =>
    rw [shiftItems, ih]
    rfl

private theorem shiftMembers_eq_map (distance : Nat) (members : List (Member Json)) :
    shiftMembers distance members = members.map (Member.shiftBy · distance) := by
  induction members with
  | nil => rfl
  | cons member members ih =>
    rw [shiftMembers, ih]
    rfl

private theorem accept_relocates (b : UInt8) : Relocates distance id (accept b) (accept b) :=
  Relocates.peek?.bind fun _ => .ite ((Relocates.skip 1).bind fun _ => .pureId true) (.pureId false)

private theorem integerPart_relocates : Relocates distance id integerPart integerPart := by
  refine (Relocates.byteOf _ _).bind fun first => .ite ?_ (.pureId [first.value])
  exact (Relocates.takeWhile _).bind fun run => .pureId (first.value :: run.value)

private theorem fractionPart_relocates : Relocates distance id fractionPart fractionPart := by
  refine (accept_relocates _).bind fun marked => .ite ?_ (.pureId none)
  exact (Relocates.takeWhile1 _ _).bind fun digits => .pureId (some digits.value)

private theorem exponentDigits_relocates :
    Relocates distance id exponentPart.digits exponentPart.digits := by
  refine (accept_relocates _).bind fun negative => ?_
  have digits : Relocates distance id (do
      return some (negative, (← takeWhile1 "exponent digit" Ascii.isDigit).value)) (do
      return some (negative, (← takeWhile1 "exponent digit" Ascii.isDigit).value)) :=
    (Relocates.takeWhile1 _ _).bind fun digits => .pureId (some (negative, digits.value))
  exact .ite ((accept_relocates _).bind fun _ => digits) digits

private theorem exponentPart_relocates : Relocates distance id exponentPart exponentPart := by
  refine (accept_relocates _).bind fun small => .ite exponentDigits_relocates ?_
  exact (accept_relocates _).bind fun capital => .ite exponentDigits_relocates (.pureId none)

private theorem numeral_relocates : Relocates distance id numeral numeral := by
  refine (accept_relocates _).bind fun negative => integerPart_relocates.bind fun integer => ?_
  refine fractionPart_relocates.bind fun fraction => exponentPart_relocates.bind fun exponent => ?_
  exact .pureId (Numeral.mk negative integer fraction exponent)

private theorem length_shiftBy (span : Span) : (span.shiftBy distance).length = span.length :=
  Nat.add_sub_add_right _ _ _

private theorem numberNode_relocates :
    Relocates distance (Located.shiftWith (shiftBy distance) distance) numberNode numberNode := by
  intro input
  have read : located numeral (input.shiftBy distance) = _ := numeral_relocates.located input
  rw [numberNode, numberNode, read]
  cases located numeral input with
  | error failure => rfl
  | ok result =>
    obtain ⟨⟨value, span⟩, after⟩ := result
    simp only [shifted, Located.shiftWith, length_shiftBy, Input.rest_shiftBy, shiftBy, id]

private theorem hexFour_relocates : Relocates distance id hexFour hexFour := by
  refine (Relocates.byteOf _ _).bind fun a => (Relocates.byteOf _ _).bind fun b => ?_
  refine (Relocates.byteOf _ _).bind fun c => (Relocates.byteOf _ _).bind fun d => ?_
  exact .pureId (Ascii.hexNumber [a.value, b.value, c.value, d.value])

private theorem trailingUnit_relocates (start : Nat) :
    Relocates distance id (trailingUnit start) (trailingUnit (start + distance)) := by
  rintro ⟨offset, rest⟩
  let broken := Cause.unexpected "trailing surrogate after leading surrogate" []
  have second : Relocates distance id
      (skip unitEscape.length >>= fun _ => hexFour >>= fun unit =>
        if isTrailing unit = true then pure unit else failAt start broken)
      (skip unitEscape.length >>= fun _ => hexFour >>= fun unit =>
        if isTrailing unit = true then pure unit else failAt (start + distance) broken) :=
    (Relocates.skip _).bind fun _ => hexFour_relocates.bind fun unit =>
      .ite (.pureId unit) (.failAt id start broken)
  unfold trailingUnit Input.shiftBy
  dsimp only
  split
  · exact second ⟨offset, rest⟩
  · split
    · rfl
    · rfl

private theorem unitChar_relocates (start : Nat) :
    Relocates distance id (unitChar start) (unitChar (start + distance)) := by
  refine hexFour_relocates.bindId fun unit => .ite (.failAt id start _) (.ite ?_ (.pureId _))
  exact (trailingUnit_relocates start).bindId fun trailing => .pureId _

private theorem escape_relocates : Relocates distance id escape escape := by
  refine Relocates.here.bind fun start => (Relocates.skip 1).bind fun _ => ?_
  refine Relocates.peek?.bind fun next => ?_
  cases next with
  | none => exact .runOut id _
  | some b =>
    simp only [id]
    cases simpleEscape? b with
    | some c => exact (Relocates.skip 1).bind fun _ => .pureId c
    | none =>
      exact .ite ((Relocates.skip 1).bind fun _ => unitChar_relocates start) (.failAt id start _)

private theorem plainChar_relocates : Relocates distance id plainChar plainChar := by
  intro input
  simp only [plainChar, Input.rest_shiftBy]
  cases Text.Utf8.decode? input.rest with
  | none => rfl
  | some found =>
    simp only [advance_shiftBy]
    rfl

private theorem stringTurn_relocates :
    Relocates distance (Sum.map id id) stringTurn stringTurn := by
  refine Relocates.peek?.bind fun next => ?_
  cases next with
  | none => exact .runOut _ _
  | some b =>
    refine .ite ((Relocates.skip 1).bind fun _ => .pure _ (Sum.inr ())) (.ite ?_
      (.ite ?_ (.fail _ _)))
    · exact escape_relocates.bind fun c => .pure _ (Sum.inl c)
    · exact plainChar_relocates.bind fun c => .pure _ (Sum.inl c)

private theorem stringLiteral_relocates :
    Relocates distance (Located.shiftBy · distance) stringLiteral stringLiteral := by
  show Relocates distance (Located.shiftWith id distance) stringLiteral stringLiteral
  refine Relocates.located ((Relocates.literal _ _).bind fun _ => ?_)
  refine stringTurn_relocates.collect.bind fun read => ?_
  intro input
  simp only [Prod.map_fst, List.map_id, pure_run, shifted, id]

private theorem blanks_relocates : Relocates distance id blanks blanks :=
  (Relocates.takeWhile _).bind fun _ => .pureId ()

private theorem closes_relocates (closing : UInt8) (expected : String) :
    Relocates distance id (closes closing expected) (closes closing expected) := by
  refine Relocates.peek?.bind fun next => ?_
  cases next with
  | none => exact .runOut id _
  | some b =>
    exact .ite ((Relocates.skip 1).bind fun _ => .pureId false)
      (.ite ((Relocates.skip 1).bind fun _ => .pureId true) (.fail id _))

private theorem entryTurn_relocates (closing : UInt8) (expected : String)
    (relocates : Relocates distance move scan scan') :
    Relocates distance (Sum.map move move) (entryTurn closing expected scan)
      (entryTurn closing expected scan') := by
  refine blanks_relocates.bind fun _ => relocates.bind fun value => ?_
  refine blanks_relocates.bind fun _ => (closes_relocates _ _).bind fun closed => ?_
  cases closed with
  | false => exact .pure _ (Sum.inl value)
  | true => exact .pure _ (Sum.inr value)

private theorem entries_relocates (closing : UInt8) (expected : String)
    (relocates : Relocates distance move scan scan') :
    Relocates distance (List.map move) (entries closing expected scan)
      (entries closing expected scan') := by
  refine (Relocates.skip 1).bind fun _ => blanks_relocates.bind fun _ => ?_
  refine (accept_relocates _).bind fun closed => .ite (.pure _ []) ?_
  refine (entryTurn_relocates closing expected relocates).collect.bind fun read => ?_
  intro input
  simp only [Prod.map_fst, Prod.map_snd, pure_run, shifted, List.map_append, List.map_cons,
    List.map_nil]

variable {nodes nodes' : Scan (Located Json)}

private theorem arrayNode_relocates
    (relocates : Relocates distance (Located.shiftWith (shiftBy distance) distance) nodes nodes') :
    Relocates distance (Located.shiftWith (shiftBy distance) distance) (arrayNode nodes)
      (arrayNode nodes') := by
  refine Relocates.located ((entries_relocates _ _ relocates).bind fun items => ?_)
  rw [← shiftItems_eq_map]
  exact .pure (shiftBy distance) (array items)

private theorem memberKey_relocates :
    Relocates distance (Located.shiftBy · distance) memberKey memberKey := by
  refine Relocates.peek?.bind fun next => ?_
  cases next with
  | none => exact .runOut _ _
  | some b => exact .ite stringLiteral_relocates (.fail _ _)

private theorem member_relocates
    (relocates : Relocates distance (Located.shiftWith (shiftBy distance) distance) nodes nodes') :
    Relocates distance (Member.shiftBy · distance) (member nodes) (member nodes') := by
  refine memberKey_relocates.bind fun key => blanks_relocates.bind fun _ => ?_
  refine (Relocates.literal _ _).bind fun _ => blanks_relocates.bind fun _ => ?_
  exact relocates.bind fun value => .pure _ (Member.mk key value)

private theorem objectNode_relocates
    (relocates : Relocates distance (Located.shiftWith (shiftBy distance) distance) nodes nodes') :
    Relocates distance (Located.shiftWith (shiftBy distance) distance) (objectNode nodes)
      (objectNode nodes') := by
  refine Relocates.located ((entries_relocates _ _ (member_relocates relocates)).bind fun _ => ?_)
  rw [← shiftMembers_eq_map]
  exact .pure (shiftBy distance) (object _)

private theorem word_relocates (name : String) (text : List Char) {value : Json}
    (unmoved : shiftBy distance value = value) :
    Relocates distance (Located.shiftWith (shiftBy distance) distance) (word name text value)
      (word name text value) := by
  refine (Relocates.literal _ _).bind fun found => ?_
  intro input
  simp only [pure_run, shifted, Located.map, Located.shiftWith, Located.shiftBy, unmoved]

private theorem valueWith_relocates {arrays arrays' objects objects' : Scan (Located Json)}
    (array : Relocates distance (Located.shiftWith (shiftBy distance) distance) arrays arrays')
    (object : Relocates distance (Located.shiftWith (shiftBy distance) distance) objects objects') :
    Relocates distance (Located.shiftWith (shiftBy distance) distance) (valueWith arrays objects)
      (valueWith arrays' objects') := by
  refine Relocates.peek?.bind fun next => ?_
  cases next with
  | none => exact .runOut _ _
  | some b =>
    refine .ite object (.ite array (.ite ?_ (.ite (word_relocates _ _ rfl) (.ite
      (word_relocates _ _ rfl) (.ite (word_relocates _ _ rfl) (.ite numberNode_relocates
        (.fail _ _)))))))
    exact stringLiteral_relocates.bind fun x => .pure _ (x.map Json.string)

/-- A value is read the same wherever it stands, with all of its places moved. -/
theorem value_relocates (limit levels : Nat) :
    Relocates distance (Located.shiftWith (shiftBy distance) distance) (value limit levels)
      (value limit levels) := by
  induction levels with
  | zero => exact valueWith_relocates (.fail _ _) (.fail _ _)
  | succ levels ih =>
    exact valueWith_relocates (arrayNode_relocates ih) (objectNode_relocates ih)

theorem document_relocates (settings : Settings) :
    Relocates distance (Located.shiftWith (shiftBy distance) distance) (document settings)
      (document settings) :=
  blanks_relocates.bind fun _ => value_relocates _ _

end Json

end WireSpan
