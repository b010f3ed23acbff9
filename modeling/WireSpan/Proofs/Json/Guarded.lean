import WireSpan.Proofs.Json.Conversions
import WireSpan.Proofs.Json.Failures

/-! Documents read with conversions that may refuse what they are given. The scanners of documents
use total functions in their place. Here it is proved that no conversion ever refuses anything, so
that a document fails for the reasons that its scanners report and for no others. -/

namespace WireSpan.Json

open Scan

/-- Why a guarded reading ends without a value. -/
inductive Ending where
  /-- The bytes are not as they should be. -/
  | failed (failure : Failure)
  /-- A conversion was given what it refuses. -/
  | refused (refusal : Refusal)
deriving DecidableEq, Repr

/-- The same ending, with a failure reported by another layer. -/
def Ending.reportedBy (ending : Ending) (layer : Layer) : Ending :=
  match ending with
  | failed failure => failed (failure.reportedBy layer)
  | refused refusal => refused refusal

/-- Reads as a scanner does, with conversions that may refuse. -/
abbrev Guarded := StateT Input (Except Ending)

namespace Guarded

section Combinators

variable {α β : Type}

/-- A scanner, which converts nothing. -/
def ofScan (scan : Scan α) : Guarded α := fun input => (scan input).mapError .failed

/-- The result of a conversion, which reads nothing. -/
def convert (result : Except Refusal α) : Guarded α := fun input =>
  (result.map fun value => (value, input)).mapError .refused

/-- What is read, with the span of all the bytes passed over. -/
def located (reader : Guarded α) : Guarded (Located α) := fun input => do
  let (value, after) ← reader input
  return (⟨value, input.spanTo after⟩, after)

/-- At most `fuel` turns, up to the one that ends the repetition. -/
def collectWithin (turn : Guarded (α ⊕ β)) : Nat → Guarded (List α × β)
  | 0 => ofScan (fail .stalled)
  | fuel + 1 => do
    match ← turn with
    | .inl value =>
      let (values, last) ← collectWithin turn fuel
      return (value :: values, last)
    | .inr last => return ([], last)

/-- Repeats `turn` until it ends the repetition. -/
def collect (turn : Guarded (α ⊕ β)) : Guarded (List α × β) := fun input =>
  collectWithin turn (input.rest.length + 1) input

private theorem ofScan_run (scan : Scan α) (input : Input) :
    ofScan scan input = (scan input).mapError .failed := rfl

theorem ofScan_pure (value : α) : ofScan (pure value) = pure value := rfl

private theorem ofScan_bind (first : Scan α) (next : α → Scan β) :
    ofScan (first >>= next) = ofScan first >>= fun value => ofScan (next value) := by
  funext input
  rw [ofScan_run, Scan.bind_run]
  show _ = ((first input).mapError _ >>= _ : Except Ending _)
  cases first input <;> rfl

/-- Where a scanner succeeds, what follows it may be chosen by what it read. -/
theorem bind_eq_ofScan {first : Scan α} {next : α → Guarded β} {plain : α → Scan β} {input : Input}
    (agree : ∀ {value after}, first input = .ok (value, after) →
      next value after = ofScan (plain value) after) :
    (ofScan first >>= next) input = ofScan (first >>= plain) input := by
  rw [ofScan_bind]
  show ((first input).mapError _ >>= _ : Except Ending _) = ((first input).mapError _ >>= _)
  cases found : first input with
  | error failure => rfl
  | ok result => exact agree found

private theorem ofScan_ite {condition : Prop} [Decidable condition] (first second : Scan α) :
    ofScan (if condition then first else second) =
      if condition then ofScan first else ofScan second := apply_ite ..

private theorem located_ofScan (scan : Scan α) :
    located (ofScan scan) = ofScan (Scan.located scan) := by
  funext input
  rw [located, ofScan, ofScan, Scan.located]
  cases scan input <;> rfl

private theorem collectWithin_ofScan (turn : Scan (α ⊕ β)) (fuel : Nat) :
    collectWithin (ofScan turn) fuel = ofScan (Scan.collectWithin turn fuel) := by
  induction fuel with
  | zero => rfl
  | succ fuel ih =>
    rw [collectWithin, Scan.collectWithin, ofScan_bind]
    refine bind_congr fun ended => ?_
    cases ended with
    | inl value => rw [ih, ofScan_bind]; rfl
    | inr last => rfl

private theorem collect_ofScan (turn : Scan (α ⊕ β)) :
    collect (ofScan turn) = ofScan (Scan.collect turn) := by
  funext input
  rw [collect, collectWithin_ofScan]
  rfl

end Combinators

section Strings

/-- The number that four hexadecimal digits spell. -/
def hexFour : Guarded Nat := do
  let a ← ofScan Json.hexFour.digit
  let b ← ofScan Json.hexFour.digit
  let c ← ofScan Json.hexFour.digit
  let d ← ofScan Json.hexFour.digit
  convert (hexadecimal? [a.value, b.value, c.value, d.value])

/-- The second half of a pair, whose first half begins at `start`. -/
def trailingUnit (start : Nat) : Guarded Nat := fun input =>
  let follow := input.rest.take unitEscape.length
  let broken := Cause.unexpected "trailing surrogate after leading surrogate" []
  if follow = unitEscape then
    (do
      ofScan (skip unitEscape.length)
      let unit ← hexFour
      if isTrailing unit then return unit else ofScan (failAt start broken)) input
  else if decide (follow.length < unitEscape.length) && follow.isPrefixOf unitEscape then
    ofScan (fail (.endOfInput "trailing surrogate")) input
  else ofScan (failAt start broken) input

/-- What follows a backslash and a `u`; the backslash is at `start`. -/
def unitChar (start : Nat) : Guarded Char := do
  let unit ← hexFour
  if isTrailing unit then
    ofScan (failAt start (.unexpected "leading surrogate before trailing surrogate" []))
  else if isLeading unit then
    let trailing ← trailingUnit start
    convert (scalar? (pairValue unit trailing))
  else convert (scalar? unit)

/-- An escape, from its backslash on. -/
def escape : Guarded Char := do
  let start ← ofScan here
  ofScan (skip 1)
  match ← ofScan peek? with
  | none => ofScan (runOut "escape sequence")
  | some b =>
    match simpleEscape? b with
    | some c =>
      ofScan (skip 1)
      return c
    | none =>
      if b = Ascii.byte 'u' then
        ofScan (skip 1)
        unitChar start
      else ofScan (failAt start (.unexpected "escape sequence" [Ascii.backslash, b]))

/-- The next character of a string, or the quote that closes it. -/
def stringTurn : Guarded (Char ⊕ Unit) := do
  match ← ofScan peek? with
  | none => ofScan (runOut "closing '\x22'")
  | some b =>
    if b = Ascii.doubleQuote then
      ofScan (skip 1)
      return .inr ()
    else if b = Ascii.backslash then return .inl (← escape)
    else if isPlainByte b then return .inl (← ofScan plainChar)
    else ofScan (fail (.unexpected "string character" [b]))

/-- A string with its quotes. -/
def stringLiteral : Guarded (Located String) := located do
  let _ ← ofScan (literal "'\x22'" [Ascii.doubleQuote])
  let (chars, _) ← collect stringTurn
  return String.ofList chars

/-- Four digits are never refused. -/
theorem hexFour_eq : hexFour = ofScan Json.hexFour := by
  funext input
  refine bind_eq_ofScan fun foundA => bind_eq_ofScan fun foundB => bind_eq_ofScan fun foundC =>
    bind_eq_ofScan fun foundD => ?_
  have hexA := (byteOf_sound foundA).2.1
  have hexB := (byteOf_sound foundB).2.1
  have hexC := (byteOf_sound foundC).2.1
  have hexD := (byteOf_sound foundD).2.1
  rw [hexadecimal?_eq (List.cons_ne_nil _ _) (by simp [hexA, hexB, hexC, hexD])]
  rfl

private theorem trailingUnit_eq (start : Nat) :
    trailingUnit start = ofScan (Json.trailingUnit start) := by
  funext input
  by_cases same : input.rest.take unitEscape.length = unitEscape
  · simp only [trailingUnit, ofScan_run, Json.trailingUnit, if_pos same, hexFour_eq]
    refine bind_eq_ofScan fun _ => bind_eq_ofScan fun _ => ?_
    rw [ofScan_ite]
    rfl
  · simp only [trailingUnit, ofScan_run, Json.trailingUnit, if_neg same]
    split <;> rfl

/-- Neither a code unit by itself nor a pair is refused. -/
theorem unitChar_eq (start : Nat) : unitChar start = ofScan (Json.unitChar start) := by
  funext input
  rw [unitChar, hexFour_eq, trailingUnit_eq]
  refine bind_eq_ofScan fun {unit after} found => ?_
  obtain ⟨x, y, z, w, -, hex, rfl⟩ := hexFour_sound found
  rw [ofScan_ite]
  split
  · rfl
  · rename_i notTrailing
    rw [ofScan_ite]
    -- what is left to convert has been tested: two halves of a pair, or a unit outside of any
    split
    · rename_i leads
      refine bind_eq_ofScan fun second => ?_
      obtain ⟨-, -, -, trails⟩ := trailingUnit_sound second
      rw [scalar?_pair leads trails]
      rfl
    · rename_i notLeading
      have small : Ascii.hexNumber [x, y, z, w] < Nat.pow 16 4 := Ascii.hexNumber_lt hex
      rw [scalar?_unit small notTrailing notLeading]
      rfl

private theorem escape_eq : escape = ofScan Json.escape := by
  simp only [escape, Json.escape, ofScan_bind]
  refine bind_congr fun start => bind_congr fun _ => bind_congr fun next => ?_
  cases next with
  | none => rfl
  | some b =>
    cases known : simpleEscape? b with
    | some c =>
      simp only [known, ofScan_bind]
      rfl
    | none => simp only [known, ofScan_ite, ofScan_bind, unitChar_eq]

private theorem stringTurn_eq : stringTurn = ofScan Json.stringTurn := by
  simp only [stringTurn, Json.stringTurn, ofScan_bind]
  refine bind_congr fun next => ?_
  cases next with
  | none => rfl
  | some b => simp only [ofScan_ite, ofScan_bind, ofScan_pure, escape_eq]

private theorem stringLiteral_eq : stringLiteral = ofScan Json.stringLiteral := by
  rw [stringLiteral, stringTurn_eq, collect_ofScan, Json.stringLiteral, ← located_ofScan]
  simp only [ofScan_bind, ofScan_pure]

end Strings

section Numerals

/-- The node of a numeral, of which the parts and the text were read. -/
def numeralNode (parts : Located Numeral) (text : Bytes) : Guarded (Located Json) := do
  let shown ← convert (ascii? text)
  let number ← convert (number? parts.value text)
  return ⟨.number number shown, parts.span⟩

/-- A number together with the text of its numeral. -/
def numberNode : Guarded (Located Json) := fun input => do
  let (parts, after) ← ofScan (Scan.located numeral) input
  numeralNode parts (input.rest.take parts.span.length) after

/-- The text of a numeral is never refused. -/
theorem numeralNode_eq {parts : Located Numeral} {text : Bytes}
    (spelled : NumeralText text parts.value) : numeralNode parts text =
      pure ⟨.number parts.value.number (Ascii.latin1 text), parts.span⟩ := by
  rw [numeralNode, spelled.ascii?_eq, spelled.number?_eq]
  rfl

private theorem numberNode_eq : numberNode = ofScan Json.numberNode := by
  funext input
  rw [numberNode, ofScan_run, ofScan_run, Json.numberNode]
  cases found : Scan.located numeral input with
  | error failure => rfl
  | ok result =>
    obtain ⟨⟨parts, span⟩, after⟩ := result
    obtain ⟨_, scanned, same⟩ := located_eq_ok.mp found
    obtain ⟨text, passes, spelled⟩ := numeral_sound scanned
    cases same
    have taken : input.rest.take (input.spanTo after).length = text := by
      rw [passes.spanTo, passes.rest, Span.length, Span.ofLength, Nat.add_sub_cancel_left,
        List.take_left]
    have converted : numeralNode ⟨parts, input.spanTo after⟩ text = _ := numeralNode_eq spelled
    rw [← taken] at converted
    exact congrFun converted after

end Numerals

section Containers

variable {α : Type}

/-- One entry and what follows it: a comma, or the bracket that ends the entries. -/
def entryTurn (closing : UInt8) (expected : String) (entry : Guarded α) : Guarded (α ⊕ α) := do
  ofScan blanks
  let value ← entry
  ofScan blanks
  return if ← ofScan (closes closing expected) then .inr value else .inl value

/-- Entries with commas between them, from the opening bracket to the closing one. -/
def entries (closing : UInt8) (expected : String) (entry : Guarded α) : Guarded (List α) := do
  ofScan (skip 1)
  ofScan blanks
  if ← ofScan (accept closing) then return []
  else
    let (values, last) ← collect (entryTurn closing expected entry)
    return values ++ [last]

def arrayNode (value : Guarded (Located Json)) : Guarded (Located Json) := located do
  return .array (← entries (Ascii.byte ']') "',' or ']'" value)

/-- The key of a member. -/
def memberKey : Guarded (Located String) := do
  match ← ofScan peek? with
  | none => ofScan (runOut "object key")
  | some b =>
    if b = Ascii.doubleQuote then stringLiteral
    else ofScan (fail (.unexpected "object key string" [b]))

def member (value : Guarded (Located Json)) : Guarded (Member Json) := do
  let key ← memberKey
  ofScan blanks
  let _ ← ofScan (literal "':'" [Ascii.byte ':'])
  ofScan blanks
  return ⟨key, ← value⟩

def objectNode (value : Guarded (Located Json)) : Guarded (Located Json) := located do
  return .object (← entries (Ascii.byte '\x7d') "',' or '\x7d'" (member value))

/-- A value by its first byte, given how the two containers are read. -/
def valueWith (arrays objects : Guarded (Located Json)) : Guarded (Located Json) := do
  match ← ofScan peek? with
  | none => ofScan (runOut "JSON value")
  | some b =>
    if b = Ascii.byte '\x7b' then objects
    else if b = Ascii.byte '[' then arrays
    else if b = Ascii.doubleQuote then return (← stringLiteral).map .string
    else if b = Ascii.byte 't' then ofScan (word "'true'" ['t', 'r', 'u', 'e'] (.bool true))
    else if b = Ascii.byte 'f' then ofScan (word "'false'" ['f', 'a', 'l', 's', 'e'] (.bool false))
    else if b = Ascii.byte 'n' then ofScan (word "'null'" ['n', 'u', 'l', 'l'] .null)
    else if b = Ascii.byte '-' || Ascii.isDigit b then numberNode
    else ofScan (fail (.unexpected "JSON value" [b]))

/-- A value inside which `levels` more containers may be opened, on a stack that has room for `room`
of them. -/
def value (limit : Nat) : (levels room : Nat) → Guarded (Located Json)
  | 0, _ => valueWith (ofScan (fail (.nestedTooDeep limit))) (ofScan (fail (.nestedTooDeep limit)))
  | _ + 1, 0 => valueWith (convert (.error .depth)) (convert (.error .depth))
  | levels + 1, room + 1 =>
    valueWith (arrayNode (value limit levels room)) (objectNode (value limit levels room))

private theorem entryTurn_ofScan (closing : UInt8) (expected : String) (entry : Scan α) :
    entryTurn closing expected (ofScan entry) = ofScan (Json.entryTurn closing expected entry) := by
  simp only [entryTurn, Json.entryTurn, ofScan_bind, ofScan_pure]

private theorem entries_ofScan (closing : UInt8) (expected : String) (entry : Scan α) :
    entries closing expected (ofScan entry) = ofScan (Json.entries closing expected entry) := by
  simp only [entries, Json.entries, ofScan_bind, ofScan_ite, ofScan_pure, entryTurn_ofScan,
    collect_ofScan]

private theorem arrayNode_ofScan (value : Scan (Located Json)) :
    arrayNode (ofScan value) = ofScan (Json.arrayNode value) := by
  rw [arrayNode, entries_ofScan, Json.arrayNode, ← located_ofScan]
  simp only [ofScan_bind, ofScan_pure]

private theorem memberKey_eq : memberKey = ofScan Json.memberKey := by
  simp only [memberKey, Json.memberKey, ofScan_bind]
  refine bind_congr fun next => ?_
  cases next with
  | none => rfl
  | some b => simp only [ofScan_ite, stringLiteral_eq]

private theorem member_ofScan (value : Scan (Located Json)) :
    member (ofScan value) = ofScan (Json.member value) := by
  simp only [member, Json.member, ofScan_bind, ofScan_pure, memberKey_eq]

private theorem objectNode_ofScan (value : Scan (Located Json)) :
    objectNode (ofScan value) = ofScan (Json.objectNode value) := by
  rw [objectNode, member_ofScan, entries_ofScan, Json.objectNode, ← located_ofScan]
  simp only [ofScan_bind, ofScan_pure]

private theorem valueWith_ofScan (arrays objects : Scan (Located Json)) :
    valueWith (ofScan arrays) (ofScan objects) = ofScan (Json.valueWith arrays objects) := by
  simp only [valueWith, Json.valueWith, ofScan_bind]
  refine bind_congr fun next => ?_
  cases next with
  | none => rfl
  | some b => simp only [ofScan_ite, ofScan_bind, ofScan_pure, stringLiteral_eq, numberNode_eq]

/-- The stack suffices for as many containers as it has room for. -/
theorem value_eq (limit : Nat) {levels room : Nat} (fits : levels ≤ room) :
    value limit levels room = ofScan (Json.value limit levels) := by
  induction levels generalizing room with
  | zero =>
    rw [value, Json.value]
    exact valueWith_ofScan _ _
  | succ levels ih =>
    obtain ⟨room, rfl⟩ : ∃ less, room = less + 1 := ⟨room - 1, by omega⟩
    rw [value, Json.value, ih (Nat.le_of_succ_le_succ fits), arrayNode_ofScan, objectNode_ofScan]
    exact valueWith_ofScan _ _

end Containers

section Documents

/-- The number of containers inside one another that the stack is taken to have room for. -/
def stackRoom : Nat := 256

/-- A value with blanks before it. -/
def document (settings : Settings) : Guarded (Located Json) := do
  ofScan blanks
  value settings.depthLimit settings.depthLimit stackRoom

/-- A document, after which there may be anything or nothing but blanks. -/
def documentThen (settings : Settings) (anything : Bool) : Guarded (Located Json) := do
  let root ← document settings
  if anything then return root
  else
    ofScan nothingElse
    return root

/-- The document that a buffer holds. -/
def parse (settings : Settings) (trailing : Option Bool) (buffer : Bytes) :
    Except Ending (Located Json) :=
  match documentThen settings (trailing.getD settings.trailingData) (Input.ofBytes buffer) with
  | .ok (root, _) => .ok root
  | .error ending => .error (ending.reportedBy .json)

private theorem documentThen_eq (settings : Settings) (anything : Bool) :
    documentThen settings anything = ofScan (Json.documentThen settings anything) := by
  have fits : settings.depthLimit ≤ stackRoom := settings.depthLimit_le
  simp only [documentThen, document, Json.documentThen, Json.document, value_eq _ fits,
    ofScan_bind, ofScan_ite, ofScan_pure]

/-- Whether conversions may refuse makes no difference to any document. -/
theorem parse_eq (settings : Settings) (trailing : Option Bool) (buffer : Bytes) :
    parse settings trailing buffer = (Json.parse settings trailing buffer).mapError .failed := by
  rw [parse, documentThen_eq, ofScan_run, Json.parse]
  cases Json.documentThen settings (trailing.getD settings.trailingData) (Input.ofBytes buffer) with
  | error failure => rfl
  | ok result => rfl

/-- Every parse ends with a tree, or with a failure that points into the buffer. No conversion
refuses anything on the way, and the stack has room for all containers that may be open. -/
theorem parse_disciplined (settings : Settings) (trailing : Option Bool) (buffer : Bytes) :
    (∃ root, parse settings trailing buffer = .ok root ∧
      Json.parse settings trailing buffer = .ok root) ∨
    ∃ failure, parse settings trailing buffer = .error (.failed failure) ∧
      Json.parse settings trailing buffer = .error failure ∧ failure.layer = .json ∧
        0 ≤ failure.offset ∧ failure.offset ≤ buffer.length := by
  rw [parse_eq]
  cases parsed : Json.parse settings trailing buffer with
  | ok root => exact .inl ⟨root, rfl, rfl⟩
  | error failure =>
    obtain ⟨reported, failing⟩ := parse_fails parsed
    have bound := failing.notBehind
    rw [Input.finish, Input.ofBytes, Nat.zero_add] at bound
    exact .inr ⟨failure, rfl, rfl, reported, failing.notBefore, bound⟩

end Documents

end Guarded

end WireSpan.Json
