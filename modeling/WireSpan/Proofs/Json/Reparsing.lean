import WireSpan.Json.Plain
import WireSpan.Proofs.Json.Relocation
import WireSpan.Proofs.Json.Subtrees
import WireSpan.Proofs.Span.Stands

/-! Documents inside documents. The bytes of any value of a document are a document themselves, and
reading them gives the subtree of that value, moved to the start of its bytes. -/

namespace WireSpan.Json

open Scan

mutual

/-- The plain value does not depend on where a tree stands. -/
theorem plain_shiftBy (distance : Nat) (value : Json) :
    (shiftBy distance value).plain = value.plain := by
  cases value with
  | array items => rw [shiftBy, plain, plain, plainItems_shiftItems distance items]
  | object members => rw [shiftBy, plain, plain, plainMembers_shiftMembers distance members]
  | _ => rfl

theorem plainItems_shiftItems (distance : Nat) (items : List (Located Json)) :
    plainItems (shiftItems distance items) = plainItems items := by
  cases items with
  | nil => rfl
  | cons item items =>
    obtain ⟨value, span⟩ := item
    rw [shiftItems, plainItems, plainItems, plain_shiftBy distance value,
      plainItems_shiftItems distance items]

theorem plainMembers_shiftMembers (distance : Nat) (members : List (Member Json))
    (entries : List (String × Plain)) :
    plainMembers entries (shiftMembers distance members) = plainMembers entries members := by
  cases members with
  | nil => rfl
  | cons member members =>
    obtain ⟨key, value, span⟩ := member
    rw [shiftMembers, plainMembers, plainMembers, plain_shiftBy distance value,
      plainMembers_shiftMembers distance members]
    rfl

end

variable {offset distance levels : Nat} {text : Bytes} {node : Located Json}

/-- Text that spells a value somewhere spells it, with its places moved, at the start of a
buffer. -/
theorem ValueText.relocate (spelled : ValueText distance text node) :
    ∃ part, ValueText 0 text part ∧ part.value.depth ≤ node.value.depth ∧
      Located.shiftWith (shiftBy distance) distance part = node := by
  have there : Reads (value 0 node.value.depth) distance text node [] :=
    value_complete 0 _ ⟨spelled, Nat.le_refl _⟩ (Stops.nil _)
  unfold Reads at there
  have start : (⟨distance, text ++ []⟩ : Input) = Input.shiftBy ⟨0, text⟩ distance := by
    rw [List.append_nil, Input.shiftBy, Nat.zero_add]
  rw [start] at there
  obtain ⟨part, after, read, rfl, stop⟩ := (value_relocates 0 _).eq_ok there
  obtain ⟨whole, passes, here, shallow⟩ := value_sound 0 _ read
  have bytes : text = whole ++ after.rest := passes.rest
  have rest : after.rest = [] := (congrArg Input.rest stop).symm
  rw [rest, List.append_nil] at bytes
  rw [bytes]
  exact ⟨part, here, shallow, rfl⟩

/-- A value by itself is a document. -/
theorem parse_valueText {settings : Settings} (spelled : ValueText 0 text node)
    (shallow : node.value.depth ≤ settings.depthLimit) :
    parse settings (some false) text = .ok node := by
  have document : DocumentText ([] ++ text ++ []) node := .mk BlankText.nil spelled BlankText.nil
  rw [List.append_nil, List.nil_append] at document
  exact parse_complete document shallow

/-- The bytes of every value inside a document parse by themselves, to the subtree of that value
moved to the start of its bytes; and those of every key, to a string that is the key. -/
theorem document_slices (settings : Settings) (trailing : Option Bool) (buffer : Bytes)
    (root : Located Json) (parsed : parse settings trailing buffer = .ok root) :
    (∀ node, Inside root node → ∃ slice part, node.span.extract? buffer = .ok slice ∧
      parse settings (some false) slice = .ok part ∧
        part.shiftWith (shiftBy node.span.start) node.span.start = node ∧
          part.span = Span.ofLength 0 node.span.length ∧ part.value.plain = node.value.plain) ∧
    ∀ key, KeyInside root key → ∃ slice, key.span.extract? buffer = .ok slice ∧
      parse settings (some false) slice =
        .ok ⟨.string key.value, Span.ofLength 0 key.span.length⟩ := by
  obtain ⟨before, text, after, same, -, spelled, shallow⟩ := parse_stands parsed
  have stands : Stands buffer before.length text := ⟨before, after, same, rfl⟩
  constructor
  · intro node inside
    obtain ⟨front, slice, back, rfl, within⟩ := inside.spelled spelled
    obtain ⟨part, here, flat, moved⟩ := within.relocate
    have parsed : parse settings (some false) slice = .ok part :=
      parse_valueText here (Nat.le_trans flat (Nat.le_trans inside.depth_le shallow))
    refine ⟨slice, part, ?_, parsed, ?_, ?_, ?_⟩
    · rw [within.span]
      exact stands.part.extract
    · rw [within.span]
      exact moved
    · rw [here.span, within.span]
      simp only [Span.length, Span.ofLength, Nat.add_sub_cancel_left]
    · rw [← moved]
      exact (plain_shiftBy _ _).symm
  · intro key inside
    obtain ⟨front, slice, back, rfl, quoted, place⟩ := inside.spelled spelled
    refine ⟨slice, ?_, ?_⟩
    · rw [place]
      exact stands.part.extract
    · have length : key.span.length = slice.length := by
        simp only [place, Span.length, Span.ofLength, Nat.add_sub_cancel_left]
      rw [length]
      exact parse_valueText (.string quoted) (by simp [depth])

/-- An object with one member, between blanks. -/
theorem document_slices_member :
    ∃ root, parse .standard (some true) (Ascii.bytes [' ', '\x7b', '\x22', 'a', '\x22', ':', '[',
        '1', ']', '\x7d', 'x']) = .ok root ∧
      (∀ node, Inside root node → ∃ slice part, node.span.extract? (Ascii.bytes [' ', '\x7b',
          '\x22', 'a', '\x22', ':', '[', '1', ']', '\x7d', 'x']) = .ok slice ∧
        parse .standard (some false) slice = .ok part ∧
          part.shiftWith (shiftBy node.span.start) node.span.start = node ∧
            part.span = Span.ofLength 0 node.span.length ∧ part.value.plain = node.value.plain) ∧
      ∀ key, KeyInside root key → ∃ slice, key.span.extract? (Ascii.bytes [' ', '\x7b', '\x22', 'a',
          '\x22', ':', '[', '1', ']', '\x7d', 'x']) = .ok slice ∧
        parse .standard (some false) slice =
          .ok ⟨.string key.value, Span.ofLength 0 key.span.length⟩ :=
  ⟨_, rfl, document_slices .standard (some true) _ _ rfl⟩

end WireSpan.Json
