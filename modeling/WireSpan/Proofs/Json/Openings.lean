import WireSpan.Proofs.Json.Acceptance

/-! The nesting of a document byte by byte, told from its brackets, braces and quotes alone. Every
text of the grammar leaves the level where it found it. -/

namespace WireSpan.Json

/-- Where a byte stands with respect to strings. -/
inductive Zone where
  | outside
  | quoted
  /-- Directly behind a backslash between quotes. -/
  | escaped
deriving DecidableEq, Repr

def isOpening (b : UInt8) : Bool := b == Ascii.byte '[' || b == Ascii.byte '\x7b'

def isClosing (b : UInt8) : Bool := b == Ascii.byte ']' || b == Ascii.byte '\x7d'

namespace Zone

/-- The zone behind a byte. -/
def next : Zone → UInt8 → Zone
  | outside, b => if b = Ascii.doubleQuote then quoted else outside
  | quoted, b =>
    if b = Ascii.doubleQuote then outside else if b = Ascii.backslash then escaped else quoted
  | escaped, _ => quoted

/-- The level behind a byte. Inside a string no byte changes it. -/
def levelAfter (zone : Zone) (b : UInt8) (level : Nat) : Nat :=
  if zone ≠ outside then level
  else if isOpening b then level + 1
  else if isClosing b then level - 1
  else level

end Zone

/-- The offset of the first bracket or brace outside strings that opens the level `target`. -/
def opening? (target : Nat) (zone : Zone) (offset level : Nat) : Bytes → Option Nat
  | [] => none
  | b :: rest =>
    if zone = .outside ∧ isOpening b = true ∧ level + 1 = target then some offset
    else opening? target (zone.next b) (offset + 1) (zone.levelAfter b level) rest

/-- The offset of the first bracket or brace of a buffer that opens the level `target`. -/
def firstOpening? (target : Nat) (buffer : Bytes) : Option Nat :=
  opening? target .outside 0 0 buffer

/-- The text opens the level `target` nowhere, and leads from one zone and level to another. -/
def Crosses (target : Nat) (zone : Zone) (level : Nat) (text : Bytes) (zone' : Zone)
    (level' : Nat) : Prop :=
  ∀ offset rest, opening? target zone offset level (text ++ rest) =
    opening? target zone' (offset + text.length) level' rest

/-- The text opens the level `target` nowhere, and begins and ends outside strings on one level. -/
abbrev KeepsLevel (target level : Nat) (text : Bytes) : Prop :=
  Crosses target .outside level text .outside level

/-- Bytes that mean nothing to strings and nesting. -/
def isStill (b : UInt8) : Bool := b != Ascii.doubleQuote && !isOpening b && !isClosing b

variable {target level offset levels : Nat} {text more : Bytes} {b : UInt8}
  {zone zone' last : Zone} {level' final : Nat}

section Crossings

theorem opening?_here {rest : Bytes} (opens : isOpening b = true) (found : level + 1 = target) :
    opening? target .outside offset level (b :: rest) = some offset := by
  rw [opening?, if_pos ⟨rfl, opens, found⟩]

theorem Crosses.nil : Crosses target zone level [] zone level := fun _ _ => rfl

theorem Crosses.append (first : Crosses target zone level text zone' level')
    (second : Crosses target zone' level' more last final) :
    Crosses target zone level (text ++ more) last final := by
  intro offset rest
  rw [List.append_assoc, first, second, List.length_append, Nat.add_assoc]

theorem Crosses.cons (first : Crosses target zone level [b] zone' level')
    (second : Crosses target zone' level' text last final) :
    Crosses target zone level (b :: text) last final := first.append second

private theorem crosses_byte
    (other : ¬ (zone = .outside ∧ isOpening b = true ∧ level + 1 = target)) :
    Crosses target zone level [b] (zone.next b) (zone.levelAfter b level) := by
  intro offset rest
  rw [List.singleton_append, opening?, if_neg other]
  rfl

private theorem crosses_all (still : ∀ b ∈ text, Crosses target zone level [b] zone level) :
    Crosses target zone level text zone level := by
  induction text with
  | nil => exact .nil
  | cons b text ih =>
    obtain ⟨first, others⟩ := List.forall_mem_cons.mp still
    exact first.cons (ih others)

theorem keepsLevel_byte (still : isStill b = true) : KeepsLevel target level [b] := by
  simp only [isStill, Bool.and_eq_true, bne_iff_ne, Bool.not_eq_true'] at still
  obtain ⟨⟨noQuote, noOpening⟩, noClosing⟩ := still
  have crossed : Crosses target .outside level [b] (Zone.next .outside b)
      (Zone.levelAfter .outside b level) := crosses_byte (by simp [noOpening])
  simpa [Zone.next, Zone.levelAfter, noQuote, noOpening, noClosing] using crossed

private theorem keepsLevel_all (still : ∀ b ∈ text, isStill b = true) :
    KeepsLevel target level text :=
  crosses_all fun b member => keepsLevel_byte (still b member)

private theorem crosses_quote :
    Crosses target .outside level [Ascii.doubleQuote] .quoted level := by
  have noOpening : isOpening Ascii.doubleQuote = false := by decide
  exact crosses_byte (by simp [noOpening])

private theorem crosses_unquote : Crosses target .quoted level [Ascii.doubleQuote] .outside level :=
  crosses_byte (by simp)

private theorem crosses_backslash : Crosses target .quoted level [Ascii.backslash] .escaped level :=
  crosses_byte (by simp)

private theorem crosses_letter : Crosses target .escaped level [b] .quoted level :=
  crosses_byte (by simp)

private theorem crosses_plain (noQuote : b ≠ Ascii.doubleQuote)
    (noBackslash : b ≠ Ascii.backslash) :
    Crosses target .quoted level [b] .quoted level := by
  have crossed : Crosses target .quoted level [b] (Zone.next .quoted b) level :=
    crosses_byte (by simp)
  rwa [Zone.next, if_neg noQuote, if_neg noBackslash] at crossed

/-- A bracket or brace opens a level that is not the one looked for. -/
theorem crosses_opening (opening : isOpening b = true) (other : level + 1 ≠ target) :
    Crosses target .outside level [b] .outside (level + 1) := by
  simp only [isOpening, Bool.or_eq_true, beq_iff_eq] at opening
  rcases opening with rfl | rfl <;> exact crosses_byte (by simp [other])

private theorem crosses_closing (closing : isClosing b = true) :
    Crosses target .outside (level + 1) [b] .outside level := by
  simp only [isClosing, Bool.or_eq_true, beq_iff_eq] at closing
  have noOpening : isOpening (Ascii.byte ']') = false ∧ isOpening (Ascii.byte '\x7d') = false := by
    decide
  rcases closing with rfl | rfl
  · exact crosses_byte (by simp [noOpening.1])
  · exact crosses_byte (by simp [noOpening.2])

end Crossings

section Strings

theorem UnitText.crosses {unit : Nat} (spelled : UnitText text unit) :
    Crosses target .quoted level text .quoted level := by
  cases spelled with
  | mk hex =>
    refine crosses_backslash.cons (crosses_letter.cons (crosses_all fun b member => ?_))
    exact crosses_plain (ne_of_accepts (hex b member) rfl) (ne_of_accepts (hex b member) rfl)

theorem CharText.crosses {c : Char} (spelled : CharText text c) :
    Crosses target .quoted level text .quoted level := by
  cases spelled with
  | plain visible notQuote notBackslash =>
    refine crosses_all fun b member => ?_
    have plain := isPlainByte_of_mem_encodeChar visible notQuote notBackslash b member
    simp only [isPlainByte, Bool.and_eq_true, bne_iff_ne] at plain
    exact crosses_plain plain.1.1 plain.1.2
  | short => exact crosses_backslash.cons crosses_letter
  | unit spelled => exact spelled.crosses
  | pair spelled followed => exact spelled.crosses.append followed.crosses

theorem CharsText.crosses {chars : List Char} (spelled : CharsText text chars) :
    Crosses target .quoted level text .quoted level := by
  induction spelled with
  | nil => exact .nil
  | cons first others ih => exact first.crosses.append ih

/-- Brackets and braces inside a string open and close nothing. -/
theorem StringText.keepsLevel {value : String} (spelled : StringText text value) :
    KeepsLevel target level text := by
  cases spelled with
  | mk spelled => exact crosses_quote.cons (spelled.crosses.append crosses_unquote)

end Strings

section Values

private theorem isStill_of_isDigit (digit : Ascii.isDigit b = true) : isStill b = true := by
  have other (c : UInt8) (rejected : Ascii.isDigit c = false) : b ≠ c :=
    ne_of_accepts digit rejected
  simp [isStill, isOpening, isClosing, other (Ascii.byte '[') rfl, other (Ascii.byte '\x7b') rfl,
    other (Ascii.byte ']') rfl, other (Ascii.byte '\x7d') rfl, other Ascii.doubleQuote rfl]

theorem BlankText.keepsLevel (blank : BlankText text) : KeepsLevel target level text := by
  refine keepsLevel_all fun b member => ?_
  have still : ∀ c ∈ [0x20, 0x09, 0x0a, 0x0d], isStill c = true := List.all_eq_true.mp rfl
  exact still b (blank b member)

theorem NumeralText.keepsLevel {numeral : Numeral} (spelled : NumeralText text numeral) :
    KeepsLevel target level text :=
  keepsLevel_all (spelled.forall (fun _ => isStill_of_isDigit) (List.all_eq_true.mp rfl))

theorem EntriesText.keepsLevel {α : Type} {entry : Nat → Bytes → α → Prop} {values : List α}
    (entered : ∀ offset text value, entry offset text value → KeepsLevel target level text)
    (spelled : EntriesText entry offset text values) : KeepsLevel target level text := by
  induction spelled with
  | last blankBefore spelled blankAfter =>
    exact (blankBefore.keepsLevel.append (entered _ _ _ spelled)).append blankAfter.keepsLevel
  | more blankBefore spelled blankAfter continued ih =>
    have first := (blankBefore.keepsLevel.append (entered _ _ _ spelled)).append
      blankAfter.keepsLevel
    exact first.append ((keepsLevel_byte (by decide)).cons ih)

/-- A text between the brackets of a container, or between its braces. -/
theorem keepsLevel_container {opening closing : UInt8} (opens : isOpening opening = true)
    (closes : isClosing closing = true) (other : level + 1 ≠ target)
    (inside : KeepsLevel target (level + 1) text) :
    KeepsLevel target level (opening :: text ++ [closing]) :=
  (crosses_opening opens other).cons (inside.append (crosses_closing closes))

theorem MemberText.keepsLevel {member : Member Json} (spelled : MemberText offset text member)
    (valued : ∀ offset text, ValueText offset text member.value → KeepsLevel target level text) :
    KeepsLevel target level text := by
  cases spelled with
  | mk named blankBefore blankAfter spelled =>
    refine ((named.keepsLevel.append blankBefore.keepsLevel).append ?_).append (valued _ _ spelled)
    exact (keepsLevel_byte (by decide)).cons blankAfter.keepsLevel

/-- A value opens no level beyond those that its depth takes it to. -/
theorem ValueText.keepsLevel {node : Located Json} (spelled : ValueText offset text node)
    (shallow : node.value.depth ≤ levels) (beyond : level + levels < target) :
    KeepsLevel target level text := by
  induction levels using Nat.strongRecOn generalizing offset text node level with
  | ind levels ih =>
    cases spelled with
    | null => exact keepsLevel_all (List.all_eq_true.mp rfl)
    | true => exact keepsLevel_all (List.all_eq_true.mp rfl)
    | false => exact keepsLevel_all (List.all_eq_true.mp rfl)
    | number spelled => exact spelled.keepsLevel
    | string spelled => exact spelled.keepsLevel
    | emptyArray between =>
      simp only [depth] at shallow
      exact keepsLevel_container rfl rfl (by omega) between.keepsLevel
    | emptyObject between =>
      simp only [depth] at shallow
      exact keepsLevel_container rfl rfl (by omega) between.keepsLevel
    | @array _ inside items entered =>
      simp only [depth] at shallow
      obtain ⟨fewer, rfl⟩ : ∃ fewer, levels = fewer + 1 := ⟨levels - 1, by omega⟩
      have within := entered.restrict (depthOfItems_le.mp (Nat.le_of_succ_le_succ shallow))
      refine keepsLevel_container rfl rfl (by omega) (within.keepsLevel fun _ _ _ item => ?_)
      exact ih fewer (Nat.lt_succ_self fewer) item.1 item.2 (by omega)
    | @object _ inside members entered =>
      simp only [depth] at shallow
      obtain ⟨fewer, rfl⟩ : ∃ fewer, levels = fewer + 1 := ⟨levels - 1, by omega⟩
      have within := entered.restrict (depthOfMembers_le.mp (Nat.le_of_succ_le_succ shallow))
      refine keepsLevel_container rfl rfl (by omega) (within.keepsLevel fun _ _ _ member => ?_)
      refine member.1.keepsLevel fun _ _ spelled => ?_
      exact ih fewer (Nat.lt_succ_self fewer) spelled member.2 (by omega)

end Values

end WireSpan.Json
