import WireSpan.Json.StringLiteral
import WireSpan.Proofs.Json.Grammar
import WireSpan.Proofs.Scan.Repetition
import WireSpan.Proofs.Text.Utf8

/-! The scanner of strings and the grammar of strings agree, turn by turn and then for whole
strings. Each turn reads one character or the closing quote, and a string is a run of turns. -/

namespace WireSpan.Json

open Scan

variable {input after : Input} {offset : Nat} {text rest : Bytes} {b : UInt8} {c : Char}

theorem CharText.ne_nil (spelled : CharText text c) : text ≠ [] := by
  cases spelled with
  | plain => exact String.utf8EncodeChar_ne_nil
  | short => simp
  | unit spelled => cases spelled; simp
  | pair spelled => cases spelled; simp

theorem isPlainByte_encodeChar {more : Bytes} (encoded : String.utf8EncodeChar c = b :: more) :
    isPlainByte b = true ↔ 0x20 ≤ c.toNat ∧ c ≠ '\x22' ∧ c ≠ '\x5c' := by
  have bound := Text.Utf8.toNat_lt c
  have plain : isPlainByte b = true ↔ 0x20 ≤ b.toNat ∧ b.toNat ≠ 0x22 ∧ b.toNat ≠ 0x5c := by
    simp only [isPlainByte, Bool.and_eq_true, bne_iff_ne, ne_eq, decide_eq_true_eq,
      UInt8.le_iff_toNat_le, ← UInt8.toNat_inj, Ascii.doubleQuote, Ascii.backslash,
      UInt8.reduceToNat]
    omega
  have quote : c ≠ '\x22' ↔ c.toNat ≠ 0x22 := by
    rw [ne_eq, ← Char.toNat_inj]
    rfl
  have backslash : c ≠ '\x5c' ↔ c.toNat ≠ 0x5c := by
    rw [ne_eq, ← Char.toNat_inj]
    rfl
  rw [plain, quote, backslash]
  rw [Text.Utf8.encodeChar_eq] at encoded
  split at encoded
  · have same := (List.cons.inj encoded).1
    rw [← same, UInt8.toNat_ofNat', Nat.mod_eq_of_lt (by omega)]
  · have large : 0x80 ≤ b.toNat := by
      split at encoded
      · rw [← (List.cons.inj encoded).1, UInt8.toNat_ofNat']
        omega
      · split at encoded
        · rw [← (List.cons.inj encoded).1, UInt8.toNat_ofNat']
          omega
        · rw [← (List.cons.inj encoded).1, UInt8.toNat_ofNat']
          omega
    omega

private theorem isPlainByte_of_continuation?
    (continues : (Text.Utf8.continuation? b).isSome = true) :
    isPlainByte b = true := by
  obtain ⟨bits, carried⟩ := Option.isSome_iff_exists.mp continues
  obtain ⟨small, rfl⟩ := Text.Utf8.continuation?_eq_some.mp carried
  have value : (UInt8.ofNat (bits + 0x80)).toNat = bits + 0x80 := by
    rw [UInt8.toNat_ofNat']
    omega
  simp only [isPlainByte, Bool.and_eq_true, bne_iff_ne, ne_eq, decide_eq_true_eq,
    UInt8.le_iff_toNat_le, ← UInt8.toNat_inj, Ascii.doubleQuote, Ascii.backslash,
    UInt8.reduceToNat, value]
  omega

/-- All bytes of a character that stands for itself are plain. -/
theorem isPlainByte_of_mem_encodeChar {c : Char} (visible : 0x20 ≤ c.toNat) (notQuote : c ≠ '\x22')
    (notBackslash : c ≠ '\x5c') : ∀ b ∈ String.utf8EncodeChar c, isPlainByte b = true := by
  intro b member
  obtain ⟨front, rest, encoded⟩ := List.append_of_mem member
  by_cases first : front = []
  · subst first
    exact (isPlainByte_encodeChar encoded).mpr ⟨visible, notQuote, notBackslash⟩
  · exact isPlainByte_of_continuation? ((Text.Utf8.continuation?_encodeChar encoded).mpr first)

private theorem plainChar_sound (read : plainChar input = .ok (c, after)) :
    input.Passes (String.utf8EncodeChar c) after := by
  unfold plainChar at read
  split at read
  · rename_i char count found
    cases read
    obtain ⟨rest, bytes, rfl⟩ := Text.Utf8.decode?_sound found
    exact ⟨by simp [Input.advance, bytes], rfl⟩
  · cases read

private theorem plainChar_reads : Reads plainChar offset (String.utf8EncodeChar c) c rest := by
  simp [Reads, plainChar, Text.Utf8.decode?_encode, Input.advance]

private theorem simpleEscape?_eq_some : simpleEscape? b = some c ↔ (b, c) ∈ shortEscapes := by
  constructor
  · intro found
    unfold simpleEscape? at found
    repeat' split at found
    all_goals cases found
    all_goals subst b; decide
  · intro listed
    simp only [shortEscapes, List.mem_cons, Prod.mk.injEq, List.not_mem_nil, or_false] at listed
    rcases listed with ⟨rfl, rfl⟩ | ⟨rfl, rfl⟩ | ⟨rfl, rfl⟩ | ⟨rfl, rfl⟩ | ⟨rfl, rfl⟩ |
      ⟨rfl, rfl⟩ | ⟨rfl, rfl⟩ | ⟨rfl, rfl⟩
    all_goals rfl

theorem hexFour_sound {unit : Nat} (read : hexFour input = .ok (unit, after)) :
    ∃ a b c d, input.Passes [a, b, c, d] after ∧
      (∀ digit ∈ [a, b, c, d], Ascii.isHexDigit digit = true) ∧
        unit = Ascii.hexNumber [a, b, c, d] := by
  obtain ⟨a, first, found, later⟩ := bind_eq_ok.mp read
  obtain ⟨b, second, next, later⟩ := bind_eq_ok.mp later
  obtain ⟨c, third, more, later⟩ := bind_eq_ok.mp later
  obtain ⟨d, fourth, last, later⟩ := bind_eq_ok.mp later
  obtain ⟨rfl, rfl⟩ := pure_eq_ok.mp later
  obtain ⟨passA, hexA, -⟩ := byteOf_sound found
  obtain ⟨passB, hexB, -⟩ := byteOf_sound next
  obtain ⟨passC, hexC, -⟩ := byteOf_sound more
  obtain ⟨passD, hexD, -⟩ := byteOf_sound last
  refine ⟨_, _, _, _, ((passA.trans passB).trans passC).trans passD, ?_, rfl⟩
  simp [hexA, hexB, hexC, hexD]

theorem hexFour_reads {a b c d : UInt8}
    (hex : ∀ digit ∈ [a, b, c, d], Ascii.isHexDigit digit = true) :
    Reads hexFour offset [a, b, c, d] (Ascii.hexNumber [a, b, c, d]) rest := by
  refine (Reads.byteOf _ (hex a (by simp))).byteThen ?_
  refine (Reads.byteOf _ (hex b (by simp))).byteThen ?_
  refine (Reads.byteOf _ (hex c (by simp))).byteThen ?_
  exact (Reads.byteOf _ (hex d (by simp))).map fun x : Located UInt8 =>
    Ascii.hexNumber [a, b, c, x.value]

theorem isLeading_iff {unit : Nat} : isLeading unit = true ↔ 0xd800 ≤ unit ∧ unit < 0xdc00 := by
  simp [isLeading]

theorem isTrailing_iff {unit : Nat} :
    isTrailing unit = true ↔ 0xdc00 ≤ unit ∧ unit < 0xe000 := by
  simp [isTrailing]

theorem trailingUnit_sound {start unit : Nat}
    (read : trailingUnit start input = .ok (unit, after)) :
    ∃ text, input.Passes text after ∧ UnitText text unit ∧ isTrailing unit = true := by
  unfold trailingUnit at read
  simp only at read
  split at read
  · rename_i follow
    rw [skip_bind] at read
    obtain ⟨value, mid, found, later⟩ := bind_eq_ok.mp read
    split at later
    · rename_i trails
      obtain ⟨rfl, rfl⟩ := pure_eq_ok.mp later
      obtain ⟨a, b, c, d, passes, hex, rfl⟩ := hexFour_sound found
      exact ⟨_, (Input.passes_of_take follow).trans passes, .mk hex, trails⟩
    · cases later
  · split at read <;> cases read

theorem UnitText.trailing_reads {start unit : Nat} (spelled : UnitText text unit)
    (trails : isTrailing unit = true) : Reads (trailingUnit start) offset text unit rest := by
  cases spelled with
  | @mk a b c d hex =>
    have tail : Reads (hexFour >>= fun unit => if isTrailing unit then pure unit else
        failAt start (.unexpected "trailing surrogate after leading surrogate" []))
        (offset + unitEscape.length) [a, b, c, d] (Ascii.hexNumber [a, b, c, d]) rest := by
      refine (hexFour_reads hex).thenNothing ?_
      rw [if_pos trails]
      exact Reads.pure _
    unfold Reads at tail ⊢
    unfold trailingUnit
    simpa [unitEscape, skip_bind, Input.advance] using tail

/-- What follows the backslash and the `u` of an escape by code unit. -/
theorem unitChar_sound {start : Nat} (read : unitChar start input = .ok (c, after)) :
    ∃ text, input.Passes text after ∧ CharText (unitEscape ++ text) c := by
  obtain ⟨unit, mid, found, later⟩ := bind_eq_ok.mp read
  obtain ⟨x, y, z, w, passes, hex, rfl⟩ := hexFour_sound found
  have spelled : UnitText (unitEscape ++ [x, y, z, w]) _ := .mk hex
  by_cases trails : isTrailing (Ascii.hexNumber [x, y, z, w]) = true
  · rw [if_pos trails] at later
    cases later
  · rw [if_neg trails] at later
    by_cases leads : isLeading (Ascii.hexNumber [x, y, z, w]) = true
    · rw [if_pos leads] at later
      obtain ⟨trailing, last, second, result⟩ := bind_eq_ok.mp later
      obtain ⟨rfl, rfl⟩ := pure_eq_ok.mp result
      obtain ⟨more, passed, followed, follows⟩ := trailingUnit_sound second
      refine ⟨_, passes.trans passed, ?_⟩
      rw [← List.append_assoc]
      exact .pair spelled followed (isLeading_iff.mp leads) (isTrailing_iff.mp follows)
    · rw [if_neg leads] at later
      obtain ⟨rfl, rfl⟩ := pure_eq_ok.mp later
      refine ⟨_, passes, .unit spelled ?_⟩
      rw [isTrailing_iff] at trails
      rw [isLeading_iff] at leads
      omega

private theorem escape_sound (next : input.rest.head? = some Ascii.backslash)
    (read : escape input = .ok (c, after)) :
    ∃ text, input.Passes text after ∧ CharText text c := by
  rw [escape, here_bind, skip_bind, peek?_bind] at read
  have escaped := Input.passes_head next
  cases found : (input.advance 1).rest.head? with
  | none =>
    rw [found] at read
    cases read
  | some letter =>
    rw [found] at read
    have passes := escaped.trans (Input.passes_head found)
    simp only at read
    cases known : simpleEscape? letter with
    | some char =>
      rw [known] at read
      simp only at read
      rw [skip_bind] at read
      obtain ⟨rfl, rfl⟩ := pure_eq_ok.mp read
      exact ⟨_, passes, .short (simpleEscape?_eq_some.mp known)⟩
    | none =>
      rw [known] at read
      simp only at read
      split at read
      · rename_i same
        subst same
        rw [skip_bind] at read
        obtain ⟨text, passed, spelled⟩ := unitChar_sound read
        exact ⟨_, passes.trans passed, spelled⟩
      · cases read

/-- A turn reads one character, or the closing quote. -/
theorem stringTurn_sound {result : Char ⊕ Unit} (read : stringTurn input = .ok (result, after)) :
    (∃ text c, result = .inl c ∧ input.Passes text after ∧ CharText text c) ∨
      (result = .inr () ∧ input.Passes [Ascii.doubleQuote] after) := by
  rw [stringTurn, peek?_bind] at read
  cases found : input.rest.head? with
  | none =>
    rw [found] at read
    cases read
  | some b =>
    rw [found] at read
    simp only at read
    split at read
    · rename_i quote
      subst quote
      rw [skip_bind] at read
      obtain ⟨rfl, rfl⟩ := pure_eq_ok.mp read
      exact .inr ⟨rfl, Input.passes_head found⟩
    · split at read
      · rename_i backslash
        subst backslash
        obtain ⟨c, mid, escaped, result⟩ := bind_eq_ok.mp read
        obtain ⟨rfl, rfl⟩ := pure_eq_ok.mp result
        obtain ⟨text, passes, spelled⟩ := escape_sound found escaped
        exact .inl ⟨text, c, rfl, passes, spelled⟩
      · split at read
        · rename_i plain
          obtain ⟨c, mid, scanned, result⟩ := bind_eq_ok.mp read
          obtain ⟨rfl, rfl⟩ := pure_eq_ok.mp result
          have passes := plainChar_sound scanned
          obtain ⟨first, more, encoded⟩ :=
            List.exists_cons_of_ne_nil (String.utf8EncodeChar_ne_nil (c := c))
          have same : first = b := by
            rw [passes.rest, encoded] at found
            exact Option.some.inj found
          rw [← same] at plain
          obtain ⟨visible, notQuote, notBackslash⟩ := (isPlainByte_encodeChar encoded).mp plain
          exact .inl ⟨_, c, rfl, passes, .plain visible notQuote notBackslash⟩
        · cases read

theorem stringTurn_readsOn : ReadsOn stringTurn := by
  intro input c after read
  rcases stringTurn_sound read with ⟨text, d, -, passes, spelled⟩ | ⟨ended, -⟩
  · have some := List.length_pos_iff.mpr spelled.ne_nil
    rw [passes.length_rest]
    omega
  · cases ended

private theorem stringTurn_reads_quote :
    Reads stringTurn offset [Ascii.doubleQuote] (.inr ()) rest := rfl

private theorem escape_reads_turn (read : Reads escape offset (Ascii.backslash :: text) c rest) :
    Reads stringTurn offset (Ascii.backslash :: text) (.inl c) rest := by
  have turn : Reads (escape >>= fun c => pure (.inl c)) offset _ (.inl c : Char ⊕ Unit) rest :=
    read.map Sum.inl
  exact turn

private theorem unitChar_reads_turn (read : Reads (unitChar offset) (offset + 2) text c rest) :
    Reads stringTurn offset (Ascii.backslash :: Ascii.byte 'u' :: text) (.inl c) rest := by
  apply escape_reads_turn
  unfold Reads at read ⊢
  rw [List.length_cons, List.length_cons, Nat.add_comm text.length, Nat.add_assoc 1,
    Nat.add_comm text.length, ← Nat.add_assoc 1, ← Nat.add_assoc]
  exact read

theorem UnitText.reads {unit : Nat} (spelled : UnitText text unit)
    (single : unit < 0xd800 ∨ 0xe000 ≤ unit) :
    Reads stringTurn offset text (.inl (Char.ofNat unit)) rest := by
  cases spelled with
  | @mk a b c d hex =>
    apply unitChar_reads_turn
    have notTrailing : ¬ isTrailing (Ascii.hexNumber [a, b, c, d]) = true := by
      rw [isTrailing_iff]
      omega
    have notLeading : ¬ isLeading (Ascii.hexNumber [a, b, c, d]) = true := by
      rw [isLeading_iff]
      omega
    refine (hexFour_reads hex).thenNothing ?_
    rw [if_neg notTrailing, if_neg notLeading]
    exact Reads.pure _

theorem UnitText.reads_pair {first second : Bytes} {leading trailing : Nat}
    (spelled : UnitText first leading) (followed : UnitText second trailing)
    (leads : 0xd800 ≤ leading ∧ leading < 0xdc00)
    (trails : 0xdc00 ≤ trailing ∧ trailing < 0xe000) :
    Reads stringTurn offset (first ++ second)
      (.inl (Char.ofNat (0x10000 + (leading - 0xd800) * 0x400 + (trailing - 0xdc00)))) rest := by
  cases spelled with
  | @mk a b c d hex =>
    apply unitChar_reads_turn
    have notTrailing : ¬ isTrailing (Ascii.hexNumber [a, b, c, d]) = true := by
      rw [isTrailing_iff]
      omega
    refine (hexFour_reads hex).bind ?_
    rw [if_neg notTrailing, if_pos (isLeading_iff.mpr leads)]
    exact (followed.trailing_reads (isTrailing_iff.mpr trails)).map fun trailing =>
      Char.ofNat (pairValue (Ascii.hexNumber [a, b, c, d]) trailing)

private theorem short_reads {letter : UInt8} (listed : (letter, c) ∈ shortEscapes) :
    Reads stringTurn offset [Ascii.backslash, letter] (.inl c) rest := by
  apply escape_reads_turn
  have known := simpleEscape?_eq_some.mpr listed
  unfold Reads
  rw [escape, here_bind, skip_bind, peek?_bind]
  simp only [List.cons_append, Input.advance, List.drop_succ_cons, List.drop_zero,
    List.head?_cons, known]
  rfl

private theorem plain_reads (visible : 0x20 ≤ c.toNat) (notQuote : c ≠ '\x22')
    (notBackslash : c ≠ '\x5c') :
    Reads stringTurn offset (String.utf8EncodeChar c) (.inl c) rest := by
  obtain ⟨first, more, encoded⟩ :=
    List.exists_cons_of_ne_nil (String.utf8EncodeChar_ne_nil (c := c))
  have plain := (isPlainByte_encodeChar encoded).mpr ⟨visible, notQuote, notBackslash⟩
  have read : Reads (plainChar >>= fun c => pure (.inl c)) offset _ (.inl c : Char ⊕ Unit) rest :=
    plainChar_reads.map Sum.inl
  have split := plain
  simp only [isPlainByte, Bool.and_eq_true, bne_iff_ne] at split
  unfold Reads at read ⊢
  rw [stringTurn, peek?_bind, encoded, List.cons_append, List.head?_cons]
  simp only [if_neg split.1.1, if_neg split.1.2, if_pos plain]
  rw [encoded] at read
  exact read

/-- Every character is read back in one turn, whatever its spelling and whatever follows it. -/
theorem CharText.reads (spelled : CharText text c) :
    Reads stringTurn offset text (.inl c) rest := by
  cases spelled with
  | plain visible notQuote notBackslash => exact plain_reads visible notQuote notBackslash
  | short listed => exact short_reads listed
  | unit spelled single => exact spelled.reads single
  | pair spelled followed leads trails => exact spelled.reads_pair followed leads trails

private theorem turns_sound {chars : List Char} (turns : Turns stringTurn input chars () after) :
    ∃ body, input.Passes (body ++ [Ascii.doubleQuote]) after ∧ CharsText body chars := by
  generalize final : () = last at turns
  induction turns with
  | done ended =>
    rcases stringTurn_sound ended with ⟨text, c, different, -⟩ | ⟨-, passes⟩
    · cases different
    · exact ⟨[], passes, .nil⟩
  | step read more ih =>
    obtain ⟨body, passed, rest⟩ := ih final
    rcases stringTurn_sound read with ⟨text, c, same, passes, spelled⟩ | ⟨different, -⟩
    · cases same
      refine ⟨text ++ body, ?_, .cons spelled rest⟩
      rw [List.append_assoc]
      exact passes.trans passed
    · cases different

theorem CharsText.turns {chars : List Char} (spelled : CharsText text chars) :
    Turns stringTurn ⟨offset, text ++ Ascii.doubleQuote :: rest⟩ chars ()
      ⟨offset + (text.length + 1), rest⟩ := by
  induction spelled generalizing offset with
  | nil => exact .done stringTurn_reads_quote
  | @cons text more c chars spelled others ih =>
    rw [List.append_assoc, List.length_append, Nat.add_assoc, ← Nat.add_assoc offset]
    exact .step spelled.reads ih

theorem stringLiteral_sound {x : Located String} (read : stringLiteral input = .ok (x, after)) :
    ∃ text, input.Passes text after ∧ StringText text x.value ∧
      x.span = Span.ofLength input.offset text.length := by
  obtain ⟨value, scanned, rfl⟩ := located_eq_ok.mp read
  obtain ⟨quote, mid, found, later⟩ := bind_eq_ok.mp scanned
  obtain ⟨⟨chars, last⟩, stop, run, result⟩ := bind_eq_ok.mp later
  obtain ⟨rfl, rfl⟩ := pure_eq_ok.mp result
  obtain ⟨opened, -⟩ := literal_sound found
  obtain ⟨body, passes, spelled⟩ := turns_sound (Turns.ofCollect run)
  have whole := opened.trans passes
  exact ⟨_, whole, .mk spelled, whole.spanTo⟩

theorem StringText.reads {value : String} (spelled : StringText text value) :
    Reads stringLiteral offset text ⟨value, Span.ofLength offset text.length⟩ rest := by
  apply Reads.located
  cases spelled with
  | @mk body chars spelled =>
    refine (Reads.literal "'\x22'").byteThen ?_
    have run : Reads (collect stringTurn) (offset + 1) (body ++ [Ascii.doubleQuote]) (chars, ())
        rest := by
      unfold Reads
      rw [List.append_assoc, List.length_append]
      exact spelled.turns.collect stringTurn_readsOn
    exact run.map fun read : List Char × Unit => String.ofList read.1

/-- A string denotes one text. -/
theorem StringText.unique {value other : String} (spelled : StringText text value)
    (again : StringText text other) : value = other := by
  have first : Reads stringLiteral 0 text _ [] := spelled.reads
  have second : Reads stringLiteral 0 text _ [] := again.reads
  have same := first.symm.trans second
  simp only [Except.ok.injEq, Prod.mk.injEq, Located.mk.injEq] at same
  exact same.1.1

end WireSpan.Json
