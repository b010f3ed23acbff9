import Mathlib.Data.List.Induction
import Mathlib.Data.Nat.Digits.Defs
import WireSpan.Ascii
import WireSpan.Decimal.Whole

/-! Plain numerals: digits behind at most a minus, with neither blanks nor underscores. They are
read as the number that they denote, unless they are too long. -/

namespace WireSpan.Decimal

variable {c : Char} {digits more : List Char}

private theorem isGrouped_of_digits (nonempty : digits ≠ [])
    (all : ∀ c ∈ digits, c.isDigit = true) :
    isGrouped digits = true := by
  induction digits with
  | nil => exact absurd rfl nonempty
  | cons c rest ih =>
    obtain ⟨digit, others⟩ := List.forall_mem_cons.mp all
    have noMark : '_'.isDigit ≠ true := by decide
    unfold isGrouped
    split
    · contradiction
    · simp_all
    · simp_all
    · simp_all
    · rename_i several _ _ same
      cases same
      rw [digit, Bool.true_and]
      exact ih several others

private theorem isAsciiBlank_of_isDigit (digit : c.isDigit = true) :
    Text.isAsciiBlank c = false := by
  simp only [Char.isDigit, Bool.and_eq_true, decide_eq_true_eq, ge_iff_le,
    UInt32.le_iff_toNat_le, Char.toNat_val] at digit
  have high : ¬ c ≤ '\r' := by
    rw [Char.le_def, UInt32.le_iff_toNat_le, Char.toNat_val]
    have low : 48 ≤ c.toNat := digit.1
    show ¬ c.toNat ≤ 13
    omega
  have notSpace : c ≠ ' ' := by
    rintro rfl
    revert digit
    decide
  simp [Text.isAsciiBlank, high, notSpace]

private theorem splitSign_of_isDigit (digit : c.isDigit = true) :
    splitSign (c :: more) = (false, c :: more) := by
  unfold splitSign
  split
  · rename_i same
    cases same
    exact absurd digit (by decide)
  · rename_i same
    cases same
    exact absurd digit (by decide)
  · rfl

/-- A plain numeral, whose minus is no blank either. -/
theorem readAscii_plain (shown : String) (negative : Bool) (nonempty : digits ≠ [])
    (all : ∀ c ∈ digits, c.isDigit = true) :
    readAscii shown ((if negative then ['-'] else []) ++ digits) =
      if maxDigits < digits.length then .error (.tooLong digits.length)
      else .ok (if negative then -(ofDigits digits : Int) else ofDigits digits) := by
  have body : ∀ c ∈ digits, (c.isDigit || c == '_') = true := fun c member => by
    rw [all c member, Bool.true_or]
  have run : (digits ++ []).takeWhile (fun c : Char => c.isDigit || c == '_') = digits ++ [] :=
    List.takeWhile_append_of_pos body
  have rest : (digits ++ []).dropWhile (fun c : Char => c.isDigit || c == '_') = [] :=
    List.dropWhile_append_of_pos body
  rw [List.append_nil] at run rest
  have split : splitSign (((if negative then ['-'] else []) ++ digits).dropWhile
      Text.isAsciiBlank) = (negative, digits) := by
    cases negative with
    | true => rfl
    | false =>
      obtain ⟨c, more, rfl⟩ := List.exists_cons_of_ne_nil nonempty
      have digit := all c List.mem_cons_self
      rw [if_neg Bool.false_ne_true, List.nil_append, List.dropWhile_cons_of_neg]
      · exact splitSign_of_isDigit digit
      · rw [isAsciiBlank_of_isDigit digit]
        exact Bool.false_ne_true
  simp only [readAscii, split, run, rest, isGrouped_of_digits nonempty all,
    List.filter_eq_self.mpr all, List.all_nil, Bool.not_true, Bool.false_eq_true, if_false]

section Bytes

variable {b : UInt8} {bytes : Bytes}

theorem toNat_ofNat_byte : (Char.ofNat b.toNat).toNat = b.toNat := by
  have small := b.toNat_lt
  have valid : b.toNat.isValidChar := .inl (by omega)
  rw [Char.ofNat, dif_pos valid]
  rfl

private theorem asciiOf_byte (ascii : b < 0x7f) :
    asciiOf (Char.ofNat b.toNat) = Char.ofNat b.toNat := by
  have small : b.toNat < 0x7f := UInt8.lt_iff_toNat_lt.mp ascii
  rw [asciiOf, toNat_ofNat_byte, if_pos small]

private theorem isDigit_ofNat_byte : (Char.ofNat b.toNat).isDigit = Ascii.isDigit b := by
  rw [Bool.eq_iff_iff]
  simp only [Char.isDigit, Ascii.isDigit, Bool.and_eq_true, decide_eq_true_eq, ge_iff_le,
    UInt32.le_iff_toNat_le, Char.toNat_val, toNat_ofNat_byte, UInt8.le_iff_toNat_le]
  exact Iff.rfl

private theorem ofDigits_bytes : ofDigits (bytes.map fun b => Char.ofNat b.toNat) =
    Ascii.decimalNumber bytes := by
  simp only [ofDigits, Ascii.decimalNumber, List.foldl_map, toNat_ofNat_byte]
  rfl

/-- The digit that stands for the units comes last. -/
theorem decimalNumber_eq (digits : Bytes) :
    Ascii.decimalNumber digits =
      Nat.ofDigits 10 (digits.reverse.map fun digit => digit.toNat - 0x30) := by
  induction digits using List.reverseRecOn with
  | nil => rfl
  | append_singleton digits last ih =>
    rw [List.reverse_append, List.reverse_singleton, List.singleton_append, List.map_cons,
      Nat.ofDigits_cons, ← ih, Ascii.decimalNumber, List.foldl_append, ← Ascii.decimalNumber,
      List.foldl_cons, List.foldl_nil, Nat.mul_comm, Nat.add_comm]

/-- The text of a plain numeral. -/
theorem wholeOfText?_latin1 (negative : Bool) (nonempty : bytes ≠ [])
    (all : ∀ b ∈ bytes, Ascii.isDigit b = true) :
    wholeOfText? (Ascii.latin1 ((if negative then Ascii.bytes ['-'] else []) ++ bytes)) =
      if maxDigits < bytes.length then .error (.tooLong bytes.length)
      else .ok (if negative then -(Ascii.decimalNumber bytes : Int)
        else Ascii.decimalNumber bytes) := by
  have plain : ∀ b ∈ (if negative then Ascii.bytes ['-'] else []) ++ bytes, b < 0x7f := by
    refine List.forall_mem_append.mpr ⟨?_, fun b member => ?_⟩
    · cases negative with
      | true => exact List.forall_mem_singleton.mpr (by decide)
      | false => nofun
    · have digit := all b member
      simp only [Ascii.isDigit, Bool.and_eq_true, decide_eq_true_eq, UInt8.le_iff_toNat_le,
        UInt8.lt_iff_toNat_lt, UInt8.reduceToNat] at digit ⊢
      omega
  have chars : (Ascii.latin1 ((if negative then Ascii.bytes ['-'] else []) ++ bytes)).toList.map
      asciiOf = (if negative then ['-'] else []) ++ bytes.map fun b => Char.ofNat b.toNat := by
    have same : ∀ b ∈ (if negative then Ascii.bytes ['-'] else []) ++ bytes,
        (asciiOf ∘ fun b => Char.ofNat b.toNat) b = Char.ofNat b.toNat :=
      fun b member => asciiOf_byte (plain b member)
    rw [Ascii.latin1, String.toList_ofList, List.map_map, List.map_congr_left same, List.map_append]
    cases negative <;> rfl
  have digits : ∀ c ∈ bytes.map fun b => Char.ofNat b.toNat, c.isDigit = true := by
    intro c member
    obtain ⟨b, present, rfl⟩ := List.mem_map.mp member
    rw [isDigit_ofNat_byte, all b present]
  rw [wholeOfText?, chars, readAscii_plain _ negative (mt List.map_eq_nil_iff.mp nonempty) digits,
    List.length_map, ofDigits_bytes]

end Bytes

end WireSpan.Decimal
