import Mathlib.Data.List.Induction
import WireSpan.Ascii

/-! Hexadecimal numerals fit in four bits a digit. -/

namespace WireSpan.Ascii

variable {b : UInt8} {digits : Bytes}

private theorem hexValue_lt (hex : isHexDigit b = true) : hexValue b < 16 := by
  simp only [isHexDigit, isDigit, Bool.or_eq_true, Bool.and_eq_true, decide_eq_true_eq,
    UInt8.le_iff_toNat_le, UInt8.reduceToNat] at hex
  simp only [hexValue, UInt8.le_iff_toNat_le, UInt8.reduceToNat]
  split
  · omega
  · split <;> omega

private theorem hexNumber_concat :
    hexNumber (digits ++ [b]) = hexNumber digits * 16 + hexValue b := by
  simp only [hexNumber, List.foldl_append, List.foldl_cons, List.foldl_nil]

theorem hexNumber_lt (hex : ∀ b ∈ digits, isHexDigit b = true) :
    hexNumber digits < Nat.pow 16 digits.length := by
  induction digits using List.reverseRecOn with
  | nil => exact Nat.one_pos
  | append_singleton digits last ih =>
    obtain ⟨before, final⟩ := List.forall_mem_append.mp hex
    have small := hexValue_lt (final last List.mem_cons_self)
    have fewer := ih before
    rw [hexNumber_concat, List.length_append, List.length_singleton]
    show _ < Nat.pow 16 digits.length * 16
    omega

end WireSpan.Ascii
