import WireSpan.Span

/-! The strict reading of UTF-8: shortest forms of scalar values only. -/

namespace WireSpan.Text.Utf8

def continuation? (b : UInt8) : Option Nat :=
  if 0x80 ≤ b ∧ b < 0xc0 then some (b.toNat - 0x80) else none

/-- The bits of `count` continuation bytes, after the bits `lead`. -/
def continue? (lead : Nat) : (count : Nat) → Bytes → Option Nat
  | 0, _ => some lead
  | _ + 1, [] => none
  | count + 1, b :: rest =>
    (continuation? b).bind fun bits => continue? (lead * 64 + bits) count rest

/-- The scalar value of a sequence with `count` continuation bytes, which has to be `least` or
more. -/
def scalar? (least lead count : Nat) (rest : Bytes) : Option Char :=
  (continue? lead count rest).bind fun code =>
    if h : code.isValidChar then if least ≤ code then some (Char.ofNatAux code h) else none
    else none

def decode? : Bytes → Option (Char × Nat)
  | [] => none
  | b :: rest =>
    if b < 0x80 then some (Char.ofNat b.toNat, 1)
    else if b < 0xc0 then none
    else if b < 0xe0 then (scalar? 0x80 (b.toNat - 0xc0) 1 rest).map (·, 2)
    else if b < 0xf0 then (scalar? 0x800 (b.toNat - 0xe0) 2 rest).map (·, 3)
    else if b < 0xf8 then (scalar? 0x10000 (b.toNat - 0xf0) 3 rest).map (·, 4)
    else none

end WireSpan.Text.Utf8
