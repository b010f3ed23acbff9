/-! The binary64 number nearest to a decimal one, by exact integer arithmetic. -/

namespace WireSpan.Decimal

/-- Rounds `numerator / denominator` to the nearest whole number, a tie to the even one. -/
def roundHalfEven (numerator denominator : Nat) : Nat :=
  let quotient := numerator / denominator
  let twice := 2 * (numerator % denominator)
  if twice < denominator then quotient
  else if denominator < twice then quotient + 1
  else quotient + quotient % 2

def floorLog2 (numerator denominator : Nat) : Int :=
  let estimate : Int := (Nat.log2 numerator : Int) - Nat.log2 denominator
  if denominator * Nat.pow 2 estimate.toNat ≤ numerator * Nat.pow 2 (-estimate).toNat then estimate
  else estimate - 1

/-- The bits of positive infinity. All smaller bit patterns are finite numbers in their order. -/
def infinityBits : Nat := 0x7ff0000000000000

def minExponent : Int := -1074

/-- The bits of the number nearest to `numerator / denominator`, both positive. A number is
`m * 2 ^ q` with `m < 2 ^ 53` and `minExponent ≤ q`; its bits are `(q + 1074) * 2 ^ 52 + m`, and so
a mantissa that rounds up to `2 ^ 53` gives the bits of the next power of two. -/
def nearestBits (numerator denominator : Nat) : Nat :=
  let exponent := max (floorLog2 numerator denominator - 52) minExponent
  let mantissa :=
    roundHalfEven (numerator * Nat.pow 2 (-exponent).toNat)
      (denominator * Nat.pow 2 exponent.toNat)
  min infinityBits ((exponent - minExponent).toNat * Nat.pow 2 52 + mantissa)

def digitCount (n : Nat) : Nat := (Nat.toDigits 10 n).length

structure Binary64 where
  bits : UInt64
deriving DecidableEq, Repr

namespace Binary64

/-- The nearest number to `±digits * 10 ^ exponent`. From `10 ^ 330` on that is infinity, and below
`10 ^ -330` it is zero, whatever the digits are, so no larger power is computed. -/
def ofDecimal (negative : Bool) (digits : Nat) (exponent : Int) : Binary64 :=
  let sign := if negative then Nat.pow 2 63 else 0
  let magnitude : Int := digitCount digits + exponent
  let absolute :=
    if digits = 0 ∨ magnitude < -330 then 0
    else if 330 < magnitude then infinityBits
    else nearestBits (digits * Nat.pow 10 exponent.toNat) (Nat.pow 10 (-exponent).toNat)
  ⟨UInt64.ofNat (sign + absolute)⟩

def isNegative (x : Binary64) : Bool := decide (Nat.pow 2 63 ≤ x.bits.toNat)

def absoluteBits (x : Binary64) : Nat := x.bits.toNat % Nat.pow 2 63

/-- The absolute value in units of `2 ^ minExponent`, for a finite number. -/
def absoluteUnits (x : Binary64) : Nat :=
  let mantissa := x.absoluteBits % Nat.pow 2 52
  let exponent := x.absoluteBits / Nat.pow 2 52
  if exponent = 0 then mantissa else (mantissa + Nat.pow 2 52) * Nat.pow 2 (exponent - 1)

def units? (x : Binary64) : Option Int :=
  if infinityBits ≤ x.absoluteBits then none
  else some (if x.isNegative then -(x.absoluteUnits : Int) else x.absoluteUnits)

def isWhole (x : Binary64) (value : Int) : Bool := x.units? == some (value * Nat.pow 2 1074)

/-- The values agree; the two zeros do, and so does each infinity with itself. -/
def sameValue (x y : Binary64) : Bool :=
  match x.units?, y.units? with
  | some a, some b => a == b
  | none, none => x.isNegative == y.isNegative
  | _, _ => false

def hex (x : Binary64) : String :=
  let digits := Nat.toDigits 16 x.bits.toNat
  String.ofList (List.replicate (16 - digits.length) '0' ++ digits)

end Binary64

end WireSpan.Decimal
