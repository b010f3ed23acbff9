import WireSpan.Ascii
import WireSpan.Scan.Many
import WireSpan.Text.Utf8

/-! Quoted strings: characters in UTF-8, and escapes after a backslash. -/

namespace WireSpan.Json

open Scan

def isPlainByte (b : UInt8) : Bool :=
  b != Ascii.doubleQuote && b != Ascii.backslash && decide (0x20 ≤ b)

def shownCharBytes : Nat := 4

def plainChar : Scan Char := fun input =>
  match Text.Utf8.decode? input.rest with
  | some (c, count) => .ok (c, input.advance count)
  | none =>
    fail (.unexpected "valid UTF-8" ((input.rest.take shownCharBytes).takeWhile isPlainByte)) input

def simpleEscape? (b : UInt8) : Option Char :=
  if b = Ascii.doubleQuote then some '\x22'
  else if b = Ascii.backslash then some '\x5c'
  else if b = Ascii.byte '/' then some '/'
  else if b = Ascii.byte 'b' then some '\x08'
  else if b = Ascii.byte 'f' then some '\x0c'
  else if b = Ascii.byte 'n' then some '\n'
  else if b = Ascii.byte 'r' then some '\r'
  else if b = Ascii.byte 't' then some '\t'
  else none

def hexFour : Scan Nat := do
  let a ← digit
  let b ← digit
  let c ← digit
  let d ← digit
  return Ascii.hexNumber [a.value, b.value, c.value, d.value]
where
  digit : Scan (Located UInt8) := byteOf "hex digit" Ascii.isHexDigit

def isLeading (unit : Nat) : Bool := decide (0xd800 ≤ unit) && decide (unit < 0xdc00)

def isTrailing (unit : Nat) : Bool := decide (0xdc00 ≤ unit) && decide (unit < 0xe000)

def pairValue (leading trailing : Nat) : Nat :=
  0x10000 + (leading - 0xd800) * 0x400 + (trailing - 0xdc00)

def unitEscape : Bytes := [Ascii.backslash, Ascii.byte 'u']

/-- The second half of a pair, whose first half begins at `start`. -/
def trailingUnit (start : Nat) : Scan Nat := fun input =>
  let follow := input.rest.take unitEscape.length
  let broken := Cause.unexpected "trailing surrogate after leading surrogate" []
  if follow = unitEscape then
    (do
      skip unitEscape.length
      let unit ← hexFour
      if isTrailing unit then return unit else failAt start broken) input
  else if decide (follow.length < unitEscape.length) && follow.isPrefixOf unitEscape then
    fail (.endOfInput "trailing surrogate") input
  else failAt start broken input

/-- What follows a backslash and a `u`; the backslash is at `start`. A code unit of a pair stands
for nothing on its own. -/
def unitChar (start : Nat) : Scan Char := do
  let unit ← hexFour
  if isTrailing unit then
    failAt start (.unexpected "leading surrogate before trailing surrogate" [])
  else if isLeading unit then return Char.ofNat (pairValue unit (← trailingUnit start))
  else return Char.ofNat unit

def escape : Scan Char := do
  let start ← here
  skip 1
  match ← peek? with
  | none => runOut "escape sequence"
  | some b =>
    match simpleEscape? b with
    | some c =>
      skip 1
      return c
    | none =>
      if b = Ascii.byte 'u' then
        skip 1
        unitChar start
      else failAt start (.unexpected "escape sequence" [Ascii.backslash, b])

def stringTurn : Scan (Char ⊕ Unit) := do
  match ← peek? with
  | none => runOut "closing '\x22'"
  | some b =>
    if b = Ascii.doubleQuote then
      skip 1
      return .inr ()
    else if b = Ascii.backslash then return .inl (← escape)
    else if isPlainByte b then return .inl (← plainChar)
    else fail (.unexpected "string character" [b])

def stringLiteral : Scan (Located String) := located do
  let _ ← literal "'\x22'" [Ascii.doubleQuote]
  let (chars, _) ← collect stringTurn
  return String.ofList chars

end WireSpan.Json
