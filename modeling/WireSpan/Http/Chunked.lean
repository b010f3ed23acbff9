import WireSpan.Http.Message
import WireSpan.Http.Section

/-! The chunked coding: each chunk has its size in hexadecimal on a line of its own, a chunk of
size zero is the last, and trailer fields may follow it. -/

namespace WireSpan.Http.Chunked

open Scan

/-- A size has to fit in 64 bits. -/
def maxSizeDigits : Nat := 16

structure SizeLine where
  size : Nat
  extensions : Option Span
deriving DecidableEq, Repr

def extensions : Scan (Option Span) := do
  if (← peek?) = some (Ascii.byte ';') then
    let text ← takeWhile fun b => b != Ascii.carriageReturn && b != Ascii.lineFeed
    return some text.span
  else return none

def sizeLine : Scan (Located SizeLine) := located do
  let digits ← takeWhile Ascii.isHexDigit
  if digits.value.isEmpty || decide (maxSizeDigits < digits.value.length) then
    match ← peek? with
    | none => runOut "chunk size"
    | some _ =>
      failAt digits.span.start (.malformedChunkSize (digits.value.take (maxSizeDigits + 1)))
  else
    let _ ← takeWhile Ascii.isSpaceOrTab
    return ⟨Ascii.hexNumber digits.value, ← extensions⟩

/-- A line end after size or data. All that stands in its place is reported as two bytes. -/
def lineEndHere (lineEnd : Scan (Located Bytes)) : Scan Unit := fun input =>
  if input.atEnd then runOut lineEndName input
  else match lineEnd input with
    | .ok (_, after) => .ok ((), after)
    | .error failure =>
      if failure.kind = .endOfInput then .error failure
      else fail (.unexpected lineEndName (input.rest.take 2)) input

def sizeLineEnd (lineEnd : Scan (Located Bytes)) : Scan Unit := do
  match ← peek? with
  | none => runOut "CRLF after chunk size"
  | some b =>
    if b = Ascii.carriageReturn ∨ b = Ascii.lineFeed then lineEndHere lineEnd
    else fail (.malformedSizeLine b)

def chunk (lineEnd : Scan (Located Bytes)) : Scan (Located Chunk) := located do
  let line ← sizeLine
  sizeLineEnd lineEnd
  if line.value.size = 0 then
    return ⟨0, line.span, line.value.extensions, Span.emptyAt (← here)⟩
  else
    let data ← take line.value.size
    lineEndHere lineEnd
    return ⟨line.value.size, line.span, line.value.extensions, data.span⟩

def chunkTurn (lineEnd : Scan (Located Bytes)) : Scan (Located Chunk ⊕ Located Chunk) := do
  let next ← chunk lineEnd
  return if next.value.isLast then .inr next else .inl next

def chunks (lineEnd : Scan (Located Bytes)) : Scan (List (Located Chunk)) := do
  let (chunks, last) ← collect (chunkTurn lineEnd)
  return chunks ++ [last]

def body (lineEnd : Scan (Located Bytes)) (trailers : Scan Fields) :
    Scan (Located ChunkedBody) := located do
  return ⟨← chunks lineEnd, ← trailers⟩

/-- A chunked body outside any message: lines end with both bytes, and no trailer field is
allowed. -/
def plain : Scan (Located ChunkedBody) :=
  body bothBytes do
    let _ ← bothBytes
    return []
where
  bothBytes : Scan (Located Bytes) := literal lineEndName Ascii.crlf

def ofMessage (settings : Settings) : Scan (Located ChunkedBody) :=
  body (lineEnd settings) (fieldSection settings)

end WireSpan.Http.Chunked
