import WireSpan.Input

/-! Scanners read from the left of an input and return what is left of it. A scanner that fails
returns no input, so whoever tries it goes on from the input it began with. -/

namespace WireSpan

/-- Reads a value from the front of an input, or fails. -/
def Scan (α : Type) : Type := Input → Except Failure (α × Input)

namespace Scan

variable {α β : Type}

def andThen (first : Scan α) (next : α → Scan β) : Scan β := fun input =>
  match first input with
  | .ok (value, after) => next value after
  | .error failure => .error failure

instance : Monad Scan where
  pure value := fun input => .ok (value, input)
  bind := andThen

@[simp]
theorem pure_run (value : α) (input : Input) : (pure value : Scan α) input = .ok (value, input) :=
  rfl

theorem bind_run (first : Scan α) (next : α → Scan β) (input : Input) :
    (first >>= next) input =
      match first input with
      | .ok (value, after) => next value after
      | .error failure => .error failure :=
  rfl

def failAt (offset : Nat) (cause : Cause) : Scan α := fun _ => .error ⟨cause, offset, .general⟩

def fail (cause : Cause) : Scan α := fun input => failAt input.offset cause input

def runOut (expected : String) : Scan α := fun input =>
  .error ⟨.endOfInput expected, input.finish, .general⟩

def peek? : Scan (Option UInt8) := fun input => .ok (input.rest.head?, input)

def here : Scan Nat := fun input => .ok (input.offset, input)

def skip (count : Nat) : Scan Unit := fun input => .ok ((), input.advance count)

def located (scan : Scan α) : Scan (Located α) := fun input =>
  match scan input with
  | .ok (value, after) => .ok (⟨value, input.spanTo after⟩, after)
  | .error failure => .error failure

def take (count : Nat) : Scan (Located Bytes) := fun input =>
  let bytes := input.rest.take count
  if bytes.length < count then runOut s!"{count} bytes" input
  else .ok (⟨bytes, Span.ofLength input.offset count⟩, input.advance count)

def takeCount (count : Int) : Scan (Located Bytes) :=
  if count < 0 then fail (.negativeCount count) else take count.toNat

def shownBytes : Nat := 8

/-- Exactly the bytes of `text`. Input that ends inside `text` has run out; any other difference is
unexpected. -/
def literal (expected : String) (text : Bytes) : Scan (Located Bytes) := fun input =>
  let window := input.rest.take text.length
  if window = text then
    .ok (⟨text, Span.ofLength input.offset text.length⟩, input.advance text.length)
  else if window.length < text.length && window.isPrefixOf text then runOut expected input
  else fail (.unexpected expected (window.take shownBytes)) input

def byteOf (expected : String) (accepts : UInt8 → Bool) : Scan (Located UInt8) := fun input =>
  match input.rest with
  | [] => runOut expected input
  | b :: rest =>
    if accepts b then .ok (⟨b, Span.ofLength input.offset 1⟩, ⟨input.offset + 1, rest⟩)
    else fail (.unexpected expected [b]) input

def takeWhile (accepts : UInt8 → Bool) : Scan (Located Bytes) := fun input =>
  let bytes := input.rest.takeWhile accepts
  .ok (⟨bytes, Span.ofLength input.offset bytes.length⟩,
    ⟨input.offset + bytes.length, input.rest.dropWhile accepts⟩)

def takeWhile1 (expected : String) (accepts : UInt8 → Bool) : Scan (Located Bytes) := fun input =>
  match input.rest with
  | [] => runOut expected input
  | b :: _ =>
    if accepts b then takeWhile accepts input else fail (.unexpected expected [b]) input

def indexOf? (text : Bytes) : Bytes → Option Nat
  | [] => if text.isEmpty then some 0 else none
  | b :: rest => if text.isPrefixOf (b :: rest) then some 0 else (indexOf? text rest).map (· + 1)

/-- The bytes that a search limited to `limit` bytes looks at. The window ends at the sum of offset
and limit, read as an index; one that ends before the next byte holds nothing, not even the empty
text. -/
def searchWindow? (limit : Option Int) (input : Input) : Option Bytes :=
  match limit with
  | none => some input.rest
  | some limit =>
    let stop := input.index (min input.finish (input.offset + limit))
    if stop < input.offset then none else some (input.upTo stop)

def takeUntil (delimiter : Bytes) (limit : Option Int) : Scan (Located Bytes) := fun input =>
  match (searchWindow? limit input).bind (indexOf? delimiter) with
  | some count =>
    .ok (⟨input.rest.take count, Span.ofLength input.offset count⟩, input.advance count)
  | none => fail (.delimiterMissing delimiter) input

/-- The next `count` bytes, which stay unread. A negative `count` asks for the bytes up to the sum
of offset and count, read as an index. -/
def peek (count : Int) : Scan Bytes := fun input =>
  if count < 0 then .ok (input.upTo (input.index (input.offset + count)), input)
  else
    let bytes := input.rest.take count.toNat
    if bytes.length < count.toNat then runOut s!"{count} bytes" input else .ok (bytes, input)

end Scan

end WireSpan
