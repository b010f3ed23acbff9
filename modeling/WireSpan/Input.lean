import WireSpan.Failure

/-! A position in a buffer, as the bytes that are still to be read. What was read before plays no
part in what is read next, so it is not kept. -/

namespace WireSpan

structure Input where
  offset : Nat
  rest : Bytes
deriving DecidableEq, Repr

namespace Input

def finish (input : Input) : Nat := input.offset + input.rest.length

def atEnd (input : Input) : Bool := input.rest.isEmpty

def advance (input : Input) (count : Nat) : Input :=
  ⟨input.offset + count, input.rest.drop count⟩

def ofBytes (buffer : Bytes) : Input := ⟨0, buffer⟩

def at? (buffer : Bytes) (offset : Int) : Except Failure Input :=
  if 0 ≤ offset ∧ offset ≤ buffer.length then
    .ok ((ofBytes buffer).advance offset.toNat)
  else .error ⟨.positionOutside offset buffer.length, offset, .general⟩

/-- The offset that an index means: one below zero counts from the end of the buffer, and stops at
its start. -/
def index (input : Input) (index : Int) : Nat :=
  (if index < 0 then index + input.finish else index).toNat

def upTo (input : Input) (stop : Nat) : Bytes := input.rest.take (stop - input.offset)

def spanTo (input after : Input) : Span := Span.between input.offset after.offset

end Input

end WireSpan
