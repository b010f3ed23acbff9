/-! Half-open byte ranges, and values that carry the range they were read from. -/

namespace WireSpan

abbrev Bytes := List UInt8

/-- The byte range `[start, stop)` of some buffer. A span holds no reference to the buffer. -/
structure Span where
  start : Nat
  stop : Nat
  ordered : start ≤ stop
deriving DecidableEq, Repr

namespace Span

def emptyAt (offset : Nat) : Span := ⟨offset, offset, Nat.le_refl _⟩

def ofLength (start length : Nat) : Span := ⟨start, start + length, Nat.le_add_right ..⟩

/-- The span from `start` to `stop`; empty at `start` where `stop` lies before it. -/
def between (start stop : Nat) : Span := ⟨start, max start stop, Nat.le_max_left ..⟩

def length (span : Span) : Nat := span.stop - span.start

def isEmpty (span : Span) : Bool := span.start == span.stop

def contains (outer inner : Span) : Bool :=
  decide (outer.start ≤ inner.start) && decide (inner.stop ≤ outer.stop)

def disjoint (a b : Span) : Bool :=
  decide (a.stop ≤ b.start) || decide (b.stop ≤ a.start)

def apart (a b : Span) : Bool :=
  decide (a.stop < b.start) || decide (b.stop < a.start)

def hull (a b : Span) : Span :=
  ⟨min a.start b.start, max a.stop b.stop, by
    have := a.ordered
    have := b.ordered
    omega⟩

def shiftBy (span : Span) (distance : Nat) : Span :=
  ⟨span.start + distance, span.stop + distance, Nat.add_le_add_right span.ordered _⟩

/-- Spans are ordered by their start, and by their end where the starts agree. -/
def before (a b : Span) : Bool :=
  decide (a.start < b.start) || (a.start == b.start && decide (a.stop < b.stop))

def notAfter (a b : Span) : Bool := a == b || a.before b

def after (a b : Span) : Bool := b.before a

def notBefore (a b : Span) : Bool := b.notAfter a

/-- The bytes of `buffer` at the offsets of the span that `buffer` has. -/
def slice (span : Span) (buffer : Bytes) : Bytes :=
  (buffer.drop span.start).take span.length

def render (span : Span) : String := s!"{span.start}..{span.stop}"

end Span

structure Located (α : Type) where
  value : α
  span : Span
deriving DecidableEq, Repr

namespace Located

def map {α β : Type} (f : α → β) (x : Located α) : Located β := ⟨f x.value, x.span⟩

def shiftBy {α : Type} (x : Located α) (distance : Nat) : Located α :=
  ⟨x.value, x.span.shiftBy distance⟩

end Located

end WireSpan
