import WireSpan.Failure

/-! Span operations that can be refused, each with the failure it reports. -/

namespace WireSpan.Span

def refuse {α : Type} (cause : Cause) (offset : Int) : Except Failure α :=
  .error ⟨cause, offset, .span⟩

def ofBounds? (start stop : Int) : Except Failure Span :=
  if h : 0 ≤ start ∧ start ≤ stop then
    .ok ⟨start.toNat, stop.toNat, Int.toNat_le_toNat h.2⟩
  else refuse (.invalidBounds start stop) start

def union? (a b : Span) : Except Failure Span :=
  if a.apart b then refuse (.spansApart a b) (min a.stop b.stop : Nat) else .ok (a.hull b)

def shift? (span : Span) (distance : Int) : Except Failure Span :=
  ofBounds? (span.start + distance) (span.stop + distance)

/-- The place of `inner` inside the bytes of `outer`. -/
def relativeTo? (inner outer : Span) : Except Failure Span :=
  if outer.contains inner then
    .ok ⟨inner.start - outer.start, inner.stop - outer.start, Nat.sub_le_sub_right inner.ordered _⟩
  else refuse (.notInside inner outer) inner.start

def extract? (span : Span) (buffer : Bytes) : Except Failure Bytes :=
  if buffer.length < span.stop then refuse (.beyondBuffer span buffer.length) span.stop
  else .ok (span.slice buffer)

end WireSpan.Span
