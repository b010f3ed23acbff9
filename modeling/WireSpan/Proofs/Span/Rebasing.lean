import WireSpan.Ascii
import WireSpan.Proofs.Span.Stands
import WireSpan.Proofs.Span.Union

/-! Spans taken relative to spans that contain them. A place inside a place is found in one step or
in two, leads back by a shift, and names the same bytes in what was already cut out of a buffer. -/

namespace WireSpan

namespace Span

variable {inner mid outer span place part whole : Span} {buffer : Bytes} {distance : Int}

private theorem contains_trans (outside : outer.contains mid = true)
    (inside : mid.contains inner = true) :
    outer.contains inner = true := by
  obtain ⟨starts, stops⟩ := contains_iff.mp outside
  obtain ⟨starts', stops'⟩ := contains_iff.mp inside
  exact contains_iff.mpr ⟨starts.trans starts', stops'.trans stops⟩

private theorem shift?_eq_ok_iff : span.shift? distance = .ok place ↔
    (place.start : Int) = span.start + distance ∧ (place.stop : Int) = span.stop + distance :=
  ofBounds?_eq_ok_iff

/-- To take a span relative to one that contains it undoes a shift to where that one begins. -/
theorem relativeTo?_eq_ok_iff : inner.relativeTo? outer = .ok place ↔
    outer.contains inner = true ∧ place.shift? outer.start = .ok inner := by
  have ordered := inner.ordered
  rw [shift?_eq_ok_iff, relativeTo?]
  split
  · rename_i inside
    obtain ⟨starts, stops⟩ := contains_iff.mp inside
    constructor
    · intro found
      cases found
      refine ⟨inside, ?_, ?_⟩ <;> dsimp only <;> omega
    · rintro ⟨-, start, stop⟩
      refine congrArg Except.ok (eq_of_bounds ?_ ?_) <;> dsimp only <;> omega
  · rename_i outside
    constructor
    · intro found
      cases found
    · rintro ⟨inside, -⟩
      exact absurd inside outside

private theorem exists_relativeTo? (inside : outer.contains inner = true) :
    ∃ place, inner.relativeTo? outer = .ok place := by
  rw [relativeTo?, if_pos inside]
  exact ⟨_, rfl⟩

private theorem exists_extract? (fits : span.stop ≤ buffer.length) :
    ∃ bytes, span.extract? buffer = .ok bytes := by
  rw [extract?, if_neg (Nat.not_lt.mpr fits)]
  exact ⟨_, rfl⟩

/-- The place of a span inside a span that contains it is the place inside any span between them,
moved by where that one begins. -/
theorem shift?_relativeTo? (outside : mid.relativeTo? outer = .ok part)
    (inside : inner.relativeTo? mid = .ok place) (found : inner.relativeTo? outer = .ok whole) :
    place.shift? part.start = .ok whole := by
  obtain ⟨-, outerPart⟩ := relativeTo?_eq_ok_iff.mp outside
  obtain ⟨-, midPlace⟩ := relativeTo?_eq_ok_iff.mp inside
  obtain ⟨-, outerWhole⟩ := relativeTo?_eq_ok_iff.mp found
  rw [shift?_eq_ok_iff] at outerPart midPlace outerWhole ⊢
  omega

/-- The place of a span in a larger one fits what the larger one extracts. -/
theorem stop_le_of_relativeTo? {bytes : Bytes} (found : inner.relativeTo? outer = .ok place)
    (size : bytes.length = outer.length) : place.stop ≤ bytes.length := by
  obtain ⟨inside, back⟩ := relativeTo?_eq_ok_iff.mp found
  obtain ⟨-, stop⟩ := shift?_eq_ok_iff.mp back
  obtain ⟨-, stops⟩ := contains_iff.mp inside
  rw [size, length]
  omega

private theorem reslices_of_contains (inside : outer.contains inner = true)
    (fits : outer.stop ≤ buffer.length) : Reslices buffer outer inner := by
  obtain ⟨place, found⟩ := exists_relativeTo? inside
  obtain ⟨bytes, outerBytes⟩ := exists_extract? fits
  obtain ⟨stands, size⟩ := extract?_eq_ok_iff.mp outerBytes
  obtain ⟨slice, placeSlice⟩ := exists_extract? (stop_le_of_relativeTo? found size)
  refine ⟨place, bytes, slice, found, outerBytes, placeSlice, ?_⟩
  obtain ⟨⟨before, after, same, offset⟩, sliceSize⟩ := extract?_eq_ok_iff.mp placeSlice
  obtain ⟨-, back⟩ := relativeTo?_eq_ok_iff.mp found
  obtain ⟨start, stop⟩ := shift?_eq_ok_iff.mp back
  rw [same] at stands
  -- The slice stands in the buffer behind what stands before it in the bytes of the outer span.
  have behind : outer.start + before.length = inner.start := by omega
  refine extract?_eq_ok_iff.mpr ⟨behind ▸ stands.part, ?_⟩
  rw [sliceSize, length, length]
  omega

/-- Of spans inside one another, the inner one has its place in the outer one by way of the middle
one, goes back where it was, and gives the bytes that stand there, from the buffer and from the
bytes of the outer one. -/
structure Rebases (outer mid inner : Span) : Prop where
  placed : ∃ part place whole, mid.relativeTo? outer = .ok part ∧
    inner.relativeTo? mid = .ok place ∧ inner.relativeTo? outer = .ok whole ∧
    place.shift? part.start = .ok whole ∧ whole.shift? outer.start = .ok inner
  resliced : ∀ buffer : Bytes, outer.stop ≤ buffer.length → Reslices buffer outer inner
  extracted : ∀ buffer : Bytes, outer.stop ≤ buffer.length → ∃ slice,
    inner.extract? buffer = .ok slice ∧ Stands buffer inner.start slice ∧
      slice.length = inner.length

/-- Any two spans unite unless there is a gap between them, and spans inside one another are rebased
one onto another, with nothing lost and nothing refused. -/
theorem unites_and_rebases : (∀ a b : Span, Unites a b) ∧
    ∀ outer mid inner : Span, outer.contains mid = true → mid.contains inner = true →
      Rebases outer mid inner := by
  refine ⟨unites, fun outer mid inner outside inside => ?_⟩
  have nested := contains_trans outside inside
  obtain ⟨part, outerPart⟩ := exists_relativeTo? outside
  obtain ⟨place, midPlace⟩ := exists_relativeTo? inside
  obtain ⟨whole, outerWhole⟩ := exists_relativeTo? nested
  have moved := shift?_relativeTo? outerPart midPlace outerWhole
  have back := (relativeTo?_eq_ok_iff.mp outerWhole).2
  refine ⟨⟨part, place, whole, outerPart, midPlace, outerWhole, moved, back⟩,
    fun buffer fits => reslices_of_contains nested fits, fun buffer fits => ?_⟩
  obtain ⟨slice, found⟩ := exists_extract? ((contains_iff.mp nested).2.trans fits)
  exact ⟨slice, found, extract?_eq_ok_iff.mp found⟩

/-- In `ab cd;`, the letters behind the blank inside the text without its semicolon. -/
theorem unites_and_rebases_letters :
    ((ofLength 0 5).contains (ofLength 2 3) = true ∧
        (ofLength 2 3).contains (ofLength 3 2) = true) ∧
      Reslices (Ascii.bytes ['a', 'b', ' ', 'c', 'd', ';']) (ofLength 0 5) (ofLength 3 2) ∧
      (∃ joined, (ofLength 0 2).union? (ofLength 2 3) = .ok joined) ∧
      ¬ ∃ joined, (ofLength 0 2).union? (ofLength 3 2) = .ok joined := by
  obtain ⟨united, rebased⟩ := unites_and_rebases
  have nested := rebased (ofLength 0 5) (ofLength 2 3) (ofLength 3 2) rfl rfl
  refine ⟨⟨rfl, rfl⟩, nested.resliced _ (by decide), ?_, ?_⟩
  · exact (united _ _).succeeds.mpr (by decide)
  · rw [(united _ _).succeeds]
    decide

end Span

/-- A text extracts from the bytes that it is part of what it extracts from the buffer. -/
theorem Stands.reslices {buffer text before after : Bytes} {offset : Nat}
    (stands : Stands buffer offset (before ++ text ++ after)) :
    Reslices buffer (Span.ofLength offset (before ++ text ++ after).length)
      (Span.ofLength (offset + before.length) text.length) := by
  refine Span.reslices_of_contains (Span.contains_iff.mpr ?_) stands.length_le
  simp only [Span.ofLength, List.length_append]
  omega

end WireSpan
