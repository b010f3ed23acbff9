import WireSpan.Proofs.Span.Offsets
import WireSpan.Span.Checked

/-! Unions of spans. A union is refused where it would take in bytes that neither span covers. What
disjointness says is compared with the bytes that two spans share and with their union. -/

namespace WireSpan.Span

/-- The same span, or failures of one kind at one offset. -/
def SameAnswer : Except Failure Span → Except Failure Span → Prop
  | .ok first, .ok second => first = second
  | .error first, .error second => first.kind = second.kind ∧ first.offset = second.offset
  | _, _ => False

/-- The least span that contains both. It covers what the two cover and nothing else, and its ends
are in the order that bounds of a span must have. -/
structure IsUnion (a b joined : Span) : Prop where
  left : joined.contains a = true
  right : joined.contains b = true
  least : ∀ outer : Span, outer.contains a = true → outer.contains b = true →
    outer.contains joined = true
  covers : joined.offsets = a.offsets ∪ b.offsets
  bounds : ofBounds? (min a.start b.start : Nat) (max a.stop b.stop : Nat) = .ok joined

/-- The two have a union unless there is a gap between them, in either order. -/
structure Unites (a b : Span) : Prop where
  succeeds : (∃ joined, a.union? b = .ok joined) ↔ a.gap b = ∅
  joined : ∀ joined, a.union? b = .ok joined → IsUnion a b joined
  refused : ∀ failure, a.union? b = .error failure →
    failure.kind = .nonContiguous ∧ failure.offset = (min a.stop b.stop : Nat)
  either : SameAnswer (a.union? b) (b.union? a)

variable {a b span : Span}

theorem ofBounds?_eq_ok_iff {start stop : Int} :
    ofBounds? start stop = .ok span ↔ (span.start : Int) = start ∧ (span.stop : Int) = stop := by
  have ordered := span.ordered
  rw [ofBounds?]
  split
  · rename_i granted
    constructor
    · rintro ⟨⟩
      exact ⟨Int.toNat_of_nonneg granted.1, Int.toNat_of_nonneg (granted.1.trans granted.2)⟩
    · rintro ⟨rfl, rfl⟩
      rfl
  · rename_i refused
    constructor
    · intro found
      cases found
    · intro bounds
      refine absurd ?_ refused
      omega

private theorem hull_comm (a b : Span) : a.hull b = b.hull a :=
  eq_of_bounds (Nat.min_comm ..) (Nat.max_comm ..)

private theorem union?_of_no_gap (adjoining : a.gap b = ∅) : a.union? b = .ok (a.hull b) := by
  have together : ¬ a.apart b = true := by
    rw [apart_iff, adjoining]
    exact Finset.not_nonempty_empty
  rw [union?, if_neg together]

private theorem union?_of_gap (separated : (a.gap b).Nonempty) :
    a.union? b = .error ⟨.spansApart a b, (min a.stop b.stop : Nat), .span⟩ := by
  rw [union?, if_pos (apart_iff.mpr separated)]
  rfl

private theorem isUnion_hull (adjoining : a.gap b = ∅) : IsUnion a b (a.hull b) where
  left := hull_contains_left a b
  right := hull_contains_right a b
  least := by
    intro outer left right
    obtain ⟨startsLeft, stopsLeft⟩ := contains_iff.mp left
    obtain ⟨startsRight, stopsRight⟩ := contains_iff.mp right
    exact contains_iff.mpr
      ⟨Nat.le_min.mpr ⟨startsLeft, startsRight⟩, Nat.max_le.mpr ⟨stopsLeft, stopsRight⟩⟩
  covers := offsets_hull adjoining
  bounds := ofBounds?_eq_ok_iff.mpr ⟨rfl, rfl⟩

theorem unites (a b : Span) : Unites a b := by
  rcases Finset.eq_empty_or_nonempty (a.gap b) with adjoining | separated
  · have union := union?_of_no_gap adjoining
    have other := union?_of_no_gap ((gap_comm b a).trans adjoining)
    refine ⟨iff_of_true ⟨_, union⟩ adjoining, fun joined found => ?_, fun failure found => ?_, ?_⟩
    · cases union.symm.trans found
      exact isUnion_hull adjoining
    · cases union.symm.trans found
    · rw [union, other]
      exact hull_comm a b
  · have refusal := union?_of_gap separated
    have other := union?_of_gap ((gap_comm a b) ▸ separated)
    refine ⟨?_, fun joined found => ?_, fun failure found => ?_, ?_⟩
    · exact iff_of_false (by rw [refusal]; nofun) separated.ne_empty
    · cases refusal.symm.trans found
    · cases refusal.symm.trans found
      exact ⟨rfl, rfl⟩
    · rw [refusal, other, Nat.min_comm]
      exact ⟨rfl, rfl⟩

/-- A union is as long as the two spans together, less the offsets counted twice. -/
theorem IsUnion.length_eq {joined : Span} (union : IsUnion a b joined) :
    joined.length + (a.offsets ∩ b.offsets).card = a.length + b.length := by
  rw [← card_offsets joined, union.covers, Finset.card_union_add_card_inter, card_offsets,
    card_offsets]

/-- Spans are disjoint where they share no byte, in either order, unless one of them is empty and
splits the other. Then they share no byte and are not disjoint for all that. Spans that are not
disjoint have a union, in which the shared bytes count once. -/
theorem disjoint_exact (a b : Span) :
    (¬ a.Splits b → ¬ b.Splits a → (a.disjoint b = true ↔ Disjoint a.offsets b.offsets)) ∧
      (a.Splits b → Disjoint a.offsets b.offsets ∧ a.disjoint b = false) ∧
      a.disjoint b = b.disjoint a ∧
      (a.disjoint b = false → ∃ joined, a.union? b = .ok joined ∧
        joined.length + (a.offsets ∩ b.offsets).card = a.length + b.length) := by
  refine ⟨disjoint_iff_of_not_splits, fun splits => ?_, disjoint_comm a b, fun meet => ?_⟩
  · exact ⟨splits.disjoint_offsets, splits.not_disjoint⟩
  · have adjoining := gap_eq_empty_of_not_disjoint meet
    exact ⟨a.hull b, union?_of_no_gap adjoining, (isUnion_hull adjoining).length_eq⟩

/-- The empty span at 3 splits the span from 2 to 6. The two share no byte, are not disjoint, and
have the longer one for their union. Where it touches an end instead, the two are disjoint. -/
theorem disjoint_exact_emptyInside :
    (Disjoint (emptyAt 3).offsets (ofLength 2 4).offsets ∧
        (emptyAt 3).disjoint (ofLength 2 4) = false) ∧
      (∃ joined, (emptyAt 3).union? (ofLength 2 4) = .ok joined ∧
        joined.length + ((emptyAt 3).offsets ∩ (ofLength 2 4).offsets).card = 0 + 4) ∧
      ((emptyAt 2).disjoint (ofLength 2 4) = true ↔
        Disjoint (emptyAt 2).offsets (ofLength 2 4).offsets) := by
  obtain ⟨-, splits, -, united⟩ := disjoint_exact (emptyAt 3) (ofLength 2 4)
  obtain ⟨touching, -⟩ := disjoint_exact (emptyAt 2) (ofLength 2 4)
  refine ⟨splits ⟨rfl, by decide, by decide⟩, united rfl, touching ?_ ?_⟩
  · rintro ⟨-, behind, -⟩
    exact absurd behind (by decide)
  · rintro ⟨empty, -⟩
    exact absurd empty (by decide)

end WireSpan.Span
