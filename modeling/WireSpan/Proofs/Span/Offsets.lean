import Mathlib.Order.Interval.Finset.Nat
import WireSpan.Span

/-! The offsets that spans cover. Comparisons of the ends of two spans are read as statements about
these sets. The set does not tell where an empty span stands, so each reading that looks at the ends
says what becomes of empty spans. -/

namespace WireSpan.Span

/-- The offsets of the bytes that a span covers. -/
def offsets (span : Span) : Finset Nat := Finset.Ico span.start span.stop

/-- The offsets from where the first of two spans begins to where the last one ends that neither
of them covers. -/
def gap (a b : Span) : Finset Nat := (a.hull b).offsets \ (a.offsets ∪ b.offsets)

/-- The first span is empty, with bytes of the second on both sides of it. -/
def Splits (a b : Span) : Prop := a.isEmpty = true ∧ b.start < a.start ∧ a.start < b.stop

variable {a b : Span} {place : Nat}

theorem eq_of_bounds (starts : a.start = b.start) (stops : a.stop = b.stop) : a = b := by
  cases a
  cases b
  cases starts
  cases stops
  rfl

@[simp] theorem mem_offsets : place ∈ a.offsets ↔ a.start ≤ place ∧ place < a.stop :=
  Finset.mem_Ico

/-- What neither span covers lies behind one of them and before the other. -/
theorem mem_gap : place ∈ a.gap b ↔
    a.stop ≤ place ∧ place < b.start ∨ b.stop ≤ place ∧ place < a.start := by
  have := a.ordered
  have := b.ordered
  simp only [gap, Finset.mem_sdiff, Finset.mem_union, mem_offsets, hull]
  omega

theorem gap_comm (a b : Span) : a.gap b = b.gap a := by
  ext place
  rw [mem_gap, mem_gap, or_comm]

@[simp] theorem card_offsets (span : Span) : span.offsets.card = span.length := Nat.card_Ico ..

theorem contains_iff : a.contains b = true ↔ a.start ≤ b.start ∧ b.stop ≤ a.stop := by
  simp only [contains, Bool.and_eq_true, decide_eq_true_eq]

/-- Spans are apart where they have a gap between them. -/
theorem apart_iff : a.apart b = true ↔ (a.gap b).Nonempty := by
  rw [apart, Bool.or_eq_true, decide_eq_true_eq, decide_eq_true_eq]
  constructor
  · rintro (before | behind)
    · exact ⟨a.stop, mem_gap.mpr (.inl ⟨Nat.le_refl _, before⟩)⟩
    · exact ⟨b.stop, mem_gap.mpr (.inr ⟨Nat.le_refl _, behind⟩)⟩
  · rintro ⟨place, between⟩
    rcases mem_gap.mp between with ⟨first, last⟩ | ⟨first, last⟩
    · exact .inl (Nat.lt_of_le_of_lt first last)
    · exact .inr (Nat.lt_of_le_of_lt first last)

private theorem offsets_subset (inside : a.contains b = true) : b.offsets ⊆ a.offsets := by
  obtain ⟨starts, stops⟩ := contains_iff.mp inside
  exact Finset.Ico_subset_Ico starts stops

theorem hull_contains_left (a b : Span) : (a.hull b).contains a = true :=
  contains_iff.mpr ⟨Nat.min_le_left .., Nat.le_max_left ..⟩

theorem hull_contains_right (a b : Span) : (a.hull b).contains b = true :=
  contains_iff.mpr ⟨Nat.min_le_right .., Nat.le_max_right ..⟩

/-- Without a gap between two spans, their hull covers what they cover. -/
theorem offsets_hull (adjoining : a.gap b = ∅) : (a.hull b).offsets = a.offsets ∪ b.offsets := by
  refine Finset.Subset.antisymm (Finset.sdiff_eq_empty_iff_subset.mp adjoining) ?_
  exact Finset.union_subset (offsets_subset (hull_contains_left a b))
    (offsets_subset (hull_contains_right a b))

private theorem disjoint_offsets_iff :
    Disjoint a.offsets b.offsets ↔ min a.stop b.stop ≤ max a.start b.start := by
  rw [Finset.disjoint_iff_inter_eq_empty, offsets, offsets, Finset.Ico_inter_Ico,
    Finset.Ico_eq_empty_iff, Nat.not_lt]

theorem disjoint_comm (a b : Span) : a.disjoint b = b.disjoint a := Bool.or_comm ..

/-- An empty span shares no byte with a span that it splits. -/
theorem Splits.disjoint_offsets (splits : a.Splits b) : Disjoint a.offsets b.offsets := by
  have ends := Nat.le_of_eq (beq_iff_eq.mp splits.1).symm
  have none : a.offsets = ∅ := Finset.Ico_eq_empty_of_le ends
  rw [none]
  exact Finset.disjoint_empty_left _

theorem Splits.not_disjoint (splits : a.Splits b) : a.disjoint b = false := by
  obtain ⟨empty, behind, before⟩ := splits
  rw [isEmpty, beq_iff_eq] at empty
  rw [disjoint, Bool.or_eq_false_iff, decide_eq_false_iff_not, decide_eq_false_iff_not]
  omega

/-- Unless one of them is empty and splits the other, spans are disjoint where they share no
byte. -/
theorem disjoint_iff_of_not_splits (whole : ¬ a.Splits b) (whole' : ¬ b.Splits a) :
    a.disjoint b = true ↔ Disjoint a.offsets b.offsets := by
  have := a.ordered
  have := b.ordered
  simp only [Splits, isEmpty, beq_iff_eq] at whole whole'
  rw [disjoint_offsets_iff, disjoint, Bool.or_eq_true, decide_eq_true_eq, decide_eq_true_eq]
  omega

/-- Spans with a gap between them are disjoint. -/
theorem gap_eq_empty_of_not_disjoint (meet : a.disjoint b = false) : a.gap b = ∅ := by
  rw [disjoint, Bool.or_eq_false_iff, decide_eq_false_iff_not, decide_eq_false_iff_not] at meet
  rw [← Finset.not_nonempty_iff_eq_empty, ← apart_iff, apart, Bool.or_eq_true, decide_eq_true_eq,
    decide_eq_true_eq]
  omega

end WireSpan.Span
