import WireSpan.Span.Checked

/-! Texts at their places in a buffer. The span of a text that stands in a buffer extracts it. -/

namespace WireSpan

/-- `text` stands at an offset of the buffer. -/
def Stands (buffer : Bytes) (offset : Nat) (text : Bytes) : Prop :=
  ∃ before after, buffer = before ++ text ++ after ∧ before.length = offset

theorem stands_append {buffer text more : Bytes} {offset : Nat} :
    Stands buffer offset (text ++ more) ↔
      Stands buffer offset text ∧ Stands buffer (offset + text.length) more := by
  constructor
  · rintro ⟨before, after, rfl, rfl⟩
    exact ⟨⟨before, more ++ after, by simp only [List.append_assoc], rfl⟩,
      before ++ text, after, by simp only [List.append_assoc], List.length_append⟩
  · rintro ⟨⟨before, after, rfl, rfl⟩, front, back, same, length⟩
    rw [← List.length_append] at length
    obtain ⟨rfl, rfl⟩ := List.append_inj (by rw [same, List.append_assoc]) length.symm
    exact ⟨before, back, by simp only [List.append_assoc], rfl⟩

theorem stands_cons {buffer text : Bytes} {offset : Nat} {b : UInt8} :
    Stands buffer offset (b :: text) ↔
      Stands buffer offset [b] ∧ Stands buffer (offset + 1) text := by
  rw [← List.singleton_append, stands_append, List.length_singleton]

variable {buffer text before after : Bytes} {offset : Nat}

theorem Stands.length_le (stands : Stands buffer offset text) :
    offset + text.length ≤ buffer.length := by
  obtain ⟨before, after, rfl, rfl⟩ := stands
  simp only [List.length_append]
  omega

theorem Stands.extract (stands : Stands buffer offset text) :
    (Span.ofLength offset text.length).extract? buffer = .ok text := by
  have inside := Nat.not_lt.mpr stands.length_le
  rw [Span.extract?, Span.ofLength, if_neg inside]
  obtain ⟨before, after, rfl, rfl⟩ := stands
  rw [Span.slice, Span.length, List.append_assoc, List.drop_left, Nat.add_sub_cancel_left,
    List.take_left]

/-- A span extracts the text of its length that stands where the span begins. -/
theorem Span.extract?_eq_ok_iff {span : Span} : span.extract? buffer = .ok text ↔
    Stands buffer span.start text ∧ text.length = span.length := by
  have ordered := span.ordered
  constructor
  · intro found
    rw [Span.extract?] at found
    split at found
    · cases found
    · cases found
      refine ⟨⟨buffer.take span.start, (buffer.drop span.start).drop span.length, ?_, ?_⟩, ?_⟩
      · rw [List.append_assoc, Span.slice, List.take_append_drop, List.take_append_drop]
      · exact List.length_take_of_le (by omega)
      · rw [Span.slice, List.length_take, List.length_drop, Span.length]
        omega
  · rintro ⟨stands, size⟩
    have same : span = Span.ofLength span.start text.length := by
      rw [size, Span.ofLength, Span.mk.injEq, Span.length, Nat.add_sub_of_le ordered]
      exact ⟨rfl, rfl⟩
    rw [same]
    exact stands.extract

theorem Stands.part (stands : Stands buffer offset (before ++ text ++ after)) :
    Stands buffer (offset + before.length) text :=
  (stands_append.mp (stands_append.mp stands).1).2

/-- Taken relative to the span of a whole, the span of a part extracts from the bytes of the whole
what it extracts from the buffer. -/
def Reslices (buffer : Bytes) (whole part : Span) : Prop :=
  ∃ place bytes slice, part.relativeTo? whole = .ok place ∧ whole.extract? buffer = .ok bytes ∧
    place.extract? bytes = .ok slice ∧ part.extract? buffer = .ok slice

end WireSpan
