import WireSpan.Proofs.Scan.Passage

/-! What scanners do with bytes that stand further right in a buffer: they read the same, with all
places moved as far, or fail for the same cause at an offset moved as far. -/

namespace WireSpan

/-- The same bytes, `distance` further right. -/
def Input.shiftBy (input : Input) (distance : Nat) : Input := ⟨input.offset + distance, input.rest⟩

@[simp]
theorem Input.rest_shiftBy (input : Input) (distance : Nat) :
    (input.shiftBy distance).rest = input.rest := rfl

@[simp]
theorem Input.offset_shiftBy (input : Input) (distance : Nat) :
    (input.shiftBy distance).offset = input.offset + distance := rfl

theorem Input.spanTo_shiftBy (input after : Input) (distance : Nat) :
    (input.shiftBy distance).spanTo (after.shiftBy distance) =
      (input.spanTo after).shiftBy distance := by
  simp only [Input.spanTo, Input.shiftBy, Span.between, Span.shiftBy, Nat.add_max_add_right]

/-- The same place `distance` further right, with a value whose own places are moved by `move`. -/
def Located.shiftWith {α : Type} (move : α → α) (distance : Nat) (x : Located α) : Located α :=
  ⟨move x.value, x.span.shiftBy distance⟩

namespace Scan

variable {α β ε : Type} {distance : Nat} {move : α → α} {moveLater : β → β}

/-- What comes of moving the bytes that a result was read from. -/
def shifted (refuse : ε → ε) (move : α → α) (distance : Nat) :
    Except ε (α × Input) → Except ε (α × Input)
  | .ok (value, after) => .ok (move value, after.shiftBy distance)
  | .error error => .error (refuse error)

/-- Further right, `there` does what `here` does where it stands. -/
def Relocates (distance : Nat) (move : α → α) (here there : Scan α) : Prop :=
  ∀ input, there (input.shiftBy distance) =
    shifted (Failure.shiftBy · distance) move distance (here input)

/-- What is read further right is what is read here, moved. -/
theorem Relocates.eq_ok {here there : Scan α} {input after : Input} {value : α}
    (relocates : Relocates distance move here there)
    (read : there (input.shiftBy distance) = .ok (value, after)) :
    ∃ value' after', here input = .ok (value', after') ∧ value = move value' ∧
      after = after'.shiftBy distance := by
  rw [relocates input] at read
  cases found : here input with
  | error failure =>
    rw [found] at read
    cases read
  | ok result =>
    rw [found] at read
    cases read
    exact ⟨_, _, rfl, rfl, rfl⟩

theorem Relocates.pure (move : α → α) (value : α) :
    Relocates distance move (Pure.pure value) (Pure.pure (move value)) := fun _ => rfl

theorem Relocates.bind {first first' : Scan α} {next next' : α → Scan β}
    (begun : Relocates distance move first first')
    (continued : ∀ value, Relocates distance moveLater (next value) (next' (move value))) :
    Relocates distance moveLater (first >>= next) (first' >>= next') := by
  intro input
  rw [bind_run, bind_run, begun input]
  cases first input with
  | error failure => rfl
  | ok result => exact continued result.1 result.2

/-- A value without places stays as it is. -/
theorem Relocates.pureId (value : α) :
    Relocates distance id (Pure.pure value : Scan α) (Pure.pure value) := Relocates.pure id value

theorem Relocates.bindId {first first' : Scan α} {next next' : α → Scan β}
    (begun : Relocates distance id first first')
    (continued : ∀ value, Relocates distance moveLater (next value) (next' value)) :
    Relocates distance moveLater (first >>= next) (first' >>= next') := begun.bind continued

theorem Relocates.ite {condition : Prop} [Decidable condition] {here there here' there' : Scan α}
    (whenTrue : Relocates distance move here there)
    (whenFalse : Relocates distance move here' there') :
    Relocates distance move (if condition then here else here')
      (if condition then there else there') := by
  split
  · exact whenTrue
  · exact whenFalse

theorem Relocates.located {here there : Scan α} (relocates : Relocates distance move here there) :
    Relocates distance (Located.shiftWith move distance) (located here) (located there) := by
  intro input
  rw [Scan.located, Scan.located, relocates input]
  cases here input with
  | error failure => rfl
  | ok result =>
    simp only [shifted, Input.spanTo_shiftBy]
    rfl

theorem Relocates.optional {here there : Scan α} (relocates : Relocates distance move here there) :
    Relocates distance (Option.map move) (Scan.optional here) (Scan.optional there) := by
  intro input
  rw [Scan.optional, Scan.optional, relocates input]
  cases here input <;> rfl

/-- Which of two failures got further does not depend on where both stand. -/
theorem further_shiftBy (first second : Failure) :
    further (first.shiftBy distance) (second.shiftBy distance) =
      (further first second).shiftBy distance := by
  have order : (first.shiftBy distance).offset ≤ (second.shiftBy distance).offset ↔
      first.offset ≤ second.offset := Int.add_le_add_iff_right _
  simp only [further, order]
  split <;> rfl

theorem Relocates.orElse {first first' second second' : Scan α}
    (begun : Relocates distance move first first')
    (other : Relocates distance move second second') :
    Relocates distance move (orElse first second) (orElse first' second') := by
  intro input
  rw [Scan.orElse, Scan.orElse, begun input]
  cases first input with
  | ok result => rfl
  | error failure =>
    simp only [shifted, other input]
    cases second input with
    | ok result => rfl
    | error failure' => simp only [further_shiftBy]

theorem Relocates.peek? : Relocates distance id peek? peek? := fun _ => rfl

theorem Relocates.here : Relocates distance (· + distance) here here := fun _ => rfl

theorem advance_shiftBy (input : Input) (count : Nat) :
    (input.shiftBy distance).advance count = (input.advance count).shiftBy distance := by
  simp only [Input.advance, Input.shiftBy, Nat.add_right_comm]

theorem Relocates.skip (count : Nat) : Relocates distance id (skip count) (skip count) := by
  intro input
  rw [Scan.skip, Scan.skip, advance_shiftBy]
  rfl

theorem Relocates.failAt (move : α → α) (offset : Nat) (cause : Cause) :
    Relocates distance move (failAt offset cause) (failAt (offset + distance) cause) := fun _ => rfl

theorem Relocates.fail (move : α → α) (cause : Cause) :
    Relocates distance move (fail cause) (fail cause) := fun _ => rfl

private theorem finish_shiftBy (input : Input) :
    (input.shiftBy distance).finish = input.finish + distance :=
  Nat.add_right_comm _ _ _

theorem Relocates.runOut (move : α → α) (expected : String) :
    Relocates distance move (runOut expected) (runOut expected) := by
  intro input
  rw [Scan.runOut, finish_shiftBy]
  rfl

/-- The span of bytes that stand further right. -/
theorem ofLength_shiftBy (start length : Nat) :
    Span.ofLength (start + distance) length = (Span.ofLength start length).shiftBy distance := by
  simp only [Span.ofLength, Span.shiftBy, Nat.add_right_comm]

theorem Relocates.literal (expected : String) (text : Bytes) :
    Relocates distance (Located.shiftBy · distance) (literal expected text)
      (literal expected text) := by
  rintro ⟨offset, rest⟩
  unfold Scan.literal Input.shiftBy
  dsimp only
  split
  · rw [ofLength_shiftBy, shifted, ← advance_shiftBy]
    rfl
  · split
    · exact Relocates.runOut _ expected ⟨offset, rest⟩
    · rfl

theorem Relocates.byteOf (expected : String) (accepts : UInt8 → Bool) :
    Relocates distance (Located.shiftBy · distance) (byteOf expected accepts)
      (byteOf expected accepts) := by
  intro input
  simp only [Scan.byteOf, Input.rest_shiftBy, Input.offset_shiftBy, ofLength_shiftBy]
  split
  · exact Relocates.runOut _ expected input
  · split
    · rw [Nat.add_right_comm]
      rfl
    · rfl

theorem Relocates.take (count : Nat) :
    Relocates distance (Located.shiftBy · distance) (take count) (take count) := by
  intro input
  simp only [Scan.take, Input.rest_shiftBy, Input.offset_shiftBy, advance_shiftBy, ofLength_shiftBy]
  split
  · exact Relocates.runOut _ _ input
  · rfl

theorem Relocates.takeWhile (accepts : UInt8 → Bool) :
    Relocates distance (Located.shiftBy · distance) (takeWhile accepts) (takeWhile accepts) := by
  intro input
  simp only [Scan.takeWhile, Input.rest_shiftBy, Input.offset_shiftBy, ofLength_shiftBy]
  rw [Nat.add_right_comm]
  rfl

theorem Relocates.takeWhile1 (expected : String) (accepts : UInt8 → Bool) :
    Relocates distance (Located.shiftBy · distance) (takeWhile1 expected accepts)
      (takeWhile1 expected accepts) := by
  intro input
  simp only [Scan.takeWhile1, Input.rest_shiftBy]
  split
  · exact Relocates.runOut _ expected input
  · split
    · exact Relocates.takeWhile accepts input
    · rfl

theorem Relocates.times {here there : Scan α} (relocates : Relocates distance move here there)
    (count : Nat) : Relocates distance (List.map move) (times count here) (times count there) := by
  have turns (left : Nat) : Relocates distance (List.map move) (times.go count here left)
      (times.go count there left) := by
    induction left with
    | zero => exact .pure _ []
    | succ left ih =>
      intro input
      simp only [times.go, relocates input]
      cases here input with
      | error failure => rfl
      | ok result =>
        have later : Relocates distance (List.map move)
            (times.go count here left >>= fun values => Pure.pure (result.1 :: values))
            (times.go count there left >>= fun values => Pure.pure (move result.1 :: values)) :=
          ih.bind fun values => .pure _ (result.1 :: values)
        exact later result.2
  exact turns count

private theorem relocates_within {turn turn' : Scan (α ⊕ β)}
    (relocates : Relocates distance (Sum.map move moveLater) turn turn') (fuel : Nat) :
    Relocates distance (Prod.map (List.map move) moveLater) (collectWithin turn fuel)
      (collectWithin turn' fuel) := by
  induction fuel with
  | zero => exact Relocates.fail _ .stalled
  | succ fuel ih =>
    refine relocates.bind fun ended => ?_
    cases ended with
    | inl value => exact ih.bind fun read => Relocates.pure _ (value :: read.1, read.2)
    | inr last => exact Relocates.pure _ ([], last)

theorem Relocates.collect {turn turn' : Scan (α ⊕ β)}
    (relocates : Relocates distance (Sum.map move moveLater) turn turn') :
    Relocates distance (Prod.map (List.map move) moveLater) (collect turn) (collect turn') :=
  fun input => relocates_within relocates (input.rest.length + 1) input

end Scan

end WireSpan
