import WireSpan.Proofs.Pattern.WellTyped

/-! Matchers that drift. When they fail to match they may have moved the input further on, but they
never go back, and a value that they give has its span within what was moved over. Whatever the
combinators make of such matchers is such a matcher again. -/

namespace WireSpan

variable {α : Type}

theorem Input.Advances.offset_le {input after : Input} (advances : input.Advances after) :
    input.offset ≤ after.offset := by
  obtain ⟨text, passes⟩ := advances
  rw [passes.offset]
  exact Nat.le_add_right _ _

/-- The values that are there follow one another between `start` and `stop`, without overlap. There
may be gaps between them. -/
def InOrder : (start : Nat) → List (Option (Located α)) → (stop : Nat) → Prop
  | start, [], stop => start ≤ stop
  | start, none :: values, stop => InOrder start values stop
  | start, some x :: values, stop => start ≤ x.span.start ∧ InOrder x.span.stop values stop

namespace InOrder

variable {start stop place : Nat} {values : List (Option (Located α))} {x : Located α}

theorem from_le (inOrder : InOrder start values stop) (le : place ≤ start) :
    InOrder place values stop := by
  induction values with
  | nil => exact Nat.le_trans le inOrder
  | cons value values ih =>
    cases value with
    | none => exact ih inOrder
    | some x => exact ⟨Nat.le_trans le inOrder.1, inOrder.2⟩

theorem getLast (inOrder : InOrder start values stop) (last : values.getLast? = some (some x)) :
    start ≤ x.span.stop ∧ x.span.stop ≤ stop := by
  induction values generalizing start with
  | nil => cases last
  | cons value values ih =>
    cases values with
    | nil =>
      cases last
      exact ⟨Nat.le_trans inOrder.1 x.span.ordered, inOrder.2⟩
    | cons second values =>
      rw [List.getLast?_cons_cons] at last
      cases value with
      | none => exact ih inOrder last
      | some first =>
        obtain ⟨starts, stops⟩ := ih inOrder.2 last
        exact ⟨Nat.le_trans inOrder.1 (Nat.le_trans first.span.ordered starts), stops⟩

/-- The span from the first of the values to the last lies where the values do. -/
theorem ends {first last : Located α} (inOrder : InOrder start values stop)
    (head : values.head? = some (some first)) (found : values.getLast? = some (some last)) :
    start ≤ first.span.start ∧ first.span.start ≤ last.span.stop ∧ last.span.stop ≤ stop := by
  cases values with
  | nil => cases head
  | cons value values =>
    cases head
    have fromFirst : InOrder first.span.start (some first :: values) stop :=
      ⟨Nat.le_refl _, inOrder.2⟩
    exact ⟨inOrder.1, fromFirst.getLast found⟩

end InOrder

/-- An outcome that leaves the input there or further on, however it ends. A value that is there has
its span within what was moved over. -/
structure Outcome.Drifting (input : Input) (outcome : Outcome (Option (Located α))) : Prop where
  advances : input.Advances outcome.input
  within : ∀ x, outcome.result = .ok (some x) →
    input.offset ≤ x.span.start ∧ x.span.stop ≤ outcome.input.offset

namespace Matcher

variable {part : Matcher (Option (Located α))} {input : Input}

/-- Wherever the matcher is run, its outcome is drifting. -/
def Drifting (part : Matcher (Option (Located α))) : Prop := ∀ input, (part input).Drifting input

theorem Drifting.forward (drifting : part.Drifting) : part.Forward :=
  fun input => (drifting input).advances

/-- An exact matcher is a drifting one that never drifts. -/
theorem Exact.drifting {possiblyNone : Prop} {holds : Located α → Prop}
    (exact : part.Exact possiblyNone holds) : part.Drifting := by
  intro input
  refine ⟨exact.steady.forward input, fun x read => ?_⟩
  have outcome := exact input
  generalize part input = ended at outcome read
  cases outcome with
  | failed failure => cases read
  | absent possible => cases read
  | present advances starts stops held =>
    cases read
    exact ⟨Nat.le_of_eq starts.symm, Nat.le_of_eq stops⟩

/-- One part behind another, of which only the second one gives a value. -/
theorem drifting_chain {β : Type} {first : Matcher β} (forward : first.Forward)
    (drifting : part.Drifting) : (chain first part).Drifting := by
  intro input
  have moved := forward input
  unfold chain
  split
  · rename_i value mid found
    rw [found] at moved
    obtain ⟨advances, within⟩ := drifting mid
    refine ⟨moved.trans advances, fun x read => ?_⟩
    obtain ⟨starts, stops⟩ := within x read
    exact ⟨Nat.le_trans moved.offset_le starts, stops⟩
  · rename_i fault after found
    rw [found] at moved
    exact ⟨moved, nofun⟩

theorem drifting_optional (drifting : part.Drifting) : (Matcher.optional part).Drifting := by
  intro input
  unfold Matcher.optional
  split
  · exact ⟨.refl input, nofun⟩
  · exact drifting input

private theorem drifting_firstOf {branches : List (Matcher (Option (Located α)))}
    (drifting : ∀ branch ∈ branches, branch.Drifting) (input : Input) (furthest : Failure) :
    (firstOf input furthest branches).Drifting input := by
  induction branches generalizing furthest with
  | nil => exact ⟨.refl input, nofun⟩
  | cons branch branches ih =>
    obtain ⟨first, others⟩ := List.forall_mem_cons.mp drifting
    rw [firstOf]
    split
    · exact ih others _
    · exact first input

theorem drifting_choice {branches : List (Matcher (Option (Located α)))} (first : part.Drifting)
    (others : ∀ branch ∈ branches, branch.Drifting) : (choice part branches).Drifting := by
  intro input
  unfold choice
  split
  · exact drifting_firstOf others input _
  · exact first input

/-- The laps of a drifting part read values in order. -/
theorem inOrder_runTimes (drifting : part.Drifting) (left : Nat) (input : Input) :
    InOrder input.offset (runTimes part left input).values
      (runTimes part left input).input.offset := by
  induction left generalizing input with
  | zero => exact Nat.le_refl _
  | succ left ih =>
    obtain ⟨advances, within⟩ := drifting input
    rw [runTimes]
    generalize part input = ended at advances within
    obtain ⟨result, after⟩ := ended
    cases result with
    | error fault => exact advances.offset_le
    | ok value =>
      have first {values : List (Option (Located α))} {stop : Nat}
          (later : InOrder after.offset values stop) :
          InOrder input.offset (value :: values) stop := by
        cases value with
        | none => exact later.from_le advances.offset_le
        | some x =>
          obtain ⟨starts, stops⟩ := within x rfl
          exact ⟨starts, later.from_le stops⟩
      simp only
      split
      · exact first (Nat.le_refl _)
      · exact first (ih after)

/-- The span of values in order lies where the values do. -/
theorem spanOf_inOrder {start stop : Nat} {values : List (Option (Located α))} {span : Span}
    (inOrder : InOrder start values stop) (bounded : start ≤ stop)
    (found : spanOf start values = .ok span) : start ≤ span.start ∧ span.stop ≤ stop := by
  unfold spanOf at found
  split at found
  · rename_i first last head tail
    cases found
    obtain ⟨starts, ordered, stops⟩ := inOrder.ends head tail
    exact ⟨starts, Nat.max_le.mpr ⟨Nat.le_trans ordered stops, stops⟩⟩
  · cases found
  · cases found
  · cases found
    exact ⟨Nat.le_refl _, bounded⟩

private theorem finished_eq_ok {minimum : Nat} {run : Run (Option (Located α))}
    {failure : Option Failure} {x : Located (List (Option (Located α)))} {after : Input}
    (found : finished minimum input run failure = ⟨.ok x, after⟩) :
    spanOf input.offset run.values = .ok x.span ∧ run.input = after := by
  unfold finished at found
  split at found
  · cases found
  · split at found
    · rename_i spanned
      cases found
      exact ⟨spanned, rfl⟩
    · cases found

/-- A repetition has its span within what its laps moved over. -/
theorem within_repeated (drifting : part.Drifting) {minimum : Nat} {maximum : Option Nat}
    {x : Located (List (Option (Located α)))} {after : Input}
    (read : repeated part minimum maximum input = ⟨.ok x, after⟩) :
    input.offset ≤ x.span.start ∧ x.span.stop ≤ after.offset := by
  rw [repeated_eq] at read
  have inOrder :=
    inOrder_runTimes drifting (lapsWithin maximum (input.rest.length + 1)) input
  have advances :=
    advances_runTimes drifting.forward (lapsWithin maximum (input.rest.length + 1)) input
  simp only at read
  generalize runTimes part _ input = run at read inOrder advances
  have enough {failure : Option Failure}
      (found : finished minimum input run failure = ⟨.ok x, after⟩) :
      input.offset ≤ x.span.start ∧ x.span.stop ≤ after.offset := by
    obtain ⟨spanned, rfl⟩ := finished_eq_ok found
    exact spanOf_inOrder inOrder advances.offset_le spanned
  split at read
  · exact enough read
  · exact enough read
  · cases read

/-- A sequence has the span of what it moved over. -/
theorem span_sequence {parts : List (Matcher α)} {x : Located (List α)} {after : Input}
    (read : sequence parts input = ⟨.ok x, after⟩) : x.span = input.spanTo after := by
  unfold sequence at read
  split at read
  · cases read
    rfl
  · cases read

end Matcher

namespace Pattern

variable {part : Matcher (Option (Located Value))}

private theorem drifting_tupleOf {part : Matcher (Located (List (Option (Located Value))))}
    (forward : part.Forward) (within : ∀ ⦃input x after⦄, part input = ⟨.ok x, after⟩ →
      input.offset ≤ x.span.start ∧ x.span.stop ≤ after.offset) :
    (tupleOf part).Drifting := by
  intro input
  have advances := forward input
  unfold tupleOf
  split
  · rename_i x after found
    rw [found] at advances
    refine ⟨advances, ?_⟩
    rintro _ ⟨⟩
    exact within found
  · rename_i found
    rw [found] at advances
    exact ⟨advances, nofun⟩

theorem drifting_sequence {parts : List (Matcher (Option (Located Value)))}
    (forward : ∀ part ∈ parts, part.Forward) : (tupleOf (Matcher.sequence parts)).Drifting := by
  have whole := (Matcher.steady_sequence forward).forward
  refine drifting_tupleOf whole fun input x after read => ?_
  have advances := whole input
  rw [read] at advances
  rw [Matcher.span_sequence read]
  exact ⟨Nat.le_refl _, Nat.max_le.mpr ⟨advances.offset_le, Nat.le_refl _⟩⟩

theorem drifting_repeated (drifting : part.Drifting) (minimum : Nat) (maximum : Option Nat) :
    (tupleOf (part.repeated minimum maximum)).Drifting :=
  drifting_tupleOf (Matcher.steady_repeated drifting.forward minimum maximum).forward
    fun _ _ _ => Matcher.within_repeated drifting

theorem drifting_leaf {pattern : Pattern} (leaf : pattern.isLeaf = true) :
    Matcher.Drifting pattern.run := by
  obtain ⟨matcher, realizes⟩ := realizes_leaf leaf
  rw [run_of_built realizes.built]
  exact realizes.exact.drifting

/-- Any byte and an `x` behind it. Where there is no `x`, the byte has been passed over all the
same. -/
def anyThenX : Matcher (Option (Located Value)) :=
  Matcher.chain (Pattern.take 1).run (Pattern.literal [Ascii.byte 'x'] none).run

theorem drifting_anyThenX : anyThenX.Drifting :=
  Matcher.drifting_chain (drifting_leaf rfl).forward (drifting_leaf rfl)

end Pattern

end WireSpan
