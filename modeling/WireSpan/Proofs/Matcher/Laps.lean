import WireSpan.Proofs.Matcher.Steady

/-! Repetitions as laps, with no bound on their number but the caller's. That repetitions are run
with a bound of their own makes no difference: a lap that goes on leaves fewer bytes, so the bound
is never what ends them. -/

namespace WireSpan.Matcher

variable {α : Type} {part : Matcher α} {input : Input}

/-- Laps of `part` from an input on, up to one that fails or reads nothing, or to the last of those
that are `left`. -/
inductive Laps (part : Matcher α) : (left : Option Nat) → Input → Run α → Prop where
  | done {input : Input} : Laps part (some 0) input ⟨[], none, input⟩
  | ended {left : Option Nat} {input after : Input} {fault : Fault} (going : left ≠ some 0)
      (failed : part input = ⟨.error fault, after⟩) :
      Laps part left input ⟨[], some fault, after⟩
  | still {left : Option Nat} {input after : Input} {value : α} (going : left ≠ some 0)
      (read : part input = ⟨.ok value, after⟩) (unmoved : after.offset = input.offset) :
      Laps part left input ⟨[value], none, after⟩
  | onward {left : Option Nat} {input after : Input} {value : α} {run : Run α}
      (going : left ≠ some 0) (read : part input = ⟨.ok value, after⟩)
      (moved : after.offset ≠ input.offset) (later : Laps part (left.map (· - 1)) after run) :
      Laps part left input { run with values := value :: run.values }

/-- The number of laps that are run where `left` of them are allowed: one more than there are bytes
is always enough. -/
def lapsWithin (left : Option Nat) (enough : Nat) : Nat := (left.map (min enough)).getD enough

private theorem lapsWithin_succ {left : Option Nat} {enough : Nat} (going : left ≠ some 0) :
    lapsWithin left (enough + 1) = lapsWithin (left.map (· - 1)) enough + 1 := by
  cases left with
  | none => rfl
  | some left =>
    cases left with
    | zero => exact absurd rfl going
    | succ left => simp only [lapsWithin, Option.map_some, Option.getD_some]; omega

/-- An input that is further on than it was has fewer bytes left. -/
theorem length_rest_lt {after : Input} (advances : input.Advances after)
    (moved : after.offset ≠ input.offset) : after.rest.length < input.rest.length := by
  obtain ⟨text, passes⟩ := advances
  have bytes := passes.length_rest
  have place := passes.offset
  omega

/-- With one lap more than there are bytes, a repetition does all its laps. -/
theorem laps_runTimes (forward : Forward part) (left : Option Nat) (enough : Nat)
    (long : input.rest.length < enough) :
    Laps part left input (runTimes part (lapsWithin left enough) input) := by
  induction enough generalizing left input with
  | zero => exact absurd long (Nat.not_lt_zero _)
  | succ enough ih =>
    by_cases going : left = some 0
    · subst going
      exact .done
    · rw [lapsWithin_succ going, runTimes]
      have advances := forward input
      cases found : part input with
      | mk result after =>
        rw [found] at advances
        cases result with
        | error fault => exact .ended going found
        | ok value =>
          by_cases unmoved : after.offset = input.offset
          · simp only [if_pos unmoved]
            exact .still going found unmoved
          · simp only [if_neg unmoved]
            have shorter := length_rest_lt advances unmoved
            have enough := Nat.lt_of_lt_of_le shorter (Nat.le_of_lt_succ long)
            exact .onward going found unmoved (ih _ enough)

/-- What a repetition comes to whose laps were ended by `failure`, or by no failure. -/
def finished (minimum : Nat) (input : Input) (run : Run (Option (Located α)))
    (failure : Option Failure) : Outcome (Located (List (Option (Located α)))) :=
  if run.values.length < minimum then
    ⟨.error (.failed ⟨.tooFewRepetitions minimum run.values.length (failure.bind (·.expected)),
      (failure.map (·.offset)).getD input.offset, .general⟩), input⟩
  else
    match spanOf input.offset run.values with
    | .ok span => ⟨.ok ⟨run.values, span⟩, run.input⟩
    | .error fault => ⟨.error fault, run.input⟩

/-- A repetition runs its laps and then looks at what they came to. -/
theorem repeated_eq (part : Matcher (Option (Located α))) (minimum : Nat) (maximum : Option Nat)
    (input : Input) : repeated part minimum maximum input =
      let run := runTimes part (lapsWithin maximum (input.rest.length + 1)) input
      match run.ending with
      | none => finished minimum input run none
      | some (.failed failure) => finished minimum input run (some failure)
      | some fault => ⟨.error fault, run.input⟩ := by
  unfold repeated lapsWithin
  simp only
  generalize runTimes part _ input = run
  obtain ⟨values, ending, after⟩ := run
  cases ending with
  | none => rfl
  | some fault =>
    cases fault with
    | failed failure => rfl
    | _ => rfl

end WireSpan.Matcher
