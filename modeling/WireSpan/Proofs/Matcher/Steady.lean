import WireSpan.Pattern
import WireSpan.Proofs.Scan.Bounds

/-! Matchers that never go back, and that leave the input where it was when they fail to match.
Every combinator undoes the progress of a part that failed, so all it takes for a combination to be
of this kind is that its parts never go back. All matchers that are put together from scanners
without chaining are of this kind. -/

namespace WireSpan

variable {α β : Type}

/-- An outcome that leaves the input further on, or where it was in case of a failure to match. -/
structure Outcome.Steady (input : Input) (outcome : Outcome α) : Prop where
  advances : input.Advances outcome.input
  unmoved : ∀ failure, outcome.result = .error (.failed failure) → outcome.input = input

namespace Outcome

variable {input after : Input}

theorem Steady.ok {value : α} (advances : input.Advances after) :
    (⟨.ok value, after⟩ : Outcome α).Steady input := ⟨advances, nofun⟩

theorem Steady.still (input : Input) (result : Except Fault α) :
    (⟨result, input⟩ : Outcome α).Steady input := ⟨.refl input, fun _ _ => rfl⟩

/-- What ended one matcher may end another one. -/
theorem Steady.error {fault : Fault} (steady : (⟨.error fault, after⟩ : Outcome α).Steady input) :
    (⟨.error fault, after⟩ : Outcome β).Steady input where
  advances := steady.advances
  unmoved failure same := by
    cases same
    exact steady.unmoved failure rfl

/-- A fault that is no failure to match may leave the input further on. -/
theorem Steady.other {fault : Fault} (advances : input.Advances after)
    (quiet : ∀ failure, fault ≠ .failed failure) :
    (⟨.error fault, after⟩ : Outcome α).Steady input where
  advances := advances
  unmoved failure same := by
    cases same
    exact absurd rfl (quiet failure)

end Outcome

namespace Matcher

/-- Wherever the matcher is run, its outcome is steady. -/
def Steady (part : Matcher α) : Prop := ∀ input, (part input).Steady input

/-- Wherever the matcher is run, it leaves the input there or further on, also where it fails. -/
def Forward (part : Matcher α) : Prop := ∀ input : Input, input.Advances (part input).input

theorem Steady.forward {part : Matcher α} (steady : Steady part) : part.Forward :=
  fun input => (steady input).advances

theorem steady_ofScan {scan : Scan α} (forward : scan.Forward) :
    Steady (Matcher.ofScan scan) := by
  intro input
  unfold Matcher.ofScan
  split
  · rename_i found
    exact .ok (forward found)
  · exact .still input _

/-- Going back to the start is all that a failure to match takes to be steady. -/
theorem steady_restore {input : Input} {outcome : Outcome α}
    (advances : input.Advances outcome.input) : (restore input outcome).Steady input := by
  unfold restore
  split
  · exact .still input _
  · rename_i other
    exact ⟨advances, fun failure failed => absurd failed (other failure)⟩

theorem advances_runAll {parts : List (Matcher α)} (forward : ∀ part ∈ parts, Forward part)
    (input : Input) : input.Advances (runAll parts input).input := by
  induction parts generalizing input with
  | nil => exact .refl input
  | cons part parts ih =>
    have first := forward part (by simp) input
    rw [runAll]
    split
    · rename_i found
      rw [found] at first
      exact first
    · rename_i value after found
      rw [found] at first
      have later := ih (fun other member => forward other (List.mem_cons_of_mem _ member)) after
      split
      · rename_i rest
        rw [rest] at later
        exact first.trans later
      · rename_i rest
        rw [rest] at later
        exact first.trans later

theorem steady_sequence {parts : List (Matcher α)} (forward : ∀ part ∈ parts, Forward part) :
    Steady (sequence parts) := by
  intro input
  have whole : (transaction (runAll parts) input).Steady input :=
    steady_restore (advances_runAll forward input)
  unfold sequence
  split
  · rename_i found
    rw [found] at whole
    exact .ok whole.advances
  · rename_i found
    rw [found] at whole
    exact whole.error

/-- An outcome that is no failure to match is steady if the input is left further on. -/
theorem steady_of_other {input : Input} {outcome : Outcome α}
    (advances : input.Advances outcome.input)
    (other : ∀ failure place, outcome ≠ ⟨.error (.failed failure), place⟩) :
    outcome.Steady input := by
  refine ⟨advances, fun failure failed => ?_⟩
  obtain ⟨result, place⟩ := outcome
  cases failed
  exact absurd rfl (other failure place)

theorem steady_optional {part : Matcher (Option α)} (forward : Forward part) :
    Steady (Matcher.optional part) := by
  intro input
  unfold Matcher.optional
  split
  · exact .still input _
  · rename_i other
    exact steady_of_other (forward input) other

private theorem steady_firstOf {branches : List (Matcher α)}
    (forward : ∀ branch ∈ branches, Forward branch) (input : Input) (furthest : Failure) :
    (firstOf input furthest branches).Steady input := by
  induction branches generalizing furthest with
  | nil => exact .still input _
  | cons branch branches ih =>
    rw [firstOf]
    split
    · exact ih (fun other member => forward other (List.mem_cons_of_mem _ member)) _
    · rename_i other
      exact steady_of_other (forward branch (by simp) input) other

theorem steady_choice {branch : Matcher α} {branches : List (Matcher α)}
    (first : Forward branch) (others : ∀ branch ∈ branches, Forward branch) :
    Steady (choice branch branches) := by
  intro input
  unfold choice
  split
  · exact steady_firstOf others input _
  · rename_i other
    exact steady_of_other (first input) other

theorem advances_runTimes {part : Matcher α} (forward : Forward part) (left : Nat)
    (input : Input) : input.Advances (runTimes part left input).input := by
  induction left generalizing input with
  | zero => exact .refl input
  | succ left ih =>
    have first := forward input
    rw [runTimes]
    split
    · rename_i found
      rw [found] at first
      exact first
    · rename_i found
      rw [found] at first
      split
      · exact first
      · exact first.trans (ih _)

/-- The span of values that are not there is refused, but not as a failure to match. -/
theorem spanOf_quiet {start : Nat} {values : List (Option (Located α))} {fault : Fault}
    (refused : spanOf start values = .error fault) (failure : Failure) :
    fault ≠ .failed failure := by
  unfold spanOf at refused
  split at refused
  · cases refused
  · cases refused
    exact nofun
  · cases refused
    exact nofun
  · cases refused

theorem steady_repeated {part : Matcher (Option (Located α))} (forward : Forward part)
    (minimum : Nat) (maximum : Option Nat) : Steady (repeated part minimum maximum) := by
  intro input
  have advances := advances_runTimes forward
    ((maximum.map (min (input.rest.length + 1))).getD (input.rest.length + 1)) input
  unfold repeated
  simp only
  generalize runTimes part _ input = run at advances ⊢
  split
  · split
    · exact .still input _
    · split
      · exact .ok advances
      · rename_i refused
        exact .other advances (spanOf_quiet refused)
  · rename_i fault quiet ending
    refine .other advances ?_
    rintro failure rfl
    exact quiet failure rfl
  · split
    · exact .still input _
    · split
      · exact .ok advances
      · rename_i refused
        exact .other advances (spanOf_quiet refused)

private theorem steady_map {part : Matcher (Option (Located α))} {f : α → Except Fault β}
    (steady : Steady part) (quiet : ∀ value failure, f value ≠ .error (.failed failure)) :
    Steady (Matcher.map f part) := by
  intro input
  have whole := steady input
  unfold Matcher.map
  split
  · rename_i found
    rw [found] at whole
    exact whole.error
  · rename_i found
    rw [found] at whole
    exact .other whole.advances nofun
  · rename_i x after found
    rw [found] at whole
    cases applied : f x.value with
    | ok value => exact .ok whole.advances
    | error fault =>
      refine .other whole.advances ?_
      rintro failure rfl
      exact quiet _ _ applied

end Matcher

namespace Pattern

/-- Put together without chaining, and from functions that have faults of their own but never fail
to match. -/
inductive Composed : Pattern → Prop where
  | literal (text : Bytes) (expected : Option String) : Composed (.literal text expected)
  | byteOf (accepts : UInt8 → Bool) (expected : String) : Composed (.byteOf accepts expected)
  | takeWhile1 (accepts : UInt8 → Bool) (expected : String) :
      Composed (.takeWhile1 accepts expected)
  | takeWhile (accepts : UInt8 → Bool) : Composed (.takeWhile accepts)
  | take (count : Int) : Composed (.take count)
  | takeUntil (delimiter : Bytes) (limit : Option Int) : Composed (.takeUntil delimiter limit)
  | sequence {parts : List Pattern} (composed : ∀ part ∈ parts, Composed part) :
      Composed (.sequence parts)
  | optional {part : Pattern} (composed : Composed part) : Composed (.optional part)
  | repeated {part : Pattern} (minimum : Int) (maximum : Option Int) (composed : Composed part) :
      Composed (.repeated part minimum maximum)
  | choice {branches : List Pattern} (composed : ∀ branch ∈ branches, Composed branch) :
      Composed (.choice branches)
  | map {part : Pattern} {f : Value → Except Fault Value} (composed : Composed part)
      (quiet : ∀ value failure, f value ≠ .error (.failed failure)) : Composed (.map part f)

private theorem steady_bytesOf {scan : Scan (Located Bytes)} (forward : scan.Forward) :
    Matcher.Steady (bytesOf scan) :=
  Matcher.steady_ofScan ((forward.map (Located.map Value.bytes)).map some)

theorem steady_tupleOf {part : Matcher (Located (List (Option (Located Value))))}
    (steady : Matcher.Steady part) : Matcher.Steady (tupleOf part) := by
  intro input
  have whole := steady input
  unfold tupleOf
  split
  · rename_i found
    rw [found] at whole
    exact .ok whole.advances
  · rename_i found
    rw [found] at whole
    exact whole.error

private theorem steady_matchers? {parts : List Pattern}
    {built : List (Matcher (Option (Located Value)))}
    (steady : ∀ part ∈ parts, ∀ {matcher}, part.matcher? = .ok matcher → Matcher.Steady matcher)
    (found : matchers? parts = .ok built) : ∀ matcher ∈ built, Matcher.Steady matcher := by
  induction parts generalizing built with
  | nil =>
    cases found
    exact nofun
  | cons part parts ih =>
    rw [matchers?] at found
    obtain ⟨_, built, later⟩ := except_bind_eq_ok.mp found
    obtain ⟨_, rest, result⟩ := except_bind_eq_ok.mp later
    cases result
    refine List.forall_mem_cons.mpr ⟨steady part (by simp) built, ?_⟩
    exact ih (fun other member => steady other (List.mem_cons_of_mem _ member)) rest

/-- The matcher of a composed pattern is steady. -/
theorem Composed.steady {pattern : Pattern} (composed : Composed pattern)
    {matcher : Matcher (Option (Located Value))} (built : pattern.matcher? = .ok matcher) :
    Matcher.Steady matcher := by
  induction composed generalizing matcher with
  | literal text expected =>
    cases built
    exact steady_bytesOf (Scan.forward_literal _ text)
  | byteOf accepts expected =>
    cases built
    exact steady_bytesOf ((Scan.forward_byteOf expected accepts).map _)
  | takeWhile1 accepts expected =>
    cases built
    exact steady_bytesOf (Scan.forward_takeWhile1 expected accepts)
  | takeWhile accepts =>
    cases built
    exact steady_bytesOf (Scan.forward_takeWhile accepts)
  | take count =>
    cases built
    exact steady_bytesOf (Scan.forward_takeCount count)
  | takeUntil delimiter limit =>
    cases built
    exact steady_bytesOf (Scan.forward_takeUntil delimiter limit)
  | sequence composed ih =>
    rw [matcher?] at built
    obtain ⟨parts, found, result⟩ := except_bind_eq_ok.mp built
    cases result
    have steady := steady_matchers? ih found
    exact steady_tupleOf (Matcher.steady_sequence fun part member => (steady part member).forward)
  | optional composed ih =>
    rw [matcher?] at built
    obtain ⟨part, found, result⟩ := except_bind_eq_ok.mp built
    cases result
    exact Matcher.steady_optional (ih found).forward
  | repeated minimum maximum composed ih =>
    rw [matcher?] at built
    obtain ⟨part, found, later⟩ := except_bind_eq_ok.mp built
    obtain ⟨bounds, inOrder, result⟩ := except_bind_eq_ok.mp later
    cases result
    exact steady_tupleOf (Matcher.steady_repeated (ih found).forward _ _)
  | choice composed ih =>
    rw [matcher?] at built
    obtain ⟨branches, found, result⟩ := except_bind_eq_ok.mp built
    have steady := steady_matchers? ih found
    cases branches with
    | nil => cases result
    | cons branch branches =>
      cases result
      obtain ⟨first, others⟩ := List.forall_mem_cons.mp steady
      exact Matcher.steady_choice first.forward fun other member => (others other member).forward
  | map composed quiet ih =>
    rw [matcher?] at built
    obtain ⟨part, found, result⟩ := except_bind_eq_ok.mp built
    cases result
    exact Matcher.steady_map (ih found) quiet

/-- A composed pattern is steady wherever it is run, also where a mistake in it is all that is
found. -/
theorem Composed.steady_run {pattern : Pattern} (composed : Composed pattern) :
    Matcher.Steady pattern.run := by
  intro input
  unfold Pattern.run
  split
  · rename_i built
    exact composed.steady built input
  · exact .still input _

end Pattern

end WireSpan
