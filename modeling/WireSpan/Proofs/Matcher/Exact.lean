import Mathlib.Data.List.Forall2
import WireSpan.Proofs.Matcher.Laps

/-! Matchers with exact spans. Such a matcher fails to match with nothing moved, or it gives a value
whose span is exactly what it moved over. Sequences and repetitions of such matchers give values
that stand side by side. -/

namespace WireSpan

variable {α : Type}

/-- The values that are there follow one another from `start` to `stop`, without gap or overlap. -/
def Abut : (start : Nat) → List (Option (Located α)) → (stop : Nat) → Prop
  | start, [], stop => start = stop
  | start, none :: values, stop => Abut start values stop
  | start, some x :: values, stop => x.span.start = start ∧ Abut x.span.stop values stop

namespace Abut

variable {start stop : Nat} {values : List (Option (Located α))} {items : List (Located α)}
  {x : Located α}

theorem le (abut : Abut start values stop) : start ≤ stop := by
  induction values generalizing start with
  | nil => exact Nat.le_of_eq abut
  | cons value values ih =>
    cases value with
    | none => exact ih abut
    | some x =>
      obtain ⟨rfl, later⟩ := abut
      exact Nat.le_trans x.span.ordered (ih later)

theorem getLast (abut : Abut start (items.map some) stop) (last : items.getLast? = some x) :
    x.span.stop = stop := by
  induction items generalizing start with
  | nil => cases last
  | cons first items ih =>
    obtain ⟨-, later⟩ := abut
    cases items with
    | nil =>
      cases last
      exact later
    | cons second items => exact ih later (by rwa [List.getLast?_cons_cons] at last)

end Abut

/-- An outcome that fails to match and has moved nothing, or that gives a value with the span of all
that was moved over. There may be no value only if that is possible, and then nothing is moved. -/
inductive Outcome.Exact (input : Input) (possiblyNone : Prop) (holds : Located α → Prop) :
    Outcome (Option (Located α)) → Prop where
  | failed (failure : Failure) : Exact input possiblyNone holds ⟨.error (.failed failure), input⟩
  | absent (possible : possiblyNone) : Exact input possiblyNone holds ⟨.ok none, input⟩
  | present {x : Located α} {after : Input} (advances : input.Advances after)
      (starts : x.span.start = input.offset) (stops : x.span.stop = after.offset)
      (held : holds x) : Exact input possiblyNone holds ⟨.ok (some x), after⟩

/-- How the laps of an exact part can end: with values that stand side by side, and with a failure
to match if with any fault. -/
inductive Matcher.Run.Exact (input : Input) (holds : Located α → Prop) :
    Matcher.Run (Option (Located α)) → Prop where
  | mk (items : List (Located α)) {ending : Option Fault} {after : Input}
      (advances : input.Advances after)
      (abut : Abut input.offset (items.map some) after.offset) (held : ∀ x ∈ items, holds x)
      (quiet : ∀ fault ∈ ending, ∃ failure, fault = .failed failure) :
      Exact input holds ⟨items.map some, ending, after⟩

namespace Matcher

variable {β : Type} {possiblyNone : Prop} {holds : Located α → Prop} {input : Input}

/-- Wherever the matcher is run, its outcome is exact. -/
def Exact (part : Matcher (Option (Located α))) (possiblyNone : Prop)
    (holds : Located α → Prop) : Prop := ∀ input, (part input).Exact input possiblyNone holds

theorem Exact.steady {part : Matcher (Option (Located α))}
    (exact : part.Exact possiblyNone holds) : Steady part := by
  intro input
  have outcome := exact input
  generalize part input = ended at outcome
  cases outcome with
  | failed failure => exact .still input _
  | absent possible => exact .still input _
  | present advances starts stops held => exact .ok advances

theorem Exact.imp {part : Matcher (Option (Located α))} {possiblyNone' : Prop}
    {holds' : Located α → Prop} (exact : part.Exact possiblyNone holds)
    (possible : possiblyNone → possiblyNone') (implies : ∀ x, holds x → holds' x) :
    part.Exact possiblyNone' holds' := by
  intro input
  have outcome := exact input
  generalize part input = ended at outcome
  cases outcome with
  | failed failure => exact .failed failure
  | absent absent => exact .absent (possible absent)
  | present advances starts stops held => exact .present advances starts stops (implies _ held)

theorem exact_optional {part : Matcher (Option (Located α))} (exact : part.Exact False holds) :
    (Matcher.optional part).Exact True holds := by
  intro input
  have outcome := exact input
  unfold Matcher.optional
  generalize part input = ended at outcome
  cases outcome with
  | failed failure => exact .absent trivial
  | absent possible => exact possible.elim
  | present advances starts stops held => exact .present advances starts stops held

private theorem exact_firstOf {branches : List (Matcher (Option (Located α)))}
    (exact : ∀ branch ∈ branches, branch.Exact False holds) (input : Input) (furthest : Failure) :
    (firstOf input furthest branches).Exact input False holds := by
  induction branches generalizing furthest with
  | nil => exact .failed furthest
  | cons branch branches ih =>
    have outcome := exact branch (List.mem_cons_self ..) input
    rw [firstOf]
    generalize branch input = ended at outcome
    cases outcome with
    | failed failure => exact ih (fun other member => exact other (List.mem_cons_of_mem _ member)) _
    | absent possible => exact possible.elim
    | present advances starts stops held => exact .present advances starts stops held

theorem exact_choice {branch : Matcher (Option (Located α))}
    {branches : List (Matcher (Option (Located α)))}
    (exact : ∀ other ∈ branch :: branches, other.Exact False holds) :
    (choice branch branches).Exact False holds := by
  obtain ⟨first, others⟩ := List.forall_mem_cons.mp exact
  intro input
  have outcome := first input
  unfold choice
  generalize branch input = ended at outcome
  cases outcome with
  | failed failure => exact exact_firstOf others input failure
  | absent possible => exact possible.elim
  | present advances starts stops held => exact .present advances starts stops held

/-- A value that a function is applied to stays where it is. -/
theorem exact_map {part : Matcher (Option (Located α))} {f : α → Except Fault β}
    {result : Located β → Prop} (exact : part.Exact False holds)
    (normal : ∀ input x after, part input = ⟨.ok (some x), after⟩ → ∃ value, f x.value = .ok value)
    (keeps : ∀ x value, holds x → f x.value = .ok value → result ⟨value, x.span⟩) :
    (Matcher.map f part).Exact False result := by
  intro input
  have outcome := exact input
  have applies := normal input
  unfold Matcher.map
  generalize part input = ended at outcome applies
  cases outcome with
  | failed failure => exact .failed failure
  | absent possible => exact possible.elim
  | @present x after advances starts stops held =>
    obtain ⟨value, applied⟩ := applies x after rfl
    simp only [applied]
    exact .present advances starts stops (keeps x value held applied)

/-- Exact parts that are run one after another fail to match, or read values side by side. -/
theorem exact_runAll {ι : Type} {possiblyNone : ι → Prop} {holds : ι → Located α → Prop}
    {keys : List ι} {parts : List (Matcher (Option (Located α)))}
    (exact : List.Forall₂ (fun key part => Exact part (possiblyNone key) (holds key)) keys parts)
    (input : Input) :
    (∃ failure after, runAll parts input = ⟨.error (.failed failure), after⟩) ∨
      ∃ values after, runAll parts input = ⟨.ok values, after⟩ ∧ input.Advances after ∧
        Abut input.offset values after.offset ∧
          List.Forall₂ (fun key value => ∀ x ∈ value, holds key x) keys values := by
  induction exact generalizing input with
  | nil => exact .inr ⟨[], input, rfl, .refl input, rfl, .nil⟩
  | @cons key part keys parts first others ih =>
    have outcome := first input
    rw [runAll]
    generalize part input = ended at outcome
    cases outcome with
    | failed failure => exact .inl ⟨failure, input, rfl⟩
    | absent possible =>
      rcases ih input with ⟨failure, after, later⟩ | ⟨values, after, later, advances, abut, held⟩
      · exact .inl ⟨failure, after, by simp only [later]⟩
      · refine .inr ⟨none :: values, after, by simp only [later], advances, abut, .cons ?_ held⟩
        rintro _ ⟨⟩
    | @present x mid advanced starts stops holding =>
      rcases ih mid with ⟨failure, after, later⟩ | ⟨values, after, later, advances, abut, held⟩
      · exact .inl ⟨failure, after, by simp only [later]⟩
      · refine .inr ⟨some x :: values, after, by simp only [later], advanced.trans advances,
          ⟨starts, ?_⟩, .cons ?_ held⟩
        · rwa [stops]
        · rintro _ ⟨⟩
          exact holding

theorem exact_runTimes {part : Matcher (Option (Located α))} (exact : part.Exact False holds)
    (left : Nat) (input : Input) : (runTimes part left input).Exact input holds := by
  induction left generalizing input with
  | zero => exact .mk [] (.refl input) rfl nofun nofun
  | succ left ih =>
    have outcome := exact input
    rw [runTimes]
    generalize part input = ended at outcome
    cases outcome with
    | failed failure =>
      refine .mk [] (.refl input) rfl nofun ?_
      rintro fault ⟨⟩
      exact ⟨failure, rfl⟩
    | absent possible => exact possible.elim
    | @present x after advances starts stops held =>
      simp only
      split
      · refine .mk [x] advances ⟨starts, stops⟩ ?_ nofun
        simpa using held
      · have later := ih after
        generalize runTimes part left after = run at later
        cases later with
        | @mk items ending last advanced abut holding quiet =>
          rw [← stops] at abut
          refine .mk (x :: items) (advances.trans advanced) ⟨starts, abut⟩ ?_ quiet
          exact List.forall_mem_cons.mpr ⟨held, holding⟩

/-- The span of values that stand side by side is all of their place. -/
theorem spanOf_exact {start stop : Nat} {items : List (Located α)}
    (abut : Abut start (items.map some) stop) :
    ∃ span, spanOf start (items.map some) = .ok span ∧ span.start = start ∧ span.stop = stop := by
  cases items with
  | nil => exact ⟨Span.emptyAt start, rfl, rfl, abut⟩
  | cons first items =>
    obtain ⟨last, found⟩ : ∃ last, (first :: items).getLast? = some last := by
      exact ⟨_, List.getLast?_eq_some_getLast (List.cons_ne_nil first items)⟩
    have ends := abut.getLast found
    have inOrder := abut.le
    refine ⟨Span.between first.span.start last.span.stop, ?_, abut.1, ?_⟩
    · rw [spanOf, List.getLast?_map, found]
      rfl
    · rw [Span.between, ends, abut.1]
      exact Nat.max_eq_right inOrder

/-- A repetition of an exact part fails if it has done too few laps, and otherwise gives the values
of all its laps. -/
theorem repeated_exact {part : Matcher (Option (Located α))} (minimum : Nat) {maximum : Option Nat}
    {run : Run (Option (Located α))}
    (laps : runTimes part (lapsWithin maximum (input.rest.length + 1)) input = run)
    (exact : run.Exact input holds) :
    (run.values.length < minimum ∧ ∃ failure,
      repeated part minimum maximum input = ⟨.error (.failed failure), input⟩ ∧
        failure.kind = .tooFewRepetitions) ∨
    (minimum ≤ run.values.length ∧ ∃ span,
      repeated part minimum maximum input = ⟨.ok ⟨run.values, span⟩, run.input⟩ ∧
        span.start = input.offset ∧ span.stop = run.input.offset) := by
  cases exact with
  | @mk items ending after advances abut held quiet =>
    obtain ⟨span, spanned, starts, stops⟩ := spanOf_exact abut
    unfold lapsWithin at laps
    simp only [repeated, laps, spanned]
    by_cases few : (items.map some).length < minimum
    · refine .inl ⟨few, ?_⟩
      cases ending with
      | none => exact ⟨_, if_pos few, rfl⟩
      | some fault =>
        obtain ⟨failure, rfl⟩ := quiet fault rfl
        exact ⟨_, if_pos few, rfl⟩
    · refine .inr ⟨Nat.not_lt.mp few, span, ?_, starts, stops⟩
      cases ending with
      | none => exact if_neg few
      | some fault =>
        obtain ⟨failure, rfl⟩ := quiet fault rfl
        exact if_neg few

end Matcher

end WireSpan
