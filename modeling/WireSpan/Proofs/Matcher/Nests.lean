import WireSpan.Proofs.Matcher.Accounts

/-! Combinators around combinators, to any depth, with drifting parts at the bottom. Wherever one of
the combinators ends without a match, however deep inside, the input is left where that combinator
began, and every return that is asked for on the way is granted. -/

namespace WireSpan

namespace Audited

/-- What is read becomes a tuple. -/
def tupleOf (audited : Audited (Located (List (Option (Located Value))))) :
    Audited (Option (Located Value)) := fun input =>
  let account := audited input
  match account.outcome with
  | ⟨.ok x, after⟩ => ⟨⟨.ok (some (x.map .tuple)), after⟩, account.notes⟩
  | ⟨.error fault, after⟩ => ⟨⟨.error fault, after⟩, account.notes⟩

end Audited

theorem Audits.tupleOf {audited : Audited (Located (List (Option (Located Value))))}
    {part : Matcher (Located (List (Option (Located Value))))} (audits : Audits audited part) :
    Audits (Audited.tupleOf audited) (Pattern.tupleOf part) := by
  constructor
  · intro input
    obtain ⟨same, fine⟩ := audits.keeps input
    unfold Audited.tupleOf Pattern.tupleOf
    simp only [same]
    generalize part input = ended
    obtain ⟨result, after⟩ := ended
    cases result with
    | ok x => exact ⟨rfl, fine⟩
    | error fault => exact ⟨rfl, fine⟩
  · intro input
    have advances := audits.forward input
    unfold Pattern.tupleOf
    generalize part input = ended at advances ⊢
    obtain ⟨result, after⟩ := ended
    cases result with
    | ok x => exact advances
    | error fault => exact advances

/-- Combinators around parts of any kind. -/
inductive Nest where
  | part (matcher : Matcher (Option (Located Value)))
  | sequence (nests : List Nest)
  | optional (nest : Nest)
  | repeated (nest : Nest) (minimum : Nat) (maximum : Option Nat)
  | choice (first : Nest) (others : List Nest)

namespace Nest

mutual

/-- The parts that the combinators are put around. -/
def parts : Nest → List (Matcher (Option (Located Value)))
  | part matcher => [matcher]
  | sequence nests => partsOf nests
  | optional nest => parts nest
  | repeated nest _ _ => parts nest
  | choice first others => parts first ++ partsOf others

def partsOf : List Nest → List (Matcher (Option (Located Value)))
  | [] => []
  | nest :: nests => parts nest ++ partsOf nests

end

mutual

/-- The matcher that the combinators make of the parts. -/
def matcher : Nest → Matcher (Option (Located Value))
  | part matcher => matcher
  | sequence nests => Pattern.tupleOf (Matcher.sequence (matchers nests))
  | optional nest => Matcher.optional (matcher nest)
  | repeated nest minimum maximum => Pattern.tupleOf ((matcher nest).repeated minimum maximum)
  | choice first others => Matcher.choice (matcher first) (matchers others)

def matchers : List Nest → List (Matcher (Option (Located Value)))
  | [] => []
  | nest :: nests => matcher nest :: matchers nests

end

mutual

/-- The same with notes, and with returns and spans that can be refused. -/
def audited : Nest → Audited (Option (Located Value))
  | part matcher => .ofMatcher matcher
  | sequence nests => .tupleOf (.sequence (auditeds nests))
  | optional nest => .optional (audited nest)
  | repeated nest minimum maximum => .tupleOf ((audited nest).repeated minimum maximum)
  | choice first others => .choice (audited first) (auditeds others)

def auditeds : List Nest → List (Audited (Option (Located Value)))
  | [] => []
  | nest :: nests => audited nest :: auditeds nests

end

mutual

private theorem audits_matcher : (nest : Nest) → (∀ part ∈ nest.parts, part.Drifting) →
    Audits nest.audited nest.matcher ∧ nest.matcher.Drifting
  | part matcher, drifting => by
    have itself := drifting matcher (List.mem_singleton.mpr rfl)
    exact ⟨.ofMatcher itself.forward, itself⟩
  | sequence nests, drifting => by
    obtain ⟨audits, -⟩ := audits_matchers nests drifting
    exact ⟨.tupleOf (.sequence audits), Pattern.drifting_sequence (Audits.forwardAll audits)⟩
  | optional nest, drifting => by
    obtain ⟨audits, drifts⟩ := audits_matcher nest drifting
    exact ⟨.optional audits, Matcher.drifting_optional drifts⟩
  | repeated nest minimum maximum, drifting => by
    obtain ⟨audits, drifts⟩ := audits_matcher nest drifting
    exact ⟨.tupleOf (.repeated audits drifts minimum maximum),
      Pattern.drifting_repeated drifts minimum maximum⟩
  | choice first others, drifting => by
    obtain ⟨ofFirst, ofOthers⟩ := List.forall_mem_append.mp drifting
    obtain ⟨audits, drifts⟩ := audits_matcher first ofFirst
    obtain ⟨auditsOthers, driftOthers⟩ := audits_matchers others ofOthers
    exact ⟨.choice audits auditsOthers, Matcher.drifting_choice drifts driftOthers⟩

private theorem audits_matchers : (nests : List Nest) → (∀ part ∈ partsOf nests, part.Drifting) →
    List.Forall₂ Audits (auditeds nests) (matchers nests) ∧
      ∀ part ∈ matchers nests, part.Drifting
  | [], _ => ⟨.nil, List.forall_mem_nil _⟩
  | nest :: nests, drifting => by
    obtain ⟨ofFirst, ofOthers⟩ := List.forall_mem_append.mp drifting
    obtain ⟨audits, drifts⟩ := audits_matcher nest ofFirst
    obtain ⟨auditsOthers, driftOthers⟩ := audits_matchers nests ofOthers
    exact ⟨.cons audits auditsOthers, List.forall_mem_cons.mpr ⟨drifts, driftOthers⟩⟩

end

/-- Run from `input`, the nest does what its account says. In the account every return that is asked
for would be granted to a cursor, and every combinator that ends without a match leaves the input
where it began. As for the outermost combinator, the matcher itself shows this. -/
structure Backtracks (nest : Nest) (input : Input) : Prop where
  same : (nest.audited input).outcome = nest.matcher input
  granted : ∀ (buffer : Bytes) (place start : Input),
    .returning place start ∈ (nest.audited input).notes →
      Cursor.reset? ⟨buffer, place.offset⟩ start.offset = .ok ⟨buffer, start.offset⟩
  withdrawn : ∀ start place, .withdrawing start place ∈ (nest.audited input).notes → place = start
  unmoved : (∀ matcher, nest ≠ .part matcher) → ∀ failure,
    (nest.matcher input).result = .error (.failed failure) → (nest.matcher input).input = input
  absent : ∀ inner failure, nest = .optional inner →
    (inner.matcher input).result = .error (.failed failure) →
      nest.matcher input = ⟨.ok none, input⟩

private theorem steady_matcher {nest : Nest} (drifting : ∀ part ∈ nest.parts, part.Drifting)
    (combines : ∀ matcher, nest ≠ .part matcher) : Matcher.Steady nest.matcher := by
  cases nest with
  | part matcher => exact absurd rfl (combines matcher)
  | sequence nests =>
    have forward := Audits.forwardAll (audits_matchers nests drifting).1
    exact Pattern.steady_tupleOf (Matcher.steady_sequence forward)
  | optional nest => exact Matcher.steady_optional (audits_matcher nest drifting).2.forward
  | repeated nest minimum maximum =>
    have forward := (audits_matcher nest drifting).2.forward
    exact Pattern.steady_tupleOf (Matcher.steady_repeated forward minimum maximum)
  | choice first others =>
    obtain ⟨ofFirst, ofOthers⟩ := List.forall_mem_append.mp drifting
    exact Matcher.steady_choice (audits_matcher first ofFirst).2.forward
      (Audits.forwardAll (audits_matchers others ofOthers).1)

/-- Combinators around parts that drift backtrack wherever they are run. -/
theorem backtracks (nest : Nest) (drifting : ∀ part ∈ nest.parts, part.Drifting) (input : Input) :
    nest.Backtracks input := by
  obtain ⟨audits, -⟩ := audits_matcher nest drifting
  obtain ⟨same, fine⟩ := audits.keeps input
  refine ⟨same, fun buffer place start noted => ?_, fun _ _ noted => fine _ noted,
    fun combines => (steady_matcher drifting combines input).unmoved, ?_⟩
  · have granted : place.returnTo? start = .ok start := fine _ noted
    rw [← Input.returnTo?_eq_reset?, granted]
    rfl
  · rintro inner failure rfl failed
    rw [matcher, Matcher.optional]
    generalize inner.matcher input = ended at failed
    obtain ⟨result, after⟩ := ended
    cases failed
    rfl

/-- As many as there are, perhaps one more, and one that must be there. -/
def manyThenOne : Nest :=
  .sequence [.repeated (.part Pattern.anyThenX) 0 none, .optional (.part Pattern.anyThenX),
    .choice (.part Pattern.anyThenX) [.part (Pattern.literal [Ascii.byte 'z'] none).run]]

/-- Two laps are run, and a third one drifts by a byte, from where the others go on. None of them
matches, and from the last byte there is a return to the first one. -/
theorem backtracks_manyThenOne :
    (∀ part ∈ manyThenOne.parts, part.Drifting) ∧
      (manyThenOne.audited ⟨0, Ascii.bytes ['a', 'x', 'b', 'x', 'c', 'd']⟩).calls.map (·.offset) =
        [0, 2, 4, 5, 5, 5] ∧
      Cursor.reset? ⟨Ascii.bytes ['a', 'x', 'b', 'x', 'c', 'd'], 5⟩ 0 =
        .ok ⟨Ascii.bytes ['a', 'x', 'b', 'x', 'c', 'd'], 0⟩ ∧
      (manyThenOne.matcher ⟨0, Ascii.bytes ['a', 'x', 'b', 'x', 'c', 'd']⟩).input =
        ⟨0, Ascii.bytes ['a', 'x', 'b', 'x', 'c', 'd']⟩ := by
  have drifting : ∀ part ∈ manyThenOne.parts, part.Drifting := by
    have itself := Pattern.drifting_anyThenX
    refine List.forall_mem_cons.mpr ⟨itself, List.forall_mem_cons.mpr ⟨itself, ?_⟩⟩
    refine List.forall_mem_cons.mpr ⟨itself, List.forall_mem_singleton.mpr ?_⟩
    exact Pattern.drifting_leaf rfl
  have whole := backtracks manyThenOne drifting ⟨0, Ascii.bytes ['a', 'x', 'b', 'x', 'c', 'd']⟩
  have back : .returning ⟨5, Ascii.bytes ['d']⟩ ⟨0, Ascii.bytes ['a', 'x', 'b', 'x', 'c', 'd']⟩ ∈
      (manyThenOne.audited ⟨0, Ascii.bytes ['a', 'x', 'b', 'x', 'c', 'd']⟩).notes :=
    List.mem_of_getElem? (i := 11) rfl
  exact ⟨drifting, rfl, whole.granted _ _ _ back, whole.unmoved (fun _ => nofun) _ rfl⟩

end Nest

end WireSpan
