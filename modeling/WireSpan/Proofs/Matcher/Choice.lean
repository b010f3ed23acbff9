import WireSpan.Proofs.Matcher.Accounts

/-! Ordered choice. Every branch is run from where the choice began, whatever the branches before it
have passed over, and the first one that does not fail to match decides. Where all of them fail, the
failure that got furthest is reported, and of several that got equally far the last. -/

namespace WireSpan

variable {α : Type}

/-- The failure to match that the outcome is, if it is one. -/
def Outcome.failure? (outcome : Outcome α) : Option Failure :=
  match outcome.result with
  | .error (.failed failure) => some failure
  | _ => none

/-- None of the failures got further, and none of those behind it got as far. -/
def LastFurthest (failures : List Failure) (failure : Failure) : Prop :=
  ∃ front back, failures = front ++ failure :: back ∧
    (∀ other ∈ front, other.offset ≤ failure.offset) ∧
      ∀ other ∈ back, other.offset < failure.offset

theorem Outcome.recover_of_none {outcome : Outcome α} {instead : Failure → Outcome α}
    (settled : outcome.failure? = none) : outcome.recover instead = outcome := by
  unfold recover
  split
  · cases settled
  · rfl

theorem Outcome.recover_of_some {outcome : Outcome α} {instead : Failure → Outcome α}
    {failure : Failure} (failed : outcome.failure? = some failure) :
    outcome.recover instead = instead failure := by
  obtain ⟨result, place⟩ := outcome
  unfold failure? at failed
  split at failed
  · rename_i same
    cases same
    cases failed
    rfl
  · cases failed

namespace LastFurthest

variable {failures : List Failure} {failure : Failure}

theorem singleton (failure : Failure) : LastFurthest [failure] failure :=
  ⟨[], [], rfl, List.forall_mem_nil _, List.forall_mem_nil _⟩

theorem le (furthest : LastFurthest failures failure) :
    ∀ other ∈ failures, other.offset ≤ failure.offset := by
  obtain ⟨front, back, rfl, before, behind⟩ := furthest
  refine List.forall_mem_append.mpr ⟨before, List.forall_mem_cons.mpr ⟨Int.le_refl _, ?_⟩⟩
  exact fun other member => Int.le_of_lt (behind other member)

/-- One more failure is weighed against the furthest one so far. -/
theorem further (furthest : LastFurthest failures failure) (next : Failure) :
    LastFurthest (failures ++ [next]) (Scan.further failure next) := by
  unfold Scan.further
  split
  · rename_i reached
    refine ⟨failures, [], rfl, fun other member => ?_, List.forall_mem_nil _⟩
    exact Int.le_trans (furthest.le other member) reached
  · rename_i short
    obtain ⟨front, back, rfl, before, behind⟩ := furthest
    refine ⟨front, back ++ [next], by rw [List.append_assoc, List.cons_append], before, ?_⟩
    exact List.forall_mem_append.mpr
      ⟨behind, List.forall_mem_singleton.mpr (Int.not_le.mp short)⟩

end LastFurthest

/-- The outcome is that of the first branch that does not fail to match. Where all of them fail, the
input is left where it is, and of their failures and those `seen` before it is the last one of the
furthest that is reported. -/
def Outcome.DecidedBy (seen : List Failure) (branches : List (Matcher α)) (input : Input)
    (outcome : Outcome α) : Prop :=
  match branches.find? fun branch => (branch input).failure?.isNone with
  | some chosen => outcome = chosen input
  | none => ∃ failure,
      LastFurthest (seen ++ branches.filterMap fun branch => (branch input).failure?) failure ∧
        outcome = ⟨.error (.failed failure), input⟩

/-- A first branch that fails to match leaves it to the other branches to decide. -/
theorem Outcome.DecidedBy.recover {seen : List Failure} {branch : Matcher α}
    {branches : List (Matcher α)} {input : Input} {instead : Failure → Outcome α}
    (decided : ∀ failure, (instead failure).DecidedBy (seen ++ [failure]) branches input) :
    ((branch input).recover instead).DecidedBy seen (branch :: branches) input := by
  rw [DecidedBy, List.find?_cons, List.filterMap_cons]
  cases found : (branch input).failure? with
  | none => exact recover_of_none found
  | some failure =>
    have later := decided failure
    rw [DecidedBy, List.append_assoc] at later
    rw [recover_of_some found]
    exact later

namespace Matcher

variable {branch : Matcher α} {branches : List (Matcher α)}

private theorem firstOf_decided {seen : List Failure} {furthest : Failure}
    (last : LastFurthest seen furthest) (branches : List (Matcher α)) (input : Input) :
    (firstOf input furthest branches).DecidedBy seen branches input := by
  induction branches generalizing seen furthest with
  | nil => exact ⟨furthest, by rwa [List.filterMap_nil, List.append_nil], rfl⟩
  | cons branch branches ih =>
    rw [firstOf_cons]
    exact .recover fun failure => ih (last.further failure)

/-- A choice is decided by its first branch that does not fail to match, run from where the choice
began, and by the furthest failure where all of them fail. All returns to that place are granted as
long as no branch goes back, and there the input is left when the choice fails. -/
theorem choice_decided (branch : Matcher α) (branches : List (Matcher α))
    (forward : ∀ part ∈ branch :: branches, part.Forward) (input : Input) :
    (choice branch branches input).DecidedBy [] (branch :: branches) input ∧
      (Audited.choice (.ofMatcher branch) (branches.map .ofMatcher) input).Keeps
        (choice branch branches input) := by
  obtain ⟨first, others⟩ := List.forall_mem_cons.mp forward
  have audits : List.Forall₂ Audits (branches.map Audited.ofMatcher) branches := by
    refine List.forall₂_map_left_iff.mpr (List.forall₂_same.mpr fun part member => ?_)
    exact .ofMatcher (others part member)
  refine ⟨?_, (Audits.choice (.ofMatcher first) audits).keeps input⟩
  rw [choice_eq]
  exact .recover fun failure => firstOf_decided (.singleton failure) branches input

/-- A first branch that passes over a byte before it fails. The second one reads both bytes; and if
it fails as well, then not as far on as the first one did. -/
theorem choice_decided_anyThenX :
    choice Pattern.anyThenX [(Pattern.literal (Ascii.bytes ['a', 'b']) none).run]
        ⟨0, Ascii.bytes ['a', 'b']⟩ =
      (Pattern.literal (Ascii.bytes ['a', 'b']) none).run ⟨0, Ascii.bytes ['a', 'b']⟩ ∧
    ∃ failure : Failure, 1 ≤ failure.offset ∧
      choice Pattern.anyThenX [(Pattern.literal (Ascii.bytes ['z']) none).run]
          ⟨0, Ascii.bytes ['a', 'b']⟩ =
        ⟨.error (.failed failure), ⟨0, Ascii.bytes ['a', 'b']⟩⟩ := by
  have forward (text : Bytes) (part : Matcher (Option (Located Value)))
      (member : part ∈ [Pattern.anyThenX, (Pattern.literal text none).run]) : part.Forward := by
    rcases List.mem_pair.mp member with rfl | rfl
    · exact Pattern.drifting_anyThenX.forward
    · exact (Pattern.drifting_leaf rfl).forward
  obtain ⟨reads, -⟩ := choice_decided _ _ (forward (Ascii.bytes ['a', 'b']))
    ⟨0, Ascii.bytes ['a', 'b']⟩
  obtain ⟨fails, -⟩ := choice_decided _ _ (forward (Ascii.bytes ['z']))
    ⟨0, Ascii.bytes ['a', 'b']⟩
  obtain ⟨failure, last, same⟩ := fails
  refine ⟨reads, failure, ?_, same⟩
  exact last.le ⟨.unexpected (Text.quoteBytes (Ascii.bytes ['x'])) (Ascii.bytes ['b']), 1, .general⟩
    (List.mem_of_getElem? (i := 0) rfl)

end Matcher

end WireSpan
