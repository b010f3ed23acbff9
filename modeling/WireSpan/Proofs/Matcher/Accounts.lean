import WireSpan.Program
import WireSpan.Proofs.Matcher.Drifting

/-! The combinators once more, with all that can be refused to them: a return to a place that the
input does not stand at or behind, and a span that ends before it starts. Notes are kept of the
parts that are run, of the returns that are asked for, and of how a combinator that does not match
leaves the input. Around parts that only move forward, and whose values have spans within what was
moved over, nothing is ever refused, so that these combinators do what those without checks do. -/

namespace WireSpan

variable {α β : Type}

namespace Input

variable {input start : Input}

/-- Goes back to `start`, which the input must stand at or behind. -/
def returnTo? (input start : Input) : Except Failure Input :=
  if start.offset ≤ input.offset then .ok start
  else .error ⟨.markNotPassed input.offset start.offset, start.offset, .general⟩

/-- A return is granted and refused like the return of a cursor. -/
theorem returnTo?_eq_reset? (buffer : Bytes) (input start : Input) :
    (input.returnTo? start).map (fun back => Cursor.mk buffer back.offset) =
      Cursor.reset? ⟨buffer, input.offset⟩ start.offset := by
  by_cases passed : start.offset ≤ input.offset
  · have granted : (0 : Int) ≤ start.offset ∧ (start.offset : Int) ≤ input.offset := by omega
    rw [returnTo?, Cursor.reset?, if_pos passed, if_pos granted]
    rfl
  · have refused : ¬ ((0 : Int) ≤ start.offset ∧ (start.offset : Int) ≤ input.offset) := by omega
    rw [returnTo?, Cursor.reset?, if_neg passed, if_neg refused]
    rfl

theorem returnTo?_of_le (passed : start.offset ≤ input.offset) :
    input.returnTo? start = .ok start := if_pos passed

end Input

theorem Span.ofBounds?_of_le {start stop : Nat} (ordered : start ≤ stop) :
    Span.ofBounds? start stop = .ok (Span.between start stop) := by
  have granted : (0 : Int) ≤ start ∧ (start : Int) ≤ stop := by omega
  rw [Span.ofBounds?, dif_pos granted]
  simp only [Span.between, Nat.max_eq_right ordered, Int.toNat_natCast]

/-- Something that is done while combinators are run. -/
inductive Note where
  /-- A part that is no combinator is run from `place`. -/
  | calling (place : Input)
  /-- A combinator asks to go back to `start` from `place`. -/
  | returning (place start : Input)
  /-- A combinator that began at `start` ends without a match and leaves the input at `place`. -/
  | withdrawing (start place : Input)

namespace Note

/-- What is asked for is granted, and what ends without a match leaves the input where it began. -/
def Fine : Note → Prop
  | calling _ => True
  | returning place start => place.returnTo? start = .ok start
  | withdrawing start place => place = start

/-- The place that a part is run from. -/
def call? : Note → Option Input
  | calling place => some place
  | returning .. => none
  | withdrawing .. => none

end Note

/-- An outcome, with notes of what was done on the way to it. -/
structure Account (α : Type) where
  outcome : Outcome α
  notes : List Note

/-- Reads as a matcher does, and gives an account of it. -/
def Audited (α : Type) : Type := Input → Account α

namespace Account

/-- The places that parts are run from, in order. -/
def calls (account : Account α) : List Input := account.notes.filterMap Note.call?

/-- Goes back to `start` where a failure to match is all there is, and goes on from there. -/
def recover (start : Input) (tried : Account α) (next : Failure → Audited α) : Account α :=
  match tried.outcome with
  | ⟨.error (.failed failure), place⟩ =>
    match place.returnTo? start with
    | .ok back =>
      let later := next failure back
      ⟨later.outcome, tried.notes ++ .returning place start :: later.notes⟩
    | .error refusal =>
      ⟨⟨.error (.failed refusal), place⟩, tried.notes ++ [.returning place start]⟩
  | _ => tried

/-- Goes back to `start` and fails there as before. -/
def withdraw (start : Input) (tried : Account α) : Account α :=
  recover start tried fun failure back => ⟨⟨.error (.failed failure), back⟩, []⟩

/-- Notes how a combinator that began at `start` leaves the input, if it fails to match. -/
def closing (start : Input) (account : Account α) : Account α :=
  match account.outcome.result with
  | .error (.failed _) =>
    { account with notes := account.notes ++ [.withdrawing start account.outcome.input] }
  | _ => account

/-- The value with the span from `start` to where the input is left. -/
def spanned (start : Input) (account : Account α) : Account (Located α) :=
  match account.outcome with
  | ⟨.ok value, after⟩ =>
    match Span.ofBounds? start.offset after.offset with
    | .ok span => ⟨⟨.ok ⟨value, span⟩, after⟩, account.notes⟩
    | .error failure => ⟨⟨.error (.failed failure), after⟩, account.notes⟩
  | ⟨.error fault, after⟩ => ⟨⟨.error fault, after⟩, account.notes⟩

end Account

namespace Audited

/-- A matcher of any kind, of which it is only noted that it is run. -/
def ofMatcher (part : Matcher α) : Audited α := fun input => ⟨part input, [.calling input]⟩

/-- Runs the parts one after another. -/
def runAll : List (Audited α) → Audited (List α)
  | [], input => ⟨⟨.ok [], input⟩, []⟩
  | part :: parts, input =>
    let first := part input
    match first.outcome with
    | ⟨.error fault, after⟩ => ⟨⟨.error fault, after⟩, first.notes⟩
    | ⟨.ok value, after⟩ =>
      let later := runAll parts after
      match later.outcome with
      | ⟨.ok values, last⟩ => ⟨⟨.ok (value :: values), last⟩, first.notes ++ later.notes⟩
      | ⟨.error fault, last⟩ => ⟨⟨.error fault, last⟩, first.notes ++ later.notes⟩

/-- All parts one after another, or none of them. -/
def sequence (parts : List (Audited α)) : Audited (Located (List α)) := fun input =>
  (((runAll parts input).withdraw input).spanned input).closing input

/-- What `part` reads, or nothing where it fails to match. -/
def optional (part : Audited (Option α)) : Audited (Option α) := fun input =>
  (part input).recover input fun _ back => ⟨⟨.ok none, back⟩, [.withdrawing input back]⟩

/-- Tries the branches in order, with a return to `start` after each that fails. -/
def firstOf (start : Input) : Failure → List (Audited α) → Audited α
  | furthest, [], place => ⟨⟨.error (.failed furthest), place⟩, []⟩
  | furthest, branch :: branches, place =>
    (branch place).recover start fun failure =>
      firstOf start (Scan.further furthest failure) branches

/-- The first of the branches that matches. -/
def choice (branch : Audited α) (branches : List (Audited α)) : Audited α := fun input =>
  ((branch input).recover input fun failure => firstOf input failure branches).closing input

/-- Repeats `part` until it fails, reads nothing, or has been run `left` times. -/
def runTimes (part : Audited α) : Nat → Input → Matcher.Run α × List Note
  | 0, input => (⟨[], none, input⟩, [])
  | left + 1, input =>
    let lap := part input
    match lap.outcome with
    | ⟨.error fault, after⟩ => (⟨[], some fault, after⟩, lap.notes)
    | ⟨.ok value, after⟩ =>
      if after.offset = input.offset then (⟨[value], none, after⟩, lap.notes)
      else
        let (run, notes) := runTimes part left after
        ({ run with values := value :: run.values }, lap.notes ++ notes)

/-- The span from the first of the values to the last, which must be there and in order. -/
def spanOf? (start : Nat) (values : List (Option (Located α))) : Except Fault Span :=
  match values.head?, values.getLast? with
  | some (some first), some (some last) =>
    (Span.ofBounds? first.span.start last.span.stop).mapError .failed
  | some none, _ => .error (.lacks .absent .start)
  | some (some _), some none => .error (.lacks .absent .stop)
  | _, _ => .ok (Span.emptyAt start)

/-- What a repetition comes to whose laps were ended by `failure`, or by no failure. -/
def finishRun (minimum : Nat) (input : Input) (run : Matcher.Run (Option (Located α)))
    (notes : List Note) (failure : Option Failure) :
    Account (Located (List (Option (Located α)))) :=
  if run.values.length < minimum then
    Account.withdraw input ⟨⟨.error (.failed ⟨.tooFewRepetitions minimum run.values.length
      (failure.bind (·.expected)), (failure.map (·.offset)).getD input.offset, .general⟩),
      run.input⟩, notes⟩
  else
    match spanOf? input.offset run.values with
    | .ok span => ⟨⟨.ok ⟨run.values, span⟩, run.input⟩, notes⟩
    | .error fault => ⟨⟨.error fault, run.input⟩, notes⟩

/-- As many values as there are, up to `maximum`; fewer than `minimum` are a failure to match. -/
def repeated (part : Audited (Option (Located α))) (minimum : Nat) (maximum : Option Nat) :
    Audited (Located (List (Option (Located α)))) := fun input =>
  let (run, notes) := runTimes part (Matcher.lapsWithin maximum (input.rest.length + 1)) input
  Account.closing input <|
    match run.ending with
    | none => finishRun minimum input run notes none
    | some (.failed failure) => finishRun minimum input run notes (some failure)
    | some fault => ⟨⟨.error fault, run.input⟩, notes⟩

end Audited

/-- What is done instead of a failure to match; any other outcome stays as it is. -/
def Outcome.recover (outcome : Outcome α) (instead : Failure → Outcome α) : Outcome α :=
  match outcome with
  | ⟨.error (.failed failure), _⟩ => instead failure
  | other => other

namespace Matcher

private theorem restore_eq (start : Input) (outcome : Outcome α) : restore start outcome =
    outcome.recover fun failure => ⟨.error (.failed failure), start⟩ := by
  obtain ⟨result, place⟩ := outcome
  cases result with
  | ok value => rfl
  | error fault =>
    cases fault with
    | failed failure => rfl
    | _ => rfl

private theorem optional_eq (part : Matcher (Option α)) (input : Input) :
    Matcher.optional part input = (part input).recover fun _ => ⟨.ok none, input⟩ := by
  unfold Matcher.optional
  obtain ⟨result, place⟩ := part input
  cases result with
  | ok value => rfl
  | error fault =>
    cases fault with
    | failed failure => rfl
    | _ => rfl

theorem firstOf_cons (input : Input) (furthest : Failure) (branch : Matcher α)
    (branches : List (Matcher α)) : firstOf input furthest (branch :: branches) =
      (branch input).recover fun failure =>
        firstOf input (Scan.further furthest failure) branches := rfl

theorem choice_eq (branch : Matcher α) (branches : List (Matcher α)) (input : Input) :
    choice branch branches input =
      (branch input).recover fun failure => firstOf input failure branches := rfl

end Matcher

/-- The account has the outcome that a matcher has, and all that it notes is fine. -/
structure Account.Keeps (account : Account α) (outcome : Outcome α) : Prop where
  same : account.outcome = outcome
  fine : ∀ note ∈ account.notes, note.Fine

namespace Account

variable {start place after : Input} {tried account : Account α} {outcome other : Outcome α}
  {next : Failure → Audited α}

/-- A failure to match is recovered from wherever the input is left, if that is at or behind the
start. Any other ending stays as it is. -/
theorem Keeps.recover {instead : Failure → Outcome α} (keeps : tried.Keeps outcome)
    (passed : start.offset ≤ outcome.input.offset)
    (later : ∀ failure, (next failure start).Keeps (instead failure)) :
    (tried.recover start next).Keeps (outcome.recover instead) := by
  obtain ⟨rfl, fine⟩ := keeps
  obtain ⟨⟨result, place⟩, notes⟩ := tried
  cases result with
  | ok value => exact ⟨rfl, fine⟩
  | error fault =>
    cases fault with
    | failed failure =>
      have granted := Input.returnTo?_of_le passed
      simp only [Account.recover, granted]
      refine ⟨(later failure).same, List.forall_mem_append.mpr ⟨fine, ?_⟩⟩
      exact List.forall_mem_cons.mpr ⟨granted, (later failure).fine⟩
    | _ => exact ⟨rfl, fine⟩

theorem Keeps.withdraw (keeps : tried.Keeps outcome)
    (passed : start.offset ≤ outcome.input.offset) :
    (tried.withdraw start).Keeps (Matcher.restore start outcome) := by
  rw [Matcher.restore_eq]
  exact keeps.recover passed fun failure => ⟨rfl, List.forall_mem_nil _⟩

theorem Keeps.closing (keeps : account.Keeps outcome)
    (back : ∀ failure, outcome.result = .error (.failed failure) → outcome.input = start) :
    (account.closing start).Keeps outcome := by
  obtain ⟨rfl, fine⟩ := keeps
  unfold Account.closing
  split
  · rename_i failure failed
    refine ⟨rfl, List.forall_mem_append.mpr ⟨fine, ?_⟩⟩
    exact List.forall_mem_singleton.mpr (back failure failed)
  · exact ⟨rfl, fine⟩

theorem Keeps.spanned {value : α} (keeps : account.Keeps ⟨.ok value, after⟩)
    (passed : start.offset ≤ after.offset) :
    (account.spanned start).Keeps ⟨.ok ⟨value, start.spanTo after⟩, after⟩ := by
  obtain ⟨same, fine⟩ := keeps
  simp only [Account.spanned, same, Span.ofBounds?_of_le passed]
  exact ⟨rfl, fine⟩

theorem Keeps.spanned_error {fault : Fault} (keeps : account.Keeps ⟨.error fault, after⟩) :
    (account.spanned start).Keeps ⟨.error fault, after⟩ := by
  obtain ⟨same, fine⟩ := keeps
  simp only [Account.spanned, same]
  exact ⟨rfl, fine⟩

end Account

/-- Wherever they are run, the one gives a fine account of the other, which never goes back. -/
structure Audits (audited : Audited α) (part : Matcher α) : Prop where
  keeps : ∀ input, (audited input).Keeps (part input)
  forward : part.Forward

namespace Audits

variable {audited : Audited α} {part : Matcher α} {auditeds : List (Audited α)}
  {parts : List (Matcher α)}

theorem ofMatcher (forward : part.Forward) : Audits (.ofMatcher part) part :=
  ⟨fun _ => ⟨rfl, List.forall_mem_singleton.mpr trivial⟩, forward⟩

theorem forwardAll (audits : List.Forall₂ Audits auditeds parts) :
    ∀ part ∈ parts, part.Forward := by
  induction audits with
  | nil => exact List.forall_mem_nil _
  | cons first others ih => exact List.forall_mem_cons.mpr ⟨first.forward, ih⟩

theorem keeps_runAll (audits : List.Forall₂ Audits auditeds parts) (input : Input) :
    (Audited.runAll auditeds input).Keeps (Matcher.runAll parts input) := by
  induction audits generalizing input with
  | nil => exact ⟨rfl, List.forall_mem_nil _⟩
  | @cons audited part auditeds parts first others ih =>
    obtain ⟨same, fine⟩ := first.keeps input
    rw [Audited.runAll, Matcher.runAll, ← same]
    simp only
    generalize (audited input).outcome = ended
    obtain ⟨result, after⟩ := ended
    cases result with
    | error fault => exact ⟨rfl, fine⟩
    | ok value =>
      obtain ⟨same', fine'⟩ := ih after
      have notes := List.forall_mem_append.mpr ⟨fine, fine'⟩
      simp only [← same']
      generalize (Audited.runAll auditeds after).outcome = last
      obtain ⟨result, last⟩ := last
      cases result with
      | error fault => exact ⟨rfl, notes⟩
      | ok values => exact ⟨rfl, notes⟩

theorem sequence (audits : List.Forall₂ Audits auditeds parts) :
    Audits (Audited.sequence auditeds) (Matcher.sequence parts) := by
  have forward := forwardAll audits
  refine ⟨fun input => ?_, (Matcher.steady_sequence forward).forward⟩
  have advances := Matcher.advances_runAll forward input
  have steady := Matcher.steady_restore advances
  have keeps := (keeps_runAll audits input).withdraw advances.offset_le
  unfold Audited.sequence Matcher.sequence Matcher.transaction
  generalize Matcher.restore input _ = ended at keeps steady ⊢
  obtain ⟨result, after⟩ := ended
  cases result with
  | ok values => exact (keeps.spanned steady.advances.offset_le).closing nofun
  | error fault =>
    refine keeps.spanned_error.closing ?_
    rintro failure ⟨⟩
    exact steady.unmoved failure rfl

theorem optional {audited : Audited (Option α)} {part : Matcher (Option α)}
    (audits : Audits audited part) :
    Audits (Audited.optional audited) (Matcher.optional part) := by
  refine ⟨fun input => ?_, (Matcher.steady_optional audits.forward).forward⟩
  rw [Matcher.optional_eq]
  refine (audits.keeps input).recover (audits.forward input).offset_le fun _ => ?_
  exact ⟨rfl, List.forall_mem_singleton.mpr rfl⟩

theorem keeps_firstOf (audits : List.Forall₂ Audits auditeds parts) (input : Input)
    (furthest : Failure) : (Audited.firstOf input furthest auditeds input).Keeps
      (Matcher.firstOf input furthest parts) := by
  induction audits generalizing furthest with
  | nil => exact ⟨rfl, List.forall_mem_nil _⟩
  | cons first others ih =>
    rw [Matcher.firstOf_cons]
    exact (first.keeps input).recover (first.forward input).offset_le fun _ => ih _

theorem choice (first : Audits audited part) (others : List.Forall₂ Audits auditeds parts) :
    Audits (Audited.choice audited auditeds) (Matcher.choice part parts) := by
  have steady := Matcher.steady_choice first.forward (forwardAll others)
  refine ⟨fun input => Account.Keeps.closing ?_ (steady input).unmoved, steady.forward⟩
  rw [Matcher.choice_eq]
  exact (first.keeps input).recover (first.forward input).offset_le (keeps_firstOf others input)

/-- Laps are run alike, and all that is noted of them is fine. -/
theorem keeps_runTimes (audits : Audits audited part) (left : Nat) (input : Input) :
    (Audited.runTimes audited left input).1 = Matcher.runTimes part left input ∧
      ∀ note ∈ (Audited.runTimes audited left input).2, note.Fine := by
  induction left generalizing input with
  | zero => exact ⟨rfl, List.forall_mem_nil _⟩
  | succ left ih =>
    obtain ⟨same, fine⟩ := audits.keeps input
    rw [Audited.runTimes, Matcher.runTimes, ← same]
    simp only
    generalize (audited input).outcome = ended
    obtain ⟨result, after⟩ := ended
    cases result with
    | error fault => exact ⟨rfl, fine⟩
    | ok value =>
      obtain ⟨same', fine'⟩ := ih after
      simp only
      split
      · exact ⟨rfl, fine⟩
      · exact ⟨by rw [same'], List.forall_mem_append.mpr ⟨fine, fine'⟩⟩

/-- Values in order have a span. -/
theorem spanOf?_of_inOrder {start stop : Nat} {values : List (Option (Located α))}
    (inOrder : InOrder start values stop) (place : Nat) :
    Audited.spanOf? place values = Matcher.spanOf place values := by
  have ordered (first last : Located α) (head : values.head? = some (some first))
      (tail : values.getLast? = some (some last)) : first.span.start ≤ last.span.stop :=
    (inOrder.ends head tail).2.1
  unfold Audited.spanOf? Matcher.spanOf
  generalize values.head? = head at ordered ⊢
  generalize values.getLast? = tail at ordered ⊢
  rcases head with _ | _ | first
  · rfl
  · rfl
  · rcases tail with _ | _ | last
    · rfl
    · rfl
    · simp only [Span.ofBounds?_of_le (ordered first last rfl rfl)]
      rfl

theorem keeps_finishRun {input : Input} {run : Matcher.Run (Option (Located α))}
    {notes : List Note} (advances : input.Advances run.input)
    (inOrder : InOrder input.offset run.values run.input.offset)
    (fine : ∀ note ∈ notes, note.Fine) (minimum : Nat) (failure : Option Failure) :
    (Audited.finishRun minimum input run notes failure).Keeps
      (Matcher.finished minimum input run failure) := by
  unfold Audited.finishRun Matcher.finished
  split
  · exact Account.Keeps.withdraw ⟨rfl, fine⟩ advances.offset_le
  · rw [spanOf?_of_inOrder inOrder]
    cases Matcher.spanOf input.offset run.values with
    | ok span => exact ⟨rfl, fine⟩
    | error fault => exact ⟨rfl, fine⟩

theorem repeated {audited : Audited (Option (Located α))} {part : Matcher (Option (Located α))}
    (audits : Audits audited part) (drifting : part.Drifting) (minimum : Nat)
    (maximum : Option Nat) :
    Audits (audited.repeated minimum maximum) (part.repeated minimum maximum) := by
  have steady := Matcher.steady_repeated audits.forward minimum maximum
  refine ⟨fun input => Account.Keeps.closing ?_ (steady input).unmoved, steady.forward⟩
  obtain ⟨same, fine⟩ :=
    keeps_runTimes audits (Matcher.lapsWithin maximum (input.rest.length + 1)) input
  have advances := Matcher.advances_runTimes audits.forward
    (Matcher.lapsWithin maximum (input.rest.length + 1)) input
  have inOrder := Matcher.inOrder_runTimes drifting
    (Matcher.lapsWithin maximum (input.rest.length + 1)) input
  rw [Matcher.repeated_eq]
  simp only
  rw [← same] at advances inOrder ⊢
  generalize Audited.runTimes audited _ input = noted at fine advances inOrder ⊢
  obtain ⟨⟨values, ending, after⟩, notes⟩ := noted
  cases ending with
  | none => exact keeps_finishRun advances inOrder fine minimum none
  | some fault =>
    cases fault with
    | failed failure => exact keeps_finishRun advances inOrder fine minimum failure
    | _ => exact ⟨rfl, fine⟩

end Audits

end WireSpan
