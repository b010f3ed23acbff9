import WireSpan.Fault
import WireSpan.Scan.Many

/-! Matchers may leave the input anywhere, also where they fail. The combinators are what keeps
the progress of a part that failed from being seen: they go back to the input they began with. -/

namespace WireSpan

structure Outcome (α : Type) where
  result : Except Fault α
  input : Input

/-- Reads a value from an input that it may move in any case. -/
def Matcher (α : Type) : Type := Input → Outcome α

namespace Matcher

variable {α β : Type}

def ofScan (scan : Scan α) : Matcher α := fun input =>
  match scan input with
  | .ok (value, after) => ⟨.ok value, after⟩
  | .error failure => ⟨.error (.failed failure), input⟩

def present (scan : Scan (Located α)) : Matcher (Option (Located α)) :=
  ofScan (some <$> scan)

/-- Goes back to `start` where `outcome` is a failure to match. Other faults leave the input where
it is. -/
def restore (start : Input) (outcome : Outcome α) : Outcome α :=
  match outcome.result with
  | .error (.failed _) => ⟨outcome.result, start⟩
  | _ => outcome

def transaction (body : Matcher α) : Matcher α := fun input => restore input (body input)

def runAll : List (Matcher α) → Matcher (List α)
  | [], input => ⟨.ok [], input⟩
  | part :: parts, input =>
    match part input with
    | ⟨.error fault, after⟩ => ⟨.error fault, after⟩
    | ⟨.ok value, after⟩ =>
      match runAll parts after with
      | ⟨.ok values, last⟩ => ⟨.ok (value :: values), last⟩
      | ⟨.error fault, last⟩ => ⟨.error fault, last⟩

def sequence (parts : List (Matcher α)) : Matcher (Located (List α)) := fun input =>
  match transaction (runAll parts) input with
  | ⟨.ok values, after⟩ => ⟨.ok ⟨values, input.spanTo after⟩, after⟩
  | ⟨.error fault, after⟩ => ⟨.error fault, after⟩

def optional (part : Matcher (Option α)) : Matcher (Option α) := fun input =>
  match part input with
  | ⟨.error (.failed _), _⟩ => ⟨.ok none, input⟩
  | outcome => outcome

/-- Tries the branches in order from the same input. Where all fail to match, the furthest failure
is reported, and of equally far ones the last. -/
def firstOf (input : Input) (furthest : Failure) : List (Matcher α) → Outcome α
  | [] => ⟨.error (.failed furthest), input⟩
  | branch :: branches =>
    match branch input with
    | ⟨.error (.failed failure), _⟩ => firstOf input (Scan.further furthest failure) branches
    | outcome => outcome

def choice (branch : Matcher α) (branches : List (Matcher α)) : Matcher α := fun input =>
  match branch input with
  | ⟨.error (.failed failure), _⟩ => firstOf input failure branches
  | outcome => outcome

/-- How a run of repetitions ended: the values read, the failure or other fault that ended it if
there was one, and the input left. -/
structure Run (α : Type) where
  values : List α
  ending : Option Fault
  input : Input

def runTimes (part : Matcher α) : Nat → Input → Run α
  | 0, input => ⟨[], none, input⟩
  | left + 1, input =>
    match part input with
    | ⟨.error fault, after⟩ => ⟨[], some fault, after⟩
    | ⟨.ok value, after⟩ =>
      if after.offset = input.offset then ⟨[value], none, after⟩
      else
        let run := runTimes part left after
        { run with values := value :: run.values }

def spanOf (start : Nat) (values : List (Option (Located α))) : Except Fault Span :=
  match values.head?, values.getLast? with
  | some (some first), some (some last) => .ok (Span.between first.span.start last.span.stop)
  | some none, _ => .error (.lacks .absent .start)
  | some (some _), some none => .error (.lacks .absent .stop)
  | _, _ => .ok (Span.emptyAt start)

/-- As many values as there are, up to `maximum`; fewer than `minimum` are a failure to match. A
value that takes no bytes is the last one. One more run than there are bytes is always enough. -/
def repeated (part : Matcher (Option (Located α))) (minimum : Nat) (maximum : Option Nat) :
    Matcher (Located (List (Option (Located α)))) := fun input =>
  let enough := input.rest.length + 1
  let run := runTimes part ((maximum.map (min enough)).getD enough) input
  let tooFew (offset : Int) (expected : Option String) : Fault :=
    .failed ⟨.tooFewRepetitions minimum run.values.length expected, offset, .general⟩
  let finish : Outcome (Located (List (Option (Located α)))) :=
    match spanOf input.offset run.values with
    | .ok span => ⟨.ok ⟨run.values, span⟩, run.input⟩
    | .error fault => ⟨.error fault, run.input⟩
  match run.ending with
  | some (.failed failure) =>
    if run.values.length < minimum then ⟨.error (tooFew failure.offset failure.expected), input⟩
    else finish
  | some fault => ⟨.error fault, run.input⟩
  | none =>
    if run.values.length < minimum then ⟨.error (tooFew input.offset none), input⟩ else finish

def map (f : α → Except Fault β) (part : Matcher (Option (Located α))) :
    Matcher (Option (Located β)) := fun input =>
  match part input with
  | ⟨.error fault, after⟩ => ⟨.error fault, after⟩
  | ⟨.ok none, after⟩ => ⟨.error (.lacks .absent .map), after⟩
  | ⟨.ok (some x), after⟩ =>
    match f x.value with
    | .ok value => ⟨.ok (some ⟨value, x.span⟩), after⟩
    | .error fault => ⟨.error fault, after⟩

def chain (first : Matcher α) (second : Matcher β) : Matcher β := fun input =>
  match first input with
  | ⟨.ok _, after⟩ => second after
  | ⟨.error fault, after⟩ => ⟨.error fault, after⟩

end Matcher

end WireSpan
