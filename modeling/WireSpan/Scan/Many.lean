import WireSpan.Scan

/-! Scanners built from scanners: choice, absence, and repetition. A repetition whose turns read
on satisfies the equation that one expects of it (`collect_run`): it does one turn, and unless that
ended it goes on. -/

namespace WireSpan.Scan

variable {α β : Type}

/-- Of two failures the one that got further, and of two that got equally far the second. -/
def further (first second : Failure) : Failure :=
  if first.offset ≤ second.offset then second else first

def orElse (first second : Scan α) : Scan α := fun input =>
  match first input with
  | .ok result => .ok result
  | .error failure =>
    match second input with
    | .ok result => .ok result
    | .error failure' => .error (further failure failure')

def optional (scan : Scan α) : Scan (Option α) := fun input =>
  match scan input with
  | .ok (value, after) => .ok (some value, after)
  | .error _ => .ok (none, input)

/-- Exactly `count` values. A failure of `scan` is reported as a repetition that ended early. -/
def times (count : Nat) (scan : Scan α) : Scan (List α) := go count
where
  go : Nat → Scan (List α)
    | 0 => pure []
    | left + 1 => fun input =>
      match scan input with
      | .ok (value, after) => (do return value :: (← go left)) after
      | .error failure =>
        .error ⟨.tooFewRepetitions count (count - (left + 1)) failure.expected, failure.offset,
          .general⟩

def collectWithin (turn : Scan (α ⊕ β)) : Nat → Scan (List α × β)
  | 0 => fail .stalled
  | fuel + 1 => do
    match ← turn with
    | .inl value =>
      let (values, last) ← collectWithin turn fuel
      return (value :: values, last)
    | .inr last => return ([], last)

/-- Repeats `turn` until it ends the repetition. A turn that goes on has to read at least a byte,
and so one more turn than there are bytes is always enough. -/
def collect (turn : Scan (α ⊕ β)) : Scan (List α × β) := fun input =>
  collectWithin turn (input.rest.length + 1) input

def ReadsOn (turn : Scan (α ⊕ β)) : Prop :=
  ∀ input value after, turn input = .ok (.inl value, after) →
    after.rest.length < input.rest.length

/-- Turns beyond the number of bytes make no difference. -/
theorem collectWithin_of_lt (turn : Scan (α ⊕ β)) (readsOn : ReadsOn turn) (fuel : Nat)
    (input : Input) (enough : input.rest.length < fuel) :
    collectWithin turn fuel input = collect turn input := by
  induction fuel using Nat.strongRecOn generalizing input with
  | ind fuel ih =>
    match fuel, enough with
    | fuel + 1, enough =>
      simp only [collect, collectWithin, bind_run]
      split
      · rename_i ended after found
        split
        · have shorter := readsOn _ _ _ found
          simp only [bind_run]
          rw [ih fuel (by omega) after (by omega), ih input.rest.length (by omega) after shorter]
        · rfl
      · rfl

theorem collect_run (turn : Scan (α ⊕ β)) (readsOn : ReadsOn turn) (input : Input) :
    collect turn input =
      (do
        match ← turn with
        | .inl value =>
          let (values, last) ← collect turn
          return (value :: values, last)
        | .inr last => return ([], last) : Scan (List α × β)) input := by
  rw [collect, collectWithin, bind_run, bind_run]
  split
  · rename_i ended after found
    split
    · rw [bind_run, bind_run,
        collectWithin_of_lt turn readsOn _ _ (readsOn _ _ _ found)]
    · rfl
  · rfl

end WireSpan.Scan
