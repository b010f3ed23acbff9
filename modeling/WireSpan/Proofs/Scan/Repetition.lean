import WireSpan.Proofs.Scan.Passage

/-! Repetitions as runs of single turns. A repetition succeeds exactly where there is a finite run
of turns of which the last one ends it. -/

namespace WireSpan.Scan

variable {α β : Type} {turn : Scan (α ⊕ β)} {input mid after : Input} {values : List α} {last : β}

/-- Turns that read `values` one after another, and a turn that ends the repetition with `last`. -/
inductive Turns (turn : Scan (α ⊕ β)) : Input → List α → β → Input → Prop where
  | done {input after : Input} {last : β} (ended : turn input = .ok (.inr last, after)) :
      Turns turn input [] last after
  | step {input mid after : Input} {value : α} {values : List α} {last : β}
      (read : turn input = .ok (.inl value, mid)) (rest : Turns turn mid values last after) :
      Turns turn input (value :: values) last after

private theorem turns_of_within {fuel : Nat}
    (read : collectWithin turn fuel input = .ok ((values, last), after)) :
    Turns turn input values last after := by
  induction fuel generalizing input values with
  | zero => cases read
  | succ fuel ih =>
    rw [collectWithin] at read
    obtain ⟨ended, mid, found, later⟩ := bind_eq_ok.mp read
    cases ended with
    | inl value =>
      obtain ⟨⟨more, final⟩, stop, rest, result⟩ := bind_eq_ok.mp later
      cases result
      exact .step found (ih rest)
    | inr final =>
      cases later
      exact .done found

theorem Turns.ofCollect (read : collect turn input = .ok ((values, last), after)) :
    Turns turn input values last after := turns_of_within read

/-- Every run of turns that read on is what the repetition does. -/
theorem Turns.collect (readsOn : ReadsOn turn) (turns : Turns turn input values last after) :
    collect turn input = .ok ((values, last), after) := by
  induction turns with
  | done ended =>
    rw [collect_run turn readsOn]
    exact bind_eq_ok.mpr ⟨_, _, ended, rfl⟩
  | step read rest ih =>
    rw [collect_run turn readsOn]
    exact bind_eq_ok.mpr ⟨_, _, read, bind_eq_ok.mpr ⟨_, _, ih, rfl⟩⟩

variable {failure : Failure}

/-- Turns that read on, and a turn that fails. -/
inductive BrokenTurns (turn : Scan (α ⊕ β)) (failure : Failure) : Input → Prop where
  | here {input : Input} (refused : turn input = .error failure) : BrokenTurns turn failure input
  | later {input mid : Input} {value : α} (read : turn input = .ok (.inl value, mid))
      (rest : BrokenTurns turn failure mid) : BrokenTurns turn failure input

/-- A repetition that fails does so in one of its turns. -/
theorem BrokenTurns.ofCollect (readsOn : ReadsOn turn)
    (failed : Scan.collect turn input = .error failure) : BrokenTurns turn failure input := by
  induction length : input.rest.length using Nat.strongRecOn generalizing input with
  | ind bytes ih =>
    rw [collect_run turn readsOn] at failed
    rcases bind_eq_error.mp failed with refused | ⟨ended, mid, read, failed⟩
    · exact .here refused
    · cases ended with
      | inl value =>
        rcases bind_eq_error.mp failed with inside | ⟨read, stop, -, impossible⟩
        · have shorter := readsOn _ _ _ read
          exact .later read (ih mid.rest.length (length ▸ shorter) inside rfl)
        · cases impossible
      | inr last => cases failed

/-- A repetition fails with its first turn. -/
theorem Refuses.collect (readsOn : ReadsOn turn) (refused : Refuses turn input failure) :
    Refuses (Scan.collect turn) input failure := by
  unfold Refuses
  rw [collect_run turn readsOn]
  exact refused.bind

/-- A repetition fails if it does so after its first turn. -/
theorem Refuses.collectMore {value : α} (readsOn : ReadsOn turn)
    (read : turn input = .ok (.inl value, mid))
    (refused : Refuses (Scan.collect turn) mid failure) :
    Refuses (Scan.collect turn) input failure := by
  unfold Refuses
  rw [collect_run turn readsOn]
  exact Refuses.behind read refused.bind

/-- A first turn that finds the same in two inputs leads to the same run. -/
theorem collect_congr (readsOn : ReadsOn turn) {other : Input} (same : turn input = turn other) :
    Scan.collect turn input = Scan.collect turn other := by
  rw [collect_run turn readsOn, collect_run turn readsOn, bind_run, bind_run, same]

end WireSpan.Scan
