import WireSpan.Proofs.Matcher.Accounts

/-! Greedy repetition. A repetition does all its laps, up to one that fails, one that reads nothing,
or the last one that it may do, and there is at most one lap more than there are bytes. Only then
does it look whether the values are enough. -/

namespace WireSpan

variable {α : Type}

theorem Span.eq_between (span : Span) : span = Span.between span.start span.stop := by
  obtain ⟨start, stop, ordered⟩ := span
  simp only [Span.between, Nat.max_eq_right ordered]

/-- The number of laps that were begun: one for each value, and one more if it ended in a fault. -/
def Matcher.Run.begun (run : Matcher.Run α) : Nat := run.values.length + run.ending.toList.length

theorem Matcher.Run.begun_cons (run : Matcher.Run α) (value : α) :
    Matcher.Run.begun { run with values := value :: run.values } = run.begun + 1 :=
  Nat.add_right_comm ..

theorem Matcher.Run.begun_map {β : Type} (items : List β) (f : β → α) (ending : Option Failure)
    (after : Input) :
    Matcher.Run.begun ⟨items.map f, ending.map .failed, after⟩ =
      items.length + ending.toList.length := by
  rw [begun, List.length_map]
  cases ending with
  | none => rfl
  | some failure => rfl

namespace Account

/-- To note how a combinator leaves the input is not to run a part. -/
theorem calls_closing (start : Input) (account : Account α) :
    (account.closing start).calls = account.calls := by
  unfold closing
  split
  · rw [calls, List.filterMap_append]
    exact List.append_nil _
  · rfl

theorem calls_withdraw (start : Input) (tried : Account α) :
    (tried.withdraw start).calls = tried.calls := by
  unfold withdraw recover
  split
  · split
    · rw [calls, List.filterMap_append]
      exact List.append_nil _
    · rw [calls, List.filterMap_append]
      exact List.append_nil _
  · rfl

end Account

namespace Audited

theorem calls_finishRun (minimum : Nat) (input : Input)
    (run : Matcher.Run (Option (Located α))) (notes : List Note) (failure : Option Failure) :
    (finishRun minimum input run notes failure).calls = notes.filterMap Note.call? := by
  unfold finishRun
  split
  · exact Account.calls_withdraw input _
  · split
    · rfl
    · rfl

/-- Parts are run in the laps of a repetition and nowhere else in it. -/
theorem calls_repeated (part : Audited (Option (Located α))) (minimum : Nat)
    (maximum : Option Nat) (input : Input) : (part.repeated minimum maximum input).calls =
      (runTimes part (Matcher.lapsWithin maximum (input.rest.length + 1)) input).2.filterMap
        Note.call? := by
  unfold repeated
  rw [Account.calls_closing]
  split
  · exact calls_finishRun minimum input _ _ none
  · exact calls_finishRun minimum input _ _ _
  · rfl

/-- Each lap runs the part once, also the one that fails. -/
theorem length_calls_runTimes (part : Matcher α) (left : Nat) (input : Input) :
    ((runTimes (.ofMatcher part) left input).2.filterMap Note.call?).length =
      (Matcher.runTimes part left input).begun := by
  induction left generalizing input with
  | zero => rfl
  | succ left ih =>
    rw [runTimes, Matcher.runTimes, ofMatcher]
    simp only
    generalize part input = ended
    obtain ⟨result, after⟩ := ended
    cases result with
    | error fault => rfl
    | ok value =>
      simp only
      split
      · rfl
      · rw [List.filterMap_append, List.length_append, ih after, Matcher.Run.begun_cons]
        exact Nat.add_comm ..

end Audited

namespace Matcher

variable {part : Matcher α} {left : Option Nat} {input : Input} {run other : Run α}

/-- There is one way only to do laps. -/
theorem Laps.unique (laps : Laps part left input run) (others : Laps part left input other) :
    run = other := by
  induction laps generalizing other with
  | done =>
    cases others with
    | done => rfl
    | _ => contradiction
  | ended going failed =>
    cases others with
    | done => contradiction
    | ended _ failed' =>
      cases failed.symm.trans failed'
      rfl
    | still _ read => cases failed.symm.trans read
    | onward _ read => cases failed.symm.trans read
  | still going read unmoved =>
    cases others with
    | done => contradiction
    | ended _ failed => cases failed.symm.trans read
    | still _ read' =>
      cases read.symm.trans read'
      rfl
    | onward _ read' moved =>
      cases read.symm.trans read'
      exact absurd unmoved moved
  | onward going read moved later ih =>
    cases others with
    | done => contradiction
    | ended _ failed => cases failed.symm.trans read
    | still _ read' unmoved =>
      cases read.symm.trans read'
      exact absurd unmoved moved
    | onward _ read' _ later' =>
      cases read.symm.trans read'
      rw [ih later']

/-- Every lap but the last takes a byte at least, so there is one lap more than there are bytes at
most. -/
theorem Laps.begun_le (forward : Forward part) (laps : Laps part left input run) :
    run.begun ≤ input.rest.length + 1 := by
  induction laps with
  | done => exact Nat.zero_le _
  | ended => exact Nat.succ_le_succ (Nat.zero_le _)
  | still => exact Nat.succ_le_succ (Nat.zero_le _)
  | @onward left input after value run going read moved later ih =>
    have advances := forward input
    rw [read] at advances
    have shorter := length_rest_lt advances moved
    rw [Run.begun_cons]
    exact Nat.succ_le_succ (Nat.le_trans ih shorter)

end Matcher

/-- A repetition does the laps that there are from the input on, which can be done in one way only,
and runs the part once for each. It comes to the values that were read, or to a failure to match if
they are too few. That failure is where the one was that ended the laps, and expects what that one
did; if none ended them, it is where the repetition began. -/
structure Matcher.Greedy (part : Matcher (Option (Located α))) (minimum : Nat)
    (maximum : Option Nat) (input : Input) (items : List (Located α)) (ending : Option Failure)
    (after : Input) : Prop where
  laps : ∀ run, Laps part maximum input run ↔ run = ⟨items.map some, ending.map .failed, after⟩
  calls : (Audited.repeated (.ofMatcher part) minimum maximum input).calls.length =
    items.length + ending.toList.length
  bounded : items.length + ending.toList.length ≤ input.rest.length + 1
  audited : (Audited.repeated (.ofMatcher part) minimum maximum input).Keeps
    (repeated part minimum maximum input)
  enough : minimum ≤ items.length →
    repeated part minimum maximum input = ⟨.ok ⟨items.map some, input.spanTo after⟩, after⟩
  tooFew : items.length < minimum → repeated part minimum maximum input =
    ⟨.error (.failed ⟨.tooFewRepetitions minimum items.length (ending.bind (·.expected)),
      (ending.map (·.offset)).getD input.offset, .general⟩), input⟩

namespace Matcher

variable {part : Matcher (Option (Located α))} {holds : Located α → Prop}

/-- The laps of an exact part read values side by side, and end in a failure to match if in any
fault. -/
theorem Run.Exact.items {input : Input} {run : Run (Option (Located α))}
    (exact : run.Exact input holds) :
    ∃ (items : List (Located α)) (ending : Option Failure) (after : Input),
      run = ⟨items.map some, ending.map .failed, after⟩ ∧
        Abut input.offset (items.map some) after.offset := by
  cases exact with
  | @mk items ending after advances abut held quiet =>
    cases ending with
    | none => exact ⟨items, none, after, rfl, abut⟩
    | some fault =>
      obtain ⟨failure, rfl⟩ := quiet fault rfl
      exact ⟨items, some failure, after, rfl, abut⟩

/-- Values side by side have the span of all their place. -/
theorem finished_exact {items : List (Located α)} {ending : Option Fault} {input after : Input}
    (abut : Abut input.offset (items.map some) after.offset) (minimum : Nat)
    (failure : Option Failure) :
    finished minimum input ⟨items.map some, ending, after⟩ failure =
      if items.length < minimum then
        ⟨.error (.failed ⟨.tooFewRepetitions minimum items.length (failure.bind (·.expected)),
          (failure.map (·.offset)).getD input.offset, .general⟩), input⟩
      else ⟨.ok ⟨items.map some, input.spanTo after⟩, after⟩ := by
  obtain ⟨span, spanned, starts, stops⟩ := spanOf_exact abut
  rw [finished, Input.spanTo, ← starts, ← stops, ← span.eq_between, starts]
  simp only [spanned, List.length_map]

/-- A repetition of an exact part is greedy. -/
theorem repeated_greedy (exact : part.Exact False holds) (minimum : Nat) (maximum : Option Nat)
    (input : Input) :
    ∃ items ending after, Greedy part minimum maximum input items ending after := by
  have forward := exact.steady.forward
  have laps := laps_runTimes forward maximum (input.rest.length + 1) (Nat.lt_succ_self _)
  have audits := (Audits.ofMatcher forward).repeated exact.drifting minimum maximum
  have calls := Audited.calls_repeated (.ofMatcher part) minimum maximum input
  have called := Audited.length_calls_runTimes part
    (lapsWithin maximum (input.rest.length + 1)) input
  have result := repeated_eq part minimum maximum input
  simp only at result
  obtain ⟨items, ending, after, same, abut⟩ :=
    (exact_runTimes exact (lapsWithin maximum (input.rest.length + 1)) input).items
  rw [same] at laps called result
  have bounded := laps.begun_le forward
  rw [← calls] at called
  rw [Run.begun_map] at called bounded
  have outcome : repeated part minimum maximum input =
      finished minimum input ⟨items.map some, ending.map .failed, after⟩ ending := by
    cases ending with
    | none => exact result
    | some failure => exact result
  rw [finished_exact abut] at outcome
  refine ⟨items, ending, after, fun other => ⟨fun others => others.unique laps, ?_⟩, called,
    bounded, audits.keeps input, fun enough => ?_, fun few => ?_⟩
  · rintro rfl
    exact laps
  · rw [outcome, if_neg (Nat.not_lt.mpr enough)]
  · rw [outcome, if_pos few]

/-- A decimal digit. -/
def digit : Matcher (Option (Located Value)) := (Pattern.byteOf Ascii.isDigit "digit").run

private theorem exact_digit : ∃ holds, digit.Exact False holds := by
  obtain ⟨matcher, realizes⟩ :=
    Pattern.realizes_leaf (show (Pattern.byteOf Ascii.isDigit "digit").isLeaf = true from rfl)
  rw [digit, Pattern.run_of_built realizes.built]
  exact ⟨_, realizes.exact⟩

/-- Two digits and then something else: too few where three are asked for, and missed is the digit
behind the two. -/
theorem repeated_greedy_digits :
    ∃ items ending after,
      Greedy digit 3 none ⟨0, Ascii.bytes ['1', '2', 'x']⟩ items ending after ∧
        items.length = 2 ∧ after = ⟨2, Ascii.bytes ['x']⟩ ∧
          repeated digit 3 none ⟨0, Ascii.bytes ['1', '2', 'x']⟩ =
            ⟨.error (.failed ⟨.tooFewRepetitions 3 2 (some "digit"), 2, .general⟩),
              ⟨0, Ascii.bytes ['1', '2', 'x']⟩⟩ := by
  obtain ⟨holds, exact⟩ := exact_digit
  have laps : Laps digit none ⟨0, Ascii.bytes ['1', '2', 'x']⟩
      (runTimes digit 4 ⟨0, Ascii.bytes ['1', '2', 'x']⟩) :=
    laps_runTimes exact.steady.forward none 4 (by decide)
  obtain ⟨items, ending, after, greedy⟩ :=
    repeated_greedy exact 3 none ⟨0, Ascii.bytes ['1', '2', 'x']⟩
  have run := (greedy.laps _).mp laps
  have two : items.length = 2 := by
    have same : 2 = (items.map some).length := congrArg (fun run => run.values.length) run
    rw [same, List.length_map]
  have failed : some (Fault.failed ⟨.unexpected "digit" (Ascii.bytes ['x']), 2, .general⟩) =
      ending.map .failed := congrArg Run.ending run
  obtain ⟨failure, rfl, same⟩ := Option.map_eq_some_iff.mp failed.symm
  cases same
  have outcome := greedy.tooFew (by omega)
  rw [two] at outcome
  exact ⟨items, _, after, greedy, two, (congrArg Run.input run).symm, outcome⟩

end Matcher

end WireSpan
