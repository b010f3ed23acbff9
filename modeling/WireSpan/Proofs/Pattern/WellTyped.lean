import WireSpan.Proofs.Matcher.Exact

/-! Patterns whose parts give what is asked of them. A part may come to nothing only at the top, or
directly in a sequence; everything else needs a value to go on with. Such patterns always end,
either without a match or with the exact span of what they read, and never with any other fault. -/

namespace WireSpan.Pattern

/-- Reads bytes, and has no parts. -/
def isLeaf : Pattern → Bool
  | literal .. => true
  | byteOf .. => true
  | takeWhile1 .. => true
  | takeWhile .. => true
  | take .. => true
  | takeUntil .. => true
  | _ => false

/-- The pattern without the option that it is, if it is one. -/
def inner : Pattern → Pattern
  | optional part => part
  | other => other

/-- The function returns normally on every value that the pattern can read. -/
def Returns (f : Value → Except Fault Value) (part : Pattern) : Prop :=
  ∀ input x after, part.run input = ⟨.ok (some x), after⟩ → ∃ value, f x.value = .ok value

/-- There is a value wherever the pattern matches. Bounds are in order, choices are not empty, and
options stand in sequences only. -/
inductive Solid : Pattern → Prop where
  | leaf {pattern : Pattern} (leaf : pattern.isLeaf = true) : Solid pattern
  | sequence {parts : List Pattern} (solid : ∀ part ∈ parts, Solid part.inner) :
      Solid (.sequence parts)
  | repeated {part : Pattern} {minimum : Int} {maximum : Option Int} (solid : Solid part)
      (notNegative : 0 ≤ minimum) (inOrder : ∀ bound ∈ maximum, minimum ≤ bound) :
      Solid (.repeated part minimum maximum)
  | choice {branches : List Pattern} (nonempty : branches ≠ [])
      (solid : ∀ branch ∈ branches, Solid branch) : Solid (.choice branches)
  | map {part : Pattern} {f : Value → Except Fault Value} (solid : Solid part)
      (returns : Returns f part) : Solid (.map part f)

/-- A solid pattern, or the option of one. -/
def WellTyped (pattern : Pattern) : Prop := Solid pattern.inner

/-- What a pattern reads has its parts side by side, and so have the parts of the parts. -/
inductive Tiled : Pattern → Located Value → Prop where
  | leaf {pattern : Pattern} {text : Bytes} {span : Span} (leaf : pattern.isLeaf = true)
      (length : span.length = text.length) : Tiled pattern ⟨.bytes text, span⟩
  | sequence {parts : List Pattern} {values : List (Option (Located Value))} {span : Span}
      (tiled : List.Forall₂ (fun part value => ∀ x ∈ value, Tiled part x) parts values)
      (abut : Abut span.start values span.stop) : Tiled (.sequence parts) ⟨.tuple values, span⟩
  | optional {part : Pattern} {x : Located Value} (tiled : Tiled part x) :
      Tiled (.optional part) x
  | repeated {part : Pattern} {minimum : Int} {maximum : Option Int} {items : List (Located Value)}
      {span : Span} (tiled : ∀ x ∈ items, Tiled part x)
      (abut : Abut span.start (items.map some) span.stop) :
      Tiled (.repeated part minimum maximum) ⟨.tuple (items.map some), span⟩
  | choice {branches : List Pattern} {branch : Pattern} {x : Located Value}
      (member : branch ∈ branches) (tiled : Tiled branch x) : Tiled (.choice branches) x
  | map {part : Pattern} {f : Value → Except Fault Value} {x : Located Value} {value : Value}
      (tiled : Tiled part x) (applied : f x.value = .ok value) : Tiled (.map part f) ⟨value, x.span⟩

/-- What a repetition comes to after its laps: the tuple of what they read, or a failure if there
were too few of them. -/
inductive Closes (minimum : Nat) (input : Input) (run : Matcher.Run (Option (Located Value))) :
    Outcome (Option (Located Value)) → Prop where
  | enough (least : minimum ≤ run.values.length) (span : Span) :
      Closes minimum input run ⟨.ok (some ⟨.tuple run.values, span⟩), run.input⟩
  | tooFew (few : run.values.length < minimum) {failure : Failure}
      (kind : failure.kind = .tooFewRepetitions) :
      Closes minimum input run ⟨.error (.failed failure), input⟩

/-- Every repetition in the pattern comes to the end of its laps, wherever it is begun. -/
inductive Halts : Pattern → Prop where
  | leaf {pattern : Pattern} (leaf : pattern.isLeaf = true) : Halts pattern
  | sequence {parts : List Pattern} (halts : ∀ part ∈ parts, Halts part) : Halts (.sequence parts)
  | optional {part : Pattern} (halts : Halts part) : Halts (.optional part)
  | repeated {part : Pattern} {minimum : Int} {maximum : Option Int} (halts : Halts part)
      (ends : ∀ input, ∃ run, Matcher.Laps part.run (maximum.map Int.toNat) input run ∧
        Closes minimum.toNat input run ((Pattern.repeated part minimum maximum).run input)) :
      Halts (.repeated part minimum maximum)
  | choice {branches : List Pattern} (halts : ∀ branch ∈ branches, Halts branch) :
      Halts (.choice branches)
  | map {part : Pattern} {f : Value → Except Fault Value} (halts : Halts part) :
      Halts (.map part f)

/-- A matcher of the pattern, with exact spans, that always ends. -/
structure Realizes (matcher : Matcher (Option (Located Value))) (pattern : Pattern)
    (possiblyNone : Prop) : Prop where
  built : pattern.matcher? = .ok matcher
  exact : matcher.Exact possiblyNone (Tiled pattern)
  halts : Halts pattern

variable {pattern part : Pattern} {matcher : Matcher (Option (Located Value))}

theorem run_of_built (built : pattern.matcher? = .ok matcher) : pattern.run = matcher := by
  funext input
  rw [run, built]

section Leaves

/-- The scanner reads bytes, and says where they stand. -/
def ReadsBytes (scan : Scan (Located Bytes)) : Prop :=
  ∀ ⦃input after : Input⦄ ⦃x : Located Bytes⦄, scan input = .ok (x, after) →
    input.Passes x.value after ∧ x.span = Span.ofLength input.offset x.value.length

private theorem readsBytes_literal (expected : String) (text : Bytes) :
    ReadsBytes (Scan.literal expected text) := by
  intro input after x read
  obtain ⟨passes, rfl⟩ := Scan.literal_sound read
  exact ⟨passes, rfl⟩

private theorem readsBytes_byteOf (expected : String) (accepts : UInt8 → Bool) :
    ReadsBytes (Located.map (fun b => [b]) <$> Scan.byteOf expected accepts) := by
  intro input after x read
  obtain ⟨byte, mid, found, result⟩ := Scan.bind_eq_ok.mp read
  obtain ⟨rfl, rfl⟩ := Scan.pure_eq_ok.mp result
  obtain ⟨passes, -, place⟩ := Scan.byteOf_sound found
  exact ⟨passes, place⟩

private theorem readsBytes_takeWhile (accepts : UInt8 → Bool) :
    ReadsBytes (Scan.takeWhile accepts) := by
  intro input after x read
  obtain ⟨passes, -, -, place⟩ := Scan.takeWhile_sound read
  exact ⟨passes, place⟩

private theorem readsBytes_takeWhile1 (expected : String) (accepts : UInt8 → Bool) :
    ReadsBytes (Scan.takeWhile1 expected accepts) :=
  fun _ _ _ read => readsBytes_takeWhile accepts (Scan.takeWhile1_sound read).2

private theorem readsBytes_takeCount (count : Int) : ReadsBytes (Scan.takeCount count) := by
  intro input after x read
  unfold Scan.takeCount at read
  split at read
  · cases read
  · obtain ⟨passes, length, place⟩ := Scan.take_sound read
    rw [← length] at place
    exact ⟨passes, place⟩

private theorem readsBytes_takeUntil (delimiter : Bytes) (limit : Option Int) :
    ReadsBytes (Scan.takeUntil delimiter limit) := by
  intro input after x read
  unfold Scan.takeUntil at read
  split at read
  · rename_i count found
    cases read
    obtain ⟨window, inside, place⟩ := Option.bind_eq_some_iff.mp found
    have enough := Nat.le_trans (Scan.indexOf?_le place) (Scan.length_searchWindow?_le inside)
    refine ⟨Input.passes_advance enough, ?_⟩
    rw [List.length_take_of_le enough]
  · cases read

private theorem exact_bytesOf {scan : Scan (Located Bytes)} (leaf : pattern.isLeaf = true)
    (reads : ReadsBytes scan) : (bytesOf scan).Exact False (Tiled pattern) := by
  intro input
  unfold bytesOf Matcher.present Matcher.ofScan
  split
  · rename_i value after found
    obtain ⟨x, mid, mapped, result⟩ := Scan.bind_eq_ok.mp found
    obtain ⟨y, last, read, result'⟩ := Scan.bind_eq_ok.mp mapped
    obtain ⟨rfl, rfl⟩ := Scan.pure_eq_ok.mp result
    obtain ⟨rfl, rfl⟩ := Scan.pure_eq_ok.mp result'
    obtain ⟨passes, place⟩ := reads read
    rw [Located.map, place]
    refine .present ⟨_, passes⟩ rfl passes.offset.symm (.leaf leaf ?_)
    exact Nat.add_sub_cancel_left input.offset y.value.length
  · exact .failed _

theorem realizes_leaf (leaf : pattern.isLeaf = true) :
    ∃ matcher, Realizes matcher pattern False := by
  cases pattern with
  | literal text expected =>
    exact ⟨_, rfl, exact_bytesOf leaf (readsBytes_literal _ text), .leaf leaf⟩
  | byteOf accepts expected =>
    exact ⟨_, rfl, exact_bytesOf leaf (readsBytes_byteOf expected accepts), .leaf leaf⟩
  | takeWhile1 accepts expected =>
    exact ⟨_, rfl, exact_bytesOf leaf (readsBytes_takeWhile1 expected accepts), .leaf leaf⟩
  | takeWhile accepts =>
    exact ⟨_, rfl, exact_bytesOf leaf (readsBytes_takeWhile accepts), .leaf leaf⟩
  | take count => exact ⟨_, rfl, exact_bytesOf leaf (readsBytes_takeCount count), .leaf leaf⟩
  | takeUntil delimiter limit =>
    exact ⟨_, rfl, exact_bytesOf leaf (readsBytes_takeUntil delimiter limit), .leaf leaf⟩
  | _ => cases leaf

end Leaves

/-- Parts that have matchers have a list of them. -/
theorem matchers?_built {holds : Pattern → Matcher (Option (Located Value)) → Prop}
    {parts : List Pattern}
    (built : ∀ part ∈ parts, ∃ matcher, part.matcher? = .ok matcher ∧ holds part matcher) :
    ∃ matchers, matchers? parts = .ok matchers ∧ List.Forall₂ holds parts matchers := by
  induction parts with
  | nil => exact ⟨[], rfl, .nil⟩
  | cons part parts ih =>
    obtain ⟨first, others⟩ := List.forall_mem_cons.mp built
    obtain ⟨matcher, found, held⟩ := first
    obtain ⟨matchers, more, holding⟩ := ih others
    refine ⟨matcher :: matchers, ?_, .cons held holding⟩
    rw [matchers?, found, more]
    rfl

private theorem holds_of_forall₂ {α β : Type} {holds : β → Prop} {keys : List α} {values : List β}
    (each : List.Forall₂ (fun _ value => holds value) keys values) :
    ∀ value ∈ values, holds value := by
  induction each with
  | nil => exact nofun
  | cons first others ih => exact List.forall_mem_cons.mpr ⟨first, ih⟩

private theorem realizes_optional (realizes : Realizes matcher part False) :
    Realizes (Matcher.optional matcher) (.optional part) True where
  built := by
    rw [matcher?, realizes.built]
    rfl
  exact := (Matcher.exact_optional realizes.exact).imp id fun _ => .optional
  halts := .optional realizes.halts

/-- A pattern that is solid or an option of a solid one is realized if the solid one is. -/
theorem realizes_of_inner (realizes : Realizes matcher pattern.inner False) :
    ∃ matcher, Realizes matcher pattern (∃ part, pattern = .optional part) := by
  cases pattern with
  | optional part =>
    obtain ⟨built, exact, halts⟩ := realizes_optional realizes
    exact ⟨_, built, exact.imp (fun _ => ⟨part, rfl⟩) fun _ => id, halts⟩
  | _ => exact ⟨_, realizes.built, realizes.exact.imp False.elim fun _ => id, realizes.halts⟩

private theorem realizes_sequence {parts : List Pattern}
    (realized : ∀ part ∈ parts, ∃ matcher, Realizes matcher part.inner False) :
    ∃ matcher, Realizes matcher (.sequence parts) False := by
  have each (part : Pattern) (member : part ∈ parts) :
      ∃ matcher, part.matcher? = .ok matcher ∧
        Realizes matcher part (∃ inside, part = .optional inside) := by
    obtain ⟨_, realizes⟩ := realized part member
    obtain ⟨matcher, realizes⟩ := realizes_of_inner realizes
    exact ⟨matcher, realizes.built, realizes⟩
  obtain ⟨matchers, built, realizes⟩ := matchers?_built each
  refine ⟨tupleOf (Matcher.sequence matchers), ?_, ?_, .sequence ?_⟩
  · rw [matcher?, built]
    rfl
  · intro input
    rcases Matcher.exact_runAll (realizes.imp fun _ _ realizes => realizes.exact) input with
      ⟨failure, after, ended⟩ | ⟨values, after, ended, advances, abut, tiled⟩
    · simp only [tupleOf, Matcher.sequence, Matcher.transaction, ended, Matcher.restore]
      exact .failed failure
    · simp only [tupleOf, Matcher.sequence, Matcher.transaction, ended, Matcher.restore]
      obtain ⟨text, passes⟩ := advances
      have place : (input.spanTo after).stop = after.offset := by
        rw [passes.spanTo, passes.offset]
        rfl
      refine .present ⟨text, passes⟩ rfl place (.sequence tiled ?_)
      rwa [place]
  · intro part member
    obtain ⟨matcher, -, realizes⟩ := each part member
    exact realizes.halts

private theorem realizes_choice {branches : List Pattern} (nonempty : branches ≠ [])
    (realized : ∀ branch ∈ branches, ∃ matcher, Realizes matcher branch False) :
    ∃ matcher, Realizes matcher (.choice branches) False := by
  have each (branch : Pattern) (member : branch ∈ branches) :
      ∃ matcher, branch.matcher? = .ok matcher ∧
        matcher.Exact False (Tiled (.choice branches)) := by
    obtain ⟨matcher, realizes⟩ := realized branch member
    exact ⟨matcher, realizes.built, realizes.exact.imp id fun _ => .choice member⟩
  obtain ⟨matchers, built, exact⟩ := matchers?_built each
  have halts : Halts (.choice branches) := by
    refine .choice fun branch member => ?_
    obtain ⟨matcher, realizes⟩ := realized branch member
    exact realizes.halts
  have all := holds_of_forall₂ exact
  cases exact with
  | nil => exact absurd rfl nonempty
  | @cons branch matcher branches matchers first others =>
    refine ⟨Matcher.choice matcher matchers, ?_, Matcher.exact_choice all, halts⟩
    rw [matcher?, built]
    rfl

/-- A repetition of an exact part is exact, and it comes to what its laps come to. -/
theorem repeated_ends (exact : matcher.Exact False (Tiled part)) (minimum : Int)
    (maximum : Option Int) (input : Input) :
    let outcome := tupleOf (matcher.repeated minimum.toNat (maximum.map Int.toNat)) input
    outcome.Exact input False (Tiled (.repeated part minimum maximum)) ∧
      ∃ run, matcher.Laps (maximum.map Int.toNat) input run ∧
        Closes minimum.toNat input run outcome := by
  intro outcome
  have enough : input.rest.length < input.rest.length + 1 := Nat.lt_succ_self _
  have laps := Matcher.laps_runTimes exact.steady.forward (maximum.map Int.toNat) _ enough
  have turns := Matcher.exact_runTimes exact
    (Matcher.lapsWithin (maximum.map Int.toNat) (input.rest.length + 1)) input
  rcases Matcher.repeated_exact minimum.toNat rfl turns with
    ⟨few, failure, ended, kind⟩ | ⟨least, span, ended, starts, stops⟩
  · have same : outcome = ⟨.error (.failed failure), input⟩ := by
      simp only [outcome, tupleOf, ended]
    rw [same]
    exact ⟨.failed failure, _, laps, .tooFew few kind⟩
  · generalize matcher.runTimes _ input = run at laps turns least ended stops
    have same : outcome = ⟨.ok (some ⟨.tuple run.values, span⟩), run.input⟩ := by
      simp only [outcome, tupleOf, ended]
      rfl
    rw [same]
    refine ⟨?_, run, laps, .enough least span⟩
    cases turns with
    | mk _ advances abut held quiet =>
      refine .present advances starts stops (.repeated held ?_)
      rwa [starts, stops]

private theorem realizes_repeated {minimum : Int} {maximum : Option Int}
    (realizes : Realizes matcher part False) (notNegative : 0 ≤ minimum)
    (inOrder : ∀ bound ∈ maximum, minimum ≤ bound) :
    ∃ matcher, Realizes matcher (.repeated part minimum maximum) False := by
  have bounded : bounds? minimum maximum = .ok (minimum.toNat, maximum.map Int.toNat) := by
    refine if_neg ?_
    rintro (negative | reversed)
    · omega
    · cases maximum with
      | none => cases reversed
      | some bound =>
        have least := inOrder bound rfl
        have less : bound < minimum := of_decide_eq_true reversed
        omega
  have built : (Pattern.repeated part minimum maximum).matcher? =
      .ok (tupleOf (matcher.repeated minimum.toNat (maximum.map Int.toNat))) := by
    rw [matcher?, realizes.built]
    simp only [bind, Except.bind, bounded]
    rfl
  refine ⟨_, built, fun input => (repeated_ends realizes.exact minimum maximum input).1, ?_⟩
  refine .repeated realizes.halts fun input => ?_
  rw [run_of_built realizes.built, run_of_built built]
  exact (repeated_ends realizes.exact minimum maximum input).2

private theorem realizes_map {f : Value → Except Fault Value}
    (realizes : Realizes matcher part False)
    (returns : Returns f part) : Realizes (matcher.map f) (.map part f) False where
  built := by
    rw [matcher?, realizes.built]
    rfl
  exact := by
    rw [Returns, run_of_built realizes.built] at returns
    exact Matcher.exact_map realizes.exact returns fun _ _ => .map
  halts := .map realizes.halts

/-- Every solid pattern has a matcher with exact spans that always ends. -/
theorem Solid.realized (solid : Solid pattern) : ∃ matcher, Realizes matcher pattern False := by
  induction solid with
  | leaf leaf => exact realizes_leaf leaf
  | sequence solid ih => exact realizes_sequence ih
  | repeated solid notNegative inOrder ih =>
    obtain ⟨matcher, realizes⟩ := ih
    exact realizes_repeated realizes notNegative inOrder
  | choice nonempty solid ih => exact realizes_choice nonempty ih
  | map solid returns ih =>
    obtain ⟨matcher, realizes⟩ := ih
    exact ⟨_, realizes_map realizes returns⟩

/-- A well-typed pattern comes to an end from every input. It fails to match and moves nothing, or
it gives a value whose span is what was moved over and whose parts stand side by side in it; only an
option can come to nothing. -/
theorem WellTyped.run_exact (wellTyped : WellTyped pattern) :
    Halts pattern ∧
      ∀ input, (pattern.run input).Exact input (∃ part, pattern = .optional part)
        (Tiled pattern) := by
  obtain ⟨_, realizes⟩ := Solid.realized wellTyped
  obtain ⟨matcher, realizes⟩ := realizes_of_inner realizes
  rw [run_of_built realizes.built]
  exact ⟨realizes.halts, realizes.exact⟩

/-- Bytes are what leaves read, and so bytes can be taken for granted where a leaf is mapped. -/
theorem returns_latin1 (leaf : part.isLeaf = true) : Returns Value.latin1 part := by
  intro input x after read
  obtain ⟨matcher, realizes⟩ := realizes_leaf leaf
  have exact := realizes.exact input
  rw [← run_of_built realizes.built, read] at exact
  cases exact with
  | present advances starts stops tiled =>
    cases tiled with
    | leaf leaf length => exact ⟨_, rfl⟩
    | _ => cases leaf

/-- Digits as text, a point that may be missing, and one or two digits more. -/
def shortDecimal : Pattern :=
  .sequence [.map (.takeWhile1 Ascii.isDigit "digit") Value.latin1,
    .optional (.literal [Ascii.byte '.'] none),
    .repeated (.byteOf Ascii.isDigit "digit") 1 (some 2)]

private theorem wellTyped_shortDecimal : WellTyped shortDecimal := by
  refine Solid.sequence fun part member => ?_
  simp only [List.mem_cons, List.not_mem_nil, or_false] at member
  rcases member with rfl | rfl | rfl
  · exact .map (.leaf rfl) (returns_latin1 rfl)
  · exact .leaf rfl
  · refine .repeated (.leaf rfl) (by decide) ?_
    rintro bound ⟨⟩
    decide

/-- Four of the five bytes are read, and three parts share them. -/
theorem run_exact_shortDecimal :
    WellTyped shortDecimal ∧ Halts shortDecimal ∧
      ∃ x after, shortDecimal.run ⟨7, Ascii.bytes ['4', '.', '2', '5', '0']⟩ =
          ⟨.ok (some x), after⟩ ∧ x.span.start = 7 ∧ x.span.stop = 11 ∧ after.offset = 11 ∧
            Tiled shortDecimal x := by
  obtain ⟨halts, exact⟩ := WellTyped.run_exact wellTyped_shortDecimal
  obtain ⟨x, read⟩ : ∃ x, shortDecimal.run ⟨7, Ascii.bytes ['4', '.', '2', '5', '0']⟩ =
      ⟨.ok (some x), ⟨11, [Ascii.byte '0']⟩⟩ := ⟨_, by rfl⟩
  have outcome := exact ⟨7, Ascii.bytes ['4', '.', '2', '5', '0']⟩
  rw [read] at outcome
  cases outcome with
  | present advances starts stops tiled =>
    exact ⟨wellTyped_shortDecimal, halts, x, _, read, starts, stops, rfl, tiled⟩

end WireSpan.Pattern
