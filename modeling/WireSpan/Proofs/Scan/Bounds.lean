import WireSpan.Proofs.Scan.Passage

/-! Scanners stay inside their input. Where one succeeds it leaves a later part of the input, and
where one fails it points into the input. What is claimed of the place that a failure points to is
checked where failures are made, and is carried from there to the input that the scanner was given.
-/

namespace WireSpan

variable {α β : Type}

/-- The input that is left begins somewhere in the input that was given. -/
def Input.Advances (input after : Input) : Prop := ∃ text, input.Passes text after

namespace Input

variable {input mid after : Input}

theorem Advances.refl (input : Input) : input.Advances input := ⟨[], .refl input⟩

theorem Advances.trans (first : input.Advances mid) (second : mid.Advances after) :
    input.Advances after := by
  obtain ⟨text, passes⟩ := first
  obtain ⟨more, passed⟩ := second
  exact ⟨_, passes.trans passed⟩

theorem advances_advance {count : Nat} (enough : count ≤ input.rest.length) :
    input.Advances (input.advance count) := ⟨_, passes_advance enough⟩

end Input

namespace Scan

/-- Where the scanner succeeds it goes on in the input that it was given. -/
def Forward (scan : Scan α) : Prop :=
  ∀ ⦃input after : Input⦄ ⦃value : α⦄, scan input = .ok (value, after) → input.Advances after

theorem Sound.forward {scan : Scan α} {spells : Nat → Bytes → α → Prop}
    (sound : Sound scan spells) : scan.Forward := by
  intro input after value read
  obtain ⟨text, passes, -⟩ := sound read
  exact ⟨text, passes⟩

theorem forward_pure (value : α) : (Pure.pure value : Scan α).Forward := by
  intro input after result read
  obtain ⟨-, rfl⟩ := pure_eq_ok.mp read
  exact .refl input

theorem Forward.bind {first : Scan α} {next : α → Scan β} (begun : first.Forward)
    (continued : ∀ value, (next value).Forward) : (first >>= next).Forward := by
  intro input after value read
  obtain ⟨a, mid, found, later⟩ := bind_eq_ok.mp read
  exact (begun found).trans (continued a later)

theorem Forward.map {scan : Scan α} (forward : scan.Forward) (f : α → β) :
    (f <$> scan).Forward := forward.bind fun value => forward_pure (f value)

theorem forward_optional {scan : Scan α} (forward : scan.Forward) : (optional scan).Forward := by
  intro input after value read
  rcases optional_eq_ok.mp read with ⟨x, -, found⟩ | ⟨-, rfl, -⟩
  · exact forward found
  · exact .refl _

theorem forward_literal (expected : String) (text : Bytes) : (literal expected text).Forward :=
  fun _ _ _ read => ⟨_, (literal_sound read).1⟩

theorem forward_byteOf (expected : String) (accepts : UInt8 → Bool) :
    (byteOf expected accepts).Forward := fun _ _ _ read => ⟨_, (byteOf_sound read).1⟩

theorem forward_takeWhile (accepts : UInt8 → Bool) : (takeWhile accepts).Forward :=
  fun _ _ _ read => ⟨_, (takeWhile_sound read).1⟩

theorem forward_takeWhile1 (expected : String) (accepts : UInt8 → Bool) :
    (takeWhile1 expected accepts).Forward :=
  fun _ _ _ read => forward_takeWhile accepts (takeWhile1_sound read).2

theorem forward_take (count : Nat) : (take count).Forward :=
  fun _ _ _ read => ⟨_, (take_sound read).1⟩

theorem forward_takeCount (count : Int) : (takeCount count).Forward := by
  intro input after x read
  unfold takeCount at read
  split at read
  · cases read
  · exact forward_take _ read

theorem forward_peek? : peek?.Forward := by
  intro input after b read
  cases read
  exact .refl input

theorem forward_peek (count : Int) : (peek count).Forward := by
  intro input after bytes read
  unfold peek at read
  split at read
  · cases read
    exact .refl input
  · simp only at read
    split at read
    · cases read
    · cases read
      exact .refl input

theorem indexOf?_le {text bytes : Bytes} {count : Nat} (found : indexOf? text bytes = some count) :
    count ≤ bytes.length := by
  induction bytes generalizing count with
  | nil =>
    rw [indexOf?] at found
    split at found
    · cases found
      exact Nat.le_refl _
    · cases found
  | cons b rest ih =>
    rw [indexOf?] at found
    split at found
    · cases found
      exact Nat.zero_le _
    · obtain ⟨before, later, rfl⟩ := Option.map_eq_some_iff.mp found
      exact Nat.succ_le_succ (ih later)

/-- No window reaches past the end of the buffer, whatever the limit. -/
theorem length_searchWindow?_le {limit : Option Int} {input : Input} {window : Bytes}
    (found : searchWindow? limit input = some window) : window.length ≤ input.rest.length := by
  unfold searchWindow? at found
  split at found
  · cases found
    exact Nat.le_refl _
  · simp only at found
    split at found
    · cases found
    · cases found
      rw [Input.upTo, List.length_take]
      exact Nat.min_le_right _ _

theorem forward_takeUntil (delimiter : Bytes) (limit : Option Int) :
    (takeUntil delimiter limit).Forward := by
  intro input after x read
  unfold takeUntil at read
  split at read
  · rename_i count found
    cases read
    obtain ⟨window, inside, place⟩ := Option.bind_eq_some_iff.mp found
    have enough := Nat.le_trans (indexOf?_le place) (length_searchWindow?_le inside)
    exact Input.advances_advance enough
  · cases read

end Scan

/-- Where failures may point, given the input in which they are found. At the least they may point
to the end of it for want of bytes, to the next byte if that was not expected, and wherever they
may point in a later part of it. -/
class Pointing (points : Input → Failure → Prop) : Prop where
  behind : ∀ {input mid : Input} {failure : Failure}, input.Advances mid → points mid failure →
    points input failure
  runOut : ∀ (input : Input) (expected : String),
    points input ⟨.endOfInput expected, input.finish, .general⟩
  unexpected : ∀ (input : Input) (expected : String) (found : Bytes),
    points input ⟨.unexpected expected found, input.offset, .general⟩

namespace Scan

/-- Wherever the scanner fails, it points where it may. -/
def FailsAt (scan : Scan α) (points : Input → Failure → Prop) : Prop :=
  ∀ ⦃input : Input⦄ ⦃failure : Failure⦄, scan input = .error failure → points input failure

namespace FailsAt

variable {points : Input → Failure → Prop} {scan : Scan α}

theorem pure (value : α) : (Pure.pure value : Scan α).FailsAt points := by
  intro input failure failed
  cases failed

theorem here : here.FailsAt points := by
  intro input failure failed
  cases failed

theorem skip (count : Nat) : (skip count).FailsAt points := by
  intro input failure failed
  cases failed

theorem takeWhile (accepts : UInt8 → Bool) : (takeWhile accepts).FailsAt points := by
  intro input failure failed
  cases failed

theorem fail {cause : Cause} (allowed : ∀ input : Input, points input
    ⟨cause, input.offset, .general⟩) : (fail cause : Scan α).FailsAt points := by
  intro input failure failed
  cases failed
  exact allowed input

/-- Looking at the next byte neither fails nor moves. -/
theorem peek {next : Option UInt8 → Scan β} (continued : ∀ b, (next b).FailsAt points) :
    (peek? >>= next).FailsAt points := by
  intro input failure failed
  rw [peek?_bind] at failed
  exact continued _ failed

/-- Nothing can fail once all bytes are read. -/
theorem map (fails : scan.FailsAt points) (f : α → β) :
    (scan >>= fun value => Pure.pure (f value)).FailsAt points := by
  intro input failure failed
  rcases bind_eq_error.mp failed with atOnce | ⟨value, mid, found, later⟩
  · exact fails atOnce
  · cases later

theorem ite {condition : Prop} [Decidable condition] {other : Scan α}
    (whenTrue : scan.FailsAt points) (whenFalse : other.FailsAt points) :
    (if condition then scan else other).FailsAt points := by
  split
  · exact whenTrue
  · exact whenFalse

theorem located (fails : scan.FailsAt points) : (located scan).FailsAt points := by
  intro input failure failed
  unfold Scan.located at failed
  split at failed
  · cases failed
  · cases failed
    exact fails (by assumption)

theorem optional (scan : Scan α) : (optional scan).FailsAt points := by
  intro input failure failed
  unfold Scan.optional at failed
  split at failed
  · cases failed
  · cases failed

theorem orElse {first second : Scan α} (begun : first.FailsAt points)
    (other : second.FailsAt points) : (orElse first second).FailsAt points := by
  intro input failure failed
  unfold Scan.orElse at failed
  split at failed
  · cases failed
  · split at failed
    · cases failed
    · cases failed
      unfold further
      split
      · exact other (by assumption)
      · exact begun (by assumption)

variable [Pointing points]

theorem runOut (expected : String) : (runOut expected : Scan α).FailsAt points := by
  intro input failure failed
  cases failed
  exact Pointing.runOut input expected

theorem unexpected (expected : String) (found : Bytes) :
    (Scan.fail (.unexpected expected found) : Scan α).FailsAt points :=
  fail fun input => Pointing.unexpected input expected found

theorem literal (expected : String) (text : Bytes) : (literal expected text).FailsAt points := by
  intro input failure failed
  unfold Scan.literal at failed
  simp only at failed
  split at failed
  · cases failed
  · split at failed
    · exact runOut expected failed
    · exact unexpected _ _ failed

theorem byteOf (expected : String) (accepts : UInt8 → Bool) :
    (byteOf expected accepts).FailsAt points := by
  intro input failure failed
  unfold Scan.byteOf at failed
  split at failed
  · exact runOut expected failed
  · split at failed
    · cases failed
    · exact unexpected _ _ failed

theorem takeWhile1 (expected : String) (accepts : UInt8 → Bool) :
    (takeWhile1 expected accepts).FailsAt points := by
  intro input failure failed
  unfold Scan.takeWhile1 at failed
  split at failed
  · exact runOut expected failed
  · split at failed
    · cases failed
    · exact unexpected _ _ failed

theorem take (count : Nat) : (take count).FailsAt points := by
  intro input failure failed
  unfold Scan.take at failed
  simp only at failed
  split at failed
  · exact runOut _ failed
  · cases failed

theorem bind {first : Scan α} {next : α → Scan β} (begun : first.FailsAt points)
    (forward : first.Forward) (continued : ∀ value, (next value).FailsAt points) :
    (first >>= next).FailsAt points := by
  intro input failure failed
  rcases bind_eq_error.mp failed with atOnce | ⟨value, mid, found, later⟩
  · exact begun atOnce
  · exact Pointing.behind (forward found) (continued value later)

private theorem within {turn : Scan (α ⊕ β)}
    (stalled : ∀ input : Input, points input ⟨.stalled, input.offset, .general⟩)
    (forward : turn.Forward) (fails : turn.FailsAt points) (fuel : Nat) :
    (collectWithin turn fuel).FailsAt points := by
  induction fuel with
  | zero => exact fail stalled
  | succ fuel ih =>
    refine fails.bind forward fun ended => ?_
    cases ended with
    | inl value => exact ih.map fun read => (value :: read.1, read.2)
    | inr last => exact pure ([], last)

theorem collect {turn : Scan (α ⊕ β)}
    (stalled : ∀ input : Input, points input ⟨.stalled, input.offset, .general⟩)
    (forward : turn.Forward) (fails : turn.FailsAt points) : (collect turn).FailsAt points :=
  fun input _ failed => within stalled forward fails (input.rest.length + 1) failed

end FailsAt

end Scan

/-- The failure is of one of the given kinds, and it points into the input in which it was found; at
the end of it, if there were too few bytes. -/
structure Failure.Inside (kinds : List Kind) (input : Input) (failure : Failure) : Prop where
  listed : failure.kind ∈ kinds
  notBefore : (input.offset : Int) ≤ failure.offset
  notBehind : failure.offset ≤ input.finish
  atFinish : failure.kind = .endOfInput → failure.offset = input.finish

namespace Failure

variable {failure : Failure} {kinds : List Kind} {input mid : Input} {cause : Cause}

/-- What points into a later part of an input points into the input. -/
theorem Inside.behind (inside : failure.Inside kinds mid) (advances : input.Advances mid) :
    failure.Inside kinds input := by
  obtain ⟨text, passes⟩ := advances
  have place := passes.offset
  refine ⟨inside.listed, ?_, ?_, ?_⟩
  · have start := inside.notBefore
    omega
  · rw [← passes.finish]
    exact inside.notBehind
  · rw [← passes.finish]
    exact inside.atFinish

theorem Inside.mono {others : List Kind} (inside : failure.Inside kinds input)
    (subset : kinds ⊆ others) : failure.Inside others input :=
  { inside with listed := subset inside.listed }

/-- A failure at the next byte, for another reason than a lack of bytes. -/
theorem inside_here (listed : cause.kind ∈ kinds) (other : cause.kind ≠ .endOfInput)
    (layer : Layer) : Inside kinds input ⟨cause, input.offset, layer⟩ :=
  ⟨listed, Int.le_refl _, Int.ofNat_le.mpr (Nat.le_add_right _ _), fun ran => absurd ran other⟩

theorem pointing_inside (common : [.endOfInput, .unexpected] ⊆ kinds) :
    Pointing (Failure.Inside kinds) where
  behind advances inside := inside.behind advances
  runOut _ _ := ⟨common (List.mem_cons_self ..), Int.ofNat_le.mpr (Nat.le_add_right _ _),
    Int.le_refl _, fun _ => rfl⟩
  unexpected _ _ _ :=
    inside_here (common (List.mem_cons_of_mem _ (List.mem_singleton_self _))) (by nofun) _

end Failure

namespace Scan

/-- Wherever the scanner fails, it fails inside its input and with one of the given kinds. -/
abbrev FailsInside (scan : Scan α) (kinds : List Kind) : Prop := scan.FailsAt (Failure.Inside kinds)

namespace FailsInside

variable {kinds : List Kind} {scan : Scan α}

theorem fail {cause : Cause} (listed : cause.kind ∈ kinds) (other : cause.kind ≠ .endOfInput) :
    (fail cause : Scan α).FailsInside kinds :=
  FailsAt.fail fun _ => Failure.inside_here listed other _

theorem mono {others : List Kind} (fails : scan.FailsInside kinds) (subset : kinds ⊆ others) :
    scan.FailsInside others := by
  intro input failure failed
  exact (fails failed).mono subset

/-- A repetition that ended early points to where its part failed. -/
theorem times (early : .tooFewRepetitions ∈ kinds) (forward : scan.Forward)
    (fails : scan.FailsInside kinds) (count : Nat) : (times count scan).FailsInside kinds := by
  have turns (left : Nat) : (times.go count scan left).FailsInside kinds := by
    induction left with
    | zero => exact FailsAt.pure []
    | succ left ih =>
      intro input failure failed
      simp only [times.go] at failed
      split at failed
      · rename_i value mid found
        exact (ih.map (value :: ·) failed).behind (forward found)
      · rename_i inner found
        cases failed
        have inside := fails found
        exact ⟨early, inside.notBefore, inside.notBehind, nofun⟩
  exact turns count

theorem collect [Pointing (Failure.Inside kinds)] {turn : Scan (α ⊕ β)}
    (limited : .limitExceeded ∈ kinds) (forward : turn.Forward)
    (fails : turn.FailsInside kinds) : (collect turn).FailsInside kinds :=
  FailsAt.collect (fun _ => Failure.inside_here limited (by nofun) _) forward fails

end FailsInside

end Scan

end WireSpan
