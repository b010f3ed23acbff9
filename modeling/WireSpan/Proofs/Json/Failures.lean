import WireSpan.Proofs.Json.Acceptance
import WireSpan.Proofs.Scan.Bounds

/-! Where the scanners of documents fail. Each of them points into the bytes that it was given, and
to their end if there were too few. There is one exception: where the bytes end with the first half
of a pair of code units and a backslash that may have begun the second, it is that backslash that is
pointed to. -/

namespace WireSpan.Json

open Scan

/-- The kinds of failures that a document can cause. -/
def documentKinds : List Kind := [.endOfInput, .unexpected, .limitExceeded, .trailingData]

/-- What is missing where bytes end behind the first half of a pair of code units. -/
def secondHalfMissing : Cause := .endOfInput "trailing surrogate"

/-- The bytes end with the first half of a pair of code units and a single backslash. -/
def EndsInPair (bytes : Bytes) : Prop :=
  ∃ half unit, UnitText half unit ∧ isLeading unit = true ∧ half ++ [Ascii.backslash] <:+ bytes

/-- What is said of a failure, given the input in which it is found. -/
structure Failing (input : Input) (failure : Failure) : Prop where
  listed : failure.kind ∈ documentKinds
  notBefore : (input.offset : Int) ≤ failure.offset
  notBehind : failure.offset ≤ input.finish
  ranOut : failure.kind = .endOfInput → failure.offset = input.finish ∨
    failure.cause = secondHalfMissing ∧ failure.offset + 1 = input.finish ∧ EndsInPair input.rest

variable {input mid after : Input} {failure : Failure} {b : UInt8}

theorem EndsInPair.behind {text bytes : Bytes} (ends : EndsInPair bytes) :
    EndsInPair (text ++ bytes) := by
  obtain ⟨half, unit, spelled, leads, suffix⟩ := ends
  exact ⟨half, unit, spelled, leads, suffix.trans (List.suffix_append _ _)⟩

/-- A failure at the first byte, for another reason than a lack of bytes. -/
theorem failing_here {cause : Cause} (listed : cause.kind ∈ documentKinds)
    (other : cause.kind ≠ .endOfInput) : Failing input ⟨cause, input.offset, .general⟩ :=
  ⟨listed, Int.le_refl _, Int.ofNat_le.mpr (Nat.le_add_right _ _), fun ran => absurd ran other⟩

private theorem failing_unexpected {expected : String} {found : Bytes} :
    Failing input ⟨.unexpected expected found, input.offset, .general⟩ :=
  failing_here (show Kind.unexpected ∈ documentKinds by decide) nofun

instance : Pointing Failing where
  behind advances failing := by
    obtain ⟨text, passes⟩ := advances
    have place := passes.offset
    refine ⟨failing.listed, ?_, ?_, ?_⟩
    · have start := failing.notBefore
      omega
    · rw [← passes.finish]
      exact failing.notBehind
    · intro ran
      rw [← passes.finish, passes.rest]
      exact (failing.ranOut ran).imp_right fun short => ⟨short.1, short.2.1, short.2.2.behind⟩
  runOut _ _ := ⟨show Kind.endOfInput ∈ documentKinds by decide,
    Int.ofNat_le.mpr (Nat.le_add_right _ _), Int.le_refl _, fun _ => .inl rfl⟩
  unexpected _ _ _ := failing_unexpected

/-- Where the second half of a pair is cut off, that is at the end, or right before it and at a
backslash. -/
theorem failing_broken {origin : Input} {half : Bytes} {unit : Nat}
    (passes : origin.Passes half input) (spelled : UnitText half unit)
    (leads : isLeading unit = true)
    (short : (input.rest.take unitEscape.length).length < unitEscape.length)
    (begun : (input.rest.take unitEscape.length).isPrefixOf unitEscape = true) :
    Failing origin ⟨secondHalfMissing, input.offset, .general⟩ := by
  have finish := passes.finish
  have place := passes.offset
  have bytes := passes.rest
  obtain ⟨offset, rest⟩ := input
  simp only [Input.finish] at finish
  refine ⟨show Kind.endOfInput ∈ documentKinds by decide, Int.ofNat_le.mpr (by omega),
    Int.ofNat_le.mpr (by simp only [Input.finish]; omega), fun _ => ?_⟩
  -- two bytes would have been enough, so there is none or only the backslash
  cases rest with
  | nil => exact .inl (congrArg Int.ofNat finish)
  | cons b more =>
    cases more with
    | nil =>
      have same : b = Ascii.backslash := by simpa [unitEscape, List.isPrefixOf] using begun
      subst same
      exact .inr ⟨rfl, congrArg Int.ofNat finish, half, unit, spelled, leads, [], bytes.symm⟩
    | cons c others => simp [unitEscape] at short

variable {points : Input → Failure → Prop}

private theorem accept_fails : (accept b).FailsAt points :=
  .peek fun _ => .ite ((FailsAt.skip 1).map _) (.pure false)

private theorem forward_accept : (accept b).Forward := by
  intro input after accepted read
  rcases accept_eq_ok.mp read with ⟨-, passes⟩ | ⟨-, rfl, -⟩
  · exact ⟨_, passes⟩
  · exact .refl _

private theorem blanks_fails : blanks.FailsAt points := (FailsAt.takeWhile _).map _

private theorem forward_blanks : blanks.Forward := by
  intro input after u read
  obtain ⟨text, passes, -⟩ := blanks_sound read
  exact ⟨text, passes⟩

/-- Where failures may point that are found inside a document. Besides what may be said of all
scanners, a limit is reached at the next byte, and the second half of a pair that is cut off may be
missing at its backslash. -/
class Reporting (points : Input → Failure → Prop) extends Pointing points where
  limited : ∀ (input : Input) {cause : Cause}, cause.kind = .limitExceeded →
    points input ⟨cause, input.offset, .general⟩
  broken : ∀ {origin input : Input} {half : Bytes} {unit : Nat}, origin.Passes half input →
    UnitText half unit → isLeading unit = true →
      (input.rest.take unitEscape.length).length < unitEscape.length →
        (input.rest.take unitEscape.length).isPrefixOf unitEscape = true →
          points origin ⟨secondHalfMissing, input.offset, .general⟩

instance : Reporting Failing where
  limited _ _ limited := by
    refine failing_here ?_ ?_
    · rw [limited]
      decide
    · rw [limited]
      nofun
  broken := failing_broken

variable [Reporting points]

section Numerals

private theorem integerPart_fails : integerPart.FailsAt points :=
  (FailsAt.byteOf _ _).bind (forward_byteOf _ _) fun _ =>
    .ite ((FailsAt.takeWhile _).map _) (.pure _)

private theorem fractionPart_fails : fractionPart.FailsAt points :=
  accept_fails.bind forward_accept fun _ => .ite ((FailsAt.takeWhile1 _ _).map _) (.pure none)

private theorem exponentPart_fails : exponentPart.FailsAt points := by
  have digits : exponentPart.digits.FailsAt points := by
    refine accept_fails.bind forward_accept fun negative => ?_
    have run : (takeWhile1 "exponent digit" Ascii.isDigit >>= fun digits =>
        pure (some (negative, digits.value))).FailsAt points := (FailsAt.takeWhile1 _ _).map _
    exact .ite (accept_fails.bind forward_accept fun _ => run) run
  refine accept_fails.bind forward_accept fun _ => .ite digits ?_
  exact accept_fails.bind forward_accept fun _ => .ite digits (.pure none)

private theorem numeral_fails : numeral.FailsAt points := by
  refine accept_fails.bind forward_accept fun negative => ?_
  have forward : integerPart.Forward := fun _ _ _ read => ⟨_, (integerPart_sound read).1⟩
  refine integerPart_fails.bind forward fun integer => ?_
  refine fractionPart_fails.bind ?_ fun fraction => exponentPart_fails.map _
  intro input after fraction read
  obtain ⟨text, passes, -⟩ := fractionPart_sound read
  exact ⟨text, passes⟩

private theorem numberNode_fails : numberNode.FailsAt points := by
  intro input failure failed
  unfold numberNode at failed
  split at failed
  · cases failed
  · cases failed
    exact numeral_fails.located (by assumption)

end Numerals

section Strings

private theorem plainChar_fails : plainChar.FailsAt points := by
  intro input failure failed
  unfold plainChar at failed
  split at failed
  · cases failed
  · exact FailsAt.unexpected _ _ failed

private theorem hexFour_fails : hexFour.FailsAt points := by
  have digit : hexFour.digit.FailsAt points := .byteOf _ _
  have forward : hexFour.digit.Forward := forward_byteOf _ _
  exact digit.bind forward fun _ => digit.bind forward fun _ => digit.bind forward fun _ =>
    digit.map _

/-- A broken pair points to where its first escape begins, which lies before the bytes that are
then read. -/
theorem trailingUnit_fails {origin : Input} {half : Bytes} {unit : Nat}
    (passes : origin.Passes half input) (spelled : UnitText half unit)
    (leads : isLeading unit = true)
    (failed : trailingUnit origin.offset input = .error failure) : points origin failure := by
  unfold trailingUnit at failed
  simp only at failed
  split at failed
  · rename_i follow
    have forward := passes.trans (Input.passes_of_take follow)
    rw [skip_bind] at failed
    rcases bind_eq_error.mp failed with atOnce | ⟨unit, mid, found, later⟩
    · exact Pointing.behind ⟨_, forward⟩ (hexFour_fails atOnce)
    · split at later
      · cases later
      · cases later
        exact Pointing.unexpected _ _ _
  · split at failed
    · rename_i short
      rw [Bool.and_eq_true, decide_eq_true_eq] at short
      cases failed
      exact Reporting.broken passes spelled leads short.1 short.2
    · cases failed
      exact Pointing.unexpected _ _ _

private theorem unitChar_fails {origin : Input} (escaped : origin.Passes unitEscape input)
    (failed : unitChar origin.offset input = .error failure) : points origin failure := by
  rcases bind_eq_error.mp failed with atOnce | ⟨unit, mid, found, later⟩
  · exact Pointing.behind ⟨_, escaped⟩ (hexFour_fails atOnce)
  · obtain ⟨x, y, z, w, passes, hex, rfl⟩ := hexFour_sound found
    split at later
    · cases later
      exact Pointing.unexpected _ _ _
    · split at later
      · rename_i leads
        rcases bind_eq_error.mp later with broken | ⟨trailing, last, second, impossible⟩
        · exact trailingUnit_fails (escaped.trans passes) (.mk hex) leads broken
        · cases impossible
      · cases later

private theorem escape_fails (next : input.rest.head? = some Ascii.backslash)
    (failed : escape input = .error failure) : points input failure := by
  rw [escape, here_bind, skip_bind, peek?_bind] at failed
  have escaped := Input.passes_head next
  cases found : (input.advance 1).rest.head? with
  | none =>
    rw [found] at failed
    have inside : points (input.advance 1) failure := FailsAt.runOut _ failed
    exact Pointing.behind ⟨_, escaped⟩ inside
  | some letter =>
    rw [found] at failed
    have passes := escaped.trans (Input.passes_head found)
    simp only at failed
    cases known : simpleEscape? letter with
    | some c =>
      rw [known] at failed
      cases failed
    | none =>
      rw [known] at failed
      simp only at failed
      split at failed
      · rename_i isUnit
        subst isUnit
        rw [skip_bind] at failed
        exact unitChar_fails passes failed
      · cases failed
        exact Pointing.unexpected _ _ _

private theorem stringTurn_fails : stringTurn.FailsAt points := by
  intro input failure failed
  rw [stringTurn, peek?_bind] at failed
  cases found : input.rest.head? with
  | none =>
    rw [found] at failed
    exact FailsAt.runOut _ failed
  | some b =>
    rw [found] at failed
    simp only at failed
    split at failed
    · cases failed
    · split at failed
      · rename_i backslash
        rcases bind_eq_error.mp failed with atOnce | ⟨c, mid, -, impossible⟩
        · exact escape_fails (by rw [found, backslash]) atOnce
        · cases impossible
      · exact FailsAt.ite (plainChar_fails.map _) (.unexpected _ _) failed

private theorem stringLiteral_fails : stringLiteral.FailsAt points := by
  have forward : stringTurn.Forward := by
    intro input after result read
    rcases stringTurn_sound read with ⟨text, c, -, passes, -⟩ | ⟨-, passes⟩
    · exact ⟨_, passes⟩
    · exact ⟨_, passes⟩
  refine .located ((FailsAt.literal _ _).bind (forward_literal _ _) fun _ => ?_)
  exact (FailsAt.collect (fun _ => Reporting.limited _ rfl) forward stringTurn_fails).map _

end Strings

section Containers

variable {α : Type} {entry : Scan α} {spells : Nat → Bytes → α → Prop} {closing : UInt8}
  {expected : String}

private theorem closes_fails : (closes closing expected).FailsAt points := by
  refine .peek fun next => ?_
  cases next with
  | none => exact .runOut _
  | some b => exact .ite ((FailsAt.skip 1).map _) (.ite ((FailsAt.skip 1).map _) (.unexpected _ _))

private theorem entryTurn_fails (sound : Sound entry spells) (fails : entry.FailsAt points) :
    (entryTurn closing expected entry).FailsAt points :=
  blanks_fails.bind forward_blanks fun _ => fails.bind sound.forward fun _ =>
    blanks_fails.bind forward_blanks fun _ => closes_fails.map _

/-- The entries of a container that is open fail inside it if each of them does. -/
theorem entries_fails (sound : Sound entry spells) (fails : entry.FailsAt points)
    (opened : input.rest.head? = some b)
    (failed : entries closing expected entry input = .error failure) : points input failure := by
  have forward : (entryTurn closing expected entry).Forward := by
    intro input after result read
    obtain ⟨_, _, _, _, _, passes, -⟩ := entryTurn_sound sound read
    exact ⟨_, passes⟩
  have turns : (collect (entryTurn closing expected entry)).FailsAt points :=
    .collect (fun _ => Reporting.limited _ rfl) forward (entryTurn_fails sound fails)
  rw [entries, skip_bind] at failed
  have inside := (blanks_fails.bind forward_blanks fun _ =>
    accept_fails.bind forward_accept fun _ => .ite (.pure []) (turns.map _)) failed
  exact Pointing.behind ⟨_, Input.passes_head opened⟩ inside

/-- A container that is open fails inside it if each of its entries does. -/
theorem container_fails {build : List α → Json} (sound : Sound entry spells)
    (fails : entry.FailsAt points) (opened : input.rest.head? = some b)
    (failed : located (entries closing expected entry >>= fun values => pure (build values)) input =
      .error failure) : points input failure := by
  unfold located at failed
  split at failed
  · cases failed
  · cases failed
    rename_i found
    rcases bind_eq_error.mp found with atOnce | ⟨values, mid, -, impossible⟩
    · exact entries_fails sound fails opened atOnce
    · cases impossible

private theorem memberKey_fails : memberKey.FailsAt points := by
  refine .peek fun next => ?_
  cases next with
  | none => exact .runOut _
  | some b => exact .ite stringLiteral_fails (.unexpected _ _)

private theorem member_fails {value : Scan (Located Json)} (fails : value.FailsAt points) :
    (member value).FailsAt points := by
  have forward : memberKey.Forward := by
    intro input after key read
    obtain ⟨text, passes, -⟩ := memberKey_sound read
    exact ⟨text, passes⟩
  refine memberKey_fails.bind forward fun key => blanks_fails.bind forward_blanks fun _ => ?_
  refine (FailsAt.literal _ _).bind (forward_literal _ _) fun _ => ?_
  exact blanks_fails.bind forward_blanks fun _ => fails.map _

/-- A value fails inside its input as soon as the two containers do. -/
theorem valueWith_fails {arrays objects : Scan (Located Json)}
    (array : input.rest.head? = some (Ascii.byte '[') → arrays input = .error failure →
      points input failure)
    (object : input.rest.head? = some (Ascii.byte '\x7b') → objects input = .error failure →
      points input failure)
    (failed : valueWith arrays objects input = .error failure) : points input failure := by
  have word {name : String} {text : List Char} {value : Json} :
      (word name text value).FailsAt points := (FailsAt.literal _ _).map _
  rw [valueWith, peek?_bind] at failed
  cases found : input.rest.head? with
  | none =>
    rw [found] at failed
    exact FailsAt.runOut _ failed
  | some b =>
    rw [found] at failed
    simp only at failed
    split at failed
    · rename_i opening
      exact object (by rw [found, opening]) failed
    split at failed
    · rename_i opening
      exact array (by rw [found, opening]) failed
    have scalar : (if b = Ascii.doubleQuote then
        stringLiteral >>= fun x => pure (x.map .string)
      else if b = Ascii.byte 't' then Json.word "'true'" ['t', 'r', 'u', 'e'] (.bool true)
      else if b = Ascii.byte 'f' then Json.word "'false'" ['f', 'a', 'l', 's', 'e'] (.bool false)
      else if b = Ascii.byte 'n' then Json.word "'null'" ['n', 'u', 'l', 'l'] .null
      else if b = Ascii.byte '-' || Ascii.isDigit b then numberNode
      else fail (.unexpected "JSON value" [b])).FailsAt points :=
      .ite (stringLiteral_fails.map _) (.ite word (.ite word (.ite word
        (.ite numberNode_fails (.unexpected _ _)))))
    exact scalar failed

private theorem value_fails (limit levels : Nat) : (value limit levels).FailsAt points := by
  induction levels with
  | zero =>
    intro input failure failed
    have deep : (fail (.nestedTooDeep limit) : Scan (Located Json)).FailsAt points :=
      .fail fun _ => Reporting.limited _ rfl
    exact valueWith_fails (fun _ => @deep _ _) (fun _ => @deep _ _) failed
  | succ levels ih =>
    have sound := value_sound limit levels
    intro input failure failed
    exact valueWith_fails (container_fails sound ih)
      (container_fails (member_sound sound) (member_fails ih)) failed

theorem document_fails (settings : Settings) : (document settings).FailsAt points :=
  blanks_fails.bind forward_blanks fun _ => value_fails _ _

end Containers

private theorem nothingElse_fails : nothingElse.FailsAt Failing := by
  refine blanks_fails.bind forward_blanks fun _ => .peek fun next => ?_
  cases next with
  | none => exact .pure ()
  | some b =>
    exact .fail fun _ => failing_here (show Kind.trailingData ∈ documentKinds by decide) nofun

private theorem documentThen_fails (settings : Settings) (anything : Bool) :
    (documentThen settings anything).FailsAt Failing := by
  have forward : (document settings).Forward :=
    forward_blanks.bind fun _ => (value_sound _ _).forward
  exact (document_fails settings).bind forward fun root =>
    .ite (.pure root) (nothingElse_fails.map _)

/-- Whatever the settings, a document fails inside its buffer. -/
theorem parse_fails {settings : Settings} {trailing : Option Bool} {buffer : Bytes}
    (failed : parse settings trailing buffer = .error failure) :
    failure.layer = .json ∧ Failing (Input.ofBytes buffer) failure := by
  unfold parse at failed
  split at failed
  · cases failed
  · cases failed
    rename_i inner found
    have failing := documentThen_fails _ _ found
    exact ⟨rfl, failing.listed, failing.notBefore, failing.notBehind, failing.ranOut⟩

end WireSpan.Json
