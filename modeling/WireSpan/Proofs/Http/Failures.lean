import WireSpan.Proofs.Http.Message
import WireSpan.Proofs.Scan.Bounds

/-! Where the scanners of messages fail. Each of them points into the bytes that it was given, and
to their end if there were too few. That a body has no announced end is not among the reasons. -/

namespace WireSpan.Http

open Scan Chunked

/-- The kinds of failures that the bytes of a head or of an announced body can cause. -/
def byteKinds : List Kind :=
  [.endOfInput, .unexpected, .tooFewRepetitions, .limitExceeded, .malformedFieldName,
    .invalidChunkSize]

instance : Pointing (Failure.Inside byteKinds) := Failure.pointing_inside (by decide)

variable {settings : Settings}

private theorem lineEnd_failsInside (settings : Settings) :
    (lineEnd settings).FailsInside byteKinds := by
  have literal (text : Bytes) : (literal lineEndName text).FailsInside byteKinds :=
    .literal _ text
  exact .ite ((literal _).orElse (literal _)) (literal _)

private theorem forward_lineEnd (settings : Settings) : (lineEnd settings).Forward := by
  intro input after x read
  obtain ⟨text, passes, -⟩ := lineEnd_sound read
  exact ⟨text, passes⟩

private theorem lineEndAfter_failsInside (what : String) :
    (lineEndAfter settings what).FailsInside byteKinds := by
  refine .peek fun next => ?_
  cases next with
  | none => exact .runOut what
  | some b => exact (lineEnd_failsInside settings).map _

section Fields

private theorem fieldName_failsInside : fieldName.FailsInside byteKinds := by
  refine (FailsAt.takeWhile _).bind (forward_takeWhile _) fun name => .peek fun next => ?_
  cases next with
  | none => exact .runOut _
  | some b =>
    have malformed : .malformedFieldName ∈ byteKinds := by decide
    exact .ite (FailsInside.fail malformed nofun) ((FailsAt.skip 1).map _)

private theorem forward_fieldName : fieldName.Forward := by
  intro input after x read
  obtain ⟨name, passes, -⟩ := fieldName_sound read
  exact ⟨_, passes⟩

private theorem fieldValue_failsInside : fieldValue.FailsInside byteKinds :=
  (FailsAt.takeWhile _).bind (forward_takeWhile _) fun _ => (FailsAt.takeWhile _).map _

private theorem forward_fieldValue : fieldValue.Forward := by
  intro input after x read
  obtain ⟨before, value, blank, passes, -⟩ := fieldValue_sound read
  exact ⟨_, passes⟩

private theorem field_failsInside : (field settings).FailsInside byteKinds := by
  refine .located (fieldName_failsInside.bind forward_fieldName fun name => ?_)
  refine fieldValue_failsInside.bind forward_fieldValue fun value => ?_
  exact (lineEndAfter_failsInside _).map fun _ => Field.mk name value

private theorem fieldsWithin_failsInside (left : Nat) :
    (fieldsWithin settings left).FailsInside byteKinds := by
  have ending := forward_optional (forward_lineEnd settings)
  induction left with
  | zero =>
    refine (FailsAt.optional _).bind ending fun ended => ?_
    cases ended with
    | none =>
      have limited : .limitExceeded ∈ byteKinds := by decide
      exact FailsInside.fail limited nofun
    | some _ => exact .pure []
  | succ left ih =>
    refine (FailsAt.optional _).bind ending fun ended => ?_
    cases ended with
    | none => exact field_failsInside.bind field_sound.forward fun field => ih.map (field :: ·)
    | some _ => exact .pure []

end Fields

section StartLine

private theorem version_failsInside : version.FailsInside byteKinds := by
  have literal (expected : String) (text : Bytes) : (literal expected text).FailsInside byteKinds :=
    .literal expected text
  have digit (expected : String) : (byteOf expected Ascii.isDigit).FailsInside byteKinds :=
    .byteOf expected _
  refine .located ((literal _ _).bind (forward_literal _ _) fun name => ?_)
  refine (digit _).bind (forward_byteOf _ _) fun major => ?_
  exact (literal _ _).bind (forward_literal _ _) fun dot => (digit _).map _

private theorem forward_version : version.Forward := by
  intro input after x read
  obtain ⟨text, passes, -⟩ := version_sound read
  exact ⟨text, passes⟩

private theorem singleSpace_failsInside : singleSpace.FailsInside byteKinds := .literal _ _

theorem requestLine_failsInside : (requestLine settings).FailsInside byteKinds := by
  have run (expected : String) (accepts : UInt8 → Bool) :
      (takeWhile1 expected accepts).FailsInside byteKinds :=
    .takeWhile1 expected accepts
  have space := forward_literal "SP" [Ascii.space]
  refine (run _ _).bind (forward_takeWhile1 _ _) fun method => ?_
  refine singleSpace_failsInside.bind space fun _ => ?_
  refine (run _ _).bind (forward_takeWhile1 _ _) fun target => ?_
  refine singleSpace_failsInside.bind space fun _ => ?_
  exact version_failsInside.bind forward_version fun version => (lineEnd_failsInside settings).map _

private theorem statusCode_failsInside : statusCode.FailsInside byteKinds :=
  .located ((FailsInside.times (by decide) (forward_byteOf _ _)
    (.byteOf _ _) 3).map _)

private theorem forward_statusCode : statusCode.Forward := by
  intro input after x read
  obtain ⟨text, passes, -⟩ := statusCode_sound read
  exact ⟨text, passes⟩

private theorem reason_failsInside : reason.FailsInside byteKinds := by
  intro input failure failed
  rw [reason, here_bind] at failed
  exact (FailsAt.optional reasonPart).map _ failed

theorem statusLine_failsInside : (statusLine settings).FailsInside byteKinds := by
  refine version_failsInside.bind forward_version fun version => ?_
  refine singleSpace_failsInside.bind (forward_literal _ _) fun _ => ?_
  refine statusCode_failsInside.bind forward_statusCode fun status => ?_
  refine reason_failsInside.bind reason_sound.forward fun reason => ?_
  exact (lineEndAfter_failsInside _).map _

/-- A head fails inside its bytes if its start line does. -/
theorem head_failsInside {α : Type} {startLine : Scan α} {spells : Nat → Bytes → α → Prop}
    (sound : Sound startLine spells) (fails : startLine.FailsInside byteKinds) :
    (head settings startLine).FailsInside byteKinds :=
  .located (fails.bind sound.forward fun line => (fieldsWithin_failsInside _).map (Prod.mk line))

end StartLine

section Chunks

private theorem extensions_failsInside : extensions.FailsInside byteKinds :=
  .peek fun _ => .ite ((FailsAt.takeWhile _).map _) (.pure none)

/-- A size that is missing or too long is reported where the line begins. -/
theorem sizeLine_failsInside : sizeLine.FailsInside byteKinds := by
  refine .located ?_
  intro input failure failed
  -- The failure points to before the digits, so this is not a sequence of parts that each fail
  -- inside their own input.
  rcases bind_eq_error.mp failed with impossible | ⟨digits, mid, found, failed⟩
  · cases impossible
  · have forward := forward_takeWhile _ found
    obtain ⟨-, -, -, place⟩ := takeWhile_sound found
    split at failed
    · rw [peek?_bind] at failed
      cases next : mid.rest.head? with
      | none =>
        rw [next] at failed
        exact Pointing.behind forward (FailsAt.runOut _ failed)
      | some b =>
        rw [next] at failed
        cases failed
        have invalid : .invalidChunkSize ∈ byteKinds := by decide
        rw [place]
        apply Failure.inside_here invalid
        nofun
    · have later : (takeWhile Ascii.isSpaceOrTab >>= fun _ => extensions >>= fun text =>
          pure (SizeLine.mk (Ascii.hexNumber digits.value) text)).FailsInside byteKinds :=
        (FailsAt.takeWhile _).bind (forward_takeWhile _) fun _ => extensions_failsInside.map _
      exact (later failed).behind forward

private theorem forward_sizeLine : sizeLine.Forward := by
  intro input after x read
  obtain ⟨text, passes, -⟩ := sizeLine_sound read
  exact ⟨text, passes⟩

private theorem lineEndHere_failsInside :
    (lineEndHere (lineEnd settings)).FailsInside byteKinds := by
  intro input failure failed
  unfold lineEndHere at failed
  split at failed
  · exact FailsAt.runOut _ failed
  · split at failed
    · cases failed
    · rename_i inner found
      split at failed
      · cases failed
        exact lineEnd_failsInside settings found
      · exact FailsAt.unexpected _ _ failed

private theorem sizeLineEnd_failsInside :
    (sizeLineEnd (lineEnd settings)).FailsInside byteKinds := by
  refine .peek fun next => ?_
  cases next with
  | none => exact .runOut _
  | some b =>
    have invalid : .invalidChunkSize ∈ byteKinds := by decide
    exact .ite lineEndHere_failsInside (FailsInside.fail invalid nofun)

private theorem forward_sizeLineEnd : (sizeLineEnd (lineEnd settings)).Forward := by
  intro input after x read
  obtain ⟨text, passes, -⟩ := sizeLineEnd_sound read
  exact ⟨text, passes⟩

private theorem chunk_failsInside : (chunk (lineEnd settings)).FailsInside byteKinds := by
  refine .located (sizeLine_failsInside.bind forward_sizeLine fun line => ?_)
  refine sizeLineEnd_failsInside.bind forward_sizeLineEnd fun _ => .ite (.map .here _) ?_
  refine (FailsAt.take _).bind (forward_take _) fun data => ?_
  exact lineEndHere_failsInside.map _

private theorem chunks_failsInside : (chunks (lineEnd settings)).FailsInside byteKinds := by
  have forward : (chunkTurn (lineEnd settings)).Forward := by
    intro input after result read
    obtain ⟨text, x, passes, -⟩ := chunkTurn_sound read
    exact ⟨text, passes⟩
  exact (FailsInside.collect (by decide) forward (chunk_failsInside.map _)).map _

/-- A chunked body fails inside its bytes. -/
theorem ofMessage_failsInside : (ofMessage settings).FailsInside byteKinds :=
  .located (chunks_failsInside.bind chunks_sound.forward fun _ =>
    (fieldsWithin_failsInside _).map _)

end Chunks

/-- A body whose framing is delimited fails inside its bytes. -/
theorem body_failsInside {framing : Framing} (delimited : framing.Delimited) :
    (framing.body settings).FailsInside byteKinds := by
  cases framing with
  | absent => exact .map .here _
  | sized length => exact (FailsAt.take length).map _
  | chunked => exact ofMessage_failsInside.map _
  | toEnd => exact absurd rfl delimited.1
  | unstated => exact absurd rfl delimited.2

end WireSpan.Http
