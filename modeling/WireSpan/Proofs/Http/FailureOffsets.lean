import WireSpan.Proofs.Http.Failures
import WireSpan.Proofs.Http.Faults

/-! Where the parsing of a whole message fails. What its scanners do not refuse its framing can, and
then it is a field of the head that is pointed to. So no failure points to before the message or
past the buffer, and one for want of bytes points to the end of the buffer. -/

namespace WireSpan

/-- The failure points into the buffer and not to before `offset`; to the end of the buffer, if
there were too few bytes. -/
structure Failure.PointsInto (buffer : Bytes) (offset : Int) (failure : Failure) : Prop where
  notBefore : offset ≤ failure.offset
  notBehind : failure.offset ≤ buffer.length
  atEnd : failure.kind = .endOfInput → failure.offset = buffer.length

namespace Http

open Scan

/-- The kinds of failures that a framing can cause. -/
def framingKinds : List Kind := [.ambiguousFraming, .unexpected]

/-- The kinds of failures that a message can cause. -/
def messageKinds : List Kind := .ambiguousFraming :: .unframedBody :: byteKinds

instance : Pointing (Failure.Inside messageKinds) := Failure.pointing_inside (by decide)

variable {settings : Settings} {bareLf : Bool} {offset : Nat} {text : Bytes} {fields : Fields}
  {input : Input} {failure : Failure}

/-- The line of a field and the value on it begin between two offsets. -/
structure Field.Between (start stop : Nat) (field : Located Field) : Prop where
  lineNotBefore : start ≤ field.span.start
  lineNotBehind : field.span.start ≤ stop
  valueNotBefore : start ≤ field.value.value.span.start
  valueNotBehind : field.value.value.span.start ≤ stop

theorem Field.Between.widen {start stop first last : Nat} {field : Located Field}
    (between : Field.Between start stop field) (before : first ≤ start) (behind : stop ≤ last) :
    Field.Between first last field where
  lineNotBefore := Nat.le_trans before between.lineNotBefore
  lineNotBehind := Nat.le_trans between.lineNotBehind behind
  valueNotBefore := Nat.le_trans before between.valueNotBefore
  valueNotBehind := Nat.le_trans between.valueNotBehind behind

theorem FieldText.between {field : Located Field} (spelled : FieldText bareLf offset text field) :
    Field.Between offset (offset + text.length) field := by
  cases spelled
  constructor
  all_goals
    simp only [Span.ofLength, List.length_append, List.length_cons]
    omega

theorem SectionText.between (spelled : SectionText bareLf offset text fields) :
    ∀ field ∈ fields, Field.Between offset (offset + text.length) field := by
  induction spelled with
  | done ended => nofun
  | @more offset text rest first fields line others ih =>
    intro field member
    rw [List.length_append]
    rcases List.mem_cons.mp member with rfl | later
    · exact line.between.widen (Nat.le_refl _) (by omega)
    · exact (ih field later).widen (Nat.le_add_right _ _) (by omega)

/-- A framing is refused because of a field, and the failure points to its line or to its value. -/
structure Blames (fields : Fields) (failure : Failure) : Prop where
  listed : failure.kind ∈ framingKinds
  place : ∃ field ∈ fields,
    failure.offset = field.span.start ∨ failure.offset = field.value.value.span.start

namespace Blames

theorem mono {others : Fields} (blames : Blames fields failure) (subset : fields ⊆ others) :
    Blames others failure := by
  obtain ⟨field, member, place⟩ := blames.place
  exact ⟨blames.listed, field, subset member, place⟩

theorem line {cause : Cause} {field : Located Field} (member : field ∈ fields)
    (ambiguous : cause.kind = .ambiguousFraming) :
    Blames fields ⟨cause, field.span.start, .general⟩ where
  listed := List.mem_cons.mpr (.inl ambiguous)
  place := ⟨field, member, .inl rfl⟩

theorem value {field : Located Field} (member : field ∈ fields) (expected : String)
    (found : Bytes) :
    Blames fields ⟨.unexpected expected found, field.value.value.span.start, .general⟩ where
  listed := List.mem_cons_of_mem _ (List.mem_singleton_self _)
  place := ⟨field, member, .inr rfl⟩

/-- What a field of a head is blamed for is a failure inside the head. -/
theorem inside (blames : Blames fields failure)
    (between : ∀ field ∈ fields, Field.Between input.offset input.finish field) :
    failure.Inside messageKinds input := by
  obtain ⟨field, member, pointed⟩ := blames.place
  have within := between field member
  obtain ⟨place, same, notBefore, notBehind⟩ : ∃ place : Nat,
      failure.offset = place ∧ input.offset ≤ place ∧ place ≤ input.finish := by
    rcases pointed with atLine | atValue
    · exact ⟨_, atLine, within.lineNotBefore, within.lineNotBehind⟩
    · exact ⟨_, atValue, within.valueNotBefore, within.valueNotBehind⟩
  have listed : framingKinds ⊆ messageKinds := by decide
  have other : Kind.endOfInput ∉ framingKinds := by decide
  refine ⟨listed blames.listed, ?_, ?_, ?_⟩
  · rw [same]
    exact Int.ofNat_le.mpr notBefore
  · rw [same]
    exact Int.ofNat_le.mpr notBehind
  · intro ran
    exact absurd (ran ▸ blames.listed) other

end Blames

private theorem misframed_eq_failed {α : Type} {cause : Cause} {place : Nat}
    (failed : (misframed cause place : Except Fault α) = .error (.failed failure)) :
    failure = ⟨cause, place, .general⟩ := by
  cases failed
  rfl

section Framing

private theorem listItems_field {field : Located Field} {item : Bytes}
    (member : (field, item) ∈ listItems fields) : field ∈ fields := by
  obtain ⟨source, listed, items⟩ := List.mem_flatMap.mp member
  obtain ⟨piece, -, same⟩ := List.mem_map.mp items
  cases same
  exact listed

private theorem resolveLengths_blames {resolved : Option Nat} {items : List (Located Field × Bytes)}
    (sources : ∀ pair ∈ items, pair.1 ∈ fields)
    (failed : resolveLengths resolved items = .error (.failed failure)) :
    Blames fields failure := by
  induction items generalizing resolved with
  | nil => cases failed
  | cons first items ih =>
    obtain ⟨field, item⟩ := first
    obtain ⟨source, sources⟩ := List.forall_mem_cons.mp sources
    rw [resolveLengths] at failed
    simp only at failed
    split at failed
    · rw [misframed_eq_failed failed]
      exact .value source _ _
    · split at failed
      · cases failed
      · split at failed
        · split at failed
          · exact ih sources failed
          · rw [misframed_eq_failed failed]
            exact .line source rfl
        · exact ih sources failed

private theorem lengthFields_subset : lengthFields fields ⊆ fields := List.filter_sublist.subset

private theorem codingFields_subset : codingFields fields ⊆ fields := List.filter_sublist.subset

private theorem contentLength_blames (failed : contentLength fields = .error (.failed failure)) :
    Blames fields failure := by
  unfold contentLength at failed
  split at failed
  · cases failed
  · rename_i length more coding others hasLength hasCoding
    have lengthMember : length ∈ fields := lengthFields_subset (by simp [hasLength])
    have codingMember : coding ∈ fields := codingFields_subset (by simp [hasCoding])
    rw [misframed_eq_failed failed]
    -- The later one of the two lines is blamed.
    rcases Nat.le_total length.span.start coding.span.start with earlier | later
    · rw [Nat.max_eq_right earlier]
      exact .line codingMember rfl
    · rw [Nat.max_eq_left later]
      exact .line lengthMember rfl
  · have blamed : Blames (lengthFields fields) failure :=
      resolveLengths_blames (fun _ member => listItems_field member) failed
    exact blamed.mono lengthFields_subset

private theorem requestFraming_blames (failed : requestFraming fields = .error (.failed failure)) :
    Blames fields failure := by
  rcases except_bind_eq_error.mp failed with measured | ⟨length, -, later⟩
  · exact contentLength_blames measured
  · cases length with
    | some length => cases later
    | none =>
      simp only at later
      split at later
      · cases later
      · rename_i last isLast
        split at later
        · cases later
        · rw [misframed_eq_failed later]
          have member : last ∈ codingFields fields := List.mem_of_getLast? isLast
          exact .value (codingFields_subset member) _ _

private theorem responseFraming_blames {status : Nat} {hint : Hint}
    (failed : responseFraming fields status hint = .error (.failed failure)) :
    Blames fields failure := by
  rcases except_bind_eq_error.mp failed with measured | ⟨length, -, later⟩
  · exact contentLength_blames measured
  · repeat' split at later
    all_goals cases later

end Framing

/-- A body fails inside its bytes, also where nothing announces its end. -/
theorem framing_body_failsInside (framing : Framing) :
    (framing.body settings).FailsInside messageKinds := by
  have announced {framing : Framing} (delimited : framing.Delimited) :
      (framing.body settings).FailsInside messageKinds :=
    (body_failsInside delimited).mono (by decide)
  cases framing with
  | absent => exact announced ⟨nofun, nofun⟩
  | sized length => exact announced ⟨nofun, nofun⟩
  | chunked => exact announced ⟨nofun, nofun⟩
  | toEnd => exact (FailsAt.takeWhile _).map _
  | unstated =>
    refine .peek fun next => ?_
    cases next with
    | none => exact .map .here _
    | some b => exact FailsInside.fail (by decide) nofun

section Readers

variable {α μ : Type} {startLine : Scan α} {spells : Nat → Bytes → α → Prop}
  {framing : α → Fields → Except Fault Framing} {build : α → Fields → Located Body → Span → μ}

private theorem messageReader_inside (sound : Sound startLine spells)
    (fails : startLine.FailsInside byteKinds)
    (blames : ∀ line fields failure, framing line fields = .error (.failed failure) →
      Blames fields failure)
    (failed : messageReader settings startLine framing build input = .error (.failed failure)) :
    failure.Inside messageKinds input := by
  rcases except_bind_eq_error.mp failed with
    unheaded | ⟨⟨⟨⟨line, fields⟩, span⟩, after⟩, headed, later⟩
  · obtain ⟨_, found, same⟩ := ofScan_eq_error.mp unheaded
    cases same
    exact (head_failsInside sound fails found).mono (by decide)
  · obtain ⟨head, passes, spelled⟩ := head_sound sound (ofScan_eq_ok.mp headed)
    rcases except_bind_eq_error.mp later with refused | ⟨announced, -, later⟩
    · apply (blames line fields failure refused).inside
      cases spelled with
      | @mk first rest _ _ lined sectioned counted =>
        intro field member
        apply (sectioned.between field member).widen (Nat.le_add_right _ _)
        have long := congrArg List.length passes.rest
        simp only [List.length_append] at long
        simp only [Input.finish]
        omega
    · rcases except_bind_eq_error.mp later with unbodied | ⟨_, -, impossible⟩
      · obtain ⟨_, found, same⟩ := ofScan_eq_error.mp unbodied
        cases same
        exact (framing_body_failsInside announced found).behind ⟨head, passes⟩
      · cases impossible

private theorem messageReader_pointsInto {buffer : Bytes} {offset : Int}
    (inside : 0 ≤ offset ∧ offset ≤ buffer.length) (sound : Sound startLine spells)
    (fails : startLine.FailsInside byteKinds)
    (blames : ∀ line fields failure, framing line fields = .error (.failed failure) →
      Blames fields failure)
    (failed : (messageReader settings startLine framing build).run buffer offset =
      .error (.failed failure)) :
    failure.PointsInto buffer offset := by
  obtain ⟨inner, reported, ⟨unplaced, impossible, -⟩ | ⟨input, placed, found⟩⟩ :=
    run_eq_error.mp failed
  · rw [Input.at?, if_pos inside] at impossible
    cases impossible
  · obtain ⟨before, same, place, rfl⟩ := Input.at?_eq_ok.mp placed
    cases inner with
    | failed failure =>
      cases reported
      have finish : input.finish = buffer.length := by
        rw [same, List.length_append, Input.finish, place]
      have pointed := messageReader_inside sound fails blames found
      refine ⟨pointed.notBefore, ?_, ?_⟩
      · rw [← finish]
        exact pointed.notBehind
      · rw [← finish]
        exact pointed.atFinish
    | _ => cases reported

end Readers

/-- Wherever the parsing of a message begins and for whatever reason it fails, the failure points
into the part of the buffer that was to be parsed, and to its end if bytes are missing. -/
theorem parse_failure_pointsInto (settings : Settings) (buffer : Bytes) (offset : Int)
    (inside : 0 ≤ offset ∧ offset ≤ buffer.length) :
    (∀ failure, Request.parse settings buffer offset = .error (.failed failure) →
      failure.PointsInto buffer offset) ∧
    ∀ hint failure, Response.parse settings hint buffer offset = .error (.failed failure) →
      failure.PointsInto buffer offset := by
  constructor
  · intro failure failed
    rw [Request.parse, Request.read_eq] at failed
    exact messageReader_pointsInto inside requestLine_sound requestLine_failsInside
      (fun _ _ _ => requestFraming_blames) failed
  · intro hint failure failed
    rw [Response.parse, Response.read_eq] at failed
    exact messageReader_pointsInto inside statusLine_sound statusLine_failsInside
      (fun _ _ _ => responseFraming_blames) failed

/-- A request that ends behind its method, and a response the second line of which denies what the
first one says. -/
theorem parse_failure_pointsInto_end_and_field :
    (∃ failure, Request.parse .standard (Ascii.bytes [' ', 'G', 'E', 'T']) 1 =
        .error (.failed failure) ∧
      failure.PointsInto (Ascii.bytes [' ', 'G', 'E', 'T']) 1) ∧
    ∃ failure, Response.parse .standard .headOnly (Ascii.bytes ['H', 'T', 'T', 'P', '/', '1', '.',
        '1', ' ', '2', '0', '0', '\n', 'C', 'o', 'n', 't', 'e', 'n', 't', '-', 'L', 'e', 'n', 'g',
        't', 'h', ':', '1', ',', '2', '\n', '\n']) 0 = .error (.failed failure) ∧
      failure.PointsInto (Ascii.bytes ['H', 'T', 'T', 'P', '/', '1', '.', '1', ' ', '2', '0', '0',
        '\n', 'C', 'o', 'n', 't', 'e', 'n', 't', '-', 'L', 'e', 'n', 'g', 't', 'h', ':', '1', ',',
        '2', '\n', '\n']) 0 :=
  ⟨⟨_, rfl, (parse_failure_pointsInto .standard _ 1 (by decide)).1 _ rfl⟩,
    ⟨_, rfl, (parse_failure_pointsInto .standard _ 0 (by decide)).2 .headOnly _ rfl⟩⟩

end Http

end WireSpan
