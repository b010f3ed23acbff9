import WireSpan.Proofs.Http.Faults

/-! The limit on the fields of a section. A message that is read under one limit is read as the same
message under every other one that its fields keep to, and refused at the first field beyond any
that they do not. Head and trailer section are counted apart, and the head comes first. -/

namespace WireSpan

/-- The settings with another limit on the fields of a section. -/
def Settings.withFieldLimit (settings : Settings) (limit : Nat) : Settings :=
  { settings with fieldLimit := limit }

namespace Http

open Scan Chunked

/-- The fields after the chunks of a body, of which no other form of body has any. -/
def Body.trailers : Body → Fields
  | chunked body => body.trailers
  | _ => []

/-- What a scanner does under a limit, where under another one it read `value` with these fields in
it. The first field beyond the limit is one too many. -/
structure Limited {α : Type} (limit : Nat) (fields : Fields) (scan : Scan α) (input : Input)
    (value : α) (after : Input) : Prop where
  within : fields.length ≤ limit → scan input = .ok (value, after)
  beyond : ∀ exceeds : limit < fields.length,
    Refuses scan input ⟨.tooManyFields limit, fields[limit].span.start, .general⟩

/-- What a parse under a limit comes to, where under another one it gave `message` with these fields
in its head and these behind its chunks. -/
structure LimitRules {μ : Type} (limit : Nat) (fields trailers : Fields) (message : μ)
    (result : Except Fault μ) : Prop where
  within : fields.length ≤ limit → trailers.length ≤ limit → result = .ok message
  inHead : ∀ exceeds : limit < fields.length,
    result = .error (.failed ⟨.tooManyFields limit, fields[limit].span.start, .http⟩)
  inTrailers : fields.length ≤ limit → ∀ exceeds : limit < trailers.length,
    result = .error (.failed ⟨.tooManyFields limit, trailers[limit].span.start, .http⟩)

namespace Limited

variable {α β : Type} {limit : Nat} {fields : Fields} {scan : Scan α} {input mid after : Input}
  {value : α}

/-- A scanner that finds no field does what it did. -/
theorem ofNone (read : scan input = .ok (value, after)) :
    Limited limit [] scan input value after where
  within _ := read
  beyond exceeds := absurd exceeds (Nat.not_lt_zero limit)

theorem behind {first : Scan α} {next : α → Scan β} {a : α} {value : β}
    (read : first input = .ok (a, mid)) (limited : Limited limit fields (next a) mid value after) :
    Limited limit fields (first >>= next) input value after where
  within few := bind_eq_ok.mpr ⟨a, mid, read, limited.within few⟩
  beyond exceeds := Refuses.behind read (limited.beyond exceeds)

theorem map (f : α → β) (limited : Limited limit fields scan input value after) :
    Limited limit fields (scan >>= fun a => pure (f a)) input (f value) after where
  within few := bind_eq_ok.mpr ⟨value, after, limited.within few, rfl⟩
  beyond exceeds := (limited.beyond exceeds).bind

theorem located (limited : Limited limit fields scan input value after) :
    Limited limit fields (located scan) input ⟨value, input.spanTo after⟩ after where
  within few := located_eq_ok.mpr ⟨value, limited.within few, rfl⟩
  beyond exceeds := (limited.beyond exceeds).located

end Limited

section Sections

variable {settings : Settings} {limit left offset : Nat} {text rest : Bytes} {fields : Fields}
  {input after : Input}

theorem FieldText.start {bareLf : Bool} {field : Located Field}
    (spelled : FieldText bareLf offset text field) : field.span.start = offset := by
  cases spelled
  rfl

/-- Where no field is left to be read, the next one is refused at its start. -/
theorem SectionText.overruns (spelled : SectionText settings.bareLf offset text fields)
    (exceeds : left < fields.length) :
    Refuses (fieldsWithin settings left) ⟨offset, text ++ rest⟩
      ⟨.tooManyFields settings.fieldLimit, fields[left].span.start, .general⟩ := by
  induction spelled generalizing left with
  | done ended => exact absurd exceeds (Nat.not_lt_zero left)
  | @more offset text others field fields first sectioned ih =>
    obtain ⟨b, more, bytes, token⟩ := first.head
    have notEnded : Scan.optional (lineEnd settings) ⟨offset, text ++ others ++ rest⟩ =
        .ok (none, ⟨offset, text ++ others ++ rest⟩) := by
      rw [bytes]
      exact optional_lineEnd_none token
    cases left with
    | zero =>
      apply Refuses.behind notEnded
      rw [List.getElem_cons_zero, first.start]
      rfl
    | succ left =>
      have read : Reads (Http.field settings) offset text field (others ++ rest) := first.reads
      unfold Reads at read
      rw [← List.append_assoc] at read
      exact Refuses.behind notEnded (Refuses.behind read (ih (Nat.lt_of_succ_lt_succ exceeds)).bind)

private theorem fieldSection_limited (limit : Nat)
    (read : fieldSection settings input = .ok (fields, after)) :
    Limited limit fields (fieldSection (settings.withFieldLimit limit)) input fields after := by
  obtain ⟨text, passes, sectioned, -⟩ := fieldSection_sound read
  obtain ⟨offset, bytes⟩ := input
  obtain ⟨place, rest⟩ := after
  obtain ⟨same, position⟩ := passes
  simp only at same position sectioned
  subst same position
  let limited := settings.withFieldLimit limit
  have spelled : SectionText limited.bareLf offset text fields := sectioned
  exact ⟨fun few => spelled.reads few, fun exceeds => spelled.overruns exceeds⟩

/-- The start line of a head is read before any field of it. -/
theorem head_limited {α : Type} {startLine : Scan α} {x : Located (α × Fields)} (limit : Nat)
    (read : head settings startLine input = .ok (x, after)) :
    Limited limit x.value.2 (head (settings.withFieldLimit limit) startLine) input x after := by
  obtain ⟨value, scanned, rfl⟩ := located_eq_ok.mp read
  obtain ⟨line, mid, lined, later⟩ := bind_eq_ok.mp scanned
  obtain ⟨fields, stop, sectioned, result⟩ := bind_eq_ok.mp later
  obtain ⟨rfl, rfl⟩ := pure_eq_ok.mp result
  exact (Limited.behind lined ((fieldSection_limited limit sectioned).map (Prod.mk line))).located

/-- The chunks of a body are read before any field behind them. -/
theorem ofMessage_limited {x : Located ChunkedBody} (limit : Nat)
    (read : ofMessage settings input = .ok (x, after)) :
    Limited limit x.value.trailers (ofMessage (settings.withFieldLimit limit)) input x after := by
  obtain ⟨value, scanned, rfl⟩ := located_eq_ok.mp read
  obtain ⟨chunks, mid, chunked, later⟩ := bind_eq_ok.mp scanned
  obtain ⟨trailers, stop, sectioned, result⟩ := bind_eq_ok.mp later
  obtain ⟨rfl, rfl⟩ := pure_eq_ok.mp result
  exact (Limited.behind chunked
    ((fieldSection_limited limit sectioned).map (ChunkedBody.mk chunks))).located

private theorem body_limited {framing : Framing} {body : Located Body} (limit : Nat)
    (read : framing.body settings input = .ok (body, after)) :
    Limited limit body.value.trailers (framing.body (settings.withFieldLimit limit)) input body
      after := by
  cases framing with
  | chunked =>
    obtain ⟨content, mid, found, result⟩ := bind_eq_ok.mp read
    obtain ⟨rfl, rfl⟩ := pure_eq_ok.mp result
    exact (ofMessage_limited limit found).map fun body : Located ChunkedBody =>
      body.map Body.chunked
  | _ =>
    obtain ⟨text, -, spelled⟩ := body_sound _ read
    cases spelled
    exact .ofNone read

end Sections

section Readers

variable {α μ : Type} {startLine : Scan α} {framing : α → Fields → Except Fault Framing}
  {build : α → Fields → Located Body → Span → μ} {settings : Settings} {input : Input}
  {buffer : Bytes} {offset : Int}

theorem Limited.ofScan_within {scan : Scan α} {limit : Nat} {fields : Fields} {value : α}
    {after : Input} (limited : Limited limit fields scan input value after)
    (few : fields.length ≤ limit) : Reader.ofScan scan input = .ok (value, after) :=
  ofScan_eq_ok.mpr (limited.within few)

theorem Limited.ofScan_beyond {scan : Scan α} {limit : Nat} {fields : Fields} {value : α}
    {after : Input} (limited : Limited limit fields scan input value after)
    (exceeds : limit < fields.length) : Reader.ofScan scan input =
      .error (.failed ⟨.tooManyFields limit, fields[limit].span.start, .general⟩) :=
  ofScan_eq_error.mpr ⟨_, limited.beyond exceeds, rfl⟩

private theorem run_of_error {reader : Reader α} {cause : Cause} {place : Int}
    (placed : Input.at? buffer offset = .ok input)
    (failed : reader input = .error (.failed ⟨cause, place, .general⟩)) :
    reader.run buffer offset = .error (.failed ⟨cause, place, .http⟩) :=
  run_eq_error.mpr ⟨_, rfl, .inr ⟨input, placed, failed⟩⟩

/-- The framing of a message depends on its fields, and not on how many of them are allowed. -/
theorem messageReader_limited {message : Located μ} (limit : Nat)
    (parsed : (messageReader settings startLine framing build).run buffer offset = .ok message) :
    ∃ line fields body span, message.value = build line fields body span ∧
      LimitRules limit fields body.value.trailers message
        ((messageReader (settings.withFieldLimit limit) startLine framing build).run buffer
          offset) := by
  obtain ⟨input, after, placed, read⟩ := run_eq_ok.mp parsed
  obtain ⟨⟨⟨⟨line, fields⟩, span⟩, mid⟩, headRead, later⟩ := except_bind_eq_ok.mp read
  obtain ⟨announced, framed, later⟩ := except_bind_eq_ok.mp later
  obtain ⟨⟨body, stop⟩, bodyRead, result⟩ := except_bind_eq_ok.mp later
  have headLimited := head_limited limit (ofScan_eq_ok.mp headRead)
  have bodyLimited := body_limited limit (ofScan_eq_ok.mp bodyRead)
  refine ⟨line, fields, body, span, by cases result; rfl, ?_, ?_, ?_⟩
  · intro few fewBehind
    refine run_eq_ok.mpr ⟨input, after, placed, ?_⟩
    refine except_bind_eq_ok.mpr ⟨_, headLimited.ofScan_within few, ?_⟩
    exact except_bind_eq_ok.mpr ⟨announced, framed,
      except_bind_eq_ok.mpr ⟨_, bodyLimited.ofScan_within fewBehind, result⟩⟩
  · intro exceeds
    apply run_of_error placed
    exact except_bind_eq_error.mpr (.inl (headLimited.ofScan_beyond exceeds))
  · intro few exceeds
    apply run_of_error placed
    refine except_bind_eq_error.mpr (.inr ⟨_, headLimited.ofScan_within few, ?_⟩)
    refine except_bind_eq_error.mpr (.inr ⟨announced, framed, ?_⟩)
    exact except_bind_eq_error.mpr (.inl (bodyLimited.ofScan_beyond exceeds))

/-- A message that is accepted under some limit is accepted with the same tree under every limit
that its head and its trailer section keep to. Under any other it is refused at the first field of
the head beyond the limit, or at that of the trailer section where the head keeps to it. -/
theorem parse_withFieldLimit (settings : Settings) (buffer : Bytes) (offset : Int) (limit : Nat) :
    (∀ message, Request.parse settings buffer offset = .ok message →
      LimitRules limit message.value.fields message.value.body.value.trailers message
        (Request.parse (settings.withFieldLimit limit) buffer offset)) ∧
    ∀ hint message, Response.parse settings hint buffer offset = .ok message →
      LimitRules limit message.value.fields message.value.body.value.trailers message
        (Response.parse (settings.withFieldLimit limit) hint buffer offset) := by
  constructor
  · intro message parsed
    rw [Request.parse, Request.read_eq] at parsed ⊢
    obtain ⟨line, fields, body, span, parts, rules⟩ := messageReader_limited limit parsed
    rw [parts]
    exact rules
  · intro hint message parsed
    rw [Response.parse, Response.read_eq] at parsed ⊢
    obtain ⟨line, fields, body, span, parts, rules⟩ := messageReader_limited limit parsed
    rw [parts]
    exact rules

private theorem exists_ok_of_any {result : Except Fault μ} {holds : μ → Prop} [DecidablePred holds]
    (found : result.toOption.any holds = true) :
    ∃ message, result = .ok message ∧ holds message := by
  cases result with
  | error fault => cases found
  | ok message => exact ⟨message, rfl, of_decide_eq_true found⟩

/-- Of a request with two fields the second is one too many where one is allowed, and of a chunked
response with one in its head and two in its trailer section the second of those behind. -/
theorem parse_withFieldLimit_one :
    Request.parse (Settings.standard.withFieldLimit 1) (Ascii.bytes ['A', ' ', '/', ' ', 'H', 'T',
        'T', 'P', '/', '1', '.', '1', '\n', 'B', ':', '\n', 'C', ':', '\n', '\n']) 0 =
      .error (.failed ⟨.tooManyFields 1, 16, .http⟩) ∧
    ∃ message, Response.parse .standard .lengthRequired (Ascii.bytes ['H', 'T', 'T', 'P', '/', '1',
        '.', '1', ' ', '2', '0', '0', '\n', 'T', 'r', 'a', 'n', 's', 'f', 'e', 'r', '-', 'E', 'n',
        'c', 'o', 'd', 'i', 'n', 'g', ':', 'c', 'h', 'u', 'n', 'k', 'e', 'd', '\n', '\n', '0',
        '\n', 'B', ':', '\n', 'C', ':', '\n', '\n']) 0 = .ok message ∧
      ∃ exceeds : 1 < message.value.body.value.trailers.length,
        Response.parse (Settings.standard.withFieldLimit 1) .lengthRequired (Ascii.bytes ['H', 'T',
          'T', 'P', '/', '1', '.', '1', ' ', '2', '0', '0', '\n', 'T', 'r', 'a', 'n', 's', 'f',
          'e', 'r', '-', 'E', 'n', 'c', 'o', 'd', 'i', 'n', 'g', ':', 'c', 'h', 'u', 'n', 'k', 'e',
          'd', '\n', '\n', '0', '\n', 'B', ':', '\n', 'C', ':', '\n', '\n']) 0 =
        .error (.failed
          ⟨.tooManyFields 1, message.value.body.value.trailers[1].span.start, .http⟩) := by
  constructor
  · exact ((parse_withFieldLimit .standard (Ascii.bytes ['A', ' ', '/', ' ', 'H', 'T', 'T', 'P',
      '/', '1', '.', '1', '\n', 'B', ':', '\n', 'C', ':', '\n', '\n']) 0 1).1 _ rfl).inHead
        (by decide)
  · refine Exists.imp (fun message (found : _ ∧ _ ∧ _) => ⟨found.1, found.2.2,
      ((parse_withFieldLimit .standard _ 0 1).2 .lengthRequired message found.1).inTrailers
        found.2.1 found.2.2⟩) (exists_ok_of_any ?_)
    decide +kernel

end Readers

end Http

end WireSpan
