import WireSpan.Proofs.Http.Message
import WireSpan.Proofs.Scan.Relocation

/-! The readers of messages do not depend on where a message stands. Further right in a buffer they
read the same tree with all of its places moved, and refuse what they refuse for the same cause. -/

namespace WireSpan.Http

open Scan Chunked

/-- The same field with its places moved right. -/
def Field.shiftBy (field : Field) (distance : Nat) : Field :=
  ⟨field.name.shiftBy distance, field.value.shiftBy distance⟩

/-- The same fields with their places moved right. -/
def Fields.shiftBy (fields : Fields) (distance : Nat) : Fields :=
  fields.map (Located.shiftWith (·.shiftBy distance) distance)

/-- The same chunk with its places moved right. -/
def Chunk.shiftBy (chunk : Chunk) (distance : Nat) : Chunk where
  size := chunk.size
  sizeLine := chunk.sizeLine.shiftBy distance
  extensions := chunk.extensions.map (·.shiftBy distance)
  data := chunk.data.shiftBy distance

/-- The same chunked body with its places moved right. -/
def ChunkedBody.shiftBy (body : ChunkedBody) (distance : Nat) : ChunkedBody where
  chunks := body.chunks.map (Located.shiftWith (·.shiftBy distance) distance)
  trailers := Fields.shiftBy body.trailers distance

/-- The same body with its places moved right. -/
def Body.shiftBy (body : Body) (distance : Nat) : Body :=
  match body with
  | .empty => .empty
  | .sized content => .sized (content.shiftBy distance)
  | .chunked body => .chunked (body.shiftBy distance)
  | .toEnd content => .toEnd (content.shiftBy distance)

/-- The same request with its places moved right. -/
def Request.shiftBy (request : Request) (distance : Nat) : Request where
  method := request.method.shiftBy distance
  target := request.target.shiftBy distance
  version := request.version.shiftBy distance
  fields := Fields.shiftBy request.fields distance
  body := request.body.shiftWith (·.shiftBy distance) distance
  head := request.head.shiftBy distance

/-- The same response with its places moved right. -/
def Response.shiftBy (response : Response) (distance : Nat) : Response where
  version := response.version.shiftBy distance
  status := response.status.shiftBy distance
  reason := response.reason.shiftBy distance
  fields := Fields.shiftBy response.fields distance
  body := response.body.shiftWith (·.shiftBy distance) distance
  head := response.head.shiftBy distance

/-- The same request line with its places moved right. -/
def RequestLine.shiftBy (line : RequestLine) (distance : Nat) : RequestLine :=
  ⟨line.method.shiftBy distance, line.target.shiftBy distance, line.version.shiftBy distance⟩

/-- The same status line with its places moved right. -/
def StatusLine.shiftBy (line : StatusLine) (distance : Nat) : StatusLine :=
  ⟨line.version.shiftBy distance, line.status.shiftBy distance, line.reason.shiftBy distance⟩

/-- The same size line with its places moved right. -/
def Chunked.SizeLine.shiftBy (line : SizeLine) (distance : Nat) : SizeLine :=
  ⟨line.size, line.extensions.map (·.shiftBy distance)⟩

variable {settings : Settings} {distance : Nat}

private theorem lineEnd_relocates :
    Relocates distance (Located.shiftBy · distance) (lineEnd settings) (lineEnd settings) :=
  Relocates.ite (.orElse (.literal _ _) (.literal _ _)) (.literal _ _)

private theorem lineEndAfter_relocates (what : String) :
    Relocates distance id (lineEndAfter settings what) (lineEndAfter settings what) := by
  refine Relocates.peek?.bind fun next => ?_
  cases next with
  | none => exact .runOut _ what
  | some b => exact lineEnd_relocates.bind fun _ => .pure _ ()

private theorem fieldName_relocates :
    Relocates distance (Located.shiftBy · distance) fieldName fieldName := by
  refine (Relocates.takeWhile _).bind fun name => Relocates.peek?.bind fun next => ?_
  cases next with
  | none => exact .runOut _ _
  | some b =>
    exact .ite (.fail _ _) ((Relocates.skip 1).bind fun _ => .pure _ (name.map Ascii.latin1))

private theorem fieldValue_relocates :
    Relocates distance (Located.shiftBy · distance) fieldValue fieldValue := by
  refine (Relocates.takeWhile _).bind fun _ => (Relocates.takeWhile _).bind fun raw => ?_
  intro input
  simp only [pure_run, Located.shiftBy, shifted, ← ofLength_shiftBy]
  rfl

private theorem field_relocates :
    Relocates distance (Located.shiftWith (Field.shiftBy · distance) distance) (field settings)
      (field settings) := by
  refine Relocates.located (fieldName_relocates.bind fun name => ?_)
  refine fieldValue_relocates.bind fun value => ?_
  exact (lineEndAfter_relocates _).bind fun _ => .pure _ (Field.mk name value)

private theorem fieldsWithin_relocates (left : Nat) :
    Relocates distance (Fields.shiftBy · distance) (fieldsWithin settings left)
      (fieldsWithin settings left) := by
  induction left with
  | zero =>
    refine lineEnd_relocates.optional.bind fun found => ?_
    cases found with
    | none => exact .fail _ _
    | some _ => exact .pure _ []
  | succ left ih =>
    refine lineEnd_relocates.optional.bind fun found => ?_
    cases found with
    | none =>
      exact field_relocates.bind fun field => ih.bind fun fields => .pure _ (field :: fields)
    | some _ => exact .pure _ []

private theorem fieldSection_relocates :
    Relocates distance (Fields.shiftBy · distance) (fieldSection settings)
      (fieldSection settings) := fieldsWithin_relocates _

private theorem version_relocates :
    Relocates distance (Located.shiftBy · distance) version version := by
  show Relocates distance (Located.shiftWith id distance) version version
  refine Relocates.located ?_
  refine (Relocates.literal _ _).bind fun name => (Relocates.byteOf _ _).bind fun major => ?_
  refine (Relocates.literal _ _).bind fun dot => (Relocates.byteOf _ _).bind fun minor => ?_
  exact .pure id _

private theorem requestLine_relocates :
    Relocates distance (RequestLine.shiftBy · distance) (requestLine settings)
      (requestLine settings) := by
  refine (Relocates.takeWhile1 _ _).bind fun method => (Relocates.literal _ _).bind fun _ => ?_
  refine (Relocates.takeWhile1 _ _).bind fun target => (Relocates.literal _ _).bind fun _ => ?_
  refine version_relocates.bind fun version => lineEnd_relocates.bind fun _ => ?_
  exact .pure _ (RequestLine.mk (method.map Ascii.latin1) (target.map Ascii.latin1) version)

private theorem statusCode_relocates :
    Relocates distance (Located.shiftBy · distance) statusCode statusCode := by
  show Relocates distance (Located.shiftWith id distance) statusCode statusCode
  refine Relocates.located (((Relocates.byteOf _ _).times 3).bind fun digits => ?_)
  rw [List.map_map]
  exact .pure id (Ascii.decimalNumber (digits.map (·.value)))

private theorem reasonPart_relocates :
    Relocates distance (Located.shiftBy · distance) reasonPart reasonPart := by
  refine (Relocates.literal _ _).bind fun _ => (Relocates.takeWhile _).bind fun reason => ?_
  exact .pure _ (reason.map Ascii.latin1)

private theorem reason_relocates :
    Relocates distance (Located.shiftBy · distance) reason reason := by
  refine Relocates.here.bind fun start => reasonPart_relocates.optional.bind fun found => ?_
  cases found with
  | none => exact .pure _ (Located.mk "" (Span.emptyAt start))
  | some reason => exact .pure _ reason

private theorem statusLine_relocates :
    Relocates distance (StatusLine.shiftBy · distance) (statusLine settings)
      (statusLine settings) := by
  refine version_relocates.bind fun version => (Relocates.literal _ _).bind fun _ => ?_
  refine statusCode_relocates.bind fun status => reason_relocates.bind fun reason => ?_
  exact (lineEndAfter_relocates _).bind fun _ => .pure _ (StatusLine.mk version status reason)

private theorem extensions_relocates :
    Relocates distance (Option.map (Span.shiftBy · distance)) extensions extensions := by
  refine Relocates.peek?.bind fun next => .ite ?_ (.pure _ none)
  exact (Relocates.takeWhile _).bind fun text => .pure _ (some text.span)

private theorem sizeLine_relocates :
    Relocates distance (Located.shiftWith (SizeLine.shiftBy · distance) distance) sizeLine
      sizeLine := by
  refine Relocates.located ((Relocates.takeWhile _).bind fun digits => .ite ?_ ?_)
  · refine Relocates.peek?.bind fun next => ?_
    cases next with
    | none => exact .runOut _ _
    | some b => exact .failAt _ _ _
  · refine (Relocates.takeWhile _).bind fun _ => extensions_relocates.bind fun extensions => ?_
    exact .pure _ (SizeLine.mk (Ascii.hexNumber digits.value) extensions)

section

variable {move : Located Bytes → Located Bytes} {lineEnd : Scan (Located Bytes)}

private theorem lineEndHere_relocates (relocates : Relocates distance move lineEnd lineEnd) :
    Relocates distance id (lineEndHere lineEnd) (lineEndHere lineEnd) := by
  intro input
  have atEnd : (input.shiftBy distance).atEnd = input.atEnd := rfl
  unfold lineEndHere
  rw [atEnd, relocates input]
  cases input.atEnd with
  | true => exact Relocates.runOut _ _ input
  | false =>
    cases lineEnd input with
    | ok result => rfl
    | error failure =>
      have sameKind : (failure.shiftBy distance).kind = failure.kind := rfl
      simp only [shifted, sameKind]
      by_cases ended : failure.kind = .endOfInput
      · simp only [if_pos ended]
        rfl
      · simp only [if_neg ended]
        rfl

private theorem sizeLineEnd_relocates (relocates : Relocates distance move lineEnd lineEnd) :
    Relocates distance id (sizeLineEnd lineEnd) (sizeLineEnd lineEnd) := by
  refine Relocates.peek?.bind fun next => ?_
  cases next with
  | none => exact .runOut _ _
  | some b => exact .ite (lineEndHere_relocates relocates) (.fail _ _)

private theorem chunk_relocates (relocates : Relocates distance move lineEnd lineEnd) :
    Relocates distance (Located.shiftWith (Chunk.shiftBy · distance) distance) (chunk lineEnd)
      (chunk lineEnd) := by
  refine Relocates.located (sizeLine_relocates.bind fun line => ?_)
  refine (sizeLineEnd_relocates relocates).bind fun _ => .ite ?_ ?_
  · exact Relocates.here.bind fun place =>
      .pure _ (Chunk.mk 0 line.span line.value.extensions (Span.emptyAt place))
  · refine (Relocates.take _).bind fun data => (lineEndHere_relocates relocates).bind fun _ => ?_
    exact .pure _ (Chunk.mk line.value.size line.span line.value.extensions data.span)

private theorem chunks_relocates (relocates : Relocates distance move lineEnd lineEnd) :
    Relocates distance (List.map (Located.shiftWith (Chunk.shiftBy · distance) distance))
      (chunks lineEnd) (chunks lineEnd) := by
  have turn : Relocates distance
      (Sum.map (Located.shiftWith (Chunk.shiftBy · distance) distance)
        (Located.shiftWith (Chunk.shiftBy · distance) distance))
      (chunkTurn lineEnd) (chunkTurn lineEnd) := by
    refine (chunk_relocates relocates).bind fun next => ?_
    have same : (next.shiftWith (Chunk.shiftBy · distance) distance).value.isLast =
        next.value.isLast := rfl
    rw [same]
    cases next.value.isLast with
    | true => exact .pure _ (Sum.inr next)
    | false => exact .pure _ (Sum.inl next)
  refine turn.collect.bind fun read => ?_
  intro input
  simp only [pure_run, shifted, List.map_append]
  rfl

end

private theorem ofMessage_relocates :
    Relocates distance (Located.shiftWith (ChunkedBody.shiftBy · distance) distance)
      (ofMessage settings) (ofMessage settings) := by
  refine Relocates.located ((chunks_relocates lineEnd_relocates).bind fun chunks => ?_)
  exact fieldSection_relocates.bind fun trailers => .pure _ (ChunkedBody.mk chunks trailers)

private theorem body_relocates (framing : Framing) :
    Relocates distance (Located.shiftWith (Body.shiftBy · distance) distance)
      (framing.body settings) (framing.body settings) := by
  have nothing : Relocates distance (Located.shiftWith (Body.shiftBy · distance) distance)
      (Framing.absent.body settings) (Framing.absent.body settings) :=
    Relocates.here.bind fun place => .pure _ (Located.mk Body.empty (Span.emptyAt place))
  cases framing with
  | absent => exact nothing
  | sized length =>
    exact (Relocates.take _).bind fun content =>
      .pure _ (Located.mk (Body.sized content.span) content.span)
  | chunked => exact ofMessage_relocates.bind fun body => .pure _ (body.map Body.chunked)
  | toEnd =>
    exact (Relocates.takeWhile _).bind fun content =>
      .pure _ (Located.mk (Body.toEnd content.span) content.span)
  | unstated =>
    refine Relocates.peek?.bind fun next => ?_
    cases next with
    | none => exact nothing
    | some b => exact .fail _ _

private theorem named_shiftBy (fields : Fields) (name : String) :
    (Fields.shiftBy fields distance).named name = Fields.shiftBy (fields.named name) distance := by
  unfold Fields.named Fields.shiftBy
  rw [List.filter_map]
  rfl

/-- The items of fields that stand further right are the same. -/
theorem listItems_shiftBy (fields : Fields) :
    listItems (Fields.shiftBy fields distance) =
      (listItems fields).map
        (Prod.map (Located.shiftWith (Field.shiftBy · distance) distance) id) := by
  simp only [listItems, Fields.shiftBy, List.flatMap_map, List.map_flatMap, List.map_map]
  rfl

private theorem endsChunked_shiftBy (codings : Fields) :
    endsChunked (Fields.shiftBy codings distance) = endsChunked codings := by
  rw [endsChunked, endsChunked, listItems_shiftBy, List.getLast?_map]
  cases (listItems codings).getLast? <;> rfl

private theorem resolveLengths_shiftBy (items : List (Located Field × Bytes))
    (resolved : Option Nat) :
    resolveLengths resolved
        (items.map (Prod.map (Located.shiftWith (Field.shiftBy · distance) distance) id)) =
      (resolveLengths resolved items).mapError (·.shiftBy distance) := by
  induction items generalizing resolved with
  | nil => rfl
  | cons item items ih =>
    obtain ⟨field, item⟩ := item
    simp only [List.map_cons, Prod.map, id, resolveLengths, ih]
    split
    · rfl
    · split
      · rfl
      · cases resolved with
        | none => rfl
        | some other =>
          simp only
          split <;> rfl

private theorem contentLength_shiftBy (fields : Fields) :
    contentLength (Fields.shiftBy fields distance) =
      (contentLength fields).mapError (·.shiftBy distance) := by
  simp only [contentLength, lengthFields, codingFields, named_shiftBy]
  cases fields.named "content-length" with
  | nil => rfl
  | cons length lengths =>
    cases fields.named "transfer-encoding" with
    | nil =>
      have items : listItems (Fields.shiftBy (length :: lengths) distance) = _ :=
        listItems_shiftBy (length :: lengths)
      simp only [Fields.shiftBy, List.map_cons, List.map_nil] at items ⊢
      rw [items, resolveLengths_shiftBy]
    | cons coding codings =>
      simp only [Fields.shiftBy, List.map_cons, Located.shiftWith, Span.shiftBy, misframed,
        Nat.add_max_add_right]
      rfl

private theorem requestFraming_shiftBy (fields : Fields) :
    requestFraming (Fields.shiftBy fields distance) =
      (requestFraming fields).mapError (·.shiftBy distance) := by
  rw [requestFraming, requestFraming, contentLength_shiftBy]
  cases contentLength fields with
  | error fault => rfl
  | ok length =>
    cases length with
    | some length => rfl
    | none =>
      have codings : codingFields (Fields.shiftBy fields distance) =
          Fields.shiftBy (codingFields fields) distance := named_shiftBy _ _
      simp only [mapError_ok, bind, Except.bind, codings, endsChunked_shiftBy]
      rw [Fields.shiftBy, List.getLast?_map]
      cases (codingFields fields).getLast? with
      | none => rfl
      | some last =>
        simp only [Option.map_some]
        split <;> rfl

private theorem responseFraming_shiftBy (fields : Fields) (status : Nat) (hint : Hint) :
    responseFraming (Fields.shiftBy fields distance) status hint =
      (responseFraming fields status hint).mapError (·.shiftBy distance) := by
  have codings : codingFields (Fields.shiftBy fields distance) =
      Fields.shiftBy (codingFields fields) distance := named_shiftBy _ _
  simp only [responseFraming, contentLength_shiftBy, codings, endsChunked_shiftBy]
  cases contentLength fields with
  | error fault => rfl
  | ok length =>
    simp only [mapError_ok, bind, Except.bind]
    split
    · rfl
    · cases length with
      | some length => rfl
      | none =>
        dsimp only
        split
        · rfl
        · split <;> rfl

/-- What comes of moving the bytes that a message was read from. -/
def Reader.Relocates {μ : Type} (distance : Nat) (move : μ → μ) (reader : Reader (Located μ)) :
    Prop :=
  ∀ input, reader (input.shiftBy distance) =
    shifted (Fault.shiftBy · distance) (Located.shiftWith move distance) distance (reader input)

private theorem ofScan_shiftBy {α : Type} {move : α → α} {scan : Scan α}
    (relocates : Relocates distance move scan scan) (input : Input) :
    Reader.ofScan scan (input.shiftBy distance) =
      shifted (Fault.shiftBy · distance) move distance (Reader.ofScan scan input) := by
  rw [Reader.ofScan, Reader.ofScan, relocates input]
  cases scan input <;> rfl

/-- A reader of messages relocates as its start line, its framing and the way in which it puts the
parts together do. -/
theorem messageReader_relocates {α μ : Type} {startLine : Scan α}
    {framing : α → Fields → Except Fault Framing} {build : α → Fields → Located Body → Span → μ}
    {moveLine : α → α} {move : μ → μ} (lined : Relocates distance moveLine startLine startLine)
    (framed : ∀ line fields, framing (moveLine line) (Fields.shiftBy fields distance) =
      (framing line fields).mapError (·.shiftBy distance))
    (built : ∀ line fields (body : Located Body) (head : Span),
      build (moveLine line) (Fields.shiftBy fields distance)
        (body.shiftWith (Body.shiftBy · distance) distance) (head.shiftBy distance) =
          move (build line fields body head)) :
    Reader.Relocates distance move (messageReader settings startLine framing build) := by
  intro input
  have headed : Relocates distance
      (Located.shiftWith (Prod.map moveLine (Fields.shiftBy · distance)) distance)
      (head settings startLine) (head settings startLine) :=
    Relocates.located (lined.bind fun line =>
      fieldSection_relocates.bind fun fields => .pure _ (Prod.mk line fields))
  unfold messageReader
  rw [ofScan_shiftBy headed]
  cases Reader.ofScan (head settings startLine) input with
  | error fault => rfl
  | ok result =>
    obtain ⟨⟨⟨line, fields⟩, span⟩, mid⟩ := result
    simp only [shifted, Located.shiftWith, Prod.map, bind, Except.bind, framed]
    cases framing line fields with
    | error fault => rfl
    | ok announced =>
      simp only [mapError_ok, ofScan_shiftBy (body_relocates announced)]
      cases Reader.ofScan (announced.body settings) mid with
      | error fault => rfl
      | ok result =>
        simp only [shifted, built, Input.spanTo_shiftBy]
        rfl

theorem Request.read_relocates :
    (Request.read settings).Relocates distance (Request.shiftBy · distance) := by
  rw [Request.read_eq]
  exact messageReader_relocates requestLine_relocates (fun _ => requestFraming_shiftBy)
    fun _ _ _ _ => rfl

theorem Response.read_relocates (hint : Hint) :
    (Response.read settings hint).Relocates distance (Response.shiftBy · distance) := by
  rw [Response.read_eq]
  exact messageReader_relocates statusLine_relocates
    (fun line fields => responseFraming_shiftBy fields line.status.value hint) fun _ _ _ _ => rfl

/-- How a parse ends of bytes that stand `distance` further right: with the same message, its places
moved, or with the same fault, its place moved. -/
def endMoved {μ : Type} (move : μ → Nat → μ) (distance : Nat) (ending : Except Fault (Located μ)) :
    Except Fault (Located μ) :=
  (ending.map (Located.shiftWith (move · distance) distance)).mapError (·.shiftBy distance)

/-- An offset of a buffer, seen from in front of other bytes before it. -/
theorem at?_append {buffer : Bytes} {offset : Nat} (before : Bytes)
    (inside : offset ≤ buffer.length) :
    ∃ input, Input.at? buffer offset = .ok input ∧
      Input.at? (before ++ buffer) (before.length + offset) =
        .ok (input.shiftBy before.length) := by
  refine ⟨⟨offset, buffer.drop offset⟩, Input.at?_eq_ok.mpr ?_, Input.at?_eq_ok.mpr ?_⟩
  · exact ⟨buffer.take offset, (List.take_append_drop _ _).symm, List.length_take_of_le inside, rfl⟩
  · refine ⟨before ++ buffer.take offset, ?_, ?_, ?_⟩
    · rw [Input.rest_shiftBy, List.append_assoc, List.take_append_drop]
    · rw [Input.offset_shiftBy, List.length_append, List.length_take_of_le inside, Nat.add_comm]
    · rw [Input.offset_shiftBy, Int.natCast_add, Int.add_comm]

theorem Reader.Relocates.run {μ : Type} {move : μ → Nat → μ} {reader : Reader (Located μ)}
    {before buffer : Bytes} {offset : Nat}
    (relocates : reader.Relocates before.length (move · before.length))
    (inside : offset ≤ buffer.length) :
    reader.run (before ++ buffer) (before.length + offset) =
      endMoved move before.length (reader.run buffer offset) := by
  obtain ⟨input, here, there⟩ := at?_append before inside
  unfold Reader.run
  simp only [here, there, mapError_ok, bind, Except.bind, relocates input]
  cases reader input with
  | error fault => cases fault <;> rfl
  | ok result => rfl

/-- Parsing does not depend on what stands before a message. Behind other bytes it ends with the
same message whose places are all moved, or with the same fault, whose place is moved if it has
one. -/
theorem parse_relocates (settings : Settings) (before buffer : Bytes) (offset : Nat)
    (inside : offset ≤ buffer.length) :
    Request.parse settings (before ++ buffer) (before.length + offset) =
        endMoved Request.shiftBy before.length (Request.parse settings buffer offset) ∧
      ∀ hint, Response.parse settings hint (before ++ buffer) (before.length + offset) =
        endMoved Response.shiftBy before.length (Response.parse settings hint buffer offset) :=
  ⟨Request.read_relocates.run inside, fun hint => (Response.read_relocates hint).run inside⟩

/-- A request behind two other bytes, and a response whose version is wrong there. -/
theorem parse_relocates_behind_two :
    (∃ request, Request.parse .standard (Ascii.bytes ['A', ' ', '/', ' ', 'H', 'T', 'T', 'P', '/',
        '1', '.', '0', '\n', '\n']) 0 = .ok request ∧
      Request.parse .standard (Ascii.bytes ['-', '-', 'A', ' ', '/', ' ', 'H', 'T', 'T', 'P', '/',
        '1', '.', '0', '\n', '\n']) 2 = .ok (request.shiftWith (·.shiftBy 2) 2)) ∧
      Response.parse .standard .headOnly (Ascii.bytes ['-', '-', 'H', 'T', 'T', 'P', '/', 'x', '.',
        '1']) 2 =
        .error (.failed ⟨.unexpected "major version digit" (Ascii.bytes ['x']), 7, .http⟩) := by
  have accepted := (parse_relocates .standard (Ascii.bytes ['-', '-']) (Ascii.bytes ['A', ' ', '/',
    ' ', 'H', 'T', 'T', 'P', '/', '1', '.', '0', '\n', '\n']) 0 (by decide)).1
  have refused := (parse_relocates .standard (Ascii.bytes ['-', '-']) (Ascii.bytes ['H', 'T', 'T',
    'P', '/', 'x', '.', '1']) 0 (by decide)).2 .headOnly
  exact ⟨⟨_, rfl, accepted⟩, refused⟩

end WireSpan.Http
