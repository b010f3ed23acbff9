import WireSpan.Proofs.Http.Message

/-! The parts of a parsed message cover its bytes without gap or overlap, and each part is what
its bytes spell. -/

namespace WireSpan

/-- A part of a buffer, and what is said of its bytes. -/
abbrev Piece := Span × (Bytes → Prop)

/-- The pieces follow one another from `start` to `stop`, each with bytes as they should be. -/
def Tiles (buffer : Bytes) : (start : Nat) → List Piece → (stop : Nat) → Prop
  | start, [], stop => start = stop
  | start, (span, holds) :: pieces, stop =>
    span.start = start ∧ (∃ bytes, span.extract? buffer = .ok bytes ∧ holds bytes) ∧
      Tiles buffer span.stop pieces stop

variable {buffer text : Bytes} {offset start mid stop : Nat} {pieces others : List Piece}

theorem Tiles.cons {holds : Bytes → Prop} (stands : Stands buffer start text) (held : holds text)
    (later : Tiles buffer (start + text.length) pieces stop) :
    Tiles buffer start ((Span.ofLength start text.length, holds) :: pieces) stop :=
  ⟨rfl, ⟨text, stands.extract, held⟩, later⟩

theorem Tiles.append (first : Tiles buffer start pieces mid)
    (second : Tiles buffer mid others stop) : Tiles buffer start (pieces ++ others) stop := by
  induction pieces generalizing start with
  | nil =>
    obtain rfl : start = mid := first
    exact second
  | cons piece pieces ih =>
    obtain ⟨place, held, later⟩ := first
    exact ⟨place, held, ih later⟩

theorem Tiles.ordered (tiles : Tiles buffer start pieces stop) : start ≤ stop := by
  induction pieces generalizing start with
  | nil => exact Nat.le_of_eq tiles
  | cons piece pieces ih =>
    obtain ⟨place, -, later⟩ := tiles
    exact place ▸ Nat.le_trans piece.1.ordered (ih later)

theorem Tiles.mem {piece : Piece} (tiles : Tiles buffer start pieces stop)
    (member : piece ∈ pieces) : start ≤ piece.1.start ∧ piece.1.stop ≤ stop ∧
      ∃ bytes, piece.1.extract? buffer = .ok bytes ∧ piece.2 bytes := by
  induction pieces generalizing start with
  | nil => cases member
  | cons first others ih =>
    obtain ⟨place, held, later⟩ := tiles
    rcases List.mem_cons.mp member with rfl | within
    · exact ⟨Nat.le_of_eq place.symm, later.ordered, held⟩
    · obtain ⟨after, before, found⟩ := ih later within
      exact ⟨place ▸ Nat.le_trans first.1.ordered after, before, found⟩

theorem Tiles.pairwise (tiles : Tiles buffer start pieces stop) :
    pieces.Pairwise fun piece later => piece.1.stop ≤ later.1.start := by
  induction pieces generalizing start with
  | nil => exact .nil
  | cons first others ih =>
    obtain ⟨-, -, later⟩ := tiles
    exact .cons (fun piece member => (later.mem member).1) (ih later)

/-- Any bytes. -/
def anything (_ : Bytes) : Prop := True

namespace Http

/-- Bytes that a text stands for, one character a byte. -/
def decodesTo (text : String) (bytes : Bytes) : Prop := Ascii.latin1 bytes = text

/-- The parts of a field line cover it: name, colon, blanks, value, blanks and line end. -/
def FieldTiles (bareLf : Bool) (buffer : Bytes) (field : Located Field) : Prop :=
  ∃ colon before after ending : Span,
    Tiles buffer field.span.start
      [(field.value.name.span, decodesTo field.value.name.value), (colon, (· = [Ascii.byte ':'])),
        (before, SpacingText), (field.value.value.span, (· = field.value.value.value)),
        (after, SpacingText), (ending, LineEndText bareLf)]
      field.span.stop ∧
    Trimmed field.value.value.value

/-- The lines of a section, with the empty line at the end. -/
def sectionPieces (bareLf : Bool) (fields : Fields) (emptyLine : Span) : List Piece :=
  fields.map (fun field => (field.span, anything)) ++ [(emptyLine, LineEndText bareLf)]

/-- The digits of a size. -/
def spellsSize (size : Nat) (bytes : Bytes) : Prop :=
  ∃ digits more, bytes = digits ++ more ∧ RunText Ascii.isHexDigit digits ∧
    Ascii.hexNumber digits = size

/-- The parts of a chunk cover it. The last chunk has neither data nor a line end after them. -/
def ChunkTiles (bareLf : Bool) (buffer : Bytes) (chunk : Located Chunk) : Prop :=
  ∃ ending : Span,
    (chunk.value.size = 0 ∧ chunk.value.data = Span.emptyAt chunk.span.stop ∧
      Tiles buffer chunk.span.start
        [(chunk.value.sizeLine, spellsSize chunk.value.size), (ending, LineEndText bareLf)]
        chunk.span.stop) ∨
    (chunk.value.size = chunk.value.data.length ∧ ∃ final : Span,
      Tiles buffer chunk.span.start
        [(chunk.value.sizeLine, spellsSize chunk.value.size), (ending, LineEndText bareLf),
          (chunk.value.data, anything), (final, LineEndText bareLf)]
        chunk.span.stop)

/-- The content of a body covers it; of a chunked one the chunks do, the trailer fields and an
empty line. -/
def BodyTiles (bareLf : Bool) (buffer : Bytes) (body : Located Body) : Prop :=
  match body.value with
  | .empty => body.span = Span.emptyAt body.span.start
  | .sized content => content = body.span
  | .toEnd content => content = body.span
  | .chunked inner =>
    ∃ emptyLine : Span,
      Tiles buffer body.span.start
        (inner.chunks.map (fun chunk => (chunk.span, anything)) ++
          sectionPieces bareLf inner.trailers emptyLine)
        body.span.stop ∧
      (∀ chunk ∈ inner.chunks, ChunkTiles bareLf buffer chunk) ∧
      ∀ field ∈ inner.trailers, FieldTiles bareLf buffer field

/-- The parts of a message cover it: those of the start line, the field lines, the empty line, at
which the head ends, and the body. -/
def MessageTiles (bareLf : Bool) (buffer : Bytes) (line : List Piece) (fields : Fields)
    (head : Span) (body : Located Body) (message : Span) : Prop :=
  head.start = message.start ∧
  (∃ emptyLine : Span, emptyLine.stop = head.stop ∧
    Tiles buffer message.start
      (line ++ sectionPieces bareLf fields emptyLine ++ [(body.span, anything)]) message.stop) ∧
  (∀ field ∈ fields, FieldTiles bareLf buffer field) ∧
  BodyTiles bareLf buffer body

/-- The parts of a request line: method, space, target, space, version and line end. -/
inductive RequestLinePieces (bareLf : Bool) (line : RequestLine) : List Piece → Prop where
  | mk (first second ending : Span) :
      RequestLinePieces bareLf line
        [(line.method.span, decodesTo line.method.value), (first, (· = [Ascii.space])),
          (line.target.span, decodesTo line.target.value), (second, (· = [Ascii.space])),
          (line.version.span, decodesTo line.version.value), (ending, LineEndText bareLf)]

/-- Three digits that spell a status. -/
def spellsStatus (status : Nat) (bytes : Bytes) : Prop :=
  bytes.length = 3 ∧ (∀ b ∈ bytes, Ascii.isDigit b = true) ∧ Ascii.decimalNumber bytes = status

/-- The parts of a status line: version, space, status, a space and the reason, and line end. An
absent reason is empty, right after the status. -/
inductive StatusLinePieces (bareLf : Bool) (line : StatusLine) : List Piece → Prop where
  | absent (space ending : Span) (empty : line.reason = ⟨"", Span.emptyAt line.status.span.stop⟩) :
      StatusLinePieces bareLf line
        [(line.version.span, decodesTo line.version.value), (space, (· = [Ascii.space])),
          (line.status.span, spellsStatus line.status.value), (ending, LineEndText bareLf)]
  | present (first second ending : Span) :
      StatusLinePieces bareLf line
        [(line.version.span, decodesTo line.version.value), (first, (· = [Ascii.space])),
          (line.status.span, spellsStatus line.status.value), (second, (· = [Ascii.space])),
          (line.reason.span, decodesTo line.reason.value), (ending, LineEndText bareLf)]

/-- The parts of a request cover it. -/
def RequestTiles (bareLf : Bool) (buffer : Bytes) (message : Located Request) : Prop :=
  let request := message.value
  ∃ line, RequestLinePieces bareLf ⟨request.method, request.target, request.version⟩ line ∧
    MessageTiles bareLf buffer line request.fields request.head request.body message.span

/-- The parts of a response cover it. -/
def ResponseTiles (bareLf : Bool) (buffer : Bytes) (message : Located Response) : Prop :=
  let response := message.value
  ∃ line, StatusLinePieces bareLf ⟨response.version, response.status, response.reason⟩ line ∧
    MessageTiles bareLf buffer line response.fields response.head response.body message.span

variable {bareLf : Bool} {limit : Nat}

theorem FieldText.tiles {field : Located Field} (spelled : FieldText bareLf offset text field)
    (stands : Stands buffer offset text) : FieldTiles bareLf buffer field := by
  cases spelled with
  | @mk name before value after ending named blankBefore visible trimmed blankAfter behind ended =>
    obtain ⟨standsName, stands⟩ := stands_append.mp stands
    obtain ⟨standsColon, stands⟩ := stands_cons.mp stands
    obtain ⟨standsBefore, stands⟩ := stands_append.mp stands
    obtain ⟨standsValue, stands⟩ := stands_append.mp stands
    obtain ⟨standsAfter, standsEnd⟩ := stands_append.mp stands
    refine ⟨_, _, _, _, .cons standsName rfl (.cons standsColon rfl (.cons standsBefore blankBefore
      (.cons standsValue rfl (.cons standsAfter blankAfter (.cons standsEnd ended ?_))))), trimmed⟩
    simp only [Tiles, Span.ofLength, List.length_append, List.length_cons, List.length_nil]
    omega

theorem SectionText.tiles {fields : Fields} (spelled : SectionText bareLf offset text fields)
    (stands : Stands buffer offset text) :
    (∃ emptyLine : Span, emptyLine.stop = offset + text.length ∧
      Tiles buffer offset (sectionPieces bareLf fields emptyLine) (offset + text.length)) ∧
    ∀ field ∈ fields, FieldTiles bareLf buffer field := by
  induction spelled with
  | done ended => exact ⟨⟨_, rfl, .cons stands ended rfl⟩, nofun⟩
  | @more offset text rest field fields first others ih =>
    obtain ⟨standsField, standsRest⟩ := stands_append.mp stands
    obtain ⟨⟨emptyLine, place, later⟩, inside⟩ := ih standsRest
    rw [List.length_append, ← Nat.add_assoc]
    have whole : field.span = Span.ofLength offset text.length := by
      cases first
      rfl
    refine ⟨⟨emptyLine, place, ?_⟩, ?_⟩
    · rw [sectionPieces, List.map_cons, List.cons_append, whole]
      exact .cons standsField trivial later
    · intro other member
      rcases List.mem_cons.mp member with rfl | within
      · exact first.tiles standsField
      · exact inside other within

theorem SizeLineText.spellsSize {line : Chunked.SizeLine} (lined : SizeLineText offset text line) :
    spellsSize line.size text := by
  cases lined with
  | mk sized => exact ⟨_, _, rfl, sized, rfl⟩

theorem ChunkText.tiles {chunk : Located Chunk} (spelled : ChunkText bareLf offset text chunk)
    (stands : Stands buffer offset text) : ChunkTiles bareLf buffer chunk := by
  cases spelled with
  | last lined ended =>
    obtain ⟨standsLine, standsEnd⟩ := stands_append.mp stands
    refine ⟨_, .inl ⟨rfl, ?_, .cons standsLine lined.spellsSize (.cons standsEnd ended ?_)⟩⟩
    · simp only [Span.ofLength, List.length_append, Nat.add_assoc]
    · simp only [Tiles, Span.ofLength, List.length_append, Nat.add_assoc]
  | data lined nonempty ended closed =>
    obtain ⟨standsLine, stands⟩ := stands_append.mp stands
    obtain ⟨standsEnd, stands⟩ := stands_append.mp stands
    obtain ⟨standsData, standsFinal⟩ := stands_append.mp stands
    refine ⟨_, .inr ⟨?_, _, .cons standsLine lined.spellsSize (.cons standsEnd ended
      (.cons standsData trivial (.cons standsFinal closed ?_)))⟩⟩
    · simp only [Span.ofLength, Span.length, Nat.add_sub_cancel_left]
    · simp only [Tiles, Span.ofLength, List.length_append, Nat.add_assoc]

theorem ChunksText.tiles {chunks : List (Located Chunk)}
    (spelled : ChunksText bareLf offset text chunks) (stands : Stands buffer offset text) :
    Tiles buffer offset (chunks.map fun chunk => (chunk.span, anything)) (offset + text.length) ∧
      ∀ chunk ∈ chunks, ChunkTiles bareLf buffer chunk := by
  have whole {offset : Nat} {text : Bytes} {chunk : Located Chunk}
      (spelled : ChunkText bareLf offset text chunk) :
      chunk.span = Span.ofLength offset text.length := by
    cases spelled <;> rfl
  induction spelled with
  | last spelled isLast =>
    rw [List.map_singleton, whole spelled]
    exact ⟨.cons stands trivial rfl, by simpa using spelled.tiles stands⟩
  | more spelled notLast others ih =>
    obtain ⟨standsChunk, standsRest⟩ := stands_append.mp stands
    obtain ⟨later, inside⟩ := ih standsRest
    rw [List.map_cons, whole spelled, List.length_append, ← Nat.add_assoc]
    refine ⟨.cons standsChunk trivial later, ?_⟩
    intro other member
    rcases List.mem_cons.mp member with rfl | within
    · exact spelled.tiles standsChunk
    · exact inside other within

theorem BodyText.tiles {framing : Framing} {body : Located Body}
    (spelled : BodyText bareLf limit framing offset text body)
    (stands : Stands buffer offset text) :
    body.span = Span.ofLength offset text.length ∧ BodyTiles bareLf buffer body := by
  cases spelled with
  | absent => exact ⟨rfl, rfl⟩
  | sized => exact ⟨rfl, rfl⟩
  | toEnd => exact ⟨rfl, rfl⟩
  | unstated => exact ⟨rfl, rfl⟩
  | chunked spelled =>
    cases spelled with
    | mk chunked sectioned counted =>
      obtain ⟨standsChunks, standsRest⟩ := stands_append.mp stands
      obtain ⟨first, chunkTiles⟩ := chunked.tiles standsChunks
      obtain ⟨⟨emptyLine, -, later⟩, fieldTiles⟩ := sectioned.tiles standsRest
      refine ⟨rfl, emptyLine, ?_, chunkTiles, fieldTiles⟩
      have whole := first.append later
      rwa [Nat.add_assoc, ← List.length_append] at whole

/-- A message is covered as soon as its start line is. -/
theorem messageTiles_of_line {α : Type} {settings : Settings} {spells : Nat → Bytes → α → Prop}
    {parts : α} {fields : Fields} {head : Span} {framing : Framing} {body : Located Body}
    {rest : Bytes} {isLine : List Piece → Prop}
    (headed : HeadText settings spells offset text ⟨(parts, fields), head⟩)
    (followed : BodyText settings.bareLf limit framing (offset + text.length) rest body)
    (stands : Stands buffer offset (text ++ rest))
    (lined : ∀ text, spells offset text parts → Stands buffer offset text →
      ∃ line, isLine line ∧ Tiles buffer offset line (offset + text.length)) :
    ∃ line, isLine line ∧ MessageTiles settings.bareLf buffer line fields head body
      (Span.ofLength offset (text ++ rest).length) := by
  obtain ⟨standsHead, standsBody⟩ := stands_append.mp stands
  obtain ⟨place, bodyTiles⟩ := followed.tiles standsBody
  cases headed with
  | @mk lineText sectionText _ _ spelled sectioned counted =>
    obtain ⟨standsLine, standsSection⟩ := stands_append.mp standsHead
    obtain ⟨line, isLine, first⟩ := lined _ spelled standsLine
    obtain ⟨⟨emptyLine, ends, later⟩, fieldTiles⟩ := sectioned.tiles standsSection
    refine ⟨line, isLine, rfl, ⟨emptyLine, ?_, ?_⟩, fieldTiles, bodyTiles⟩
    · rw [ends, Nat.add_assoc, ← List.length_append]
      rfl
    · have covered := first.append later
      rw [Nat.add_assoc, ← List.length_append] at covered
      refine covered.append ?_
      rw [place]
      refine .cons standsBody trivial ?_
      rw [Nat.add_assoc, ← List.length_append]
      rfl

theorem RequestLineText.tiles {parts : RequestLine}
    (spelled : RequestLineText bareLf offset text parts) (stands : Stands buffer offset text) :
    ∃ line, RequestLinePieces bareLf parts line ∧
      Tiles buffer offset line (offset + text.length) := by
  cases spelled with
  | mk token targeted versioned ended =>
    obtain ⟨standsMethod, stands⟩ := stands_append.mp stands
    obtain ⟨standsFirst, stands⟩ := stands_cons.mp stands
    obtain ⟨standsTarget, stands⟩ := stands_append.mp stands
    obtain ⟨standsSecond, stands⟩ := stands_cons.mp stands
    obtain ⟨standsVersion, standsEnd⟩ := stands_append.mp stands
    refine ⟨_, .mk _ _ _, .cons standsMethod rfl (.cons standsFirst rfl (.cons standsTarget rfl
      (.cons standsSecond rfl (.cons standsVersion rfl (.cons standsEnd ended ?_)))))⟩
    simp only [Tiles, List.length_append, List.length_cons, List.length_nil]
    omega

theorem StatusLineText.tiles {parts : StatusLine}
    (spelled : StatusLineText bareLf offset text parts) (stands : Stands buffer offset text) :
    ∃ line, StatusLinePieces bareLf parts line ∧
      Tiles buffer offset line (offset + text.length) := by
  cases spelled with
  | mk versioned length digits reasoned ended =>
    obtain ⟨standsVersion, stands⟩ := stands_append.mp stands
    obtain ⟨standsSpace, stands⟩ := stands_cons.mp stands
    obtain ⟨standsStatus, stands⟩ := stands_append.mp stands
    cases reasoned with
    | absent =>
      refine ⟨_, .absent _ _ rfl, .cons standsVersion rfl (.cons standsSpace rfl
        (.cons standsStatus ⟨length, digits, rfl⟩ (.cons stands ended ?_)))⟩
      simp only [Tiles, List.length_append, List.length_cons, List.length_nil]
      omega
    | present visible =>
      rw [List.cons_append] at stands
      obtain ⟨standsSecond, stands⟩ := stands_cons.mp stands
      obtain ⟨standsReason, standsEnd⟩ := stands_append.mp stands
      refine ⟨_, .present _ _ _, .cons standsVersion rfl (.cons standsSpace rfl
        (.cons standsStatus ⟨length, digits, rfl⟩ (.cons standsSecond rfl
          (.cons standsReason rfl (.cons standsEnd ended ?_)))))⟩
      simp only [Tiles, List.length_append, List.length_cons, List.length_nil]
      omega

/-- Every part of a message that is read stands where its span says, next to the parts before and
after it. -/
theorem parse_tiles (settings : Settings) (buffer : Bytes) (offset : Int) :
    (∀ message, Request.parse settings buffer offset = .ok message →
      (message.span.start : Int) = offset ∧ RequestTiles settings.bareLf buffer message) ∧
    ∀ hint message, Response.parse settings hint buffer offset = .ok message →
      (message.span.start : Int) = offset ∧ ResponseTiles settings.bareLf buffer message := by
  constructor
  · intro message parsed
    obtain ⟨start, text, rfl, stands, spelled⟩ := Request.parse_sound parsed
    cases spelled with
    | mk headed framed followed =>
      exact ⟨rfl, messageTiles_of_line headed followed stands fun _ => RequestLineText.tiles⟩
  · intro hint message parsed
    obtain ⟨start, text, rfl, stands, spelled⟩ := Response.parse_sound parsed
    cases spelled with
    | mk headed framed followed =>
      exact ⟨rfl, messageTiles_of_line headed followed stands fun _ => StatusLineText.tiles⟩

/-- A request with one field, and a response that runs to the end of its connection. -/
theorem parse_tiles_short_messages :
    (∃ message, Request.parse .standard (Ascii.bytes ['G', 'E', 'T', ' ', '/', ' ', 'H', 'T', 'T',
        'P', '/', '1', '.', '1', '\r', '\n', 'A', ':', ' ', 'b', '\r', '\n', '\r', '\n']) 0 =
          .ok message ∧
      RequestTiles true (Ascii.bytes ['G', 'E', 'T', ' ', '/', ' ', 'H', 'T', 'T', 'P', '/', '1',
        '.', '1', '\r', '\n', 'A', ':', ' ', 'b', '\r', '\n', '\r', '\n']) message) ∧
    ∃ message, Response.parse .standard .readToClose (Ascii.bytes ['H', 'T', 'T', 'P', '/', '1',
        '.', '0', ' ', '2', '0', '0', '\n', '\n', 'o', 'k']) 0 = .ok message ∧
      ResponseTiles true (Ascii.bytes ['H', 'T', 'T', 'P', '/', '1', '.', '0', ' ', '2', '0', '0',
        '\n', '\n', 'o', 'k']) message :=
  ⟨⟨_, rfl, ((parse_tiles .standard _ 0).1 _ rfl).2⟩,
    ⟨_, rfl, ((parse_tiles .standard _ 0).2 .readToClose _ rfl).2⟩⟩

end Http

end WireSpan
