import WireSpan.Proofs.Http.Spelling.Chunked
import WireSpan.Proofs.Text.Hexadecimal

/-! Chunked bodies are well structured: what each chunk says of its own parts, how the chunks and
the trailer fields follow one another, and what the content spans of the whole body give. -/

namespace WireSpan

theorem Span.length_of_extract? {span : Span} {buffer bytes : Bytes}
    (found : span.extract? buffer = .ok bytes) : bytes.length = span.length :=
  (Span.extract?_eq_ok_iff.mp found).2

/-- Spans that can each be taken out of a buffer can be taken out of it together. -/
theorem extract_all {buffer : Bytes} {spans : List Span}
    (found : ∀ span ∈ spans, ∃ bytes, span.extract? buffer = .ok bytes) :
    ∃ pieces, spans.mapM (·.extract? buffer) = .ok pieces ∧
      pieces.flatten.length = (spans.map Span.length).sum := by
  induction spans with
  | nil => exact ⟨[], rfl, rfl⟩
  | cons span spans ih =>
    obtain ⟨⟨bytes, first⟩, later⟩ := List.forall_mem_cons.mp found
    obtain ⟨pieces, others, total⟩ := ih later
    refine ⟨bytes :: pieces, ?_, ?_⟩
    · rw [List.mapM_cons, first, others]
      rfl
    · rw [List.flatten_cons, List.length_append, span.length_of_extract? first, total,
        List.map_cons, List.sum_cons]

namespace Http

/-- The bytes of a chunk extension: a semicolon, and whatever follows it on its line. -/
structure ExtensionBytes (bytes : Bytes) : Prop where
  semicolon : bytes.head? = some (Ascii.byte ';')
  inLine : ∀ b ∈ bytes, b ≠ Ascii.carriageReturn ∧ b ≠ Ascii.lineFeed

/-- The digits of a size, of which there are at most sixteen. -/
structure SizeDigits (size : Nat) (bytes : Bytes) : Prop where
  hex : RunText Ascii.isHexDigit bytes
  fits : bytes.length ≤ 16
  value : Ascii.hexNumber bytes = size

/-- A size line is made of digits, blanks and, where there is one, the extension. -/
def SizeLineLayout (buffer : Bytes) (chunk : Chunk) : Prop :=
  ∃ digits blank : Span,
    Tiles buffer chunk.sizeLine.start
      ((digits, SizeDigits chunk.size) :: (blank, SpacingText) ::
        (chunk.extensions.map fun span => (span, ExtensionBytes)).toList)
      chunk.sizeLine.stop

/-- What holds of one chunk. Only the last chunk of a body has size zero. -/
structure ChunkLayout (bareLf : Bool) (buffer : Bytes) (chunk : Located Chunk) : Prop where
  sizeLine : SizeLineLayout buffer chunk.value
  bounded : chunk.value.size < Nat.pow 2 64
  length : chunk.value.size = chunk.value.data.length
  lastTiles : chunk.value.size = 0 → ∃ ending : Span,
    Tiles buffer chunk.span.start
      [(chunk.value.sizeLine, anything), (ending, LineEndText bareLf)] chunk.span.stop
  dataTiles : chunk.value.size ≠ 0 → ∃ ending final : Span,
    Tiles buffer chunk.span.start
      [(chunk.value.sizeLine, anything), (ending, LineEndText bareLf),
        (chunk.value.data, anything), (final, LineEndText bareLf)] chunk.span.stop

/-- What holds of a chunked body. -/
structure ChunkedLayout (bareLf : Bool) (buffer : Bytes) (body : Located ChunkedBody) : Prop where
  ended : ∃ before last, body.value.chunks = before ++ [last] ∧ last.value.size = 0 ∧
    ∀ chunk ∈ before, chunk.value.size ≠ 0
  tiles : ∃ emptyLine : Span,
    Tiles buffer body.span.start
      (body.value.chunks.map (fun chunk => (chunk.span, anything)) ++
        sectionPieces bareLf body.value.trailers emptyLine)
      body.span.stop
  chunks : ∀ chunk ∈ body.value.chunks, ChunkLayout bareLf buffer chunk
  trailers : ∀ field ∈ body.value.trailers, FieldTiles bareLf buffer field
  content : body.value.contentSpans =
    (body.value.chunks.map (·.value.data)).filter (!·.isEmpty)
  ordered : body.value.contentSpans.Pairwise fun span later => span.stop ≤ later.start
  inside : ∀ span ∈ body.value.contentSpans, body.span.contains span = true
  decoded : ∃ pieces, body.value.contentSpans.mapM (·.extract? buffer) = .ok pieces ∧
    (Body.chunked body.value).payload buffer = pieces.flatten ∧
    pieces.flatten.length = body.value.length

variable {bareLf : Bool} {buffer text : Bytes} {offset limit : Nat}

theorem ExtensionsText.layout {extensions : Option Span}
    (extended : ExtensionsText offset text extensions) (stands : Stands buffer offset text) :
    Tiles buffer offset (extensions.map fun span => (span, ExtensionBytes)).toList
      (offset + text.length) := by
  cases extended with
  | absent => exact rfl
  | present inside =>
    refine .cons stands ⟨rfl, ?_⟩ rfl
    exact List.forall_mem_cons.mpr ⟨by decide, inside⟩

theorem SizeLineText.layout {line : Chunked.SizeLine} {data : Span}
    (lined : SizeLineText offset text line) (stands : Stands buffer offset text) :
    SizeLineLayout buffer ⟨line.size, Span.ofLength offset text.length, line.extensions, data⟩ ∧
      line.size < Nat.pow 2 64 := by
  cases lined with
  | @mk digits blank text extensions sized fits spaced extended =>
    obtain ⟨standsDigits, stands⟩ := stands_append.mp stands
    obtain ⟨standsBlank, standsExtension⟩ := stands_append.mp stands
    constructor
    · refine ⟨_, _, .cons standsDigits ⟨sized, fits, rfl⟩ (.cons standsBlank spaced ?_)⟩
      have whole := extended.layout standsExtension
      simpa only [Span.ofLength, List.length_append, Nat.add_assoc] using whole
    · calc Ascii.hexNumber digits
        _ < Nat.pow 16 digits.length := Ascii.hexNumber_lt sized.all
        _ ≤ Nat.pow 16 16 := Nat.pow_le_pow_right (by decide) fits
        _ = Nat.pow 2 64 := by decide

theorem ChunkText.layout {chunk : Located Chunk} (spelled : ChunkText bareLf offset text chunk)
    (stands : Stands buffer offset text) : ChunkLayout bareLf buffer chunk := by
  cases spelled with
  | @last line ending extensions lined ended =>
    obtain ⟨standsLine, standsEnd⟩ := stands_append.mp stands
    obtain ⟨sizeLine, bounded⟩ := lined.layout standsLine
    refine ⟨sizeLine, bounded, ?_, ?_, fun nonzero => absurd rfl nonzero⟩
    · simp only [Span.emptyAt, Span.length, Nat.sub_self]
    · refine fun _ => ⟨_, .cons standsLine trivial (.cons standsEnd ended ?_)⟩
      simp only [Tiles, Span.ofLength, List.length_append, Nat.add_assoc]
  | @data line ending data final extensions lined nonempty ended closed =>
    obtain ⟨standsLine, stands⟩ := stands_append.mp stands
    obtain ⟨standsEnd, stands⟩ := stands_append.mp stands
    obtain ⟨standsData, standsFinal⟩ := stands_append.mp stands
    obtain ⟨sizeLine, bounded⟩ := lined.layout standsLine
    refine ⟨sizeLine, bounded, ?_, ?_, ?_⟩
    · simp only [Span.ofLength, Span.length, Nat.add_sub_cancel_left]
    · exact fun zero => absurd (List.eq_nil_of_length_eq_zero zero) nonempty
    · refine fun _ => ⟨_, _, .cons standsLine trivial (.cons standsEnd ended
        (.cons standsData trivial (.cons standsFinal closed ?_)))⟩
      simp only [Tiles, Span.ofLength, List.length_append, Nat.add_assoc]

theorem ChunksText.layout {chunks : List (Located Chunk)}
    (spelled : ChunksText bareLf offset text chunks) (stands : Stands buffer offset text) :
    (∃ before last, chunks = before ++ [last] ∧ last.value.size = 0 ∧
      ∀ chunk ∈ before, chunk.value.size ≠ 0) ∧
    ∀ chunk ∈ chunks, ChunkLayout bareLf buffer chunk := by
  induction spelled with
  | @last offset text chunk spelled isLast =>
    refine ⟨⟨[], chunk, rfl, eq_of_beq isLast, nofun⟩, ?_⟩
    exact List.forall_mem_singleton.mpr (spelled.layout stands)
  | @more offset text rest chunk chunks spelled notLast others ih =>
    obtain ⟨standsChunk, standsRest⟩ := stands_append.mp stands
    obtain ⟨⟨before, last, rfl, zero, nonzero⟩, later⟩ := ih standsRest
    refine ⟨⟨chunk :: before, last, rfl, zero, ?_⟩, ?_⟩
    · exact List.forall_mem_cons.mpr ⟨beq_eq_false_iff_ne.mp notLast, nonzero⟩
    · exact List.forall_mem_cons.mpr ⟨spelled.layout standsChunk, later⟩

/-- The data of a chunk that has any lie inside the chunk, and can be taken out of the buffer. -/
theorem ChunkLayout.data_inside {chunk : Located Chunk} (layout : ChunkLayout bareLf buffer chunk)
    (nonzero : chunk.value.size ≠ 0) :
    chunk.span.start ≤ chunk.value.data.start ∧ chunk.value.data.stop ≤ chunk.span.stop ∧
      ∃ bytes, chunk.value.data.extract? buffer = .ok bytes := by
  obtain ⟨ending, final, tiles⟩ := layout.dataTiles nonzero
  obtain ⟨after, before, bytes, found, -⟩ :=
    tiles.mem (List.mem_cons_of_mem _ (List.mem_cons_of_mem _ List.mem_cons_self))
  exact ⟨after, before, bytes, found⟩

/-- A chunk has data iff it is not the last. -/
theorem ChunkLayout.isLast_eq {chunk : Located Chunk} (layout : ChunkLayout bareLf buffer chunk) :
    chunk.value.isLast = chunk.value.data.isEmpty := by
  have ordered := chunk.value.data.ordered
  have length := layout.length
  rw [Span.length] at length
  rw [Chunk.isLast, Span.isEmpty, Bool.eq_iff_iff, beq_iff_eq, beq_iff_eq]
  omega

/-- The content spans of chunks are those of their data spans that are not empty. -/
theorem contentSpans_eq {body : ChunkedBody}
    (layouts : ∀ chunk ∈ body.chunks, ChunkLayout bareLf buffer chunk) :
    body.contentSpans = (body.chunks.map (·.value.data)).filter (!·.isEmpty) := by
  rw [ChunkedBody.contentSpans, List.filter_map]
  congr 1
  refine List.filter_congr fun chunk member => ?_
  rw [(layouts chunk member).isLast_eq, Function.comp_apply]

/-- The last chunk has no data, so leaving it out leaves the sum of the sizes as it is. -/
theorem sum_contentSpans {chunks : List (Located Chunk)}
    (layouts : ∀ chunk ∈ chunks, ChunkLayout bareLf buffer chunk) :
    ((chunks.filter (!·.value.isLast)).map (·.value.data.length)).sum =
      (chunks.map (·.value.size)).sum := by
  induction chunks with
  | nil => rfl
  | cons chunk chunks ih =>
    obtain ⟨layout, later⟩ := List.forall_mem_cons.mp layouts
    rw [List.map_cons, List.sum_cons, List.filter_cons, ← ih later]
    cases isLast : chunk.value.isLast with
    | true =>
      have zero : chunk.value.size = 0 := eq_of_beq isLast
      rw [zero, Nat.zero_add]
      rfl
    | false =>
      rw [layout.length]
      rfl

/-- Chunks of which each has its layout, and that follow one another inside a body, have their
content spans in the same order inside it. -/
theorem content_of_tiles (body : Located ChunkedBody) {others : List Piece}
    (tiles : Tiles buffer body.span.start
      (body.value.chunks.map (fun chunk => (chunk.span, anything)) ++ others) body.span.stop)
    (layouts : ∀ chunk ∈ body.value.chunks, ChunkLayout bareLf buffer chunk) :
    (body.value.contentSpans.Pairwise fun span later => span.stop ≤ later.start) ∧
      ∀ span ∈ body.value.contentSpans, body.span.contains span = true ∧
        ∃ bytes, span.extract? buffer = .ok bytes := by
  have nonzero {chunk : Located Chunk} (has : (!chunk.value.isLast) = true) :
      chunk.value.size ≠ 0 := by
    simpa [Chunk.isLast] using has
  constructor
  · have apart := (List.pairwise_append.mp tiles.pairwise).1
    rw [List.pairwise_map] at apart
    rw [ChunkedBody.contentSpans, List.pairwise_map]
    refine List.Pairwise.imp_of_mem ?_ (apart.filter _)
    intro chunk later member memberLater follows
    obtain ⟨present, has⟩ := List.mem_filter.mp member
    obtain ⟨presentLater, hasLater⟩ := List.mem_filter.mp memberLater
    have before := ((layouts chunk present).data_inside (nonzero has)).2.1
    have after := ((layouts later presentLater).data_inside (nonzero hasLater)).1
    exact Nat.le_trans before (Nat.le_trans follows after)
  · intro span member
    obtain ⟨chunk, kept, rfl⟩ := List.mem_map.mp member
    obtain ⟨present, has⟩ := List.mem_filter.mp kept
    obtain ⟨after, before, found⟩ := (layouts chunk present).data_inside (nonzero has)
    obtain ⟨starts, stops, -⟩ :=
      tiles.mem (List.mem_append_left _ (List.mem_map.mpr ⟨chunk, present, rfl⟩))
    refine ⟨?_, found⟩
    rw [Span.contains, Bool.and_eq_true, decide_eq_true_eq, decide_eq_true_eq]
    exact ⟨Nat.le_trans starts after, Nat.le_trans before stops⟩

theorem BodyText.layout {framing : Framing} {body : Located Body} {inner : ChunkedBody}
    (spelled : BodyText bareLf limit framing offset text body)
    (stands : Stands buffer offset text) (chunked : body.value = .chunked inner) :
    ChunkedLayout bareLf buffer ⟨inner, body.span⟩ := by
  obtain ⟨-, bodyTiles⟩ := spelled.tiles stands
  rw [BodyTiles, chunked] at bodyTiles
  obtain ⟨emptyLine, tiles, -, trailers⟩ := bodyTiles
  have layouts : (∃ before last, inner.chunks = before ++ [last] ∧ last.value.size = 0 ∧
      ∀ chunk ∈ before, chunk.value.size ≠ 0) ∧
      ∀ chunk ∈ inner.chunks, ChunkLayout bareLf buffer chunk := by
    cases spelled with
    | absent | sized | toEnd | unstated => cases chunked
    | chunked spelled =>
      cases spelled with
      | mk spelledChunks =>
        cases chunked
        exact spelledChunks.layout (stands_append.mp stands).1
  obtain ⟨ended, chunks⟩ := layouts
  obtain ⟨ordered, inside⟩ := content_of_tiles ⟨inner, body.span⟩ tiles chunks
  obtain ⟨pieces, extracted, length⟩ := extract_all fun span member => (inside span member).2
  have total : (inner.contentSpans.map Span.length).sum = inner.length := by
    rw [ChunkedBody.contentSpans, List.map_map]
    exact sum_contentSpans chunks
  exact
    { ended := ended
      tiles := ⟨emptyLine, tiles⟩
      chunks := chunks
      trailers := trailers
      content := contentSpans_eq chunks
      ordered := ordered
      inside := fun span member => (inside span member).1
      decoded := ⟨pieces, extracted, flatMap_slice extracted, length.trans total⟩ }

/-- Every chunked body that is read has its layout, in a request and in a response. -/
theorem parse_chunked_layout (settings : Settings) (buffer : Bytes) (offset : Int) :
    (∀ message body, Request.parse settings buffer offset = .ok message →
      message.value.body.value = .chunked body →
      ChunkedLayout settings.bareLf buffer ⟨body, message.value.body.span⟩) ∧
    ∀ hint message body, Response.parse settings hint buffer offset = .ok message →
      message.value.body.value = .chunked body →
      ChunkedLayout settings.bareLf buffer ⟨body, message.value.body.span⟩ := by
  constructor
  · intro message body parsed chunked
    obtain ⟨start, text, rfl, stands, spelled⟩ := Request.parse_sound parsed
    cases spelled with
    | mk headed framed followed =>
      exact followed.layout (stands_append.mp stands).2 chunked
  · intro hint message body parsed chunked
    obtain ⟨start, text, rfl, stands, spelled⟩ := Response.parse_sound parsed
    cases spelled with
    | mk headed framed followed =>
      exact followed.layout (stands_append.mp stands).2 chunked

/-- A response with a chunked body, as running the parse finds it. -/
theorem exists_chunked {parsed : Except Fault (Located Response)}
    (found : parsed.toOption.any (·.value.body.value matches .chunked _) = true) :
    ∃ message body, parsed = .ok message ∧ message.value.body.value = .chunked body := by
  cases parsed with
  | error fault => cases found
  | ok message =>
    cases form : message.value.body.value with
    | chunked body => exact ⟨message, body, rfl, form⟩
    | empty | sized | toEnd => simp [Except.toOption, form] at found

/-- A chunk with an extension and one byte of data, then the last chunk and a trailer field. -/
theorem parse_chunked_layout_extension_and_trailer :
    ∃ message body, Response.parse .standard .readToClose (Ascii.bytes ['H', 'T', 'T', 'P', '/',
        '1', '.', '1', ' ', '2', '0', '0', '\n', 'T', 'r', 'a', 'n', 's', 'f', 'e', 'r', '-', 'E',
        'n', 'c', 'o', 'd', 'i', 'n', 'g', ':', 'c', 'h', 'u', 'n', 'k', 'e', 'd', '\n', '\n', '1',
        ';', 'x', '\n', 'y', '\n', '0', '\n', 'A', ':', 'b', '\n', '\n']) 0 = .ok message ∧
      message.value.body.value = .chunked body ∧
      ChunkedLayout true (Ascii.bytes ['H', 'T', 'T', 'P', '/', '1', '.', '1', ' ', '2', '0', '0',
        '\n', 'T', 'r', 'a', 'n', 's', 'f', 'e', 'r', '-', 'E', 'n', 'c', 'o', 'd', 'i', 'n', 'g',
        ':', 'c', 'h', 'u', 'n', 'k', 'e', 'd', '\n', '\n', '1', ';', 'x', '\n', 'y', '\n', '0',
        '\n', 'A', ':', 'b', '\n', '\n']) ⟨body, message.value.body.span⟩ := by
  refine Exists.imp (fun message => Exists.imp fun body (found : _ ∧ _) => ⟨found.1, found.2,
    (parse_chunked_layout .standard _ 0).2 .readToClose message body found.1 found.2⟩)
    (exists_chunked ?_)
  decide +kernel

end Http

end WireSpan
