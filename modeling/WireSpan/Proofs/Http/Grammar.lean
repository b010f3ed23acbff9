import WireSpan.Http.Reader

/-! The grammar of messages (RFC 9112), as relations between bytes and what they spell. Each
relation takes the offset of the text, since what is read records where its parts stand. `bareLf`
says whether a lone line feed ends a line too. -/

namespace WireSpan.Http

/-- One or more bytes of a class. -/
structure RunText (accepts : UInt8 → Bool) (text : Bytes) : Prop where
  nonempty : text ≠ []
  all : ∀ b ∈ text, accepts b = true

/-- `OWS`: any number of spaces and tabs. -/
def SpacingText (text : Bytes) : Prop := ∀ b ∈ text, Ascii.isSpaceOrTab b = true

/-- Text with neither a space nor a tab at either end. -/
structure Trimmed (text : Bytes) : Prop where
  head : ∀ b ∈ text.head?, Ascii.isSpaceOrTab b = false
  last : ∀ b ∈ text.getLast?, Ascii.isSpaceOrTab b = false

/-- The end of a line. -/
inductive LineEndText (bareLf : Bool) : Bytes → Prop where
  | both : LineEndText bareLf Ascii.crlf
  | lone (allowed : bareLf = true) : LineEndText bareLf [Ascii.lineFeed]

/-- `field-line` with its line end. An empty value stands behind all the blanks of its line. -/
inductive FieldText (bareLf : Bool) : Nat → Bytes → Located Field → Prop where
  | mk {offset : Nat} {name before value after ending : Bytes} (named : RunText isTokenByte name)
      (blankBefore : SpacingText before) (visible : ∀ b ∈ value, isFieldByte b = true)
      (trimmed : Trimmed value) (blankAfter : SpacingText after)
      (behind : value = [] → after = []) (ended : LineEndText bareLf ending) :
      FieldText bareLf offset (name ++ Ascii.byte ':' :: (before ++ (value ++ (after ++ ending))))
        ⟨⟨⟨Ascii.latin1 name, Span.ofLength offset name.length⟩,
            ⟨value, Span.ofLength (offset + name.length + 1 + before.length) value.length⟩⟩,
          Span.ofLength offset
            (name ++ Ascii.byte ':' :: (before ++ (value ++ (after ++ ending)))).length⟩

/-- Field lines and the empty line after them. -/
inductive SectionText (bareLf : Bool) : Nat → Bytes → Fields → Prop where
  | done {offset : Nat} {ending : Bytes} (ended : LineEndText bareLf ending) :
      SectionText bareLf offset ending []
  | more {offset : Nat} {text rest : Bytes} {field : Located Field} {fields : Fields}
      (first : FieldText bareLf offset text field)
      (others : SectionText bareLf (offset + text.length) rest fields) :
      SectionText bareLf offset (text ++ rest) (field :: fields)

/-- `HTTP-version`. -/
inductive VersionText : Bytes → Prop where
  | mk {major minor : UInt8} (digits : ∀ b ∈ [major, minor], Ascii.isDigit b = true) :
      VersionText (Ascii.bytes ['H', 'T', 'T', 'P', '/'] ++ [major, Ascii.byte '.', minor])

/-- `request-line` with its line end. -/
inductive RequestLineText (bareLf : Bool) : Nat → Bytes → RequestLine → Prop where
  | mk {offset : Nat} {method target version ending : Bytes} (token : RunText isTokenByte method)
      (targeted : RunText isTargetByte target) (versioned : VersionText version)
      (ended : LineEndText bareLf ending) :
      RequestLineText bareLf offset
        (method ++ Ascii.space :: (target ++ Ascii.space :: (version ++ ending)))
        ⟨⟨Ascii.latin1 method, Span.ofLength offset method.length⟩,
          ⟨Ascii.latin1 target, Span.ofLength (offset + method.length + 1) target.length⟩,
          ⟨Ascii.latin1 version,
            Span.ofLength (offset + method.length + 1 + target.length + 1) version.length⟩⟩

/-- What stands between the status and the line end: nothing, or a space and the reason. -/
inductive ReasonText : Nat → Bytes → Located String → Prop where
  | absent {offset : Nat} : ReasonText offset [] ⟨"", Span.emptyAt offset⟩
  | present {offset : Nat} {reason : Bytes} (visible : ∀ b ∈ reason, isFieldByte b = true) :
      ReasonText offset (Ascii.space :: reason)
        ⟨Ascii.latin1 reason, Span.ofLength (offset + 1) reason.length⟩

/-- `status-line` with its line end. -/
inductive StatusLineText (bareLf : Bool) : Nat → Bytes → StatusLine → Prop where
  | mk {offset : Nat} {version status reason ending : Bytes} {phrase : Located String}
      (versioned : VersionText version) (length : status.length = 3)
      (digits : ∀ b ∈ status, Ascii.isDigit b = true)
      (reasoned : ReasonText (offset + version.length + 1 + status.length) reason phrase)
      (ended : LineEndText bareLf ending) :
      StatusLineText bareLf offset
        (version ++ Ascii.space :: (status ++ (reason ++ ending)))
        ⟨⟨Ascii.latin1 version, Span.ofLength offset version.length⟩,
          ⟨Ascii.decimalNumber status, Span.ofLength (offset + version.length + 1) status.length⟩,
          phrase⟩

/-- `chunk-ext`, which may be missing. -/
inductive ExtensionsText : Nat → Bytes → Option Span → Prop where
  | absent {offset : Nat} : ExtensionsText offset [] none
  | present {offset : Nat} {text : Bytes}
      (inside : ∀ b ∈ text, b ≠ Ascii.carriageReturn ∧ b ≠ Ascii.lineFeed) :
      ExtensionsText offset (Ascii.byte ';' :: text)
        (some (Span.ofLength offset (Ascii.byte ';' :: text).length))

/-- `chunk-size` and what may follow it on its line. -/
inductive SizeLineText : Nat → Bytes → Chunked.SizeLine → Prop where
  | mk {offset : Nat} {digits blank text : Bytes} {extensions : Option Span}
      (sized : RunText Ascii.isHexDigit digits) (fits : digits.length ≤ Chunked.maxSizeDigits)
      (spaced : SpacingText blank)
      (extended : ExtensionsText (offset + digits.length + blank.length) text extensions) :
      SizeLineText offset (digits ++ (blank ++ text)) ⟨Ascii.hexNumber digits, extensions⟩

/-- `chunk` or `last-chunk`. -/
inductive ChunkText (bareLf : Bool) : Nat → Bytes → Located Chunk → Prop where
  | last {offset : Nat} {line ending : Bytes} {extensions : Option Span}
      (lined : SizeLineText offset line ⟨0, extensions⟩) (ended : LineEndText bareLf ending) :
      ChunkText bareLf offset (line ++ ending)
        ⟨⟨0, Span.ofLength offset line.length, extensions,
            Span.emptyAt (offset + line.length + ending.length)⟩,
          Span.ofLength offset (line ++ ending).length⟩
  | data {offset : Nat} {line ending data final : Bytes} {extensions : Option Span}
      (lined : SizeLineText offset line ⟨data.length, extensions⟩) (nonempty : data ≠ [])
      (ended : LineEndText bareLf ending) (closed : LineEndText bareLf final) :
      ChunkText bareLf offset (line ++ (ending ++ (data ++ final)))
        ⟨⟨data.length, Span.ofLength offset line.length, extensions,
            Span.ofLength (offset + line.length + ending.length) data.length⟩,
          Span.ofLength offset (line ++ (ending ++ (data ++ final))).length⟩

/-- Chunks of which exactly the last has no data. -/
inductive ChunksText (bareLf : Bool) : Nat → Bytes → List (Located Chunk) → Prop where
  | last {offset : Nat} {text : Bytes} {chunk : Located Chunk}
      (spelled : ChunkText bareLf offset text chunk) (isLast : chunk.value.isLast = true) :
      ChunksText bareLf offset text [chunk]
  | more {offset : Nat} {text rest : Bytes} {chunk : Located Chunk} {chunks : List (Located Chunk)}
      (spelled : ChunkText bareLf offset text chunk) (notLast : chunk.value.isLast = false)
      (others : ChunksText bareLf (offset + text.length) rest chunks) :
      ChunksText bareLf offset (text ++ rest) (chunk :: chunks)

/-- `chunked-body`. -/
inductive ChunkedText (bareLf : Bool) (limit : Nat) : Nat → Bytes → Located ChunkedBody → Prop where
  | mk {offset : Nat} {text rest : Bytes} {chunks : List (Located Chunk)} {trailers : Fields}
      (chunked : ChunksText bareLf offset text chunks)
      (sectioned : SectionText bareLf (offset + text.length) rest trailers)
      (counted : trailers.length ≤ limit) :
      ChunkedText bareLf limit offset (text ++ rest)
        ⟨⟨chunks, trailers⟩, Span.ofLength offset (text ++ rest).length⟩

/-- A chunked body outside any message: its lines end with both bytes, and no field follows its
chunks. -/
inductive PlainChunkedText : Nat → Bytes → Located ChunkedBody → Prop where
  | mk {offset : Nat} {text : Bytes} {chunks : List (Located Chunk)}
      (chunked : ChunksText false offset text chunks) :
      PlainChunkedText offset (text ++ Ascii.crlf)
        ⟨⟨chunks, []⟩, Span.ofLength offset (text ++ Ascii.crlf).length⟩

/-- `message-body`, by the framing that the head announces. -/
inductive BodyText (bareLf : Bool) (limit : Nat) : Framing → Nat → Bytes → Located Body → Prop where
  | absent {offset : Nat} :
      BodyText bareLf limit .absent offset [] ⟨.empty, Span.emptyAt offset⟩
  | sized {offset : Nat} {content : Bytes} :
      BodyText bareLf limit (.sized content.length) offset content
        ⟨.sized (Span.ofLength offset content.length), Span.ofLength offset content.length⟩
  | chunked {offset : Nat} {text : Bytes} {body : Located ChunkedBody}
      (spelled : ChunkedText bareLf limit offset text body) :
      BodyText bareLf limit .chunked offset text (body.map .chunked)
  | toEnd {offset : Nat} {content : Bytes} :
      BodyText bareLf limit .toEnd offset content
        ⟨.toEnd (Span.ofLength offset content.length), Span.ofLength offset content.length⟩
  | unstated {offset : Nat} :
      BodyText bareLf limit .unstated offset [] ⟨.empty, Span.emptyAt offset⟩

/-- A start line and the field section after it. -/
inductive HeadText {α : Type} (settings : Settings) (startLine : Nat → Bytes → α → Prop) :
    Nat → Bytes → Located (α × Fields) → Prop where
  | mk {offset : Nat} {line rest : Bytes} {parts : α} {fields : Fields}
      (lined : startLine offset line parts)
      (sectioned : SectionText settings.bareLf (offset + line.length) rest fields)
      (counted : fields.length ≤ settings.fieldLimit) :
      HeadText settings startLine offset (line ++ rest)
        ⟨(parts, fields), Span.ofLength offset (line ++ rest).length⟩

/-- A whole message, by its kind of start line, the framing that its head announces and the way its
parts are put together. -/
inductive MessageText {α μ : Type} (settings : Settings) (startLine : Nat → Bytes → α → Prop)
    (framing : α → Fields → Except Fault Framing) (build : α → Fields → Located Body → Span → μ) :
    Nat → Bytes → Located μ → Prop where
  | mk {offset : Nat} {text rest : Bytes} {line : α} {fields : Fields} {head : Span}
      {announced : Framing} {body : Located Body}
      (headed : HeadText settings startLine offset text ⟨(line, fields), head⟩)
      (framed : framing line fields = .ok announced)
      (followed : BodyText settings.bareLf settings.fieldLimit announced (offset + text.length) rest
        body) :
      MessageText settings startLine framing build offset (text ++ rest)
        ⟨build line fields body head, Span.ofLength offset (text ++ rest).length⟩

/-- The request with a given request line. -/
def RequestLine.message (line : RequestLine) (fields : Fields) (body : Located Body) (head : Span) :
    Request := ⟨line.method, line.target, line.version, fields, body, head⟩

/-- The response with a given status line. -/
def StatusLine.message (line : StatusLine) (fields : Fields) (body : Located Body) (head : Span) :
    Response := ⟨line.version, line.status, line.reason, fields, body, head⟩

/-- `HTTP-message` with a request line. -/
abbrev RequestText (settings : Settings) : Nat → Bytes → Located Request → Prop :=
  MessageText settings (RequestLineText settings.bareLf) (fun _ => requestFraming)
    RequestLine.message

/-- `HTTP-message` with a status line, for what the caller knows about its connection. -/
abbrev ResponseText (settings : Settings) (hint : Hint) : Nat → Bytes → Located Response → Prop :=
  MessageText settings (StatusLineText settings.bareLf)
    (fun line fields => responseFraming fields line.status.value hint) StatusLine.message

end WireSpan.Http
