import WireSpan.Proofs.Http.Message

/-! Lone line feeds as line ends. To allow them changes nothing about messages that are read without
them: what has been spelled with both bytes at every line end is spelled as well where a lone line
feed would do, and a spelling is all that reading depends on. -/

namespace WireSpan

/-- The settings with lone line feeds allowed as line ends, or refused. -/
def Settings.withBareLf (settings : Settings) (allowed : Bool) : Settings :=
  { settings with bareLf := allowed }

/-- Whatever the narrow scanner reads, the wide one reads as well, with the same input left. -/
def Scan.Extends {α : Type} (wide narrow : Scan α) : Prop :=
  ∀ ⦃input after : Input⦄ ⦃value : α⦄, narrow input = .ok (value, after) →
    wide input = .ok (value, after)

/-- A scanner extends another one if it reads all spellings of what the other one reads. -/
theorem Scan.Sound.extends {α : Type} {wide narrow : Scan α} {spells : Nat → Bytes → α → Prop}
    (sound : Scan.Sound narrow spells)
    (reads : ∀ offset text value rest, spells offset text value →
      Scan.Reads wide offset text value rest) : wide.Extends narrow := by
  intro input after value read
  obtain ⟨text, passes, spelled⟩ := sound read
  have found := reads _ _ _ after.rest spelled
  unfold Scan.Reads at found
  rwa [← passes.rest, ← passes.offset] at found

namespace Http

open Scan Chunked

variable {bareLf : Bool} {settings : Settings} {limit offset : Nat} {text : Bytes}

section Spelling

theorem LineEndText.lenient (ended : LineEndText bareLf text) : LineEndText true text := by
  cases ended with
  | both => exact .both
  | lone => exact .lone rfl

theorem FieldText.lenient {field : Located Field} (spelled : FieldText bareLf offset text field) :
    FieldText true offset text field := by
  cases spelled with
  | mk named blankBefore visible trimmed blankAfter behind ended =>
    exact .mk named blankBefore visible trimmed blankAfter behind ended.lenient

theorem SectionText.lenient {fields : Fields} (spelled : SectionText bareLf offset text fields) :
    SectionText true offset text fields := by
  induction spelled with
  | done ended => exact .done ended.lenient
  | more first others ih => exact .more first.lenient ih

theorem RequestLineText.lenient {parts : RequestLine}
    (spelled : RequestLineText bareLf offset text parts) :
    RequestLineText true offset text parts := by
  cases spelled with
  | mk token targeted versioned ended => exact .mk token targeted versioned ended.lenient

theorem StatusLineText.lenient {parts : StatusLine}
    (spelled : StatusLineText bareLf offset text parts) :
    StatusLineText true offset text parts := by
  cases spelled with
  | mk versioned length digits reasoned ended =>
    exact .mk versioned length digits reasoned ended.lenient

theorem ChunkText.lenient {chunk : Located Chunk} (spelled : ChunkText bareLf offset text chunk) :
    ChunkText true offset text chunk := by
  cases spelled with
  | last lined ended => exact .last lined ended.lenient
  | data lined nonempty ended closed => exact .data lined nonempty ended.lenient closed.lenient

theorem ChunksText.lenient {chunks : List (Located Chunk)}
    (spelled : ChunksText bareLf offset text chunks) : ChunksText true offset text chunks := by
  induction spelled with
  | last spelled isLast => exact .last spelled.lenient isLast
  | more spelled notLast others ih => exact .more spelled.lenient notLast ih

theorem ChunkedText.lenient {body : Located ChunkedBody}
    (spelled : ChunkedText bareLf limit offset text body) :
    ChunkedText true limit offset text body := by
  cases spelled with
  | mk chunked sectioned counted => exact .mk chunked.lenient sectioned.lenient counted

/-- A head is spelled with line feeds allowed if its start line is. -/
theorem HeadText.lenient {α : Type} {strict spells : Nat → Bytes → α → Prop}
    {x : Located (α × Fields)}
    (startLine : ∀ offset text parts, strict offset text parts → spells offset text parts)
    (spelled : HeadText settings strict offset text x) :
    HeadText (settings.withBareLf true) spells offset text x := by
  cases spelled with
  | mk lined sectioned counted => exact .mk (startLine _ _ _ lined) sectioned.lenient counted

end Spelling

section Reading

/-- Chunked bodies are the only ones with line ends inside. -/
theorem body_extends (settings : Settings) (framing : Framing) :
    (framing.body (settings.withBareLf true)).Extends
      (framing.body (settings.withBareLf false)) := by
  cases framing with
  | chunked =>
    have chunked : (ofMessage (settings.withBareLf true)).Extends
        (ofMessage (settings.withBareLf false)) :=
      ofMessage_sound.extends fun _ _ _ _ spelled => spelled.lenient.reads
    intro input after body read
    obtain ⟨content, mid, found, result⟩ := bind_eq_ok.mp read
    exact bind_eq_ok.mpr ⟨content, mid, chunked found, result⟩
  | _ => exact fun _ _ _ read => read

/-- A reader of messages extends another one if the scanner of its heads does. The head decides
about the framing, and so it is the same. -/
theorem messageReader_extends {α μ : Type} {strict lenient : Scan α}
    {framing : α → Fields → Except Fault Framing} {build : α → Fields → Located Body → Span → μ}
    (heads : (head (settings.withBareLf true) lenient).Extends
      (head (settings.withBareLf false) strict))
    {buffer : Bytes} {offset : Int} {message : Located μ}
    (parsed : (messageReader (settings.withBareLf false) strict framing build).run buffer offset =
      .ok message) :
    (messageReader (settings.withBareLf true) lenient framing build).run buffer offset =
      .ok message := by
  obtain ⟨input, after, placed, read⟩ := run_eq_ok.mp parsed
  obtain ⟨⟨⟨⟨line, fields⟩, span⟩, mid⟩, headRead, later⟩ := except_bind_eq_ok.mp read
  obtain ⟨announced, framed, later⟩ := except_bind_eq_ok.mp later
  obtain ⟨body, bodyRead, result⟩ := except_bind_eq_ok.mp later
  have headAgain := ofScan_eq_ok.mpr (heads (ofScan_eq_ok.mp headRead))
  have bodyAgain := ofScan_eq_ok.mpr (body_extends settings announced (ofScan_eq_ok.mp bodyRead))
  refine run_eq_ok.mpr ⟨input, after, placed, except_bind_eq_ok.mpr ⟨_, headAgain, ?_⟩⟩
  exact except_bind_eq_ok.mpr ⟨_, framed, except_bind_eq_ok.mpr ⟨_, bodyAgain, result⟩⟩

/-- Messages that are accepted while a line has to end with both bytes are accepted with the same
tree, to its last span, where a lone line feed is enough. -/
theorem parse_withBareLf (settings : Settings) (buffer : Bytes) (offset : Int) :
    (∀ message, Request.parse (settings.withBareLf false) buffer offset = .ok message →
      Request.parse (settings.withBareLf true) buffer offset = .ok message) ∧
    ∀ hint message, Response.parse (settings.withBareLf false) hint buffer offset = .ok message →
      Response.parse (settings.withBareLf true) hint buffer offset = .ok message := by
  constructor
  · intro message parsed
    rw [Request.parse, Request.read_eq] at parsed ⊢
    refine messageReader_extends ((head_sound requestLine_sound).extends ?_) parsed
    intro _ _ _ _ headed
    have lenient := headed.lenient fun _ _ _ => RequestLineText.lenient
    exact lenient.reads fun _ _ _ => RequestLineText.reads
  · intro hint message parsed
    rw [Response.parse, Response.read_eq] at parsed ⊢
    refine messageReader_extends ((head_sound statusLine_sound).extends ?_) parsed
    intro _ _ _ _ headed
    have lenient := headed.lenient fun _ _ _ => StatusLineText.lenient
    exact lenient.reads fun _ _ _ => StatusLineText.reads

/-- A request with a line feed as its only byte of content, and a response with one as the first. -/
theorem parse_withBareLf_line_feed_as_content :
    (∃ request, Request.parse (Settings.standard.withBareLf false) (Ascii.bytes ['A', ' ', '/', ' ',
        'H', 'T', 'T', 'P', '/', '1', '.', '1', '\r', '\n', 'C', 'o', 'n', 't', 'e', 'n', 't', '-',
        'L', 'e', 'n', 'g', 't', 'h', ':', '1', '\r', '\n', '\r', '\n', '\n']) 0 = .ok request ∧
      Request.parse (Settings.standard.withBareLf true) (Ascii.bytes ['A', ' ', '/', ' ', 'H', 'T',
        'T', 'P', '/', '1', '.', '1', '\r', '\n', 'C', 'o', 'n', 't', 'e', 'n', 't', '-', 'L', 'e',
        'n', 'g', 't', 'h', ':', '1', '\r', '\n', '\r', '\n', '\n']) 0 = .ok request) ∧
    ∃ response, Response.parse (Settings.standard.withBareLf false) .readToClose (Ascii.bytes ['H',
        'T', 'T', 'P', '/', '1', '.', '0', ' ', '2', '0', '0', '\r', '\n', '\r', '\n', '\n',
        'x']) 0 = .ok response ∧
      Response.parse (Settings.standard.withBareLf true) .readToClose (Ascii.bytes ['H', 'T', 'T',
        'P', '/', '1', '.', '0', ' ', '2', '0', '0', '\r', '\n', '\r', '\n', '\n', 'x']) 0 =
          .ok response := by
  constructor
  · apply Exists.imp fun request parsed =>
      ⟨parsed, (parse_withBareLf .standard _ 0).1 request parsed⟩
    exact ⟨_, rfl⟩
  · apply Exists.imp fun response parsed =>
      ⟨parsed, (parse_withBareLf .standard _ 0).2 .readToClose response parsed⟩
    exact ⟨_, rfl⟩

end Reading

end Http

end WireSpan
