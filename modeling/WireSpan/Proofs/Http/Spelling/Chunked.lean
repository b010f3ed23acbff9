import Mathlib.Data.List.Basic
import Mathlib.Data.List.Induction
import Mathlib.Data.Nat.Digits.Defs
import WireSpan.Proofs.Http.Spelling.Fields
import WireSpan.Proofs.Http.Tiling

/-! Every chunked body that a sender may write is read back as its chunks, and its payload is put
together from theirs. -/

namespace WireSpan.Http

open Scan

variable {bareLf : Bool} {offset : Nat}

/-- The byte of a hexadecimal digit, of which those above nine come in two letter cases. -/
def hexByte (digit : Fin 16) (upper : Bool) : UInt8 :=
  UInt8.ofNat (if digit < 10 then 0x30 + digit else if upper then 0x37 + digit else 0x57 + digit)

private theorem hexByte_spec : ∀ (digit : Fin 16) (upper : Bool),
    Ascii.isHexDigit (hexByte digit upper) = true ∧
      Ascii.hexValue (hexByte digit upper) = digit := by
  decide

/-- Digits, each with the letter case that it is written in. -/
abbrev HexDigits := List (Fin 16 × Bool)

namespace HexDigits

/-- What is written. -/
def text (digits : HexDigits) : Bytes := digits.map fun digit => hexByte digit.1 digit.2

/-- The number that the digits denote, the last one being worth least. -/
def value (digits : HexDigits) : Nat :=
  Nat.ofDigits 16 (digits.reverse.map fun digit => digit.1.val)

theorem isHexDigit_of_mem {digits : HexDigits} : ∀ b ∈ digits.text, Ascii.isHexDigit b = true := by
  intro b member
  obtain ⟨digit, -, rfl⟩ := List.mem_map.mp member
  exact (hexByte_spec digit.1 digit.2).1

theorem hexNumber_text (digits : HexDigits) : Ascii.hexNumber digits.text = digits.value := by
  induction digits using List.reverseRecOn with
  | nil => rfl
  | append_singleton digits digit ih =>
    have before : Ascii.hexNumber (text (digits ++ [digit])) =
        Ascii.hexNumber (text digits) * 16 + digit.1 := by
      simp only [Ascii.hexNumber, text, List.map_append, List.foldl_append, List.map_cons,
        List.map_nil, List.foldl_cons, List.foldl_nil, (hexByte_spec digit.1 digit.2).2]
    rw [before, ih, value, value, List.reverse_append, List.reverse_singleton,
      List.singleton_append, List.map_cons, Nat.ofDigits_cons]
    omega

end HexDigits

/-- A size line as a sender may write it: digits of which the first ones may be zeros, blanks, and
whatever it puts behind a semicolon. -/
structure SizeSpelling (size : Nat) where
  digits : HexDigits
  blank : Bytes
  extension : Option Bytes
  nonempty : digits ≠ []
  fits : digits.length ≤ 16
  value : digits.value = size
  spaced : SpacingText blank
  inside : ∀ text ∈ extension, ∀ b ∈ text, b ≠ Ascii.carriageReturn ∧ b ≠ Ascii.lineFeed

namespace SizeSpelling

variable {size : Nat} (line : SizeSpelling size)

/-- The extension that is written, with the semicolon before it. -/
def extensionText : Bytes :=
  match line.extension with
  | none => []
  | some text => Ascii.byte ';' :: text

/-- What is written. -/
def text : Bytes := line.digits.text ++ (line.blank ++ line.extensionText)

/-- The place of the extension in a line that begins at `offset`, from the semicolon on. -/
def extensionSpan (offset : Nat) : Option Span :=
  line.extension.map fun text =>
    Span.ofLength (offset + line.digits.length + line.blank.length) (text.length + 1)

theorem spelled : SizeLineText offset line.text ⟨size, line.extensionSpan offset⟩ := by
  have length : line.digits.text.length = line.digits.length := List.length_map _
  have sized : RunText Ascii.isHexDigit line.digits.text := by
    refine ⟨?_, HexDigits.isHexDigit_of_mem⟩
    rw [← List.length_pos_iff, length, List.length_pos_iff]
    exact line.nonempty
  have extended : ExtensionsText (offset + line.digits.text.length + line.blank.length)
      line.extensionText (line.extensionSpan offset) := by
    rw [length]
    unfold extensionText extensionSpan
    cases extension : line.extension with
    | none => exact .absent
    | some text => exact .present (line.inside text extension)
  have whole := SizeLineText.mk sized (by rw [length]; exact line.fits) line.spaced extended
  rwa [HexDigits.hexNumber_text, line.value] at whole

end SizeSpelling

/-- A chunk as a sender may write it. -/
structure ChunkSpelling (bareLf : Bool) where
  data : Bytes
  nonempty : data ≠ []
  size : SizeSpelling data.length
  sizeEnd : LineEnd bareLf
  dataEnd : LineEnd bareLf

namespace ChunkSpelling

variable (spelling : ChunkSpelling bareLf)

/-- What is written. -/
def text : Bytes :=
  spelling.size.text ++ (spelling.sizeEnd.text ++ (spelling.data ++ spelling.dataEnd.text))

/-- The place of the data in a chunk that begins at `offset`. -/
def dataSpan (offset : Nat) : Span :=
  Span.ofLength (offset + spelling.size.text.length + spelling.sizeEnd.text.length)
    spelling.data.length

/-- The chunk where it begins at `offset`. -/
def chunk (offset : Nat) : Located Chunk where
  value :=
    { size := spelling.data.length
      sizeLine := Span.ofLength offset spelling.size.text.length
      extensions := spelling.size.extensionSpan offset
      data := spelling.dataSpan offset }
  span := Span.ofLength offset spelling.text.length

theorem spelled : ChunkText bareLf offset spelling.text (spelling.chunk offset) :=
  .data spelling.size.spelled spelling.nonempty spelling.sizeEnd.ended spelling.dataEnd.ended

theorem notLast : (spelling.chunk offset).value.isLast = false := by
  simp [ChunkSpelling.chunk, Chunk.isLast, spelling.nonempty]

end ChunkSpelling

/-- A chunked body as a sender may write it. The digits of the last size are all zeros. -/
structure ChunkedSpelling (settings : Settings) where
  chunks : List (ChunkSpelling settings.bareLf)
  last : SizeSpelling 0
  lastEnd : LineEnd settings.bareLf
  trailers : SectionSpelling settings

namespace ChunkedSpelling

variable {settings : Settings} (spelling : ChunkedSpelling settings)

/-- What is written of the chunks that have data. -/
def dataText : Bytes := spelling.chunks.flatMap ChunkSpelling.text

/-- What is written of the last chunk. -/
def lastText : Bytes := spelling.last.text ++ spelling.lastEnd.text

/-- What is written. -/
def text : Bytes := spelling.dataText ++ spelling.lastText ++ spelling.trailers.text

/-- The last chunk where it begins at `offset`. -/
def lastChunk (offset : Nat) : Located Chunk where
  value :=
    { size := 0
      sizeLine := Span.ofLength offset spelling.last.text.length
      extensions := spelling.last.extensionSpan offset
      data := Span.emptyAt (offset + spelling.last.text.length + spelling.lastEnd.text.length) }
  span := Span.ofLength offset spelling.lastText.length

/-- The body where it begins at `offset`. -/
def body (offset : Nat) : Located ChunkedBody where
  value :=
    { chunks := laidOut ChunkSpelling.text ChunkSpelling.chunk spelling.chunks offset ++
        [spelling.lastChunk (offset + spelling.dataText.length)]
      trailers :=
        spelling.trailers.fields (offset + (spelling.dataText ++ spelling.lastText).length) }
  span := Span.ofLength offset spelling.text.length

/-- The payloads of the chunks in order. -/
def payloads : List Bytes := spelling.chunks.map (·.data)

end ChunkedSpelling

private theorem chunksText_of_spellings {text : Bytes} {last : Located Chunk}
    (spellings : List (ChunkSpelling bareLf)) (isLast : last.value.isLast = true)
    (spelled :
      ChunkText bareLf (offset + (spellings.flatMap ChunkSpelling.text).length) text last) :
    ChunksText bareLf offset (spellings.flatMap ChunkSpelling.text ++ text)
      (laidOut ChunkSpelling.text ChunkSpelling.chunk spellings offset ++ [last]) := by
  induction spellings generalizing offset with
  | nil => exact .last spelled isLast
  | cons spelling spellings ih =>
    rw [List.flatMap_cons, List.append_assoc]
    rw [List.flatMap_cons, List.length_append, ← Nat.add_assoc] at spelled
    exact .more spelling.spelled spelling.notLast (ih spelled)

/-- No chunk of a spelling is taken for the last one. -/
theorem dataSpans_laidOut (spellings : List (ChunkSpelling bareLf)) (offset : Nat) :
    ((laidOut ChunkSpelling.text ChunkSpelling.chunk spellings offset).filter
      (!·.value.isLast)).map (·.value.data) =
        laidOut ChunkSpelling.text ChunkSpelling.dataSpan spellings offset := by
  induction spellings generalizing offset with
  | nil => rfl
  | cons spelling spellings ih =>
    simp only [laidOut, List.filter_cons, spelling.notLast, Bool.not_false, ↓reduceIte,
      List.map_cons, ih]
    rfl

/-- The data of every chunk can be taken out of a buffer that holds the chunks. -/
theorem extract_dataSpans {buffer more : Bytes} (spellings : List (ChunkSpelling bareLf))
    (stands : Stands buffer offset (spellings.flatMap ChunkSpelling.text ++ more)) :
    (laidOut ChunkSpelling.text ChunkSpelling.dataSpan spellings offset).mapM (·.extract? buffer) =
      .ok (spellings.map (·.data)) := by
  induction spellings generalizing offset with
  | nil => rfl
  | cons spelling spellings ih =>
    rw [List.flatMap_cons, List.append_assoc] at stands
    obtain ⟨standsChunk, standsRest⟩ := stands_append.mp stands
    obtain ⟨-, standsChunk⟩ := stands_append.mp standsChunk
    obtain ⟨-, standsChunk⟩ := stands_append.mp standsChunk
    obtain ⟨standsData, -⟩ := stands_append.mp standsChunk
    have first : (spelling.dataSpan offset).extract? buffer = .ok spelling.data :=
      standsData.extract
    rw [laidOut, List.mapM_cons, first, ih standsRest]
    rfl

/-- What can be taken out of a buffer span by span is what the spans cover. -/
theorem flatMap_slice {buffer : Bytes} {spans : List Span} {pieces : List Bytes}
    (extracted : spans.mapM (·.extract? buffer) = .ok pieces) :
    spans.flatMap (·.slice buffer) = pieces.flatten := by
  induction spans generalizing pieces with
  | nil =>
    cases extracted
    rfl
  | cons span spans ih =>
    rw [List.mapM_cons] at extracted
    obtain ⟨piece, first, later⟩ := except_bind_eq_ok.mp extracted
    obtain ⟨others, rest, result⟩ := except_bind_eq_ok.mp later
    cases result
    rw [List.flatMap_cons, List.flatten_cons, ih rest]
    unfold Span.extract? at first
    split at first
    · cases first
    · cases first
      rfl

namespace ChunkedSpelling

variable {settings : Settings} (spelling : ChunkedSpelling settings)

theorem spelled : ChunkedText settings.bareLf settings.fieldLimit offset spelling.text
    (spelling.body offset) :=
  .mk (chunksText_of_spellings spelling.chunks rfl
    (.last spelling.last.spelled spelling.lastEnd.ended)) spelling.trailers.spelled
    spelling.trailers.length_fields

theorem contentSpans_body : (spelling.body offset).value.contentSpans =
    laidOut ChunkSpelling.text ChunkSpelling.dataSpan spelling.chunks offset := by
  have last : [spelling.lastChunk (offset + spelling.dataText.length)].filter
      (!·.value.isLast) = [] := rfl
  rw [ChunkedBody.contentSpans, body, List.filter_append, last, List.append_nil]
  exact dataSpans_laidOut spelling.chunks offset

end ChunkedSpelling

/-- A chunked body that is written anywhere in a buffer is read as its chunks and trailer fields,
and ends right after its empty line. Its payload is that of all chunks together. -/
theorem chunked_readsFrom_spelling (settings : Settings) (spelling : ChunkedSpelling settings)
    (before after : Bytes) :
    (Chunked.ofMessage settings).ReadsFrom (before ++ spelling.text ++ after) before.length
      (spelling.body before.length) (before.length + spelling.text.length) ∧
    (spelling.body before.length).value.contentSpans.mapM
      (·.extract? (before ++ spelling.text ++ after)) = .ok spelling.payloads ∧
    (Body.chunked (spelling.body before.length).value).payload
      (before ++ spelling.text ++ after) = spelling.payloads.flatten := by
  have stands : Stands (before ++ spelling.text ++ after) before.length
      (spelling.dataText ++ (spelling.lastText ++ spelling.trailers.text)) := by
    rw [← List.append_assoc]
    exact ⟨before, after, rfl, rfl⟩
  have extracted : (spelling.body before.length).value.contentSpans.mapM
      (·.extract? (before ++ spelling.text ++ after)) = .ok spelling.payloads := by
    rw [spelling.contentSpans_body]
    exact extract_dataSpans spelling.chunks stands
  exact ⟨spelling.spelled.reads.between, extracted, flatMap_slice extracted⟩

/-- A size with a zero before it and an extension behind it, a last size of two zeros, and one
trailer field. -/
def greeting : ChunkedSpelling .standard where
  chunks :=
    [{ data := Ascii.bytes ['h', 'i']
       nonempty := by decide
       size :=
        { digits := [(0, false), (2, false)]
          blank := [Ascii.space]
          extension := some (Ascii.bytes ['x', '=', 'y'])
          nonempty := by decide
          fits := by decide
          value := by decide
          spaced := List.all_eq_true.mp rfl
          inside := by
            rintro _ ⟨⟩
            exact List.forall_iff_forall_mem.mp (by decide) }
       sizeEnd := .crlf
       dataEnd := .lineFeed }]
  last :=
    { digits := [(0, false), (0, false)]
      blank := []
      extension := none
      nonempty := by decide
      fits := by decide
      value := by decide
      spaced := List.all_eq_true.mp rfl
      inside := by rintro _ ⟨⟩ }
  lastEnd := .crlf
  trailers :=
    { lines :=
        [{ name := Ascii.bytes ['T']
           before := [Ascii.space]
           value := Ascii.bytes ['v']
           behind := []
           ending := .crlf
           named := by decide
           token := List.forall_iff_forall_mem.mp (by decide)
           blankBefore := List.all_eq_true.mp rfl
           visible := List.forall_iff_forall_mem.mp (by decide)
           trimmed := ⟨by rintro _ ⟨⟩; rfl, by rintro _ ⟨⟩; rfl⟩
           blankBehind := List.all_eq_true.mp rfl }]
      emptyLine := .crlf
      counted := by decide }

/-- The text of `greeting`, with a byte before it and a byte behind it. -/
def greetingBuffer : Bytes :=
  Ascii.bytes ['>', '0', '2', ' ', ';', 'x', '=', 'y', '\r', '\n', 'h', 'i', '\n', '0', '0', '\r',
    '\n', 'T', ':', ' ', 'v', '\r', '\n', '\r', '\n', '<']

/-- Where the parts of `greeting` stand there. -/
def greetingBody : ChunkedBody where
  chunks :=
    [⟨⟨2, Span.ofLength 1 7, some (Span.ofLength 4 4), Span.ofLength 10 2⟩, Span.ofLength 1 12⟩,
     ⟨⟨0, Span.ofLength 13 2, none, Span.emptyAt 17⟩, Span.ofLength 13 4⟩]
  trailers :=
    [⟨⟨⟨"T", Span.ofLength 17 1⟩, ⟨Ascii.bytes ['v'], Span.ofLength 20 1⟩⟩, Span.ofLength 17 6⟩]

theorem chunked_readsFrom_spelling_greeting :
    (Chunked.ofMessage .standard).ReadsFrom greetingBuffer 1 ⟨greetingBody, Span.ofLength 1 24⟩ 25 ∧
    greetingBody.contentSpans.mapM (·.extract? greetingBuffer) = .ok [Ascii.bytes ['h', 'i']] ∧
    (Body.chunked greetingBody).payload greetingBuffer = Ascii.bytes ['h', 'i'] :=
  chunked_readsFrom_spelling .standard greeting [Ascii.byte '>'] [Ascii.byte '<']

end WireSpan.Http
