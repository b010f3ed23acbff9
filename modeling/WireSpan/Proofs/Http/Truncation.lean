import WireSpan.Proofs.Http.Message
import WireSpan.Proofs.Scan.Truncation

/-! What becomes of a request of which only the first bytes have arrived. Reading it runs out of
input, except where the cut falls next to or into the empty line of a field section: there the
reader looks for another field. -/

namespace WireSpan

/-- A cut inside a text leaves the front of it at the end of the buffer. -/
theorem Stands.take {buffer text : Bytes} {offset cut : Nat} (stands : Stands buffer offset text)
    (starts : offset ≤ cut) (short : cut < offset + text.length) :
    ∃ front, Truncates front text ∧ cut = offset + front.length ∧
      Input.at? (buffer.take cut) offset = .ok ⟨offset, front⟩ := by
  obtain ⟨before, after, rfl, rfl⟩ := stands
  have length : (text.take (cut - before.length)).length = cut - before.length := by
    rw [List.length_take]
    omega
  refine ⟨text.take (cut - before.length), ⟨List.take_prefix _ _, by omega⟩, by omega, ?_⟩
  refine Input.at?_eq_ok.mpr ⟨before, ?_, rfl, rfl⟩
  rw [List.append_assoc, List.take_append, List.take_of_length_le starts,
    List.take_append_of_le_length]
  omega

namespace Http

open Scan Chunked

variable {settings : Settings} {offset : Nat} {text front rest : Bytes}

private theorem lineEnd_runsOut_nil : RunsOut (lineEnd settings) ⟨offset, []⟩ := by
  have both : literal lineEndName Ascii.crlf ⟨offset, []⟩ =
      .error ⟨.endOfInput lineEndName, offset, .general⟩ := rfl
  have lone : literal lineEndName [Ascii.lineFeed] ⟨offset, []⟩ =
      .error ⟨.endOfInput lineEndName, offset, .general⟩ := rfl
  refine ⟨lineEndName, ?_⟩
  unfold lineEnd
  by_cases allowed : settings.bareLf = true
  · rw [if_pos allowed, orElse, both, lone]
    simp only [further, Int.le_refl, ↓reduceIte]
    rfl
  · rw [if_neg allowed]
    exact both

/-- A lone line feed cannot be meant where a carriage return has arrived. -/
theorem lineEnd_runsOut_return :
    RunsOut (lineEnd settings) ⟨offset, [Ascii.carriageReturn]⟩ := by
  have both : literal lineEndName Ascii.crlf ⟨offset, [Ascii.carriageReturn]⟩ =
      .error ⟨.endOfInput lineEndName, offset + 1, .general⟩ := rfl
  have lone : literal lineEndName [Ascii.lineFeed] ⟨offset, [Ascii.carriageReturn]⟩ =
      .error ⟨.unexpected lineEndName [Ascii.carriageReturn], offset, .general⟩ := rfl
  have beyond : ¬ (offset : Int) + 1 ≤ offset := by omega
  refine ⟨lineEndName, ?_⟩
  unfold lineEnd
  by_cases allowed : settings.bareLf = true
  · rw [if_pos allowed, orElse, both, lone]
    simp only [further, if_neg beyond]
    rfl
  · rw [if_neg allowed]
    exact both

theorem LineEndText.waits {bareLf : Bool} (ended : LineEndText bareLf text) :
    Waits (lineEnd settings) offset text := by
  intro front truncated
  cases ended with
  | lone =>
    rw [truncated.eq_nil]
    exact lineEnd_runsOut_nil
  | both =>
    rcases truncated.cons_cases with rfl | ⟨rest, rfl, second⟩
    · exact lineEnd_runsOut_nil
    · rw [second.eq_nil]
      exact lineEnd_runsOut_return

theorem LineEndText.beforeCut {bareLf : Bool} (ended : LineEndText bareLf text)
    (truncated : Truncates front text) : BeforeLineEnd front := by
  intro b next
  have before : BeforeLineEnd (text ++ []) := ended.before
  rw [List.append_nil] at before
  exact before b (truncated.head? b next)

theorem hungry_lineEndAfter (what : String) : Hungry (lineEndAfter settings what) :=
  fun _ => ⟨what, rfl⟩

theorem LineEndText.waitsAfter {bareLf : Bool} (what : String) (ended : LineEndText bareLf text) :
    Waits (lineEndAfter settings what) offset text := by
  intro front truncated
  have cut : RunsOut (lineEnd settings >>= fun _ => pure ()) ⟨offset, front⟩ :=
    (ended.waits front truncated).bind
  cases front with
  | nil => exact ⟨what, rfl⟩
  | cons b front => exact cut

private theorem fieldName_waits (named : RunText isTokenByte text) :
    Waits fieldName offset (text ++ [Ascii.byte ':']) := by
  have reads : ∀ front, Truncates front [Ascii.byte ':'] →
      Reads (takeWhile isTokenByte) offset text ⟨text, Span.ofLength offset text.length⟩ front :=
    fun front truncated =>
      Reads.takeWhile named.all (truncated.stops (Stops.cons (by decide) _))
  refine (Yields.takeWhile named.all).thenWaits (fun _ _ => ⟨_, rfl⟩) reads ?_
  intro front truncated
  rw [truncated.eq_nil]
  exact ⟨_, rfl⟩

private theorem fieldValue_yields (visible : ∀ b ∈ text, isFieldByte b = true) :
    Yields fieldValue offset text := by
  intro front truncated
  have all : ∀ b ∈ front.dropWhile Ascii.isSpaceOrTab, isFieldByte b = true := fun b member =>
    truncated.all visible b ((List.dropWhile_suffix _).subset member)
  have blank : SpacingText (front.takeWhile Ascii.isSpaceOrTab) :=
    fun b member => List.all_eq_true.mp List.all_takeWhile b member
  have stops : Stops Ascii.isSpaceOrTab (front.dropWhile Ascii.isSpaceOrTab ++ []) := by
    rw [List.append_nil]
    exact stops_dropWhile _ _
  have read : Reads fieldValue offset (front.takeWhile _ ++ front.dropWhile _) _ [] :=
    fieldValue_reads_raw blank stops all (Stops.nil _)
  rw [List.takeWhile_append_dropWhile] at read
  exact .inr ⟨_, read⟩

theorem FieldText.waits {x : Located Field} {bareLf : Bool}
    (spelled : FieldText bareLf offset text x) : Waits (field settings) offset text := by
  cases spelled with
  | @mk name before value blank ending named blankBefore visible trimmed blankAfter behind ended =>
    apply Waits.located
    have same : name ++ Ascii.byte ':' :: (before ++ (value ++ (blank ++ ending))) =
        (name ++ [Ascii.byte ':']) ++ ((before ++ (value ++ blank)) ++ ending) := by
      simp only [List.append_assoc, List.cons_append, List.nil_append]
    have all : ∀ b ∈ before ++ (value ++ blank), isFieldByte b = true := by
      intro b member
      rcases List.mem_append.mp member with first | later
      · exact isFieldByte_of_isSpaceOrTab (blankBefore b first)
      · rcases List.mem_append.mp later with middle | last
        · exact visible b middle
        · exact isFieldByte_of_isSpaceOrTab (blankAfter b last)
    have reads {offset : Nat} (front : Bytes) (truncated : Truncates front ending) :
        Reads fieldValue offset (before ++ (value ++ blank))
          ⟨value, Span.ofLength (offset + before.length) value.length⟩ front :=
      fieldValue_reads blankBefore visible trimmed blankAfter behind (ended.beforeCut truncated)
    rw [same]
    refine (fieldName_waits named).bind (fun _ _ => fieldName_reads named) ?_
    exact (fieldValue_yields all).thenWaits (fun _ => (hungry_lineEndAfter _).bind) reads
      (ended.waitsAfter _).thenNothing

theorem VersionText.waits (versioned : VersionText text) : Waits version offset text := by
  apply Waits.located
  cases versioned with
  | @mk major minor digits =>
    refine (Waits.literal _).bind (fun _ _ => Reads.literal _) ?_
    refine (Waits.byteOf _ _).byteThen (fun _ _ => Reads.byteOf _ (digits major (by simp))) ?_
    refine (Waits.literal _).byteThen (fun _ _ => Reads.literal _) ?_
    exact (Waits.byteOf _ _).thenNothing

theorem hungry_singleSpace : Hungry singleSpace := Hungry.literal _

theorem RequestLineText.waits {parts : RequestLine} {bareLf : Bool}
    (spelled : RequestLineText bareLf offset text parts) :
    Waits (requestLine settings) offset text := by
  have reads {accepts : UInt8 → Bool} {expected : String} {offset : Nat} {text more : Bytes}
      (run : RunText accepts text) (noSpace : accepts Ascii.space = false) (front : Bytes)
      (truncated : Truncates front (Ascii.space :: more)) :
      Reads (takeWhile1 expected accepts) offset text ⟨text, Span.ofLength offset text.length⟩
        front :=
    Reads.takeWhile1 _ run.nonempty run.all (truncated.stops (Stops.cons noSpace _))
  have space {offset : Nat} (front : Bytes) :
      Reads singleSpace offset [Ascii.space] ⟨[Ascii.space], Span.ofLength offset 1⟩ front :=
    Reads.literal _
  cases spelled with
  | mk token targeted versioned ended =>
    refine (Yields.takeWhile1 _ token.all).thenWaits (fun _ => hungry_singleSpace.bind)
      (reads token (by decide)) ?_
    refine (Waits.literal _).byteThen (fun front _ => space front) ?_
    refine (Yields.takeWhile1 _ targeted.all).thenWaits (fun _ => hungry_singleSpace.bind)
      (reads targeted (by decide)) ?_
    refine (Waits.literal _).byteThen (fun front _ => space front) ?_
    exact versioned.waits.bind (fun _ _ => versioned.reads) (ended.waits).thenNothing

theorem ExtensionsText.yields {span : Option Span} (extended : ExtensionsText offset text span) :
    Yields extensions offset text := by
  intro front truncated
  cases extended with
  | absent => exact absurd truncated Truncates.not_nil
  | @present text inside =>
    rcases truncated.cons_cases with rfl | ⟨rest, rfl, behind⟩
    · exact .inr ⟨none, rfl⟩
    · have within : ∀ b ∈ rest, b ≠ Ascii.carriageReturn ∧ b ≠ Ascii.lineFeed :=
        fun b member => inside b (behind.begins.subset member)
      have ending : BeforeLineEnd [] := nofun
      exact .inr ⟨_, ExtensionsText.reads (.present within) ending⟩

theorem SizeLineText.yields {line : SizeLine} (lined : SizeLineText offset text line) :
    Yields sizeLine offset text := by
  apply Yields.located
  cases lined with
  | @mk digits blank text span sized fits spaced extended =>
    have ending : BeforeLineEnd [] := nofun
    have stops {accepts : UInt8 → Bool} (noReturn : accepts Ascii.carriageReturn = false)
        (noFeed : accepts Ascii.lineFeed = false) (noSemicolon : accepts (Ascii.byte ';') = false) :
        Stops accepts text := by
      have stopped := extended.stops ending noReturn noFeed noSemicolon
      rwa [List.append_nil] at stopped
    have readsDigits {offset : Nat} (front : Bytes) (truncated : Truncates front (blank ++ text)) :
        Reads (takeWhile Ascii.isHexDigit) offset digits
          ⟨digits, Span.ofLength offset digits.length⟩ front :=
      Reads.takeWhile sized.all
        (truncated.stops (spaced.stops_hex (stops (by decide) (by decide) (by decide))))
    have readsBlank {offset : Nat} (front : Bytes) (truncated : Truncates front text) :
        Reads (takeWhile Ascii.isSpaceOrTab) offset blank
          ⟨blank, Span.ofLength offset blank.length⟩ front :=
      Reads.takeWhile spaced (truncated.stops (stops (by decide) (by decide) (by decide)))
    refine (Yields.takeWhile sized.all).bind (fun run => ?_) readsDigits ?_
    · split
      · exact fun _ => .inl ⟨_, rfl⟩
      · exact fun _ => .inr ⟨_, rfl⟩
    · rw [if_neg (sizeLine_fits sized fits)]
      exact (Yields.takeWhile spaced).bind (fun _ _ => .inr ⟨_, rfl⟩) readsBlank
        (extended.yields.map _)

private theorem hungry_sizeLineEnd : Hungry (sizeLineEnd (lineEnd settings)) := fun _ => ⟨_, rfl⟩

private theorem lineEndHere_waits {bareLf : Bool} (ended : LineEndText bareLf text) :
    Waits (lineEndHere (lineEnd settings)) offset text := by
  intro front truncated
  cases front with
  | nil => exact ⟨_, rfl⟩
  | cons b front =>
    obtain ⟨expected, failed⟩ : RunsOut (lineEnd settings) ⟨offset, b :: front⟩ :=
      ended.waits _ truncated
    refine ⟨expected, ?_⟩
    have notEnd : (Input.mk offset (b :: front)).atEnd = false := rfl
    rw [lineEndHere, notEnd, failed]
    rfl

private theorem sizeLineEnd_waits {bareLf : Bool} (ended : LineEndText bareLf text) :
    Waits (sizeLineEnd (lineEnd settings)) offset text := by
  intro front truncated
  have cut : RunsOut (lineEndHere (lineEnd settings)) ⟨offset, front⟩ :=
    lineEndHere_waits ended front truncated
  cases front with
  | nil => exact ⟨_, rfl⟩
  | cons b front =>
    obtain ⟨expected, failed⟩ := cut
    have begins : b = Ascii.carriageReturn ∨ b = Ascii.lineFeed := ended.beforeCut truncated b rfl
    refine ⟨expected, ?_⟩
    rw [sizeLineEnd, peek?_bind, List.head?_cons]
    simp only [begins, ↓reduceIte, failed]

theorem ChunkText.waits {x : Located Chunk} (spelled : ChunkText settings.bareLf offset text x) :
    Waits (chunk (lineEnd settings)) offset text := by
  cases spelled with
  | @last line ending extensions lined ended =>
    have reads (front : Bytes) (truncated : Truncates front ending) :
        Reads sizeLine offset line ⟨⟨0, extensions⟩, Span.ofLength offset line.length⟩ front :=
      lined.reads (ended.beforeCut truncated)
    exact (lined.yields.thenWaits (fun _ => hungry_sizeLineEnd.bind) reads
      (sizeLineEnd_waits ended).thenNothing).located
  | @data line ending data final extensions lined nonempty ended closed =>
    have reads (front : Bytes) (truncated : Truncates front (ending ++ (data ++ final))) :
        Reads sizeLine offset line ⟨⟨data.length, extensions⟩, Span.ofLength offset line.length⟩
          front := by
      apply lined.reads
      intro b next
      exact ended.before b (truncated.head? b next)
    have some : ¬ data.length = 0 := by simpa using nonempty
    refine (lined.yields.thenWaits (fun _ => hungry_sizeLineEnd.bind) reads ?_).located
    refine (sizeLineEnd_waits ended).bind (fun _ _ => sizeLineEnd_reads ended) ?_
    rw [if_neg some]
    exact Waits.take.bind (fun _ _ => Reads.take) (lineEndHere_waits closed).thenNothing

theorem ChunksText.waits {values : List (Located Chunk)}
    (spelled : ChunksText settings.bareLf offset text values) :
    Waits (chunks (lineEnd settings)) offset text := by
  apply Waits.thenNothing
  induction spelled with
  | last spelled isLast => exact spelled.waits.thenNothing.collectLast chunkTurn_readsOn
  | @more offset text rest x chunks spelled notLast others ih =>
    have reads (front : Bytes) (_ : Truncates front rest) :
        Reads (chunkTurn (lineEnd settings)) offset text (.inl x) front := by
      have read : Reads (chunkTurn (lineEnd settings)) offset text _ front := spelled.readsTurn
      rwa [notLast] at read
    exact spelled.waits.thenNothing.collectMore chunkTurn_readsOn reads ih

/-- Outside of messages there is nothing that a cut body could be mistaken for. -/
theorem PlainChunkedText.waits {x : Located ChunkedBody}
    (spelled : PlainChunkedText offset text x) :
    Waits plain offset text := by
  cases spelled with
  | @mk text values chunked =>
    have within : ChunksText bothBytesOnly.bareLf offset text values := chunked
    have waits : Waits (chunks plain.bothBytes) offset text := within.waits
    have reads (front : Bytes) : Reads (chunks plain.bothBytes) offset text values front :=
      within.reads
    have ending : Waits plain.bothBytes (offset + text.length) Ascii.crlf := Waits.literal _
    exact (waits.bind (fun front _ => reads front) ending.thenNothing.thenNothing).located

/-- How a section of `count` fields fails without its last `missing` bytes, where `blank` is the
length of its empty line. Without the line feed of that line the carriage return is taken for a
field name, and where no further field is allowed the empty line itself is missed. -/
def sectionCutKind (count limit missing blank : Nat) : Kind :=
  if count = limit ∧ missing ≤ blank then .limitExceeded
  else if missing < blank then .malformedFieldName
  else .endOfInput

private theorem sectionCutKind_of_lt {count limit missing blank : Nat} (far : blank < missing) :
    sectionCutKind count limit missing blank = .endOfInput := by
  rw [sectionCutKind, if_neg (fun full => Nat.not_le.mpr far full.2),
    if_neg (Nat.not_lt.mpr (Nat.le_of_lt far))]

section

variable {α β : Type} {first : Scan α} {next : α → Scan β} {a : α} {count limit blank : Nat}

/-- A cut in what stands before the lines of a section is too far from the empty line. -/
theorem FailsAs.beforeLines (ended : RunsOut first ⟨offset, front⟩)
    (inside : Truncates front text) (long : blank ≤ rest.length) :
    FailsAs (first >>= next) ⟨offset, front⟩
      (sectionCutKind count limit ((text ++ rest).length - front.length) blank) := by
  have far : blank < (text ++ rest).length - front.length := by
    have short := inside.short
    rw [List.length_append]
    omega
  rw [sectionCutKind_of_lt far]
  exact ended.failsAs.bind

/-- What stands before the lines of a section does not change what is missing of it. -/
theorem FailsAs.inLines (read : Reads first offset text a front)
    (fails : FailsAs (next a) ⟨offset + text.length, front⟩
      (sectionCutKind count limit (rest.length - front.length) blank)) :
    FailsAs (first >>= next) ⟨offset, text ++ front⟩
      (sectionCutKind count limit ((text ++ rest).length - (text ++ front).length) blank) := by
  have missing : (text ++ rest).length - (text ++ front).length = rest.length - front.length := by
    rw [List.length_append, List.length_append]
    omega
  rw [missing]
  exact FailsAs.after read fails

end

private theorem field_cut_in_ending {bareLf : Bool} (ended : LineEndText bareLf text)
    (truncated : Truncates front text) :
    FailsAs (field settings) ⟨offset, front⟩
      (if text.length - front.length < text.length then .malformedFieldName else .endOfInput) := by
  have nothing : FailsAs (field settings) ⟨offset, []⟩ .endOfInput := ⟨_, rfl, rfl⟩
  cases ended with
  | lone =>
    rw [truncated.eq_nil]
    exact nothing
  | both =>
    rcases truncated.cons_cases with rfl | ⟨rest, rfl, second⟩
    · exact nothing
    · rw [second.eq_nil]
      exact ⟨_, rfl, rfl⟩

theorem LineEndText.endsLine {bareLf : Bool} (ended : LineEndText bareLf text) :
    (front ++ text).getLast? = some Ascii.lineFeed := by
  cases ended with
  | both => rw [List.getLast?_append]; rfl
  | lone => rw [List.getLast?_append]; rfl

theorem FieldText.endsLine {x : Located Field} {bareLf : Bool}
    (spelled : FieldText bareLf offset text x) : text.getLast? = some Ascii.lineFeed := by
  cases spelled with
  | @mk name before value blank ending named blankBefore visible trimmed blankAfter behind ended =>
    have last : (name ++ Ascii.byte ':' :: (before ++ (value ++ blank)) ++ ending).getLast? = _ :=
      ended.endsLine
    simpa only [List.append_assoc, List.cons_append] using last

private theorem endsLine_append (closed : text.getLast? = some Ascii.lineFeed)
    (last : ∀ b ∈ rest.getLast?, b = Ascii.lineFeed) :
    (text ++ rest).getLast? = some Ascii.lineFeed := by
  rw [List.getLast?_append]
  cases behind : rest.getLast? with
  | none => exact closed
  | some b =>
    rw [last b behind]
    rfl

/-- A section ends with its empty line, next to which it cannot be cut without being
misunderstood. -/
theorem SectionText.cut {fields : Fields}
    (spelled : SectionText settings.bareLf offset text fields) :
    ∃ lines ending, text = lines ++ ending ∧ LineEndText settings.bareLf ending ∧
      (∀ b ∈ lines.getLast?, b = Ascii.lineFeed) ∧
        ∀ left front, fields.length ≤ left → Truncates front text →
          FailsAs (fieldsWithin settings left) ⟨offset, front⟩
            (sectionCutKind fields.length left (text.length - front.length) ending.length) := by
  induction spelled with
  | @done offset text ended =>
    refine ⟨[], text, rfl, ended, nofun, ?_⟩
    intro left front counted truncated
    have noLine : Scan.optional (lineEnd settings) ⟨offset, front⟩ = .ok (none, ⟨offset, front⟩) :=
      (ended.waits front truncated).optional
    cases left with
    | zero =>
      rw [sectionCutKind, if_pos ⟨rfl, Nat.sub_le _ _⟩]
      exact FailsAs.after noLine ⟨_, rfl, rfl⟩
    | succ left =>
      have room : ¬ (([] : Fields).length = left + 1 ∧ text.length - front.length ≤ text.length) :=
        fun full => nomatch full.1
      rw [sectionCutKind, if_neg room]
      exact FailsAs.after noLine (field_cut_in_ending ended truncated).bind
  | @more offset text rest field fields first others ih =>
    obtain ⟨lines, ending, same, ended, last, cut⟩ := ih
    refine ⟨text ++ lines, ending, by rw [same, List.append_assoc], ended, ?_, ?_⟩
    · intro b final
      rw [endsLine_append first.endsLine last] at final
      exact (Option.some.inj final).symm
    · intro left front counted truncated
      cases left with
      | zero => cases counted
      | succ left =>
        have noLine : Scan.optional (lineEnd settings) ⟨offset, front⟩ =
            .ok (none, ⟨offset, front⟩) := by
          cases front with
          | nil => exact lineEnd_runsOut_nil.optional
          | cons b front =>
            obtain ⟨c, more, bytes, token⟩ := first.head
            have begins := truncated.head? b rfl
            rw [bytes] at begins
            cases Option.some.inj begins
            exact optional_lineEnd_none token
        refine FailsAs.after noLine ?_
        have kept (missing : Nat) :
            sectionCutKind (field :: fields).length (left + 1) missing ending.length =
              sectionCutKind fields.length left missing ending.length := by
          simp only [sectionCutKind, List.length_cons, Nat.add_right_cancel_iff]
        rw [kept]
        rcases truncated.append_cases with inside | ⟨front, rfl, behind⟩
        · have long : ending.length ≤ rest.length := by
            rw [same, List.length_append]
            exact Nat.le_add_left _ _
          exact FailsAs.beforeLines (first.waits front inside) inside long
        · have fails := cut left front (Nat.le_of_succ_le_succ counted) behind
          exact FailsAs.inLines first.reads fails.bind

theorem RequestLineText.endsLine {parts : RequestLine} {bareLf : Bool}
    (spelled : RequestLineText bareLf offset text parts) :
    text.getLast? = some Ascii.lineFeed := by
  cases spelled with
  | @mk method target version ending token targeted versioned ended =>
    have last : (method ++ Ascii.space :: (target ++ Ascii.space :: version) ++
        ending).getLast? = _ := ended.endsLine
    simpa only [List.append_assoc, List.cons_append] using last

theorem ChunksText.endsLine {values : List (Located Chunk)} {bareLf : Bool}
    (spelled : ChunksText bareLf offset text values) : text.getLast? = some Ascii.lineFeed := by
  induction spelled with
  | last spelled isLast =>
    cases spelled with
    | last lined ended => exact ended.endsLine
    | data lined nonempty ended closed =>
      rw [← List.append_assoc, ← List.append_assoc]
      exact closed.endsLine
  | more spelled notLast others ih =>
    rw [List.getLast?_append, ih]
    rfl

/-- Wherever `text` is cut off, the scanner fails as a section of `count` fields does whose empty
line `ending` ends the text. -/
structure CutsAsSection {α : Type} (settings : Settings) (scan : Scan α) (offset count : Nat)
    (text lines ending : Bytes) : Prop where
  splits : text = lines ++ ending
  ended : LineEndText settings.bareLf ending
  last : lines.getLast? = some Ascii.lineFeed
  cut : ∀ front, Truncates front text →
    FailsAs scan ⟨offset, front⟩
      (sectionCutKind count settings.fieldLimit (text.length - front.length) ending.length)

/-- A section that follows other lines can be misunderstood in the same places only. -/
theorem SectionText.cutAfter {α β : Type} {first : Scan α} {a : α} {finish : α → Fields → β}
    {line : Bytes} {fields : Fields} (waits : Waits first offset line)
    (reads : ∀ rest, Reads first offset line a rest)
    (closed : line.getLast? = some Ascii.lineFeed)
    (sectioned : SectionText settings.bareLf (offset + line.length) rest fields)
    (counted : fields.length ≤ settings.fieldLimit) :
    ∃ lines ending, CutsAsSection settings
      (located (first >>= fun a => fieldSection settings >>= fun fields => pure (finish a fields)))
      offset fields.length (line ++ rest) lines ending := by
  obtain ⟨lines, ending, same, ended, last, cut⟩ := sectioned.cut
  refine ⟨line ++ lines, ending, ?_, ended, endsLine_append closed last, ?_⟩
  · rw [same, List.append_assoc]
  · intro front truncated
    apply FailsAs.located
    rcases truncated.append_cases with inside | ⟨front, rfl, behind⟩
    · have long : ending.length ≤ rest.length := by
        rw [same, List.length_append]
        exact Nat.le_add_left _ _
      exact FailsAs.beforeLines (waits front inside) inside long
    · exact FailsAs.inLines (reads front) (cut _ _ counted behind).bind

theorem HeadText.cut {x : Located (RequestLine × Fields)}
    (spelled : HeadText settings (RequestLineText settings.bareLf) offset text x) :
    ∃ lines ending, CutsAsSection settings (head settings (requestLine settings)) offset
      x.value.2.length text lines ending := by
  cases spelled with
  | mk lined sectioned counted =>
    exact sectioned.cutAfter lined.waits (fun _ => lined.reads) lined.endsLine counted

theorem ChunkedText.cut {x : Located ChunkedBody}
    (spelled : ChunkedText settings.bareLf settings.fieldLimit offset text x) :
    ∃ lines ending, CutsAsSection settings (ofMessage settings) offset x.value.trailers.length
      text lines ending := by
  cases spelled with
  | mk chunked sectioned counted =>
    exact sectioned.cutAfter chunked.waits (fun _ => chunked.reads) chunked.endsLine counted

/-- The length of the empty line that ends at `stop`. -/
def emptyLineLength (buffer : Bytes) (stop : Nat) : Nat :=
  if buffer[stop - 2]? = some Ascii.carriageReturn then 2 else 1

private theorem emptyLineLength_eq {buffer lines ending : Bytes} {bareLf : Bool}
    (stands : Stands buffer offset (lines ++ ending)) (ended : LineEndText bareLf ending)
    (last : lines.getLast? = some Ascii.lineFeed) :
    emptyLineLength buffer (offset + (lines ++ ending).length) = ending.length := by
  obtain ⟨before, after, rfl, rfl⟩ := stands
  obtain ⟨init, rfl⟩ := List.getLast?_eq_some_iff.mp last
  unfold emptyLineLength
  cases ended with
  | both =>
    have place : before.length + (init ++ [Ascii.lineFeed] ++ Ascii.crlf).length - 2 =
        (before ++ (init ++ [Ascii.lineFeed])).length := by
      simp only [List.length_append, Ascii.crlf, List.length_cons, List.length_nil]
      omega
    rw [place, ← List.append_assoc before, List.append_assoc _ Ascii.crlf,
      List.getElem?_append_right (Nat.le_refl _), Nat.sub_self]
    rfl
  | lone =>
    have place : before.length + (init ++ [Ascii.lineFeed] ++ [Ascii.lineFeed]).length - 2 =
        (before ++ init).length := by
      simp only [List.length_append, List.length_cons, List.length_nil]
      omega
    rw [place, List.append_assoc init, ← List.append_assoc before,
      List.append_assoc (before ++ init), List.getElem?_append_right (Nat.le_refl _), Nat.sub_self]
    rfl

/-- How a request fails of which only the bytes before `cut` have arrived. -/
def Request.cutKind (settings : Settings) (buffer : Bytes) (message : Located Request) (cut : Nat) :
    Kind :=
  let head := message.value.head
  if cut < head.stop then
    sectionCutKind message.value.fields.length settings.fieldLimit (head.stop - cut)
      (emptyLineLength buffer head.stop)
  else match message.value.body.value with
    | .chunked body =>
      sectionCutKind body.trailers.length settings.fieldLimit (message.span.stop - cut)
        (emptyLineLength buffer message.span.stop)
    | _ => .endOfInput

theorem Request.cutKind_of_lt {buffer : Bytes} {message : Located Request} {cut : Nat}
    (inHead : cut < message.value.head.stop) :
    Request.cutKind settings buffer message cut =
      sectionCutKind message.value.fields.length settings.fieldLimit
        (message.value.head.stop - cut) (emptyLineLength buffer message.value.head.stop) :=
  if_pos inHead

theorem Request.cutKind_of_le {buffer : Bytes} {message : Located Request} {cut : Nat}
    (inBody : message.value.head.stop ≤ cut) :
    Request.cutKind settings buffer message cut = match message.value.body.value with
      | .chunked body =>
        sectionCutKind body.trailers.length settings.fieldLimit (message.span.stop - cut)
          (emptyLineLength buffer message.span.stop)
      | _ => .endOfInput :=
  if_neg (Nat.not_lt.mpr inBody)

section

variable {α μ : Type} {startLine : Scan α} {framing : α → Fields → Except Fault Framing}
  {build : α → Fields → Located Body → Span → μ} {input mid : Input} {kind : Kind}

theorem messageReader_head_fails (fails : FailsAs (head settings startLine) input kind) :
    ∃ failure, messageReader settings startLine framing build input = .error (.failed failure) ∧
      failure.kind = kind := by
  obtain ⟨failure, failed, same⟩ := fails
  refine ⟨failure, ?_, same⟩
  unfold messageReader Reader.ofScan
  rw [failed]
  rfl

private theorem messageReader_body_fails {line : α} {fields : Fields} {span : Span}
    {announced : Framing}
    (headed : head settings startLine input = .ok (⟨(line, fields), span⟩, mid))
    (framed : framing line fields = .ok announced)
    (fails : FailsAs (announced.body settings) mid kind) :
    ∃ failure, messageReader settings startLine framing build input = .error (.failed failure) ∧
      failure.kind = kind := by
  obtain ⟨failure, failed, same⟩ := fails
  refine ⟨failure, ?_, same⟩
  unfold messageReader Reader.ofScan
  rw [headed]
  simp only [mapError_ok, mapError_error, bind, Except.bind, framed, failed]

end

theorem RequestText.cut {buffer : Bytes} {message : Located Request}
    (spelled : RequestText settings offset text message) (stands : Stands buffer offset text)
    (truncated : Truncates front text) :
    ∃ failure, Request.read settings ⟨offset, front⟩ = .error (.failed failure) ∧
      failure.kind = Request.cutKind settings buffer message (offset + front.length) := by
  rw [Request.read_eq]
  cases spelled with
  | @mk text rest line fields head framing body headed framed followed =>
    obtain ⟨standsHead, standsBody⟩ := stands_append.mp stands
    have whole : head = Span.ofLength offset text.length := by
      cases headed
      rfl
    subst whole
    rcases truncated.append_cases with inside | ⟨front, rfl, behind⟩
    · obtain ⟨lines, ending, rfl, ended, last, cut⟩ := headed.cut
      have before : offset + front.length < offset + (lines ++ ending).length :=
        Nat.add_lt_add_left inside.short _
      rw [Request.cutKind_of_lt before]
      apply messageReader_head_fails
      have fails := cut front inside
      rwa [← emptyLineLength_eq standsHead ended last,
        ← Nat.add_sub_add_left offset (lines ++ ending).length] at fails
    · have beyond : offset + text.length ≤ offset + (text ++ front).length := by
        rw [List.length_append]
        omega
      rw [Request.cutKind_of_le beyond]
      have read : Reads (Http.head settings (requestLine settings)) offset text _ front :=
        headed.reads fun _ _ _ => RequestLineText.reads
      refine messageReader_body_fails read framed ?_
      cases followed with
      | absent => exact absurd behind Truncates.not_nil
      | unstated => exact absurd behind Truncates.not_nil
      | toEnd => exact absurd rfl (requestFraming_delimited framed).1
      | sized => exact (Waits.take front behind).bind.failsAs
      | chunked spelled =>
        obtain ⟨lines, ending, rfl, ended, last, cut⟩ := spelled.cut
        have place : offset + text.length + (lines ++ ending).length =
            offset + (text ++ (lines ++ ending)).length := by
          simp only [List.length_append, Nat.add_assoc]
        have missing : (lines ++ ending).length - front.length =
            offset + (text ++ (lines ++ ending)).length - (offset + (text ++ front).length) := by
          simp only [List.length_append]
          omega
        have fails := cut front behind
        rw [← emptyLineLength_eq standsBody ended last, place, missing] at fails
        exact fails.bind

/-- Of a request only the first bytes of which have arrived the reader says that it ran out of
input, unless the cut is next to or inside the empty line of a field section. -/
theorem Request.parse_cut (settings : Settings) (buffer : Bytes) (offset : Int)
    (message : Located Request) (cut : Nat)
    (parsed : Request.parse settings buffer offset = .ok message)
    (starts : message.span.start ≤ cut) (short : cut < message.span.stop) :
    ∃ failure, Request.parse settings (buffer.take cut) offset = .error (.failed failure) ∧
      failure.kind = Request.cutKind settings buffer message cut := by
  obtain ⟨start, text, rfl, stands, spelled⟩ := Request.parse_sound parsed
  have whole : message.span = Span.ofLength start text.length := by
    cases spelled
    rfl
  rw [whole] at starts short
  obtain ⟨front, truncated, rfl, placed⟩ := stands.take starts short
  obtain ⟨failure, failed, same⟩ := spelled.cut stands truncated
  refine ⟨failure.reportedBy .http, ?_, same⟩
  unfold Request.parse Reader.run
  rw [placed]
  simp only [mapError_ok, mapError_error, bind, Except.bind, failed, Fault.reportedBy]

/-- Without the last line feed a request is refused for the name of a field. -/
theorem Request.parse_cut_in_empty_line :
    ∃ failure, Request.parse .standard ((Ascii.bytes ['G', 'E', 'T', ' ', '/', ' ', 'H', 'T', 'T',
        'P', '/', '1', '.', '1', '\r', '\n', 'A', ':', ' ', 'b', '\r', '\n', '\r', '\n']).take
          23) 0 = .error (.failed failure) ∧ failure.kind = .malformedFieldName :=
  Request.parse_cut .standard (Ascii.bytes ['G', 'E', 'T', ' ', '/', ' ', 'H', 'T', 'T', 'P', '/',
    '1', '.', '1', '\r', '\n', 'A', ':', ' ', 'b', '\r', '\n', '\r', '\n']) 0 _ 23 rfl (by decide)
    (by decide)

end Http

end WireSpan
