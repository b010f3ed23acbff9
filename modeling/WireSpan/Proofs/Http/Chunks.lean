import WireSpan.Proofs.Http.Fields
import WireSpan.Proofs.Scan.Repetition

/-! The scanners of chunked bodies, and the grammar of the chunked coding. -/

namespace WireSpan.Http

open Scan Chunked

variable {input after : Input} {settings : Settings} {offset : Nat} {text rest : Bytes}

private theorem extensions_sound : Sound extensions ExtensionsText := by
  intro input after span read
  rw [extensions, peek?_bind] at read
  split at read
  · rename_i next
    obtain ⟨run, mid, found, result⟩ := bind_eq_ok.mp read
    obtain ⟨rfl, rfl⟩ := pure_eq_ok.mp result
    obtain ⟨passes, inside, -, place⟩ := takeWhile_sound found
    obtain ⟨more, bytes⟩ := List.head?_eq_some_iff.mp next
    have same : run.value = Ascii.byte ';' :: run.value.tail := by
      unfold takeWhile at found
      cases found
      rw [bytes, List.takeWhile_cons_of_pos (by decide)]
      rfl
    rw [same] at passes place inside
    refine ⟨_, passes, ?_⟩
    rw [place]
    refine .present fun b member => ?_
    simpa using inside b (List.mem_cons_of_mem _ member)
  · obtain ⟨rfl, rfl⟩ := pure_eq_ok.mp read
    exact ⟨[], .refl _, .absent⟩

theorem ExtensionsText.reads {span : Option Span} (extended : ExtensionsText offset text span)
    (ending : BeforeLineEnd rest) : Reads extensions offset text span rest := by
  unfold Reads
  rw [extensions, peek?_bind]
  cases extended with
  | absent =>
    have other : rest.head? ≠ some (Ascii.byte ';') := by
      intro next
      rcases ending _ next with same | same <;> cases same
    rw [List.nil_append, if_neg other]
    rfl
  | @present text inside =>
    have all : ∀ b ∈ Ascii.byte ';' :: text,
        (b != Ascii.carriageReturn && b != Ascii.lineFeed) = true := by
      intro b member
      rcases List.mem_cons.mp member with rfl | within
      · decide
      · simpa using inside b within
    rw [List.cons_append, List.head?_cons, if_pos rfl]
    exact (Reads.takeWhile all (ending.stops (by decide) (by decide))).map
      fun run : Located Bytes => some run.span

theorem sizeLine_sound {x : Located SizeLine} (read : sizeLine input = .ok (x, after)) :
    ∃ text, input.Passes text after ∧ SizeLineText input.offset text x.value ∧
      x.span = Span.ofLength input.offset text.length := by
  obtain ⟨value, scanned, rfl⟩ := located_eq_ok.mp read
  obtain ⟨digits, first, found, later⟩ := bind_eq_ok.mp scanned
  obtain ⟨passDigits, hex, -, -⟩ := takeWhile_sound found
  split at later
  · rw [peek?_bind] at later
    cases next : first.rest.head? <;> rw [next] at later <;> cases later
  · rename_i fits
    obtain ⟨blank, second, spaced, later⟩ := bind_eq_ok.mp later
    obtain ⟨span, third, extended, result⟩ := bind_eq_ok.mp later
    obtain ⟨rfl, rfl⟩ := pure_eq_ok.mp result
    obtain ⟨passBlank, spacing, -, -⟩ := takeWhile_sound spaced
    obtain ⟨text, passText, extended⟩ := extensions_sound extended
    simp only [Bool.or_eq_true, List.isEmpty_iff, decide_eq_true_eq, not_or, Nat.not_lt] at fits
    have passes := passDigits.trans (passBlank.trans passText)
    rw [passBlank.offset, passDigits.offset] at extended
    exact ⟨_, passes, .mk ⟨fits.1, hex⟩ fits.2 spacing extended, passes.spanTo⟩

theorem ExtensionsText.stops {span : Option Span} {accepts : UInt8 → Bool}
    (extended : ExtensionsText offset text span) (ending : BeforeLineEnd rest)
    (noReturn : accepts Ascii.carriageReturn = false) (noFeed : accepts Ascii.lineFeed = false)
    (noSemicolon : accepts (Ascii.byte ';') = false) : Stops accepts (text ++ rest) := by
  cases extended with
  | absent => exact ending.stops noReturn noFeed
  | present => exact Stops.cons noSemicolon _

theorem SpacingText.stops_hex (spaced : SpacingText text) (stops : Stops Ascii.isHexDigit rest) :
    Stops Ascii.isHexDigit (text ++ rest) := by
  cases text with
  | nil => exact stops
  | cons b text =>
    refine Stops.cons ?_ _
    rcases isSpaceOrTab_iff.mp (spaced b (by simp)) with rfl | rfl <;> decide

theorem sizeLine_fits (sized : RunText Ascii.isHexDigit text)
    (fits : text.length ≤ maxSizeDigits) :
    ¬ (text.isEmpty || decide (maxSizeDigits < text.length)) = true := by
  simpa [sized.nonempty] using fits

theorem SizeLineText.reads {line : SizeLine} (lined : SizeLineText offset text line)
    (ending : BeforeLineEnd rest) :
    Reads sizeLine offset text ⟨line, Span.ofLength offset text.length⟩ rest := by
  apply Reads.located
  cases lined with
  | @mk digits blank text span sized fits spaced extended =>
    refine (Reads.takeWhile sized.all ?_).bind ?_
    · rw [List.append_assoc]
      exact spaced.stops_hex (extended.stops ending (by decide) (by decide) (by decide))
    · rw [if_neg (sizeLine_fits sized fits)]
      refine (Reads.takeWhile spaced ?_).bind
        ((extended.reads ending).map (SizeLine.mk (Ascii.hexNumber digits)))
      exact extended.stops ending (by decide) (by decide) (by decide)

private theorem lineEndHere_sound {u : Unit}
    (read : lineEndHere (lineEnd settings) input = .ok (u, after)) :
    ∃ text, input.Passes text after ∧ LineEndText settings.bareLf text := by
  unfold lineEndHere at read
  split at read
  · cases read
  · split at read
    · rename_i x mid found
      cases read
      exact lineEnd_sound found
    · split at read <;> cases read

private theorem lineEndHere_reads (ended : LineEndText settings.bareLf text) :
    Reads (lineEndHere (lineEnd settings)) offset text () rest := by
  obtain ⟨x, read⟩ : ∃ x, Reads (lineEnd settings) offset text x rest := ended.reads
  unfold Reads at read ⊢
  have notEnd : (Input.mk offset (text ++ rest)).atEnd = false := by cases ended <;> rfl
  rw [lineEndHere, notEnd, read]
  rfl

theorem sizeLineEnd_sound {u : Unit}
    (read : sizeLineEnd (lineEnd settings) input = .ok (u, after)) :
    ∃ text, input.Passes text after ∧ LineEndText settings.bareLf text := by
  rw [sizeLineEnd, peek?_bind] at read
  cases found : input.rest.head? with
  | none =>
    rw [found] at read
    cases read
  | some b =>
    rw [found] at read
    simp only at read
    split at read
    · exact lineEndHere_sound read
    · cases read

theorem sizeLineEnd_reads (ended : LineEndText settings.bareLf text) :
    Reads (sizeLineEnd (lineEnd settings)) offset text () rest := by
  have read : Reads (lineEndHere (lineEnd settings)) offset text () rest :=
    lineEndHere_reads ended
  unfold Reads at read ⊢
  rw [sizeLineEnd, peek?_bind]
  cases ended <;> exact read

private theorem chunk_sound : Sound (chunk (lineEnd settings)) (ChunkText settings.bareLf) := by
  intro input after x read
  obtain ⟨value, scanned, rfl⟩ := located_eq_ok.mp read
  obtain ⟨⟨⟨size, span⟩, place⟩, first, found, later⟩ := bind_eq_ok.mp scanned
  obtain ⟨_, second, ending, later⟩ := bind_eq_ok.mp later
  obtain ⟨line, passLine, lined, rfl⟩ := sizeLine_sound found
  obtain ⟨ending, passEnd, ended⟩ := sizeLineEnd_sound ending
  split at later
  · rename_i empty
    simp only at empty
    subst empty
    rw [here_bind] at later
    obtain ⟨rfl, rfl⟩ := pure_eq_ok.mp later
    have passes := passLine.trans passEnd
    refine ⟨_, passes, ?_⟩
    rw [passes.spanTo, passEnd.offset, passLine.offset]
    exact .last lined ended
  · rename_i nonempty
    obtain ⟨data, third, taken, later⟩ := bind_eq_ok.mp later
    obtain ⟨_, fourth, closing, result⟩ := bind_eq_ok.mp later
    obtain ⟨rfl, rfl⟩ := pure_eq_ok.mp result
    obtain ⟨passData, length, place⟩ := take_sound taken
    obtain ⟨final, passFinal, closed⟩ := lineEndHere_sound closing
    have passes := passLine.trans (passEnd.trans (passData.trans passFinal))
    refine ⟨_, passes, ?_⟩
    simp only at length nonempty lined
    subst length
    rw [passes.spanTo, place, passEnd.offset, passLine.offset]
    refine .data lined ?_ ended closed
    rintro empty
    rw [empty] at nonempty
    exact nonempty rfl

theorem ChunkText.reads {x : Located Chunk} (spelled : ChunkText settings.bareLf offset text x) :
    Reads (chunk (lineEnd settings)) offset text x rest := by
  cases spelled with
  | @last line ending extensions lined ended =>
    apply Reads.located
    refine (lined.reads ended.before).bind ?_
    exact (sizeLineEnd_reads ended).thenNothing rfl
  | @data line ending data final extensions lined nonempty ended closed =>
    apply Reads.located
    have some : ¬ data.length = 0 := by simpa using nonempty
    refine (lined.reads ?_).bind ((sizeLineEnd_reads ended).bind ?_)
    · rw [List.append_assoc]
      exact ended.before
    · rw [if_neg some]
      exact Reads.take.bind ((lineEndHere_reads closed).map fun _ => Chunk.mk _ _ _ _)

theorem ChunkText.readsTurn {x : Located Chunk}
    (spelled : ChunkText settings.bareLf offset text x) :
    Reads (chunkTurn (lineEnd settings)) offset text
      (if x.value.isLast = true then .inr x else .inl x) rest :=
  spelled.reads.map fun x : Located Chunk =>
    (if x.value.isLast = true then .inr x else .inl x : Located Chunk ⊕ Located Chunk)

theorem ChunkText.ne_nil {bareLf : Bool} {x : Located Chunk}
    (spelled : ChunkText bareLf offset text x) : text ≠ [] := by
  have sizeLine_ne_nil {text : Bytes} {line : SizeLine} (lined : SizeLineText offset text line) :
      text ≠ [] := by
    cases lined with
    | mk sized => simp [sized.nonempty]
  cases spelled with
  | last lined => simp [sizeLine_ne_nil lined]
  | data lined => simp [sizeLine_ne_nil lined]

theorem chunkTurn_sound {result : Located Chunk ⊕ Located Chunk}
    (read : chunkTurn (lineEnd settings) input = .ok (result, after)) :
    ∃ text x, input.Passes text after ∧ ChunkText settings.bareLf input.offset text x ∧
      result = if x.value.isLast = true then .inr x else .inl x := by
  obtain ⟨x, mid, found, result⟩ := bind_eq_ok.mp read
  obtain ⟨text, passes, spelled⟩ := chunk_sound found
  obtain ⟨same, rfl⟩ := pure_eq_ok.mp result
  exact ⟨text, x, passes, spelled, same.symm⟩

theorem chunkTurn_readsOn : ReadsOn (chunkTurn (lineEnd settings)) := by
  intro input x after read
  obtain ⟨text, y, passes, spelled, -⟩ := chunkTurn_sound read
  have some := List.length_pos_iff.mpr spelled.ne_nil
  rw [passes.length_rest]
  omega

private theorem chunkTurns_sound {values : List (Located Chunk)} {last : Located Chunk}
    (turns : Turns (chunkTurn (lineEnd settings)) input values last after) :
    ∃ text, input.Passes text after ∧
      ChunksText settings.bareLf input.offset text (values ++ [last]) := by
  induction turns with
  | done ended =>
    obtain ⟨text, x, passes, spelled, same⟩ := chunkTurn_sound ended
    split at same
    · rename_i isLast
      cases same
      exact ⟨text, passes, .last spelled isLast⟩
    · cases same
  | step read more ih =>
    obtain ⟨text, x, passes, spelled, same⟩ := chunkTurn_sound read
    obtain ⟨rest, passed, others⟩ := ih
    split at same
    · cases same
    · rename_i notLast
      cases same
      rw [passes.offset] at others
      exact ⟨_, passes.trans passed, .more spelled (Bool.eq_false_iff.mpr notLast) others⟩

theorem chunks_sound : Sound (chunks (lineEnd settings)) (ChunksText settings.bareLf) := by
  intro input after values read
  obtain ⟨⟨init, last⟩, mid, run, result⟩ := bind_eq_ok.mp read
  obtain ⟨rfl, rfl⟩ := pure_eq_ok.mp result
  exact chunkTurns_sound (Turns.ofCollect run)

/-- The turns that read the chunks of a body. -/
theorem ChunksText.turns {values : List (Located Chunk)}
    (spelled : ChunksText settings.bareLf offset text values) :
    ∃ init last, values = init ++ [last] ∧
      Turns (chunkTurn (lineEnd settings)) ⟨offset, text ++ rest⟩ init last
        ⟨offset + text.length, rest⟩ := by
  induction spelled with
  | @last offset text x spelled isLast =>
    have read : Reads (chunkTurn (lineEnd settings)) offset text _ rest := spelled.readsTurn
    rw [if_pos isLast] at read
    exact ⟨[], x, rfl, .done read⟩
  | @more offset text others x values spelled notLast continued ih =>
    have read : Reads (chunkTurn (lineEnd settings)) offset text _ (others ++ rest) :=
      spelled.readsTurn
    rw [notLast] at read
    obtain ⟨init, last, rfl, turns⟩ := ih
    refine ⟨x :: init, last, rfl, ?_⟩
    rw [List.append_assoc, List.length_append, ← Nat.add_assoc]
    exact .step read turns

theorem ChunksText.reads {values : List (Located Chunk)}
    (spelled : ChunksText settings.bareLf offset text values) :
    Reads (chunks (lineEnd settings)) offset text values rest := by
  obtain ⟨init, last, rfl, turns⟩ : ∃ init last, values = init ++ [last] ∧
      Turns (chunkTurn (lineEnd settings)) _ init last ⟨_, rest⟩ := spelled.turns
  have run : Reads (collect (chunkTurn (lineEnd settings))) offset text (init, last) rest :=
    turns.collect chunkTurn_readsOn
  exact run.map fun read : List (Located Chunk) × Located Chunk => read.1 ++ [read.2]

theorem ofMessage_sound :
    Sound (ofMessage settings) (ChunkedText settings.bareLf settings.fieldLimit) := by
  intro input after x read
  obtain ⟨value, scanned, rfl⟩ := located_eq_ok.mp read
  obtain ⟨values, first, found, later⟩ := bind_eq_ok.mp scanned
  obtain ⟨trailers, second, more, result⟩ := bind_eq_ok.mp later
  obtain ⟨rfl, rfl⟩ := pure_eq_ok.mp result
  obtain ⟨text, passText, chunked⟩ := chunks_sound found
  obtain ⟨rest, passRest, sectioned, counted⟩ := fieldSection_sound more
  have passes := passText.trans passRest
  rw [passText.offset] at sectioned
  rw [passes.spanTo]
  exact ⟨_, passes, .mk chunked sectioned counted⟩

theorem ChunkedText.reads {x : Located ChunkedBody}
    (spelled : ChunkedText settings.bareLf settings.fieldLimit offset text x) :
    Reads (ofMessage settings) offset text x rest := by
  cases spelled with
  | @mk text others values trailers chunked sectioned counted =>
    apply Reads.located
    exact chunked.reads.bind ((sectioned.reads counted).map (ChunkedBody.mk values))

/-- Settings that take a lone line feed for no line end, as is the rule outside of messages. -/
def bothBytesOnly : Settings := { Settings.standard with bareLf := false }

private theorem lineEnd_bothBytesOnly : lineEnd bothBytesOnly = plain.bothBytes := rfl

theorem plain_sound : Sound plain PlainChunkedText := by
  intro input after x read
  have sound : Sound (chunks plain.bothBytes) (ChunksText false) :=
    lineEnd_bothBytesOnly ▸ chunks_sound
  obtain ⟨value, scanned, rfl⟩ := located_eq_ok.mp read
  obtain ⟨values, mid, found, later⟩ := bind_eq_ok.mp scanned
  obtain ⟨trailers, stop, more, result⟩ := bind_eq_ok.mp later
  obtain ⟨rfl, rfl⟩ := pure_eq_ok.mp result
  obtain ⟨blank, last, ended, result⟩ := bind_eq_ok.mp more
  obtain ⟨rfl, rfl⟩ := pure_eq_ok.mp result
  obtain ⟨text, passText, chunked⟩ := sound found
  obtain ⟨passEnd, -⟩ := literal_sound ended
  have passes := passText.trans passEnd
  rw [passes.spanTo]
  exact ⟨_, passes, .mk chunked⟩

theorem PlainChunkedText.reads {x : Located ChunkedBody}
    (spelled : PlainChunkedText offset text x) :
    Reads plain offset text x rest := by
  cases spelled with
  | @mk text values chunked =>
    have chunked : ChunksText bothBytesOnly.bareLf offset text values := chunked
    have begun : Reads (chunks plain.bothBytes) offset text values (Ascii.crlf ++ rest) :=
      chunked.reads
    have ending : Reads plain.bothBytes (offset + text.length) Ascii.crlf _ rest :=
      Reads.literal lineEndName
    exact (begun.bind ((ending.map fun _ => []).map (ChunkedBody.mk values))).located

end WireSpan.Http
