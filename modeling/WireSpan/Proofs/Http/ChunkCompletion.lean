import WireSpan.Proofs.Http.Truncation
import WireSpan.Proofs.Scan.Completion

/-! Chunked bodies that end too early. What stands before the end of the input can be completed,
unless it ends with more digits than a size may have: the end of the input is looked for before the
number of the digits, so such a size passes for an unfinished one as long as nothing follows it. -/

namespace WireSpan.Http

open Scan Chunked

variable {settings : Settings} {input after : Input} {failure : Failure} {offset : Nat}
  {text rest more : Bytes} {bareLf : Bool}

private theorem completes_lineEnd : (lineEnd settings).Completes (LineEndText settings.bareLf) := by
  have both : (literal lineEndName Ascii.crlf).Completes (LineEndText settings.bareLf) := by
    intro input failure failed ran
    obtain ⟨more, whole⟩ := completes_literal _ _ failed ran
    exact ⟨more, whole ▸ .both⟩
  intro input failure failed ran
  unfold lineEnd at failed
  split at failed
  · rename_i allowed
    unfold orElse at failed
    split at failed
    · cases failed
    · split at failed
      · cases failed
      · rename_i first refused _ second refused'
        cases failed
        unfold further at ran
        split at ran
        · obtain ⟨more, whole⟩ := completes_literal _ _ refused' ran
          exact ⟨more, whole ▸ .lone allowed⟩
        · exact both refused ran
  · exact both failed ran

private theorem completes_lineEndHere :
    (lineEndHere (lineEnd settings)).Completes (LineEndText settings.bareLf) := by
  intro input failure failed ran
  unfold lineEndHere at failed
  split at failed
  · rename_i atEnd
    exact ⟨Ascii.crlf, by rw [List.isEmpty_iff.mp atEnd]; exact .both⟩
  · split at failed
    · cases failed
    · rename_i inner refused
      split at failed
      · cases failed
        exact completes_lineEnd refused ran
      · cases failed
        cases ran

private theorem completes_sizeLineEnd :
    (sizeLineEnd (lineEnd settings)).Completes (LineEndText settings.bareLf) := by
  intro input failure failed ran
  rw [sizeLineEnd, peek?_bind] at failed
  cases next : input.rest.head? with
  | none => exact ⟨Ascii.crlf, by rw [List.head?_eq_none_iff.mp next]; exact .both⟩
  | some b =>
    rw [next] at failed
    simp only at failed
    split at failed
    · exact completes_lineEndHere failed ran
    · cases failed
      cases ran

/-- More hexadecimal digits than a size may have, with nothing behind them. -/
structure OverlongDigits (text : Bytes) : Prop where
  hex : ∀ b ∈ text, Ascii.isHexDigit b = true
  long : maxSizeDigits < text.length

/-- Chunks with data, and then more digits than a size may have, with nothing behind them. -/
inductive OverlongText (bareLf : Bool) : Nat → Bytes → Prop where
  | digits {offset : Nat} {text : Bytes} (overlong : OverlongDigits text) :
      OverlongText bareLf offset text
  | behind {offset : Nat} {text rest : Bytes} {chunk : Located Chunk}
      (spelled : ChunkText bareLf offset text chunk) (notLast : chunk.value.isLast = false)
      (others : OverlongText bareLf (offset + text.length) rest) :
      OverlongText bareLf offset (text ++ rest)

private theorem extensions_ne_error : extensions input ≠ .error failure := by
  intro failed
  rw [extensions, peek?_bind] at failed
  split at failed
  · cases failed
  · cases failed

/-- Where a size line ran out of input there is nothing at all, or there are too many digits. -/
theorem sizeLine_ranOut (failed : sizeLine input = .error failure)
    (ran : failure.kind = .endOfInput) : OverlongDigits input.rest ∨ input.rest = [] := by
  unfold sizeLine located at failed
  split at failed
  · cases failed
  · rename_i inner refused
    cases failed
    rcases bind_eq_error.mp refused with impossible | ⟨digits, mid, found, failed⟩
    · cases impossible
    · obtain ⟨passes, hex, -, -⟩ := takeWhile_sound found
      split at failed
      · rename_i unfit
        rw [peek?_bind] at failed
        cases next : mid.rest.head? with
        | none =>
          have all : input.rest = digits.value := by
            rw [passes.rest, List.head?_eq_none_iff.mp next, List.append_nil]
          rw [Bool.or_eq_true, List.isEmpty_iff, decide_eq_true_eq] at unfit
          rw [all]
          exact unfit.symm.imp_left (OverlongDigits.mk hex)
        | some b =>
          rw [next] at failed
          cases failed
          cases ran
      · rcases bind_eq_error.mp failed with impossible | ⟨blank, mid, -, failed⟩
        · cases impossible
        · rcases bind_eq_error.mp failed with refused | ⟨span, mid, -, impossible⟩
          · exact absurd refused extensions_ne_error
          · cases impossible

/-- The digit zero is a size line. -/
theorem sizeLineText_zero : SizeLineText offset [Ascii.byte '0'] ⟨0, none⟩ := by
  have zero : RunText Ascii.isHexDigit [Ascii.byte '0'] := ⟨nofun, List.all_eq_true.mp rfl⟩
  have empty : SpacingText [] := nofun
  exact .mk zero (by decide) empty .absent

/-- The shortest chunk ends a body. -/
theorem exists_last (bareLf : Bool) (offset : Nat) :
    ∃ text chunk, ChunksText bareLf offset text [chunk] :=
  ⟨_, _, .last (.last sizeLineText_zero .both) rfl⟩

/-- A chunk that is begun with a size can be given its data and its line ends. -/
theorem SizeLineText.chunk {line : SizeLine} {ending : Bytes}
    (lined : SizeLineText offset text line) (ended : LineEndText bareLf ending) :
    ∃ more chunk, ChunkText bareLf offset (text ++ (ending ++ more)) chunk := by
  obtain ⟨size, extensions⟩ := line
  cases size with
  | zero => exact ⟨[], _, by rw [List.append_nil]; exact .last lined ended⟩
  | succ size =>
    have data : (List.replicate (size + 1) (0 : UInt8)).length = size + 1 := List.length_replicate
    rw [← data] at lined
    exact ⟨_, _, .data lined (List.cons_ne_nil _ _) ended .both⟩

/-- Data and the line end behind them. -/
theorem completes_data {β : Type} (count : Nat) (build : Located Bytes → β) :
    (take count >>= fun data => lineEndHere (lineEnd settings) >>= fun _ =>
      pure (build data)).Completes fun whole =>
        ∃ data final, whole = data ++ final ∧ data.length = count ∧
          LineEndText settings.bareLf final := by
  intro input failure failed ran
  rcases bind_eq_error.mp failed with refused | ⟨data, mid, taken, failed⟩
  · obtain ⟨more, length⟩ := completes_take _ refused ran
    exact ⟨more ++ Ascii.crlf, _, _, (List.append_assoc _ _ _).symm, length, .both⟩
  · obtain ⟨passes, length, -⟩ := take_sound taken
    rw [passes.rest]
    rcases bind_eq_error.mp failed with refused | ⟨_, last, -, impossible⟩
    · obtain ⟨more, ended⟩ := completes_lineEndHere refused ran
      exact ⟨more, _, _, List.append_assoc _ _ _, length, ended⟩
    · cases impossible

/-- A chunk of which the input ends too early can be completed, unless its size has too many
digits. -/
theorem chunk_ranOut (failed : chunk (lineEnd settings) input = .error failure)
    (ran : failure.kind = .endOfInput) :
    OverlongDigits input.rest ∨
      ∃ more x, ChunkText settings.bareLf input.offset (input.rest ++ more) x := by
  unfold chunk located at failed
  split at failed
  · cases failed
  · rename_i inner refused
    cases failed
    rcases bind_eq_error.mp refused with refused | ⟨⟨⟨size, span⟩, place⟩, first, found, failed⟩
    · refine (sizeLine_ranOut refused ran).imp_right fun empty => ?_
      rw [empty]
      have zero : SizeLineText input.offset [Ascii.byte '0'] _ := sizeLineText_zero
      have ending : LineEndText settings.bareLf Ascii.crlf := .both
      obtain ⟨more, x, spelled⟩ := zero.chunk ending
      exact ⟨_, x, spelled⟩
    · right
      obtain ⟨line, passLine, lined, rfl⟩ := sizeLine_sound found
      rw [passLine.rest]
      rcases bind_eq_error.mp failed with refused | ⟨_, second, ended, failed⟩
      · obtain ⟨more, ended⟩ := completes_sizeLineEnd refused ran
        obtain ⟨others, x, spelled⟩ := lined.chunk ended
        exact ⟨more ++ others, x, by simpa only [List.append_assoc] using spelled⟩
      · obtain ⟨ending, passEnd, ended⟩ := sizeLineEnd_sound ended
        rw [passEnd.rest]
        split at failed
        · cases failed
        · rename_i nonempty
          obtain ⟨more, data, final, whole, rfl, closed⟩ := completes_data _ _ failed ran
          have some : data ≠ [] := fun empty => nonempty (by rw [empty]; rfl)
          obtain ⟨x, spelled⟩ : ∃ x, ChunkText settings.bareLf input.offset
              (line ++ (ending ++ (data ++ final))) x := ⟨_, .data lined some ended closed⟩
          rw [← whole] at spelled
          exact ⟨more, x, by simpa only [List.append_assoc] using spelled⟩

/-- Chunks of which the input ends too early can be completed, unless the last size has too many
digits. -/
theorem chunkTurns_ranOut (broken : BrokenTurns (chunkTurn (lineEnd settings)) failure input)
    (ran : failure.kind = .endOfInput) :
    OverlongText settings.bareLf input.offset input.rest ∨
      ∃ more values, ChunksText settings.bareLf input.offset (input.rest ++ more) values := by
  induction broken with
  | @here input refused =>
    rcases bind_eq_error.mp refused with refused | ⟨x, mid, -, impossible⟩
    · rcases chunk_ranOut refused ran with overlong | ⟨more, x, spelled⟩
      · exact .inl (.digits overlong)
      · right
        cases isLast : x.value.isLast with
        | true => exact ⟨more, _, .last spelled isLast⟩
        | false =>
          obtain ⟨text, last, ends⟩ := exists_last settings.bareLf
            (input.offset + (input.rest ++ more).length)
          refine ⟨more ++ text, [x, last], ?_⟩
          rw [← List.append_assoc]
          exact .more spelled isLast ends
    · cases impossible
  | later read rest ih =>
    obtain ⟨text, x, passes, spelled, result⟩ := chunkTurn_sound read
    have notLast : x.value.isLast = false := by
      cases isLast : x.value.isLast with
      | true =>
        rw [isLast] at result
        cases result
      | false => rfl
    rw [passes.offset] at ih
    rw [passes.rest]
    rcases ih with overlong | ⟨more, values, others⟩
    · exact .inl (.behind spelled notLast overlong)
    · refine .inr ⟨more, x :: values, ?_⟩
      rw [List.append_assoc]
      exact .more spelled notLast others

private theorem chunks_ranOut (failed : chunks (lineEnd settings) input = .error failure)
    (ran : failure.kind = .endOfInput) :
    OverlongText settings.bareLf input.offset input.rest ∨
      ∃ more values, ChunksText settings.bareLf input.offset (input.rest ++ more) values := by
  rcases bind_eq_error.mp failed with refused | ⟨read, mid, -, impossible⟩
  · exact chunkTurns_ranOut (.ofCollect chunkTurn_readsOn refused) ran
  · cases impossible

/-- A size with too many digits is refused, whatever follows it. Where nothing does, it passes for
one that ends too early. -/
theorem OverlongDigits.refused (overlong : OverlongDigits text) (offset : Nat) (more : Bytes) :
    ∃ failure, Refuses sizeLine ⟨offset, text ++ more⟩ failure ∧
      (more = [] → failure.kind = .endOfInput) := by
  have digits : (text ++ more).takeWhile Ascii.isHexDigit =
      text ++ more.takeWhile Ascii.isHexDigit := List.takeWhile_append_of_pos overlong.hex
  have behind : (text ++ more).dropWhile Ascii.isHexDigit = more.dropWhile Ascii.isHexDigit :=
    List.dropWhile_append_of_pos overlong.hex
  have run : takeWhile Ascii.isHexDigit ⟨offset, text ++ more⟩ = .ok (_, _) := rfl
  rw [digits, behind] at run
  have long := overlong.long
  have unfit : ((text ++ more.takeWhile Ascii.isHexDigit).isEmpty ||
      decide (maxSizeDigits < (text ++ more.takeWhile Ascii.isHexDigit).length)) = true := by
    rw [Bool.or_eq_true, decide_eq_true_eq, List.length_append]
    omega
  unfold Refuses sizeLine located
  rw [bind_run, run]
  simp only [unfit, ↓reduceIte, peek?_bind]
  cases next : (more.dropWhile Ascii.isHexDigit).head? with
  | none => exact ⟨_, rfl, fun _ => rfl⟩
  | some b =>
    refine ⟨_, rfl, ?_⟩
    rintro rfl
    cases next

/-- Chunks with data before such a size are read, and then it is refused. -/
theorem OverlongText.refused (overlong : OverlongText settings.bareLf offset text) (more : Bytes) :
    ∃ failure, Refuses (chunks (lineEnd settings)) ⟨offset, text ++ more⟩ failure ∧
      (more = [] → failure.kind = .endOfInput) := by
  have collected {offset : Nat} {text : Bytes}
      (overlong : OverlongText settings.bareLf offset text) :
      ∃ failure, Refuses (collect (chunkTurn (lineEnd settings))) ⟨offset, text ++ more⟩ failure ∧
        (more = [] → failure.kind = .endOfInput) := by
    induction overlong with
    | @digits offset text overlong =>
      obtain ⟨failure, refused, ran⟩ := overlong.refused offset more
      exact ⟨failure, refused.bind.located.bind.collect chunkTurn_readsOn, ran⟩
    | @behind offset text rest x spelled notLast others ih =>
      obtain ⟨failure, refused, ran⟩ := ih
      have read : Reads (chunkTurn (lineEnd settings)) offset text _ (rest ++ more) :=
        spelled.readsTurn
      rw [notLast] at read
      rw [List.append_assoc]
      exact ⟨failure, refused.collectMore chunkTurn_readsOn read, ran⟩
  obtain ⟨failure, refused, ran⟩ := collected overlong
  exact ⟨failure, refused.bind, ran⟩

section Plain

/-- A body outside any message of which the input ends too early can be completed, unless its last
size has too many digits. -/
theorem plain_ranOut (failed : plain input = .error failure) (ran : failure.kind = .endOfInput) :
    OverlongText false input.offset input.rest ∨
      ∃ more x, PlainChunkedText input.offset (input.rest ++ more) x := by
  unfold plain body located at failed
  split at failed
  · cases failed
  · rename_i inner refused
    cases failed
    rcases bind_eq_error.mp refused with refused | ⟨values, mid, found, failed⟩
    · have refused : chunks (lineEnd bothBytesOnly) input = .error failure := refused
      refine (chunks_ranOut refused ran).imp_right ?_
      rintro ⟨more, values, chunked⟩
      have spelled := PlainChunkedText.mk chunked
      rw [List.append_assoc] at spelled
      exact ⟨_, _, spelled⟩
    · right
      have found : chunks (lineEnd bothBytesOnly) input = .ok (values, mid) := found
      obtain ⟨text, passes, chunked⟩ := chunks_sound found
      have ending : plain.bothBytes mid = .error failure := by
        rcases bind_eq_error.mp failed with refused | ⟨trailers, last, -, impossible⟩
        · rcases bind_eq_error.mp refused with refused | ⟨_, last, -, impossible⟩
          · exact refused
          · cases impossible
        · cases impossible
      obtain ⟨more, ended⟩ := completes_literal _ _ ending ran
      have spelled := PlainChunkedText.mk chunked
      rw [← ended, ← List.append_assoc, ← passes.rest] at spelled
      exact ⟨more, _, spelled⟩

theorem OverlongText.plain_refused (overlong : OverlongText false offset text) (more : Bytes) :
    ∃ failure, Refuses plain ⟨offset, text ++ more⟩ failure ∧
      (more = [] → failure.kind = .endOfInput) := by
  have overlong : OverlongText bothBytesOnly.bareLf offset text := overlong
  obtain ⟨failure, refused, ran⟩ := overlong.refused more
  exact ⟨failure, refused.bind.located, ran⟩

/-- A body outside any message is said to end too early where more bytes would complete it, and
where it ends with a size of too many digits, which nothing completes. -/
theorem plain_ranOut_iff (offset : Nat) (text : Bytes) :
    (∃ failure, plain ⟨offset, text⟩ = .error failure ∧ failure.kind = .endOfInput) ↔
      (∀ read, plain ⟨offset, text⟩ ≠ .ok read) ∧
        (OverlongText false offset text ∨ ∃ more read, plain ⟨offset, text ++ more⟩ = .ok read) := by
  constructor
  · rintro ⟨failure, failed, ran⟩
    refine ⟨fun read found => ?_, (plain_ranOut failed ran).imp_right ?_⟩
    · rw [failed] at found
      cases found
    · rintro ⟨more, x, spelled⟩
      have read : Reads plain offset (text ++ more) x [] := spelled.reads
      unfold Reads at read
      rw [List.append_nil] at read
      exact ⟨more, _, read⟩
  · rintro ⟨unread, overlong | ⟨more, ⟨x, after⟩, read⟩⟩
    · obtain ⟨failure, refused, ran⟩ := overlong.plain_refused []
      unfold Refuses at refused
      rw [List.append_nil] at refused
      exact ⟨failure, refused, ran rfl⟩
    · obtain ⟨whole, passes, spelled⟩ := plain_sound read
      have bytes : text ++ more = whole ++ after.rest := passes.rest
      -- what is read with more bytes reaches beyond the text, or it would be read without them
      rcases List.append_eq_append_iff.mp bytes with ⟨lacking, rfl, -⟩ | ⟨rest, rfl, -⟩
      · cases lacking with
        | nil =>
          have whole : Reads plain offset (text ++ []) x [] := spelled.reads
          unfold Reads at whole
          rw [List.append_nil, List.append_nil] at whole
          exact absurd whole (unread _)
        | cons b lacking =>
          have short : text.length < (text ++ b :: lacking).length := by simp
          exact (spelled.waits text ⟨List.prefix_append _ _, short⟩).failsAs
      · exact absurd spelled.reads (unread _)

end Plain

end WireSpan.Http
