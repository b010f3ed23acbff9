import WireSpan.Proofs.Http.ChunkCompletion
import WireSpan.Proofs.Program.Scanning

/-! Chunked bodies outside any message, of which only the first bytes have arrived. Their lines end
with both bytes and no trailer field may follow the chunks, so there is nothing that a cut could
be mistaken for: wherever it falls, the decoder runs out of input and the cursor stays. Where it
says so, more bytes do help, unless a size has too many digits and nothing behind them. -/

namespace WireSpan.Command

/-- Of a chunked body only the first bytes of which have arrived the decoder says that it ran out of
input, at the end of what has arrived, and it reads none of it. -/
theorem run_plainChunked_cut (buffer : Bytes) (start stop cut : Nat) (reply : Reply)
    (log : List Record)
    (decoded : run .plainChunked ⟨buffer, start⟩ = ⟨.ok reply, ⟨buffer, stop⟩, log⟩)
    (starts : start ≤ cut) (short : cut < stop) :
    ∃ expected, run .plainChunked ⟨buffer.take cut, start⟩ =
      ⟨.error (.failed ⟨.endOfInput expected, cut, .general⟩), ⟨buffer.take cut, start⟩, []⟩ := by
  obtain ⟨body, after, read, rfl⟩ := runChunked_eq_ok decoded
  obtain ⟨text, passes, spelled⟩ := Http.plain_sound read
  have place : after.offset = start + text.length := by
    rw [passes.offset, Cursor.input_offset]
  rw [Cursor.input_offset] at spelled
  have left : buffer.length - start = text.length + after.rest.length := by
    rw [← List.length_drop]
    exact passes.length_rest
  have stands : Stands buffer start text := Cursor.stands_of_passes (by omega) passes
  obtain ⟨front, truncated, rfl, placed⟩ := stands.take starts (by omega)
  obtain ⟨expected, failed⟩ := spelled.waits front truncated
  rw [← Cursor.input_of_at? placed] at failed
  refine ⟨expected, ?_⟩
  rw [run, runChunked_of_error failed, Cursor.input_of_at? placed]
  rfl

/-- A body behind another byte, cut off between its only data and the line end after them. -/
theorem run_plainChunked_cut_behind_data :
    ∃ expected, run .plainChunked ⟨(Ascii.bytes [' ', '1', '\r', '\n', 'a', '\r', '\n', '0', '\r',
        '\n', '\r', '\n']).take 5, 1⟩ =
      ⟨.error (.failed ⟨.endOfInput expected, 5, .general⟩), ⟨(Ascii.bytes [' ', '1', '\r', '\n',
        'a', '\r', '\n', '0', '\r', '\n', '\r', '\n']).take 5, 1⟩, []⟩ :=
  run_plainChunked_cut _ 1 12 5 _ _ rfl (by decide) (by decide)

/-- The decoder reads a body from a place of a buffer. -/
def Decodes (buffer : Bytes) (start : Nat) : Prop :=
  ∃ reply after log, run .plainChunked ⟨buffer, start⟩ = ⟨.ok reply, after, log⟩

/-- The decoder says that a buffer ends too early for a body at a place of it. -/
def EndsEarly (buffer : Bytes) (start : Nat) : Prop :=
  ∃ failure, run .plainChunked ⟨buffer, start⟩ =
    ⟨.error (.failed failure), ⟨buffer, start⟩, []⟩ ∧ failure.kind = .endOfInput

private theorem decodes_iff {buffer : Bytes} {start : Nat} :
    Decodes buffer start ↔
      ∃ read, Http.Chunked.plain (Cursor.input ⟨buffer, start⟩) = .ok read := by
  constructor
  · rintro ⟨reply, after, log, decoded⟩
    obtain ⟨body, rest, read, -⟩ := runChunked_eq_ok decoded
    exact ⟨_, read⟩
  · rintro ⟨⟨body, rest⟩, read⟩
    exact ⟨_, _, _, runChunked_of_ok read⟩

private theorem endsEarly_iff {buffer : Bytes} {start : Nat} :
    EndsEarly buffer start ↔ ∃ failure,
      Http.Chunked.plain (Cursor.input ⟨buffer, start⟩) = .error failure ∧
        failure.kind = .endOfInput := by
  constructor
  · rintro ⟨failure, failed, ran⟩
    cases found : Http.Chunked.plain (Cursor.input ⟨buffer, start⟩) with
    | ok read =>
      have decoded : run .plainChunked ⟨buffer, start⟩ = _ := runChunked_of_ok found
      rw [failed] at decoded
      cases decoded
    | error refused =>
      have failed' : run .plainChunked ⟨buffer, start⟩ = _ := runChunked_of_error found
      rw [failed] at failed'
      cases failed'
      exact ⟨_, rfl, ran⟩
  · rintro ⟨failure, failed, ran⟩
    exact ⟨failure, runChunked_of_error failed, ran⟩

/-- The decoder says that a buffer ends too early exactly where it reads no body and either more
bytes at the end of the buffer would change that, or there are chunks with data and then more
digits than a size may have, up to the end. In the second case no bytes change anything. -/
theorem run_plainChunked_endsEarly (buffer : Bytes) (start : Nat)
    (inside : start ≤ buffer.length) :
    (EndsEarly buffer start ↔ ¬ Decodes buffer start ∧
      (Http.OverlongText false start (buffer.drop start) ∨
        ∃ more, Decodes (buffer ++ more) start)) ∧
    (Http.OverlongText false start (buffer.drop start) →
      ∀ more, ¬ Decodes (buffer ++ more) start) := by
  have here : Cursor.input ⟨buffer, start⟩ = ⟨start, buffer.drop start⟩ := Cursor.input_eq _ _
  have there (more : Bytes) :
      Cursor.input ⟨buffer ++ more, start⟩ = ⟨start, buffer.drop start ++ more⟩ := by
    rw [Cursor.input_eq, List.drop_append_of_le_length inside]
  simp only [endsEarly_iff, decodes_iff, here, there]
  constructor
  · rw [Http.plain_ranOut_iff, not_exists]
  · rintro overlong more ⟨read, found⟩
    obtain ⟨failure, refused, -⟩ := overlong.plain_refused more
    unfold Scan.Refuses at refused
    rw [found] at refused
    cases refused

/-- Behind another byte there are seventeen digits, and whatever follows them, they are no size. -/
theorem run_plainChunked_endsEarly_many_digits :
    EndsEarly (Ascii.byte ' ' :: List.replicate 17 (Ascii.byte '1')) 1 ∧
      ∀ more, ¬ Decodes (Ascii.byte ' ' :: List.replicate 17 (Ascii.byte '1') ++ more) 1 := by
  have overlong : Http.OverlongText false 1 (List.replicate 17 (Ascii.byte '1')) :=
    .digits ⟨List.all_eq_true.mp rfl, by decide⟩
  obtain ⟨endsEarly, never⟩ := run_plainChunked_endsEarly
    (Ascii.byte ' ' :: List.replicate 17 (Ascii.byte '1')) 1 (by decide)
  refine ⟨endsEarly.mpr ⟨?_, .inl overlong⟩, never overlong⟩
  have alone := never overlong []
  rwa [List.append_nil] at alone

end WireSpan.Command
