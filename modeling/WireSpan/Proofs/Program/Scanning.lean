import WireSpan.Program
import WireSpan.Proofs.Scan.Relocation
import WireSpan.Proofs.Span.Stands

/-! Steps of a program that scan. What a cursor has to read is the input at its place in its buffer,
and it moves over what the scanner reads of that. -/

namespace WireSpan

open Scan

namespace Cursor

variable {buffer text : Bytes} {start : Nat} {input after : Input}

/-- The input at an offset of a buffer is what a cursor there has to read. -/
theorem input_of_at? (placed : Input.at? buffer start = .ok input) :
    Cursor.input ⟨buffer, start⟩ = input := by
  unfold Input.at? at placed
  split at placed
  · cases placed
    rfl
  · cases placed

theorem input_eq (buffer : Bytes) (start : Nat) :
    Cursor.input ⟨buffer, start⟩ = ⟨start, buffer.drop start⟩ := by
  rw [Cursor.input, Input.ofBytes, Input.advance, Nat.zero_add]

/-- Bytes at the end of a buffer are at the end of what a cursor in it has to read. -/
theorem input_append (inside : start ≤ buffer.length) {more : Bytes} :
    Cursor.input ⟨buffer ++ more, start⟩ = ⟨start, buffer.drop start ++ more⟩ := by
  rw [input_eq, List.drop_append_of_le_length inside]

/-- What a cursor passes over stands in its buffer. -/
theorem stands_of_passes (inside : start ≤ buffer.length)
    (passes : (Cursor.input ⟨buffer, start⟩).Passes text after) : Stands buffer start text := by
  have bytes : buffer.drop start = text ++ after.rest := passes.rest
  refine ⟨buffer.take start, after.rest, ?_, List.length_take_of_le inside⟩
  rw [List.append_assoc, ← bytes, List.take_append_drop]

/-- A cursor behind other bytes has the same bytes to read, further right. -/
theorem input_behind (before buffer : Bytes) :
    Cursor.input ⟨before ++ buffer, before.length⟩ =
      (Cursor.input ⟨buffer, 0⟩).shiftBy before.length := by
  simp only [Cursor.input, Input.ofBytes, Input.advance, Input.shiftBy, List.drop_left,
    List.drop_zero, Nat.zero_add]

end Cursor

namespace Command

section RunScan

variable {α : Type} {scan : Scan α} {reply : α → Reply} {move : α → α} {before buffer : Bytes}
  {cursor : Cursor}

theorem runScan_of_ok {value : α} {after : Input}
    (read : scan cursor.input = .ok (value, after)) :
    runScan scan reply cursor =
      ⟨.ok (reply value), { cursor with offset := after.offset }, []⟩ := by
  simp only [runScan, runMatcher, Matcher.ofScan, read, Except.map]

theorem runScan_of_error {failure : Failure} (refused : scan cursor.input = .error failure) :
    runScan scan reply cursor = ⟨.error (.failed failure), cursor, []⟩ := by
  simp only [runScan, runMatcher, Matcher.ofScan, refused, Except.map, Cursor.input_offset]

/-- A scanner that does not depend on where its input stands gives the same reply behind other
bytes, moved, or fails there as it fails without them. -/
theorem runScan_behind (relocates : Relocates before.length move scan scan) :
    (∃ value stop, runScan scan reply ⟨buffer, 0⟩ = ⟨.ok (reply value), ⟨buffer, stop⟩, []⟩ ∧
      runScan scan reply ⟨before ++ buffer, before.length⟩ =
        ⟨.ok (reply (move value)), ⟨before ++ buffer, stop + before.length⟩, []⟩) ∨
    ∃ fault, runScan scan reply ⟨buffer, 0⟩ = ⟨.error fault, ⟨buffer, 0⟩, []⟩ ∧
      runScan scan reply ⟨before ++ buffer, before.length⟩ =
        ⟨.error (fault.shiftBy before.length), ⟨before ++ buffer, before.length⟩, []⟩ := by
  have moved := relocates (Cursor.input ⟨buffer, 0⟩)
  rw [← Cursor.input_behind] at moved
  cases found : scan (Cursor.input ⟨buffer, 0⟩) with
  | ok result =>
    rw [found] at moved
    exact .inl ⟨_, _, runScan_of_ok found, runScan_of_ok moved⟩
  | error failure =>
    rw [found] at moved
    exact .inr ⟨_, runScan_of_error found, runScan_of_error moved⟩

end RunScan

section RunChunked

variable {scan : Scan (Located Http.ChunkedBody)} {cursor : Cursor}

theorem runChunked_of_error {failure : Failure} (refused : scan cursor.input = .error failure) :
    runChunked scan cursor = ⟨.error (.failed failure), cursor, []⟩ := by
  unfold runChunked
  rw [runScan_of_error refused]

theorem runChunked_of_ok {body : Located Http.ChunkedBody} {rest : Input}
    (read : scan cursor.input = .ok (body, rest)) :
    runChunked scan cursor = ⟨.ok (.chunkedBody body), { cursor with offset := rest.offset },
      [Log.chunkedBody body.value]⟩ := by
  unfold runChunked
  rw [runScan_of_ok read]

/-- Where a step has read a chunked body, its scanner did. -/
theorem runChunked_eq_ok {reply : Reply} {after : Cursor} {log : List Record}
    (decoded : runChunked scan cursor = ⟨.ok reply, after, log⟩) :
    ∃ body rest, scan cursor.input = .ok (body, rest) ∧ after.offset = rest.offset := by
  cases found : scan cursor.input with
  | error failure =>
    rw [runChunked_of_error found] at decoded
    cases decoded
  | ok result =>
    obtain ⟨body, rest⟩ := result
    rw [runChunked_of_ok found] at decoded
    cases decoded
    exact ⟨body, rest, rfl, rfl⟩

end RunChunked

end Command

end WireSpan
