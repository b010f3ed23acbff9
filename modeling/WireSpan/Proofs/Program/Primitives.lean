import WireSpan.Proofs.Pattern.WellTyped
import WireSpan.Proofs.Program.Scanning
import WireSpan.Proofs.Scan.Completion

/-! Steps that ask for a number of bytes, for a text, or for bytes of a class. Such a step says that
it ran out of input exactly where it fails and some bytes at the end of the buffer would let it
succeed. So it is worth waiting for more bytes after that failure, and after no other. -/

namespace WireSpan.Command

open Scan

/-- The patterns that ask for a form of the next bytes. A class has to hold some byte. -/
inductive Primitive : Pattern → Prop where
  | take (count : Int) : Primitive (.take count)
  | literal (text : Bytes) (expected : Option String) : Primitive (.literal text expected)
  | byteOf {accepts : UInt8 → Bool} (expected : String) (some : ∃ b, accepts b = true) :
      Primitive (.byteOf accepts expected)
  | takeWhile1 {accepts : UInt8 → Bool} (expected : String) (some : ∃ b, accepts b = true) :
      Primitive (.takeWhile1 accepts expected)

/-- The pattern matches at a place of a buffer. -/
def Matches (pattern : Pattern) (buffer : Bytes) (start : Nat) : Prop :=
  ∃ reply, (run (.apply pattern) ⟨buffer, start⟩).result = .ok reply

/-- The pattern fails to match at a place of a buffer, with a failure of the kind. -/
def FailsToMatch (pattern : Pattern) (kind : Kind) (buffer : Bytes) (start : Nat) : Prop :=
  ∃ failure, (run (.apply pattern) ⟨buffer, start⟩).result = .error (.failed failure) ∧
    failure.kind = kind

variable {pattern : Pattern} {scan : Scan (Located Bytes)} {kind : Kind} {buffer : Bytes}
  {start : Nat}

/-- A step that applies a pattern of bytes reads what the scanner of the pattern reads. -/
theorem run_apply_of_ok {bytes : Located Bytes} {after : Input} {cursor : Cursor}
    (built : pattern.matcher? = .ok (Pattern.bytesOf scan))
    (read : scan cursor.input = .ok (bytes, after)) :
    run (.apply pattern) cursor =
      ⟨.ok (.matched (some (bytes.map .bytes))), { cursor with offset := after.offset }, []⟩ := by
  have scanned : (some <$> Located.map Value.bytes <$> scan) cursor.input =
      .ok (some (bytes.map Value.bytes), after) :=
    bind_eq_ok.mpr ⟨_, _, bind_eq_ok.mpr ⟨_, _, read, rfl⟩, rfl⟩
  simp only [run, runMatcher, Pattern.run_of_built built, Pattern.bytesOf, Matcher.present,
    Matcher.ofScan, scanned, Except.map]

theorem run_apply_of_error {failure : Failure} {cursor : Cursor}
    (built : pattern.matcher? = .ok (Pattern.bytesOf scan))
    (failed : scan cursor.input = .error failure) :
    run (.apply pattern) cursor = ⟨.error (.failed failure), cursor, []⟩ := by
  have refused : (some <$> Located.map Value.bytes <$> scan) cursor.input = .error failure :=
    map_eq_error.mpr (map_eq_error.mpr failed)
  simp only [run, runMatcher, Pattern.run_of_built built, Pattern.bytesOf, Matcher.present,
    Matcher.ofScan, refused, Except.map, Cursor.input_offset]

private theorem matches_iff (built : pattern.matcher? = .ok (Pattern.bytesOf scan)) :
    Matches pattern buffer start ↔ ∃ read, scan (Cursor.input ⟨buffer, start⟩) = .ok read := by
  constructor
  · rintro ⟨reply, matched⟩
    cases found : scan (Cursor.input ⟨buffer, start⟩) with
    | ok read => exact ⟨read, rfl⟩
    | error failure =>
      rw [run_apply_of_error built found] at matched
      cases matched
  · rintro ⟨read, found⟩
    exact ⟨_, congrArg Answer.result (run_apply_of_ok built found)⟩

private theorem failsToMatch_iff (built : pattern.matcher? = .ok (Pattern.bytesOf scan)) :
    FailsToMatch pattern kind buffer start ↔
      ∃ failure, scan (Cursor.input ⟨buffer, start⟩) = .error failure ∧ failure.kind = kind := by
  constructor
  · rintro ⟨failure, failed, same⟩
    cases found : scan (Cursor.input ⟨buffer, start⟩) with
    | ok read =>
      rw [run_apply_of_ok built found] at failed
      cases failed
    | error refused =>
      rw [run_apply_of_error built found] at failed
      cases failed
      exact ⟨_, rfl, same⟩
  · rintro ⟨failure, failed, same⟩
    exact ⟨failure, congrArg Answer.result (run_apply_of_error built failed), same⟩

/-- Every primitive pattern is a scanner that tells whether more bytes would help. -/
theorem Primitive.decides (primitive : Primitive pattern) :
    ∃ scan asked otherwise, pattern.matcher? = .ok (Pattern.bytesOf scan) ∧
      scan.Decides asked otherwise ∧ otherwise ≠ .endOfInput := by
  cases primitive with
  | take count => exact ⟨_, _, _, rfl, decides_takeCount count, nofun⟩
  | literal text expected => exact ⟨_, _, _, rfl, decides_literal _ text, nofun⟩
  | byteOf expected some => exact ⟨_, _, _, rfl, (decides_byteOf expected some).map _, nofun⟩
  | takeWhile1 expected some => exact ⟨_, _, _, rfl, decides_takeWhile1 expected some, nofun⟩

/-- A step for a form of the next bytes says that it ran out of input exactly where it does not
match and some bytes at the end of the buffer would make it match. After any other failure it fails
in the same way whatever bytes are added. -/
theorem run_primitive_ranOut (pattern : Pattern) (primitive : Primitive pattern) (buffer : Bytes)
    (start : Nat) (inside : start ≤ buffer.length) :
    (FailsToMatch pattern .endOfInput buffer start ↔
      ¬ Matches pattern buffer start ∧ ∃ more, Matches pattern (buffer ++ more) start) ∧
    ∀ kind ≠ .endOfInput, FailsToMatch pattern kind buffer start →
      ∀ more, FailsToMatch pattern kind (buffer ++ more) start := by
  obtain ⟨scan, asked, otherwise, built, decides, different⟩ := primitive.decides
  simp only [matches_iff built, failsToMatch_iff built, decides.exists_ok_iff,
    Cursor.input_append inside, Cursor.input_eq buffer]
  refine ⟨decides.ranOut_iff different, ?_⟩
  rintro kind other ⟨failure, failed, rfl⟩ more
  exact decides.stays_refused failed other start more

/-- A text of which only the first byte is there, behind another byte, and bytes that can never
become it. -/
theorem run_primitive_ranOut_literal :
    FailsToMatch (.literal Ascii.crlf none) .endOfInput (Ascii.bytes ['a', '\r']) 1 ∧
      ∀ more, FailsToMatch (.literal Ascii.crlf none) .unexpected
        (Ascii.bytes ['\r', 'a'] ++ more) 0 := by
  have cut := run_primitive_ranOut (.literal Ascii.crlf none) (.literal _ _)
    (Ascii.bytes ['a', '\r']) 1 (by decide)
  have mismatch := run_primitive_ranOut (.literal Ascii.crlf none) (.literal _ _)
    (Ascii.bytes ['\r', 'a']) 0 (by decide)
  refine ⟨cut.1.mpr ⟨?_, Ascii.bytes ['\n'], _, rfl⟩, mismatch.2 .unexpected nofun ⟨_, rfl, rfl⟩⟩
  rintro ⟨reply, matched⟩
  cases matched

end WireSpan.Command
