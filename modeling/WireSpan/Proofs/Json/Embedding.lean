import WireSpan.Proofs.Json.Acceptance
import WireSpan.Proofs.Json.Relocation
import WireSpan.Proofs.Program.Scanning

/-! Values that are read from a cursor inside a larger buffer. Neither the bytes before a value nor
those behind it have a part in how it is read, except that a numeral ends only where no byte
follows that goes on with it. -/

namespace WireSpan

open Scan

namespace Command

variable {draft : Settings.Draft} {settings : Settings} {cursor : Cursor} {root : Located Json}

private theorem run_json_of_refused {error : SettingsError} (refused : draft.check = .error error) :
    run (.json draft) cursor = ⟨.error (.settings error), cursor, []⟩ := by
  simp only [run, withSettings, refused]

private theorem run_json_of_checked (checked : draft.check = .ok settings) :
    run (.json draft) cursor = runScan (Json.document settings) .tree cursor := by
  simp only [run, withSettings, checked]

/-- Where a tree is read from a cursor, the settings were accepted. -/
theorem run_json_eq_ok {buffer : Bytes} {stop : Nat}
    (parsed : run (.json draft) ⟨buffer, 0⟩ = ⟨.ok (.tree root), ⟨buffer, stop⟩, []⟩) :
    ∃ settings after, draft.check = .ok settings ∧
      Json.document settings (Input.ofBytes buffer) = .ok (root, after) ∧ after.offset = stop := by
  cases checked : draft.check with
  | error error =>
    rw [run_json_of_refused checked] at parsed
    cases parsed
  | ok settings =>
    rw [run_json_of_checked checked] at parsed
    have same : Cursor.input ⟨buffer, 0⟩ = Input.ofBytes buffer := rfl
    cases found : Json.document settings (Input.ofBytes buffer) with
    | error failure =>
      rw [runScan_of_error (same ▸ found)] at parsed
      cases parsed
    | ok result =>
      rw [runScan_of_ok (same ▸ found)] at parsed
      cases parsed
      exact ⟨settings, _, rfl, found, rfl⟩

/-- A value is read inside a larger buffer as it is by itself. Behind other bytes the reading ends
with the same tree whose places are all moved, or with the same fault, whose place is moved if it
has one. In front of other bytes it ends with the same tree at the same byte, except that behind a
numeral no byte may stand that goes on with it. -/
theorem run_json_embedded (draft : Settings.Draft) (before buffer : Bytes) :
    ((∃ root stop, run (.json draft) ⟨buffer, 0⟩ = ⟨.ok (.tree root), ⟨buffer, stop⟩, []⟩ ∧
        run (.json draft) ⟨before ++ buffer, before.length⟩ =
          ⟨.ok (.tree (root.shiftWith (Json.shiftBy before.length) before.length)),
            ⟨before ++ buffer, stop + before.length⟩, []⟩) ∨
      ∃ fault, run (.json draft) ⟨buffer, 0⟩ = ⟨.error fault, ⟨buffer, 0⟩, []⟩ ∧
        run (.json draft) ⟨before ++ buffer, before.length⟩ =
          ⟨.error (fault.shiftBy before.length), ⟨before ++ buffer, before.length⟩, []⟩) ∧
    ∀ root stop rest,
      run (.json draft) ⟨buffer, 0⟩ = ⟨.ok (.tree root), ⟨buffer, stop⟩, []⟩ →
        (root.value.form = .number → Stops Json.isNumeralByte rest) →
          run (.json draft) ⟨buffer.take stop ++ rest, 0⟩ =
            ⟨.ok (.tree root), ⟨buffer.take stop ++ rest, stop⟩, []⟩ := by
  constructor
  · cases checked : draft.check with
    | error error =>
      exact .inr ⟨.settings error, run_json_of_refused checked, run_json_of_refused checked⟩
    | ok settings =>
      simp only [run_json_of_checked checked]
      exact runScan_behind (Json.document_relocates settings)
  · intro root stop rest parsed stops
    obtain ⟨settings, after, checked, read, rfl⟩ := run_json_eq_ok parsed
    obtain ⟨blank, text, passes, blankBefore, within⟩ := Json.document_sound read
    have bytes : buffer = blank ++ text ++ after.rest := passes.rest
    have place : after.offset = 0 + (blank ++ text).length := passes.offset
    have again : Json.document settings (Cursor.input ⟨blank ++ text ++ rest, 0⟩) =
        .ok (root, ⟨0 + (blank ++ text).length, rest⟩) :=
      Json.document_reads blankBefore within stops
    rw [Nat.zero_add] at place again
    rw [run_json_of_checked checked, bytes, place, List.take_left]
    exact runScan_of_ok again

/-- An array in front of a digit, and a numeral in front of a blank. -/
theorem run_json_embedded_between :
    (∃ root stop, run (.json {}) ⟨Ascii.bytes ['[', '7', ']', '-'], 0⟩ =
        ⟨.ok (.tree root), ⟨Ascii.bytes ['[', '7', ']', '-'], stop⟩, []⟩ ∧
      run (.json {}) ⟨Ascii.bytes ['[', '7', ']', '7'], 0⟩ =
        ⟨.ok (.tree root), ⟨Ascii.bytes ['[', '7', ']', '7'], stop⟩, []⟩) ∧
      ∃ root stop, run (.json {}) ⟨Ascii.bytes ['7', ',', ']'], 0⟩ =
          ⟨.ok (.tree root), ⟨Ascii.bytes ['7', ',', ']'], stop⟩, []⟩ ∧
        run (.json {}) ⟨Ascii.bytes ['7', ' '], 0⟩ =
          ⟨.ok (.tree root), ⟨Ascii.bytes ['7', ' '], stop⟩, []⟩ := by
  have array := (run_json_embedded {} [] (Ascii.bytes ['[', '7', ']', '-'])).2 _ _
    (Ascii.bytes ['7']) rfl nofun
  have numeral := (run_json_embedded {} [] (Ascii.bytes ['7', ',', ']'])).2 _ _
    (Ascii.bytes [' ']) rfl fun _ => .cons rfl []
  exact ⟨⟨_, _, rfl, array⟩, _, _, rfl, numeral⟩

end Command

end WireSpan
