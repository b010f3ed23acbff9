import WireSpan.Proofs.Json.Failures

/-! What may follow a document makes no difference to what is read. Where nothing but blanks may
follow it, the outcome is that where anything may, except that the first other byte behind the
document is refused. -/

namespace WireSpan.Json

open Scan

/-- The first byte from `start` on that is no blank stands at `place`. -/
def FirstOther (buffer : Bytes) (start place : Nat) : Prop :=
  ∃ blank b rest, buffer.drop start = blank ++ b :: rest ∧ BlankText blank ∧ ¬ BlankText [b] ∧
    place = start + blank.length

/-- How the outcome where nothing but blanks may follow a document (`strict`) and the one where
anything may (`loose`) depend on one another. -/
structure TrailingModes (buffer : Bytes) (loose strict : Except Failure (Located Json)) : Prop where
  accepted : ∀ root, loose = .ok root →
    BlankText (buffer.drop root.span.stop) ∧ strict = .ok root ∨
      ∃ place, FirstOther buffer root.span.stop place ∧
        strict = .error ⟨.trailingData, place, .json⟩
  read : ∀ root, strict = .ok root → loose = .ok root
  followed : ∀ failure, strict = .error failure → failure.kind = .trailingData →
    ∃ root, loose = .ok root
  refused : ∀ failure, loose = .error failure → strict = .error failure

/-- The failure has another reason than what follows a document. -/
def Untrailed (_ : Input) (failure : Failure) : Prop := failure.kind ≠ .trailingData

instance : Reporting Untrailed where
  behind _ other := other
  runOut _ _ := nofun
  unexpected _ _ _ := nofun
  limited _ _ limited trailing := by
    have same : Kind.limitExceeded = Kind.trailingData := limited.symm.trans trailing
    cases same
  broken _ _ _ _ _ := nofun

variable {settings : Settings} {buffer : Bytes} {root : Located Json} {stop : Input}
  {failure : Failure}

/-- Either there is nothing but blanks, or the first other byte is refused. -/
theorem nothingElse_cases (input : Input) :
    (BlankText input.rest ∧ ∃ after, nothingElse input = .ok ((), after)) ∨
      ∃ blank b rest, input.rest = blank ++ b :: rest ∧ BlankText blank ∧ ¬ BlankText [b] ∧
        nothingElse input =
          .error ⟨.trailingData, (input.offset + blank.length : Nat), .general⟩ := by
  cases found : blanks input with
  | error failure => cases found
  | ok read =>
    obtain ⟨_, mid⟩ := read
    obtain ⟨blank, passes, blankText, stops⟩ := blanks_sound found
    cases next : mid.rest with
    | nil =>
      left
      rw [passes.rest, next, List.append_nil]
      refine ⟨blankText, mid, bind_eq_ok.mpr ⟨(), mid, found, ?_⟩⟩
      rw [peek?_bind, next]
      rfl
    | cons b rest =>
      right
      refine ⟨blank, b, rest, by rw [passes.rest, next], blankText, ?_, ?_⟩
      · intro isBlank
        have rejected := stops b (by rw [next]; rfl)
        rw [isBlank.all b (List.mem_singleton_self b)] at rejected
        cases rejected
      · refine bind_eq_error.mpr (.inr ⟨(), mid, found, ?_⟩)
        rw [peek?_bind, next, ← passes.offset]
        rfl

/-- What is left behind a document begins where its span ends. -/
theorem document_stop (read : document settings (Input.ofBytes buffer) = .ok (root, stop)) :
    stop.offset = root.span.stop ∧ stop.rest = buffer.drop root.span.stop := by
  obtain ⟨before, text, passes, -, spelled, -⟩ := document_sound read
  have place : root.span.stop = (before ++ text).length := by
    rw [spelled.span, List.length_append]
    rfl
  have bytes : buffer = before ++ text ++ stop.rest := passes.rest
  constructor
  · rw [place, passes.offset, Input.ofBytes, Nat.zero_add]
  · rw [place, bytes, List.drop_left]

private theorem parse_loose_of_ok
    (read : document settings (Input.ofBytes buffer) = .ok (root, stop)) :
    parse settings (some true) buffer = .ok root :=
  parse_eq_ok.mpr ⟨stop, documentThen_eq_ok.mpr ⟨stop, read, .inl ⟨rfl, rfl⟩⟩⟩

/-- The outcomes in the two modes depend on one another, whatever the buffer, and a mode that the
caller asks for is the one that counts, whatever the settings say. -/
theorem parse_trailingModes (settings : Settings) (buffer : Bytes) :
    TrailingModes buffer (parse settings (some true) buffer) (parse settings (some false) buffer) ∧
    (∀ mode usual, parse { settings with trailingData := usual } (some mode) buffer =
      parse settings (some mode) buffer) ∧
    parse settings none buffer = parse settings (some settings.trailingData) buffer := by
  refine ⟨?_, fun _ _ => rfl, rfl⟩
  cases found : document settings (Input.ofBytes buffer) with
  | error failure =>
    have other : Untrailed (Input.ofBytes buffer) failure := document_fails settings found
    rw [parse_of_refused found, parse_of_refused found]
    refine ⟨?_, ?_, ?_, fun _ => id⟩
    · rintro _ ⟨⟩
    · rintro _ ⟨⟩
    · rintro _ ⟨⟩ trailing
      exact absurd trailing other
  | ok read =>
    obtain ⟨root, stop⟩ := read
    obtain ⟨place, rest⟩ := document_stop found
    rw [parse_loose_of_ok found]
    rcases nothingElse_cases stop with
      ⟨blank, after, ended⟩ | ⟨blank, b, more, bytes, blankText, other, refused⟩
    · have strict : parse settings (some false) buffer = .ok root :=
        parse_eq_ok.mpr ⟨after, documentThen_eq_ok.mpr ⟨stop, found, .inr ⟨rfl, ended⟩⟩⟩
      rw [rest] at blank
      rw [strict]
      refine ⟨?_, fun _ => id, ?_, ?_⟩
      · rintro _ ⟨⟩
        exact .inl ⟨blank, rfl⟩
      · rintro _ ⟨⟩
      · rintro _ ⟨⟩
    · have strict : parse settings (some false) buffer =
          .error ⟨.trailingData, (stop.offset + blank.length : Nat), .json⟩ := by
        have whole : Refuses (documentThen settings false) (Input.ofBytes buffer) _ :=
          Refuses.behind found (Refuses.bind refused)
        unfold Refuses at whole
        rw [parse, Option.getD_some, whole]
        rfl
      rw [rest] at bytes
      rw [strict]
      refine ⟨?_, ?_, fun _ _ _ => ⟨root, rfl⟩, ?_⟩
      · rintro _ ⟨⟩
        refine .inr ⟨stop.offset + blank.length, ⟨blank, b, more, bytes, blankText, other, ?_⟩, rfl⟩
        rw [place]
      · rintro _ ⟨⟩
      · rintro _ ⟨⟩

/-- A numeral ends where its grammar does, here behind a zero; what follows is the matter of the
mode. -/
example : parse .standard (some true) (Ascii.bytes ['0', '1']) =
      .ok ⟨.number (.integer 0) "0", .ofLength 0 1⟩ ∧
    parse .standard (some false) (Ascii.bytes ['0', '1']) = .error ⟨.trailingData, 1, .json⟩ :=
  ⟨rfl, rfl⟩

end WireSpan.Json
