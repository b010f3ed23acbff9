import WireSpan.Proofs.Decimal.Whole
import WireSpan.Proofs.Http.Spelling.Fields
import WireSpan.Proofs.Text.Case

/-! How the fields of a message are found by name. Their names are tokens and so ASCII words, but
the name that is asked for may be any text, and both are put in lower case as Unicode has it. That
finds the fields whose names differ from the one asked for in the case of ASCII letters only, except
that a Kelvin sign finds what the letter k finds. -/

namespace WireSpan.Http

/-- The fields whose names differ from the given one in the case of ASCII letters only. -/
def Fields.alike (fields : Fields) (name : String) : Fields :=
  fields.filter fun field => decide (Text.AsciiAlike field.value.name.value name)

/-- What the lookups by name give, and how they depend on one another. -/
structure FoundByName (fields : Fields) : Prop where
  named : ∀ name, fields.named name = fields.alike (Text.plainK name)
  usual : ∀ name, Text.kelvinSign ∉ name.toList → fields.named name = fields.alike name
  kelvin : ∀ name, Text.kelvinSign ∈ name.toList → fields.alike name = []
  lowered : ∀ (lowering : Text.Lowering) name, fields.named name = fields.filter fun field =>
    decide (lowering.text field.value.name.value = lowering.text name)
  first : ∀ name, fields.first? name = (fields.named name).head?
  value : ∀ name default, fields.value? name default =
    ((fields.named name).head?.map (·.value.value.value)).or default

variable {settings : Settings} {bareLf : Bool} {offset : Nat} {text : Bytes} {fields : Fields}

private theorem isTokenByte_ascii : ∀ {b : UInt8}, isTokenByte b = true → b.toNat < 0x80 := by
  apply forall_byte
  decide +kernel

theorem FieldText.isAscii_name {field : Located Field}
    (spelled : FieldText bareLf offset text field) : Text.IsAscii field.value.name.value := by
  cases spelled with
  | mk named =>
    intro c listed
    rw [Ascii.latin1, String.toList_ofList] at listed
    obtain ⟨b, member, rfl⟩ := List.mem_map.mp listed
    rw [Decimal.toNat_ofNat_byte]
    exact isTokenByte_ascii (named.all b member)

theorem SectionText.isAscii_names (spelled : SectionText bareLf offset text fields) :
    ∀ field ∈ fields, Text.IsAscii field.value.name.value := by
  induction spelled with
  | done ended => nofun
  | more line others ih => exact List.forall_mem_cons.mpr ⟨line.isAscii_name, ih⟩

theorem MessageText.isAscii_names {α μ : Type} {startLine : Nat → Bytes → α → Prop}
    {framing : α → Fields → Except Fault Framing} {build : α → Fields → Located Body → Span → μ}
    {x : Located μ} (spelled : MessageText settings startLine framing build offset text x) :
    ∃ line fields body head, x.value = build line fields body head ∧
      ∀ field ∈ fields, Text.IsAscii field.value.name.value := by
  cases spelled with
  | mk headed =>
    cases headed with
    | mk lined sectioned => exact ⟨_, _, _, _, rfl, sectioned.isAscii_names⟩

private theorem foundByName_of_ascii
    (ascii : ∀ field ∈ fields, Text.IsAscii field.value.name.value) :
    FoundByName fields := by
  have named (name : String) : fields.named name = fields.alike (Text.plainK name) := by
    refine List.filter_congr fun field member => ?_
    rw [Field.isNamed, Bool.eq_iff_iff, beq_iff_eq, decide_eq_true_iff]
    exact (ascii field member).lower_eq_iff
  have first (name : String) : fields.first? name = (fields.named name).head? :=
    List.head?_filter.symm
  refine ⟨named, ?_, ?_, ?_, first, ?_⟩
  · intro name absent
    rw [named, Text.plainK_of_not_mem absent]
  · intro name present
    refine List.filter_eq_nil_iff.mpr fun field member => ?_
    rw [decide_eq_true_iff]
    exact (ascii field member).not_alike present
  · intro lowering name
    rw [named]
    refine List.filter_congr fun field member => ?_
    rw [Bool.eq_iff_iff, decide_eq_true_iff, decide_eq_true_iff]
    exact (ascii field member).lowering_eq_iff.symm
  · intro name default
    rw [← first, Fields.value?]
    cases fields.first? name <;> rfl

/-- In every message that is parsed, fields are found by a name up to the case of ASCII letters,
with the Kelvin sign taken for the letter k; a single field is the first of them. -/
theorem parse_foundByName (settings : Settings) (buffer : Bytes) (offset : Int) :
    (∀ message, Request.parse settings buffer offset = .ok message →
      FoundByName message.value.fields) ∧
    ∀ hint message, Response.parse settings hint buffer offset = .ok message →
      FoundByName message.value.fields := by
  constructor
  · intro message parsed
    obtain ⟨start, text, -, -, spelled⟩ := Request.parse_sound parsed
    obtain ⟨line, fields, body, head, same, ascii⟩ := spelled.isAscii_names
    rw [same]
    exact foundByName_of_ascii ascii
  · intro hint message parsed
    obtain ⟨start, text, -, -, spelled⟩ := Response.parse_sound parsed
    obtain ⟨line, fields, body, head, same, ascii⟩ := spelled.isAscii_names
    rw [same]
    exact foundByName_of_ascii ascii

/-- A request with a field whose name is the letter k. It is found by a Kelvin sign, which is no
ASCII letter. -/
theorem parse_foundByName_kelvinSign :
    ∃ message, Request.parse .standard (Ascii.bytes ['G', 'E', 'T', ' ', '/', ' ', 'H', 'T', 'T',
        'P', '/', '1', '.', '1', '\r', '\n', 'K', ':', ' ', 'b', '\r', '\n', '\r', '\n']) 0 =
          .ok message ∧
      message.value.fields.value? (String.singleton Text.kelvinSign) none =
        some (Ascii.bytes ['b']) ∧
      message.value.fields.alike (String.singleton Text.kelvinSign) = [] := by
  obtain ⟨message, parsed⟩ : ∃ message, Request.parse .standard (Ascii.bytes ['G', 'E', 'T', ' ',
      '/', ' ', 'H', 'T', 'T', 'P', '/', '1', '.', '1', '\r', '\n', 'K', ':', ' ', 'b', '\r', '\n',
      '\r', '\n']) 0 = .ok message := ⟨_, rfl⟩
  have found := (parse_foundByName .standard _ 0).1 message parsed
  refine ⟨message, parsed, ?_, found.kelvin _ (by decide)⟩
  cases parsed
  rw [found.value, found.named]
  decide

end WireSpan.Http
