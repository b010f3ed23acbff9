import WireSpan.Proofs.Http.Framing

/-! What can end the reading of a message without one. Whatever its bytes are, the message layer
reports a failure, with one exception: a length of more digits than a numeral is converted with.
The exception arises exactly where nothing before that length decides. -/

namespace WireSpan.Http

open Scan

variable {settings : Settings} {fields : Fields} {digits : Nat} {fault : Fault}

/-- A numeral that is short enough to be converted, and the number that it denotes. -/
structure Denotes (item : Bytes) (length : Nat) : Prop where
  run : RunText Ascii.isDigit item
  short : item.length ≤ Decimal.maxDigits
  value : Ascii.decimalNumber item = length

/-- All items before some one denote the same number, and that one is a numeral of `digits` digits,
which are too many. -/
def Overlong (items : List Bytes) (digits : Nat) : Prop :=
  ∃ earlier item later length, items = earlier ++ item :: later ∧
    (∀ other ∈ earlier, Denotes other length) ∧ RunText Ascii.isDigit item ∧
      item.length = digits ∧ Decimal.maxDigits < digits

/-- The items of all fields that announce a length, without the blanks around them. -/
def lengthItems (fields : Fields) : List Bytes := (listItems (lengthFields fields)).map (·.2)

/-- The bytes of the message are at fault, or a numeral in them is too long. -/
inductive OfBytes : Fault → Prop where
  | failed (failure : Failure) : OfBytes (.failed failure)
  | tooLong (digits : Nat) : OfBytes (.numeral (.tooLong digits))

theorem runText_isDigit {item : Bytes} :
    (item.isEmpty || !item.all Ascii.isDigit) = false ↔ RunText Ascii.isDigit item := by
  simp only [Bool.or_eq_false_iff, List.isEmpty_eq_false_iff, Bool.not_eq_false',
    List.all_eq_true]
  constructor
  · rintro ⟨nonempty, all⟩
    exact ⟨nonempty, all⟩
  · rintro ⟨nonempty, all⟩
    exact ⟨nonempty, all⟩

section Lengths

variable {resolved : Option Nat} {field : Located Field} {item : Bytes}
  {items : List (Located Field × Bytes)} {length : Nat}

/-- An item is passed over if it denotes the number that the items before it denote. -/
theorem resolveLengths_cons (denotes : Denotes item length)
    (agrees : ∀ other, resolved = some other → other = length) :
    resolveLengths resolved ((field, item) :: items) = resolveLengths (some length) items := by
  rw [resolveLengths]
  simp only [runText_isDigit.mpr denotes.run, Bool.false_eq_true, if_false,
    if_neg (Nat.not_lt.mpr denotes.short), denotes.value]
  cases resolved with
  | none => rfl
  | some other =>
    obtain rfl := agrees other rfl
    simp only [if_true]

/-- The first item decides, or it denotes the number that the items before it denote. -/
theorem resolveLengths_cons_cases (resolved : Option Nat) (field : Located Field) (item : Bytes)
    (items : List (Located Field × Bytes)) :
    (∃ failure, resolveLengths resolved ((field, item) :: items) = .error (.failed failure)) ∨
      (resolveLengths resolved ((field, item) :: items) =
        .error (.numeral (.tooLong item.length)) ∧ RunText Ascii.isDigit item ∧
          Decimal.maxDigits < item.length) ∨
      ∃ length, Denotes item length ∧ ∀ other, resolved = some other → other = length := by
  rw [resolveLengths]
  split
  · exact .inl ⟨_, rfl⟩
  · rename_i numeral
    have run := runText_isDigit.mp (Bool.eq_false_iff.mpr numeral)
    split
    · rename_i long
      exact .inr (.inl ⟨rfl, run, long⟩)
    · rename_i short
      have denotes : Denotes item (Ascii.decimalNumber item) := ⟨run, Nat.not_lt.mp short, rfl⟩
      cases resolved with
      | none => exact .inr (.inr ⟨_, denotes, nofun⟩)
      | some other =>
        by_cases same : Ascii.decimalNumber item = other
        · refine .inr (.inr ⟨_, denotes, ?_⟩)
          intro _ found
          rw [same]
          exact (Option.some.inj found).symm
        · simp only [if_neg same]
          exact .inl ⟨_, rfl⟩

private theorem resolveLengths_ofBytes (failed : resolveLengths resolved items = .error fault) :
    OfBytes fault := by
  induction items generalizing resolved with
  | nil => cases failed
  | cons first items ih =>
    obtain ⟨field, item⟩ := first
    rcases resolveLengths_cons_cases resolved field item items with
      ⟨failure, ended⟩ | ⟨ended, -⟩ | ⟨length, denotes, agrees⟩
    · cases ended.symm.trans failed
      exact .failed failure
    · cases ended.symm.trans failed
      exact .tooLong item.length
    · rw [resolveLengths_cons denotes agrees] at failed
      exact ih failed

/-- Items are refused for the number of their digits where no earlier item decides. -/
theorem resolveLengths_eq_tooLong :
    resolveLengths resolved items = .error (.numeral (.tooLong digits)) ↔
      ∃ earlier item later length, items.map (·.2) = earlier ++ item :: later ∧
        (∀ other, resolved = some other → other = length) ∧
          (∀ other ∈ earlier, Denotes other length) ∧
            RunText Ascii.isDigit item ∧ item.length = digits ∧ Decimal.maxDigits < digits := by
  induction items generalizing resolved with
  | nil => simp [resolveLengths]
  | cons first items ih =>
    obtain ⟨field, item⟩ := first
    constructor
    · intro failed
      rcases resolveLengths_cons_cases resolved field item items with
        ⟨failure, ended⟩ | ⟨ended, run, long⟩ | ⟨length, denotes, agrees⟩
      · cases ended.symm.trans failed
      · cases ended.symm.trans failed
        refine ⟨[], item, items.map (·.2), resolved.getD 0, rfl, ?_, nofun, run, rfl, long⟩
        rintro other rfl
        rfl
      · rw [resolveLengths_cons denotes agrees] at failed
        obtain ⟨earlier, other, later, _, same, agreed, denote, ended⟩ := ih.mp failed
        obtain rfl := agreed length rfl
        refine ⟨item :: earlier, other, later, length, by rw [List.map_cons, same]; rfl, agrees,
          ?_, ended⟩
        exact List.forall_mem_cons.mpr ⟨denotes, denote⟩
    · rintro ⟨earlier, other, later, length, same, agrees, denote, run, rfl, long⟩
      cases earlier with
      | nil =>
        obtain ⟨rfl, -⟩ := List.cons.inj same
        rw [resolveLengths, if_neg (Bool.eq_false_iff.mp (runText_isDigit.mpr run)), if_pos long]
      | cons head earlier =>
        obtain ⟨rfl, rest⟩ := List.cons.inj same
        obtain ⟨denotes, denote⟩ := List.forall_mem_cons.mp denote
        rw [resolveLengths_cons denotes agrees]
        refine ih.mpr ⟨earlier, other, later, length, rest, ?_, denote, run, rfl, long⟩
        intro _ found
        exact (Option.some.inj found).symm

end Lengths

private theorem contentLength_ofBytes (failed : contentLength fields = .error fault) :
    OfBytes fault := by
  unfold contentLength at failed
  split at failed
  · cases failed
  · cases failed
    exact .failed _
  · exact resolveLengths_ofBytes failed

/-- The length of a message without transfer codings is refused for the number of its digits. -/
theorem contentLength_eq_tooLong :
    contentLength fields = .error (.numeral (.tooLong digits)) ↔
      codingFields fields = [] ∧ Overlong (lengthItems fields) digits := by
  have items : resolveLengths none (listItems (lengthFields fields)) =
      .error (.numeral (.tooLong digits)) ↔ Overlong (lengthItems fields) digits := by
    rw [resolveLengths_eq_tooLong]
    simp only [reduceCtorEq, false_implies, implies_true, true_and]
    rfl
  unfold contentLength
  split
  · rename_i nothing
    have empty : lengthItems fields = [] := by rw [lengthItems, nothing]; rfl
    simp [Overlong, empty]
  · rename_i coded
    simp [misframed, coded]
  · rename_i uncoded _
    rw [items, and_iff_right uncoded]

/-- A framing that looks at the length first, and that otherwise the bytes alone can refuse. -/
structure LengthFirst (fields : Fields) (framing : Except Fault Framing) : Prop where
  refused : ∀ fault, contentLength fields = .error fault → framing = .error fault
  resolved : ∀ length fault, contentLength fields = .ok length → framing = .error fault →
    ∃ failure, fault = .failed failure

private theorem requestFraming_lengthFirst : LengthFirst fields (requestFraming fields) where
  refused fault failed := by
    rw [requestFraming, failed]
    rfl
  resolved length fault found failed := by
    rw [requestFraming, found] at failed
    cases length with
    | some length => cases failed
    | none =>
      simp only [bind, Except.bind] at failed
      split at failed
      · cases failed
      · split at failed
        · cases failed
        · cases failed
          exact ⟨_, rfl⟩

private theorem responseFraming_lengthFirst {status : Nat} {hint : Hint} :
    LengthFirst fields (responseFraming fields status hint) where
  refused _ := responseFraming_of_error
  resolved length fault found failed := by
    rw [responseFraming, found] at failed
    simp only [bind, Except.bind] at failed
    repeat' split at failed
    all_goals cases failed

theorem LengthFirst.ofBytes {framing : Except Fault Framing} (first : LengthFirst fields framing)
    (failed : framing = .error fault) : OfBytes fault := by
  cases found : contentLength fields with
  | error other =>
    cases (first.refused other found).symm.trans failed
    exact contentLength_ofBytes found
  | ok length =>
    obtain ⟨failure, rfl⟩ := first.resolved length fault found failed
    exact .failed failure

theorem LengthFirst.eq_tooLong {framing : Except Fault Framing}
    (first : LengthFirst fields framing) :
    framing = .error (.numeral (.tooLong digits)) ↔
      codingFields fields = [] ∧ Overlong (lengthItems fields) digits := by
  rw [← contentLength_eq_tooLong]
  constructor
  · intro failed
    cases found : contentLength fields with
    | error other =>
      cases (first.refused other found).symm.trans failed
      rfl
    | ok length =>
      obtain ⟨failure, different⟩ := first.resolved length _ found failed
      cases different
  · exact first.refused _

/-- The head that is read at an offset of a buffer has these fields. -/
def HeadAt {α : Type} (settings : Settings) (startLine : Scan α) (buffer : Bytes) (offset : Int)
    (fields : Fields) : Prop :=
  ∃ input line span after, Input.at? buffer offset = .ok input ∧
    head settings startLine input = .ok (⟨(line, fields), span⟩, after)

/-- How a parse may end, given what fields its head can have: with a message, with a failure of the
message layer, or on a length that is too long and that no field before it, and no transfer coding,
keeps from being looked at. -/
structure Disciplined {μ : Type} (headed : Fields → Prop) (result : Except Fault μ) : Prop where
  ends : (∃ message, result = .ok message) ∨
    (∃ failure, result = .error (.failed failure) ∧ failure.layer = .http) ∨
      ∃ digits, result = .error (.numeral (.tooLong digits))
  overlong : ∀ digits, result = .error (.numeral (.tooLong digits)) ↔
    ∃ fields, headed fields ∧ codingFields fields = [] ∧ Overlong (lengthItems fields) digits

theorem ofScan_eq_error {α : Type} {scan : Scan α} {input : Input} :
    Reader.ofScan scan input = .error fault ↔
      ∃ failure, scan input = .error failure ∧ fault = .failed failure := by
  unfold Reader.ofScan
  cases scan input with
  | ok found => simp
  | error failure => simp [eq_comm]

theorem run_eq_error {α : Type} {reader : Reader α} {buffer : Bytes} {offset : Int} :
    reader.run buffer offset = .error fault ↔
      ∃ inner : Fault, fault = inner.reportedBy .http ∧
        ((∃ failure, Input.at? buffer offset = .error failure ∧ inner = .failed failure) ∨
          ∃ input, Input.at? buffer offset = .ok input ∧ reader input = .error inner) := by
  unfold Reader.run
  cases found : Input.at? buffer offset with
  | error failure => simp [bind, Except.bind, eq_comm]
  | ok input =>
    cases read : reader input with
    | error inner => simp [bind, Except.bind, read, eq_comm]
    | ok result => simp [bind, Except.bind, pure, Except.pure, read]

section Readers

variable {α μ : Type} {startLine : Scan α} {framing : α → Fields → Except Fault Framing}
  {build : α → Fields → Located Body → Span → μ} {buffer : Bytes} {offset : Int} {input : Input}

/-- Only the framing can refuse a message for other reasons than a scanner has. -/
theorem messageReader_eq_error
    (failed : messageReader settings startLine framing build input = .error fault) :
    (∃ failure, fault = .failed failure) ∨
      ∃ line fields span after,
        head settings startLine input = .ok (⟨(line, fields), span⟩, after) ∧
          framing line fields = .error fault := by
  rcases except_bind_eq_error.mp failed with
    headFailed | ⟨⟨⟨⟨line, fields⟩, span⟩, after⟩, headed, later⟩
  · obtain ⟨failure, -, same⟩ := ofScan_eq_error.mp headFailed
    exact .inl ⟨failure, same⟩
  · rcases except_bind_eq_error.mp later with framed | ⟨announced, -, later⟩
    · exact .inr ⟨line, fields, span, after, ofScan_eq_ok.mp headed, framed⟩
    · rcases except_bind_eq_error.mp later with bodyFailed | ⟨_, -, impossible⟩
      · obtain ⟨failure, -, same⟩ := ofScan_eq_error.mp bodyFailed
        exact .inl ⟨failure, same⟩
      · cases impossible

private theorem messageReader_refused {line : α} {span : Span} {after : Input}
    (headed : head settings startLine input = .ok (⟨(line, fields), span⟩, after))
    (framed : framing line fields = .error fault) :
    messageReader settings startLine framing build input = .error fault :=
  except_bind_eq_error.mpr (.inr ⟨_, ofScan_eq_ok.mpr headed,
    except_bind_eq_error.mpr (.inl framed)⟩)

private theorem messageReader_disciplined
    (lengthFirst : ∀ line fields, LengthFirst fields (framing line fields)) :
    Disciplined (HeadAt settings startLine buffer offset)
      ((messageReader settings startLine framing build).run buffer offset) where
  ends := by
    cases ended : (messageReader settings startLine framing build).run buffer offset with
    | ok message => exact .inl ⟨message, rfl⟩
    | error fault =>
      right
      obtain ⟨inner, rfl, ⟨failure, -, rfl⟩ | ⟨input, -, failed⟩⟩ := run_eq_error.mp ended
      · exact .inl ⟨_, rfl, rfl⟩
      · rcases messageReader_eq_error failed with
          ⟨failure, rfl⟩ | ⟨line, fields, span, after, -, framed⟩
        · exact .inl ⟨_, rfl, rfl⟩
        · cases (lengthFirst line fields).ofBytes framed with
          | failed failure => exact .inl ⟨_, rfl, rfl⟩
          | tooLong digits => exact .inr ⟨digits, rfl⟩
  overlong digits := by
    constructor
    · intro ended
      obtain ⟨inner, same, ⟨failure, -, rfl⟩ | ⟨input, placed, failed⟩⟩ := run_eq_error.mp ended
      · cases same
      · rcases messageReader_eq_error failed with
          ⟨failure, rfl⟩ | ⟨line, fields, span, after, headed, framed⟩
        · cases same
        · cases (lengthFirst line fields).ofBytes framed with
          | failed failure => cases same
          | tooLong digits =>
            cases same
            exact ⟨fields, ⟨input, line, span, after, placed, headed⟩,
              (lengthFirst line fields).eq_tooLong.mp framed⟩
    · rintro ⟨fields, ⟨input, line, span, after, placed, headed⟩, long⟩
      have framed := (lengthFirst line fields).eq_tooLong.mpr long
      exact run_eq_error.mpr
        ⟨_, rfl, .inr ⟨input, placed, messageReader_refused headed framed⟩⟩

end Readers

private theorem trimmed_digits {item : Bytes} (run : RunText Ascii.isDigit item) :
    Trimmed item := by
  have visible {b : UInt8} (digit : Ascii.isDigit b = true) : Ascii.isSpaceOrTab b = false := by
    cases blank : Ascii.isSpaceOrTab b with
    | false => rfl
    | true =>
      rcases isSpaceOrTab_iff.mp blank with rfl | rfl
      · cases digit
      · cases digit
  exact ⟨fun b first => visible (run.all b (List.mem_of_mem_head? first)),
    fun b last => visible (run.all b (List.mem_of_mem_getLast? last))⟩

section OneField

variable {field : Located Field}

/-- A run of digits is the only item of the only field. -/
theorem lengthItems_digits (named : field.value.isNamed "content-length" = true)
    (run : RunText Ascii.isDigit field.value.value.value) :
    lengthItems [field] = [field.value.value.value] := by
  have single : Ascii.splitCommas field.value.value.value = [field.value.value.value] := by
    rcases splitCommas_last field.value.value.value with
      ⟨whole, -⟩ | ⟨piece, pieces, before, last, -, -, -, comma⟩
    · exact whole
    · cases run.all (Ascii.byte ',') (by simp [comma])
  have blank : SpacingText [] := nofun
  have trim := trim_append blank (trimmed_digits run) run.nonempty blank
  rw [List.nil_append, List.append_nil] at trim
  have only : lengthFields [field] = [field] := by simp [lengthFields, Fields.named, named]
  simp [lengthItems, only, listItems, single, trim]

private theorem codingFields_nil (named : field.value.isNamed "content-length" = true) :
    codingFields [field] = [] := by
  have other : field.value.isNamed "transfer-encoding" = false := by
    rw [Field.isNamed, beq_iff_eq] at named
    rw [Field.isNamed, named]
    decide
  simp [codingFields, Fields.named, other]

/-- A request whose only field is a length of too many digits has nothing before that length. -/
theorem overlong_only_field {line text : Bytes} {parts : RequestLine}
    (lined : RequestLineText settings.bareLf 0 line parts)
    (fielded : FieldText settings.bareLf (0 + line.length) text field)
    (named : field.value.isNamed "content-length" = true)
    (run : RunText Ascii.isDigit field.value.value.value)
    (length : field.value.value.value.length = digits) (long : Decimal.maxDigits < digits)
    (room : 0 < settings.fieldLimit) :
    ∃ fields, HeadAt settings (requestLine settings) (line ++ (text ++ Ascii.crlf)) 0 fields ∧
      codingFields fields = [] ∧ Overlong (lengthItems fields) digits := by
  have headed : HeadText settings (RequestLineText settings.bareLf) 0
      (line ++ (text ++ Ascii.crlf)) ⟨(parts, [field]), _⟩ :=
    .mk lined (.more fielded (.done .both)) room
  have read : Reads (head settings (requestLine settings)) 0 _ _ [] :=
    headed.reads fun _ _ _ => RequestLineText.reads
  unfold Reads at read
  rw [List.append_nil] at read
  have placed : Input.at? (line ++ (text ++ Ascii.crlf)) 0 =
      .ok ⟨0, line ++ (text ++ Ascii.crlf)⟩ :=
    Input.at?_eq_ok.mpr ⟨[], rfl, rfl, rfl⟩
  have none (item : Bytes) (member : item ∈ []) : Denotes item 0 :=
    absurd member List.not_mem_nil
  exact ⟨[field], ⟨_, _, _, _, placed, read⟩, codingFields_nil named,
    [], _, [], 0, lengthItems_digits named run, none, run, length, long⟩

end OneField

/-- Whatever the buffer holds and wherever reading begins, there is a message or a failure of the
message layer, except where a length of more than 4300 digits is the first thing to decide. -/
theorem parse_ends (settings : Settings) (buffer : Bytes) (offset : Int) :
    Disciplined (HeadAt settings (requestLine settings) buffer offset)
        (Request.parse settings buffer offset) ∧
      ∀ hint, Disciplined (HeadAt settings (statusLine settings) buffer offset)
        (Response.parse settings hint buffer offset) := by
  constructor
  · rw [Request.parse, Request.read_eq]
    exact messageReader_disciplined fun _ _ => requestFraming_lengthFirst
  · intro hint
    rw [Response.parse, Response.read_eq]
    exact messageReader_disciplined fun _ _ => responseFraming_lengthFirst

/-- A length of 4301 zeros ends the reading of its request without a failure. -/
theorem parse_ends_many_zeros :
    Request.parse .standard
      (Ascii.bytes ['P', 'O', 'S', 'T', ' ', '/', ' ', 'H', 'T', 'T', 'P', '/', '1', '.', '1', '\r',
        '\n', 'C', 'o', 'n', 't', 'e', 'n', 't', '-', 'L', 'e', 'n', 'g', 't', 'h', ':'] ++
        ((List.replicate 4301 (Ascii.byte '0') ++ Ascii.crlf) ++ Ascii.crlf)) 0 =
      .error (.numeral (.tooLong 4301)) := by
  have zeros : RunText Ascii.isDigit (List.replicate 4301 (Ascii.byte '0')) := by
    refine ⟨List.ne_nil_of_length_pos (List.length_replicate.symm ▸ Nat.succ_pos 4300),
      fun b member => ?_⟩
    rw [List.eq_of_mem_replicate member]
    rfl
  have visible (b : UInt8) (member : b ∈ List.replicate 4301 (Ascii.byte '0')) :
      isFieldByte b = true := by
    rw [List.eq_of_mem_replicate member]
    rfl
  have lined : RequestLineText Settings.standard.bareLf 0
      (Ascii.bytes ['P', 'O', 'S', 'T'] ++ Ascii.space :: (Ascii.bytes ['/'] ++ Ascii.space ::
        ((Ascii.bytes ['H', 'T', 'T', 'P', '/'] ++
          [Ascii.byte '1', Ascii.byte '.', Ascii.byte '1']) ++ Ascii.crlf))) _ :=
    .mk ⟨by decide, List.all_eq_true.mp rfl⟩ ⟨by decide, List.all_eq_true.mp rfl⟩
      (.mk (List.all_eq_true.mp rfl)) .both
  have fielded : FieldText Settings.standard.bareLf 17
      (Ascii.bytes ['C', 'o', 'n', 't', 'e', 'n', 't', '-', 'L', 'e', 'n', 'g', 't', 'h'] ++
        Ascii.byte ':' :: ([] ++ (List.replicate 4301 (Ascii.byte '0') ++ ([] ++ Ascii.crlf)))) _ :=
    .mk ⟨by decide, List.all_eq_true.mp rfl⟩ (List.forall_mem_nil _) visible
      (trimmed_digits zeros) (List.forall_mem_nil _) (fun _ => rfl) .both
  have overlong := overlong_only_field lined fielded rfl zeros List.length_replicate (by decide)
    (by decide)
  exact ((parse_ends .standard _ 0).1.overlong 4301).mpr overlong

end WireSpan.Http
