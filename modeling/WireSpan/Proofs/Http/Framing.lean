import WireSpan.Proofs.Http.Message

/-! How the end of a body is found. The rules are tried in one order for every message: what the
length fields say, whether there can be a body at all, and last what the transfer codings say. -/

namespace WireSpan.Http

open Scan Chunked

variable {settings : Settings} {fields : Fields}

/-- The item after the last comma of a list, or the whole list where there is none. -/
def IsLastItem (bytes item : Bytes) : Prop :=
  Ascii.byte ',' ∉ item ∧ (bytes = item ∨ ∃ before, bytes = before ++ Ascii.byte ',' :: item)

/-- The last coding of the last field is the chunked one, in any letter case and with blanks around
it. -/
def FinallyChunked (codings : Fields) : Prop :=
  ∃ last ∈ codings.getLast?, ∃ before coding after,
    IsLastItem last.value.value.value (before ++ coding ++ after) ∧ SpacingText before ∧
      SpacingText after ∧
        coding.map Ascii.lower = Ascii.bytes ['c', 'h', 'u', 'n', 'k', 'e', 'd']

theorem splitCommas_comma (rest : Bytes) :
    Ascii.splitCommas (Ascii.byte ',' :: rest) = [] :: Ascii.splitCommas rest := if_pos rfl

theorem splitCommas_cons {b : UInt8} {rest piece : Bytes} {pieces : List Bytes}
    (noComma : b ≠ Ascii.byte ',') (split : Ascii.splitCommas rest = piece :: pieces) :
    Ascii.splitCommas (b :: rest) = (b :: piece) :: pieces := by
  have other : b ≠ 0x2c := noComma
  rw [Ascii.splitCommas, if_neg other, split]

/-- The pieces of a list are the list itself, or more of which the last is its last item. -/
theorem splitCommas_last (bytes : Bytes) :
    (Ascii.splitCommas bytes = [bytes] ∧ Ascii.byte ',' ∉ bytes) ∨
      ∃ piece pieces before item, Ascii.splitCommas bytes = piece :: pieces ∧
        pieces.getLast? = some item ∧ Ascii.byte ',' ∉ item ∧
          bytes = before ++ Ascii.byte ',' :: item := by
  induction bytes with
  | nil => exact .inl ⟨rfl, by simp⟩
  | cons b rest ih =>
    by_cases comma : b = Ascii.byte ','
    · subst comma
      rw [splitCommas_comma]
      right
      rcases ih with ⟨whole, noComma⟩ | ⟨piece, pieces, before, item, split, last, noComma, rfl⟩
      · exact ⟨[], [rest], [], rest, by rw [whole], rfl, noComma, rfl⟩
      · refine ⟨[], piece :: pieces, Ascii.byte ',' :: before, item, by rw [split], ?_, noComma,
          rfl⟩
        rw [List.getLast?_cons, last]
        rfl
    · rcases ih with ⟨whole, noComma⟩ | ⟨piece, pieces, before, item, split, last, noComma, rfl⟩
      · rw [splitCommas_cons comma whole, List.mem_cons, not_or]
        exact .inl ⟨rfl, Ne.symm comma, noComma⟩
      · rw [splitCommas_cons comma split]
        exact .inr ⟨b :: piece, pieces, b :: before, item, rfl, last, noComma, rfl⟩

private theorem getLast?_splitCommas (bytes : Bytes) :
    ∃ item, (Ascii.splitCommas bytes).getLast? = some item ∧ IsLastItem bytes item := by
  rcases splitCommas_last bytes with
    ⟨whole, noComma⟩ | ⟨piece, pieces, before, item, split, last, noComma, same⟩
  · exact ⟨bytes, by rw [whole]; rfl, noComma, .inl rfl⟩
  · refine ⟨item, ?_, noComma, .inr ⟨before, same⟩⟩
    rw [split, List.getLast?_cons, last]
    rfl

private theorem isLastItem_unique {bytes item other : Bytes} (first : IsLastItem bytes item)
    (second : IsLastItem bytes other) : item = other := by
  have last {item : Bytes} (isLast : IsLastItem bytes item) :
      item = (bytes.reverse.takeWhile (· != Ascii.byte ',')).reverse := by
    obtain ⟨noComma, place⟩ := isLast
    have all : ∀ b ∈ item.reverse, (b != Ascii.byte ',') = true := by
      intro b member
      rw [bne_iff_ne]
      rintro rfl
      exact noComma (List.mem_reverse.mp member)
    rcases place with rfl | ⟨before, rfl⟩
    · rw [← List.append_nil bytes.reverse, List.takeWhile_append_of_pos all, List.takeWhile_nil,
        List.append_nil, List.reverse_reverse]
    · rw [List.reverse_append, List.reverse_cons, List.append_assoc,
        List.takeWhile_append_of_pos all, List.singleton_append,
        List.takeWhile_cons_of_neg (by simp), List.append_nil, List.reverse_reverse]
  rw [last first, last second]

/-- Trimming finds what stands between the blanks. -/
theorem trim_append {before core after : Bytes} (blankBefore : SpacingText before)
    (trimmed : Trimmed core) (nonempty : core ≠ []) (blankAfter : SpacingText after) :
    Ascii.trim (before ++ core ++ after) = core := by
  obtain ⟨b, more, rfl⟩ := List.exists_cons_of_ne_nil nonempty
  have stops : Stops Ascii.isSpaceOrTab (b :: more ++ after) := Stops.cons (trimmed.head b rfl) _
  rw [Ascii.trim, List.append_assoc, List.dropWhile_append_of_pos blankBefore, stops.takeWhile.2,
    trimRight_append trimmed blankAfter]

theorem trim_spec (bytes : Bytes) :
    ∃ before after, bytes = before ++ Ascii.trim bytes ++ after ∧ SpacingText before ∧
      SpacingText after := by
  obtain ⟨after, same, blank, -⟩ := trimRight_spec (bytes.dropWhile Ascii.isSpaceOrTab)
  refine ⟨bytes.takeWhile Ascii.isSpaceOrTab, after, ?_, ?_, blank⟩
  · rw [Ascii.trim, List.append_assoc, ← same, List.takeWhile_append_dropWhile]
  · exact fun b member => List.all_eq_true.mp List.all_takeWhile b member

private theorem trimmed_of_chunked {coding : Bytes}
    (chunked : coding.map Ascii.lower = Ascii.bytes ['c', 'h', 'u', 'n', 'k', 'e', 'd']) :
    Trimmed coding ∧ coding ≠ [] := by
  have visible {b c : UInt8} (lowered : Ascii.lower b = c)
      (noBlank : Ascii.isSpaceOrTab c = false) : Ascii.isSpaceOrTab b = false := by
    cases blank : Ascii.isSpaceOrTab b with
    | false => rfl
    | true =>
      rw [← lowered] at noBlank
      rcases isSpaceOrTab_iff.mp blank with rfl | rfl
      · cases noBlank
      · cases noBlank
  refine ⟨⟨?_, ?_⟩, ?_⟩
  · intro b first
    have lowered := congrArg List.head? chunked
    rw [List.head?_map, Option.mem_def.mp first] at lowered
    exact visible (Option.some.inj lowered) (by decide)
  · intro b last
    have lowered := congrArg List.getLast? chunked
    rw [List.getLast?_map, Option.mem_def.mp last] at lowered
    exact visible (Option.some.inj lowered) (by decide)
  · rintro rfl
    cases chunked

/-- The last of all items is the last item of the last field, since every field has one. -/
theorem getLast?_listItems (codings : Fields) (last : Located Field) :
    ∃ item, (listItems (codings ++ [last])).getLast? = some (last, Ascii.trim item) ∧
      IsLastItem last.value.value.value item := by
  obtain ⟨item, found, isLast⟩ := getLast?_splitCommas last.value.value.value
  refine ⟨item, ?_, isLast⟩
  rw [listItems, List.flatMap_append, List.flatMap_singleton, List.getLast?_append,
    List.getLast?_map, found]
  rfl

private theorem endsChunked_iff {codings : Fields} :
    endsChunked codings = true ↔ FinallyChunked codings := by
  rcases List.eq_nil_or_concat codings with rfl | ⟨others, last, rfl⟩
  · constructor
    · intro ends
      cases ends
    · rintro ⟨last, member, -⟩
      cases member
  · obtain ⟨item, found, isLast⟩ := getLast?_listItems others last
    unfold endsChunked
    rw [List.concat_eq_append, found]
    simp only [beq_iff_eq]
    constructor
    · intro chunked
      obtain ⟨before, after, same, blankBefore, blankAfter⟩ := trim_spec item
      refine ⟨last, by simp, before, _, after, ?_, blankBefore, blankAfter, chunked⟩
      rwa [← same]
    · rintro ⟨other, member, before, coding, after, isItem, blankBefore, blankAfter, chunked⟩
      rw [List.getLast?_concat] at member
      cases Option.some.inj member
      obtain ⟨trimmed, nonempty⟩ := trimmed_of_chunked chunked
      rw [isLastItem_unique isLast isItem, trim_append blankBefore trimmed nonempty blankAfter]
      exact chunked

/-- Responses that never have a body, because of their status or since only a head was asked
for. -/
def NeverBodied (status : Nat) (hint : Hint) : Prop :=
  (100 ≤ status ∧ status ≤ 199) ∨ status = 204 ∨ status = 304 ∨ hint = .headOnly

/-- The rules for all messages whose head ends at `start`: what the length fields say counts first,
and then a final chunked coding. `bodied` says that there can be a body at all. -/
structure LengthRules (settings : Settings) (buffer : Bytes) (fields : Fields) (start : Nat)
    (bodied : Prop) (result : Except Fault (Located Body)) : Prop where
  mixed : ∀ length coding, fields.first? "content-length" = some length →
    fields.first? "transfer-encoding" = some coding →
      result = .error (.failed
        ⟨.mixedFraming, (max length.span.start coding.span.start : Nat), .http⟩)
  refused : ∀ fault, contentLength fields = .error fault → result = .error (fault.reportedBy .http)
  sized : ∀ length, contentLength fields = .ok (some length) → bodied →
    start + length ≤ buffer.length →
      result = .ok ⟨.sized (Span.ofLength start length), Span.ofLength start length⟩
  short : ∀ length, contentLength fields = .ok (some length) → bodied →
    buffer.length < start + length →
      result = .error (.failed ⟨.endOfInput s!"{length} bytes", buffer.length, .http⟩)
  chunked : contentLength fields = .ok none → bodied → FinallyChunked (codingFields fields) →
    result = match Chunked.ofMessage settings ⟨start, buffer.drop start⟩ with
      | .ok (body, _) => .ok (body.map .chunked)
      | .error failure => .error (.failed (failure.reportedBy .http))

/-- The rules for requests. One without any coding has no body. -/
structure RequestRules (settings : Settings) (buffer : Bytes) (fields : Fields) (start : Nat)
    (result : Except Fault (Located Body)) : Prop extends
    LengthRules settings buffer fields start True result where
  unfinished : ∀ last, contentLength fields = .ok none → ¬ FinallyChunked (codingFields fields) →
    (codingFields fields).getLast? = some last →
      result = .error (.failed
        ⟨.unexpected "chunked as the final transfer coding"
          (last.value.value.value.take shownValueBytes), last.value.value.span.start, .http⟩)
  uncoded : contentLength fields = .ok none → codingFields fields = [] →
    result = .ok ⟨.empty, Span.emptyAt start⟩

/-- The rules for responses. What is not announced runs to the end of a closed connection, and is
otherwise not there. -/
structure ResponseRules (settings : Settings) (buffer : Bytes) (fields : Fields)
    (start status : Nat) (hint : Hint) (result : Except Fault (Located Body)) : Prop extends
    LengthRules settings buffer fields start (¬ NeverBodied status hint) result where
  never : ∀ length, contentLength fields = .ok length → NeverBodied status hint →
    result = .ok ⟨.empty, Span.emptyAt start⟩
  toEnd : contentLength fields = .ok none → ¬ NeverBodied status hint →
    ¬ FinallyChunked (codingFields fields) → hint = .readToClose →
      result = .ok ⟨.toEnd (Span.ofLength start (buffer.length - start)),
        Span.ofLength start (buffer.length - start)⟩
  silent : contentLength fields = .ok none → ¬ NeverBodied status hint →
    ¬ FinallyChunked (codingFields fields) → hint ≠ .readToClose → start = buffer.length →
      result = .ok ⟨.empty, Span.emptyAt start⟩
  unframed : contentLength fields = .ok none → ¬ NeverBodied status hint →
    ¬ FinallyChunked (codingFields fields) → hint ≠ .readToClose → start < buffer.length →
      result = .error (.failed ⟨.unframedBody, start, .http⟩)

/-- What becomes of a framing at a place in a buffer. -/
def bodyAt (settings : Settings) (input : Input) :
    Except Fault Framing → Except Fault (Located Body)
  | .error fault => .error (fault.reportedBy .http)
  | .ok framing =>
    match framing.body settings input with
    | .ok (body, _) => .ok body
    | .error failure => .error (.failed (failure.reportedBy .http))

variable {buffer : Bytes} {start : Nat} {bodied : Prop} {framing : Except Fault Framing}

private theorem take_of_drop {length : Nat} (enough : start + length ≤ buffer.length) :
    take length ⟨start, buffer.drop start⟩ =
      .ok (⟨(buffer.drop start).take length, Span.ofLength start length⟩,
        Input.advance ⟨start, buffer.drop start⟩ length) := by
  have long : ¬ ((buffer.drop start).take length).length < length := by
    rw [List.length_take, List.length_drop]
    omega
  simp only [take, if_neg long]

private theorem take_short {length : Nat} (inside : start ≤ buffer.length)
    (short : buffer.length < start + length) :
    take length ⟨start, buffer.drop start⟩ =
      .error ⟨.endOfInput s!"{length} bytes", buffer.length, .general⟩ := by
  have few : ((buffer.drop start).take length).length < length := by
    rw [List.length_take, List.length_drop]
    omega
  have finish : (Input.mk start (buffer.drop start)).finish = buffer.length := by
    simp only [Input.finish, List.length_drop]
    omega
  simp only [take, if_pos few, runOut, finish]

private theorem contentLength_mixed {length coding : Located Field}
    (first : fields.first? "content-length" = some length)
    (second : fields.first? "transfer-encoding" = some coding) :
    contentLength fields =
      misframed .mixedFraming (max length.span.start coding.span.start : Nat) := by
  unfold Fields.first? at first second
  rw [← List.head?_filter] at first second
  obtain ⟨lengths, sameLengths⟩ := List.head?_eq_some_iff.mp first
  obtain ⟨codings, sameCodings⟩ := List.head?_eq_some_iff.mp second
  unfold contentLength lengthFields codingFields Fields.named
  rw [sameLengths, sameCodings]

/-- A framing that obeys the order of the rules leads to a body that does. -/
theorem lengthRules_of_framing (inside : start ≤ buffer.length)
    (refused : ∀ fault, contentLength fields = .error fault → framing = .error fault)
    (sized : ∀ length, contentLength fields = .ok (some length) → bodied →
      framing = .ok (.sized length))
    (chunked : contentLength fields = .ok none → bodied → FinallyChunked (codingFields fields) →
      framing = .ok .chunked) :
    LengthRules settings buffer fields start bodied
      (bodyAt settings ⟨start, buffer.drop start⟩ framing) where
  mixed length coding first second := by
    rw [refused _ (contentLength_mixed first second)]
    rfl
  refused fault failed := by
    rw [refused fault failed]
    rfl
  sized length resolved possible enough := by
    rw [sized length resolved possible, bodyAt, Framing.body, bind_run, take_of_drop enough]
    rfl
  short length resolved possible short := by
    rw [sized length resolved possible, bodyAt, Framing.body, bind_run, take_short inside short]
    rfl
  chunked resolved possible final := by
    rw [chunked resolved possible final, bodyAt, Framing.body, bind_run]
    cases ofMessage settings ⟨start, buffer.drop start⟩ <;> rfl

private theorem requestRules_of_fields (inside : start ≤ buffer.length) :
    RequestRules settings buffer fields start
      (bodyAt settings ⟨start, buffer.drop start⟩ (requestFraming fields)) where
  toLengthRules := by
    apply lengthRules_of_framing inside
    · intro fault failed
      rw [requestFraming, failed]
      rfl
    · intro length resolved _
      rw [requestFraming, resolved]
      rfl
    · intro resolved _ final
      have ends := endsChunked_iff.mpr final
      obtain ⟨last, member, -⟩ := final
      rw [requestFraming, resolved]
      simp only [bind, Except.bind, Option.mem_def.mp member, ends, ↓reduceIte]
      rfl
  unfinished last resolved unfinished member := by
    have continues : ¬ endsChunked (codingFields fields) = true := fun ends =>
      unfinished (endsChunked_iff.mp ends)
    rw [requestFraming, resolved]
    simp only [bind, Except.bind, member, if_neg continues]
    rfl
  uncoded resolved none := by
    rw [requestFraming, resolved, none]
    rfl

private theorem isBodiless_iff {status : Nat} {hint : Hint} :
    isBodiless status hint = true ↔ NeverBodied status hint := by
  have bound : status < 200 ↔ status ≤ 199 := Nat.lt_succ_iff
  simp only [isBodiless, NeverBodied, Bool.or_eq_true, Bool.and_eq_true, decide_eq_true_eq,
    beq_iff_eq, or_assoc, bound]

section ResponseFraming

variable {status : Nat} {hint : Hint}

theorem responseFraming_of_error {fault : Fault} (failed : contentLength fields = .error fault) :
    responseFraming fields status hint = .error fault := by
  rw [responseFraming, failed]
  rfl

theorem responseFraming_of_bodiless {length : Option Nat}
    (resolved : contentLength fields = .ok length) (bodiless : NeverBodied status hint) :
    responseFraming fields status hint = .ok .absent := by
  rw [← isBodiless_iff] at bodiless
  rw [responseFraming, resolved]
  simp only [bind, Except.bind, if_pos bodiless]
  rfl

theorem responseFraming_of_length {length : Nat}
    (resolved : contentLength fields = .ok (some length)) (possible : ¬ NeverBodied status hint) :
    responseFraming fields status hint = .ok (.sized length) := by
  rw [← isBodiless_iff] at possible
  rw [responseFraming, resolved]
  simp only [bind, Except.bind, if_neg possible]
  rfl

theorem responseFraming_of_chunked (resolved : contentLength fields = .ok none)
    (possible : ¬ NeverBodied status hint) (final : FinallyChunked (codingFields fields)) :
    responseFraming fields status hint = .ok .chunked := by
  rw [← isBodiless_iff] at possible
  rw [← endsChunked_iff] at final
  rw [responseFraming, resolved]
  simp only [bind, Except.bind, if_neg possible, if_pos final]
  rfl

private theorem responseFraming_of_none (resolved : contentLength fields = .ok none)
    (possible : ¬ NeverBodied status hint) (unfinished : ¬ FinallyChunked (codingFields fields)) :
    responseFraming fields status hint =
      .ok (if hint = .readToClose then .toEnd else .unstated) := by
  rw [← isBodiless_iff] at possible
  rw [← endsChunked_iff] at unfinished
  rw [responseFraming, resolved]
  simp only [bind, Except.bind, if_neg possible, if_neg unfinished]
  split <;> rfl

end ResponseFraming

private theorem takeWhile_all :
    takeWhile (fun _ => true) ⟨start, buffer.drop start⟩ =
      .ok (⟨buffer.drop start, Span.ofLength start (buffer.length - start)⟩,
        ⟨start + (buffer.length - start), []⟩) := by
  have read : Reads (takeWhile fun _ => true) start (buffer.drop start) _ [] :=
    Reads.takeWhile (fun _ _ => rfl) (Stops.nil _)
  unfold Reads at read
  rwa [List.append_nil, List.length_drop] at read

theorem responseRules_of_fields {status : Nat} {hint : Hint} (inside : start ≤ buffer.length) :
    ResponseRules settings buffer fields start status hint
      (bodyAt settings ⟨start, buffer.drop start⟩ (responseFraming fields status hint)) where
  toLengthRules := lengthRules_of_framing inside (fun _ => responseFraming_of_error)
    (fun _ => responseFraming_of_length) responseFraming_of_chunked
  never length resolved bodiless := by
    rw [responseFraming_of_bodiless resolved bodiless]
    rfl
  toEnd resolved possible unfinished closes := by
    rw [responseFraming_of_none resolved possible unfinished, if_pos closes, bodyAt, Framing.body,
      bind_run, takeWhile_all]
    rfl
  silent resolved possible unfinished continues atEnd := by
    have nothing : buffer.drop start = [] := List.drop_eq_nil_of_le (Nat.le_of_eq atEnd.symm)
    rw [responseFraming_of_none resolved possible unfinished, if_neg continues, bodyAt,
      Framing.body, peek?_bind, nothing]
    rfl
  unframed resolved possible unfinished continues more := by
    rw [responseFraming_of_none resolved possible unfinished, if_neg continues, bodyAt,
      Framing.body, peek?_bind, List.drop_eq_getElem_cons more]
    rfl

theorem head_place {α : Type} {startLine : Scan α} {spells : Nat → Bytes → α → Prop}
    {offset : Int} {input after : Input} {x : Located (α × Fields)} (sound : Sound startLine spells)
    (placed : Input.at? buffer offset = .ok input)
    (headed : head settings startLine input = .ok (x, after)) :
    after = ⟨x.span.stop, buffer.drop x.span.stop⟩ ∧ x.span.stop ≤ buffer.length := by
  obtain ⟨before, same, length, -⟩ := Input.at?_eq_ok.mp placed
  obtain ⟨text, passes, spelled⟩ := head_sound sound headed
  have stop : x.span.stop = after.offset := by
    rw [passes.offset]
    cases spelled
    rfl
  have whole : buffer = (before ++ text) ++ after.rest := by
    rw [same, passes.rest, List.append_assoc]
  have place : (before ++ text).length = after.offset := by
    rw [List.length_append, length, passes.offset]
  rw [stop, ← place, whole, List.drop_left]
  exact ⟨by rw [place], by simp only [List.length_append]; omega⟩

section MessageReader

variable {α μ : Type} {startLine : Scan α} {spells : Nat → Bytes → α → Prop}
  {framing : α → Fields → Except Fault Framing} {build : α → Fields → Located Body → Span → μ}
  {offset : Int} {input after : Input} {line : α} {head : Span}

private theorem messageReader_run (placed : Input.at? buffer offset = .ok input)
    (headed : Http.head settings startLine input = .ok (⟨(line, fields), head⟩, after)) :
    (messageReader settings startLine framing build).run buffer offset =
      match framing line fields with
      | .error fault => .error (fault.reportedBy .http)
      | .ok announced =>
        match announced.body settings after with
        | .ok (body, stop) => .ok ⟨build line fields body head, input.spanTo stop⟩
        | .error failure => .error (.failed (failure.reportedBy .http)) := by
  unfold Reader.run messageReader Reader.ofScan
  rw [placed]
  cases framed : framing line fields with
  | error fault => simp only [mapError_ok, mapError_error, bind, Except.bind, headed, framed]
  | ok announced =>
    cases content : announced.body settings after with
    | error failure =>
      simp only [mapError_ok, mapError_error, bind, Except.bind, headed, framed, content,
        Fault.reportedBy]
    | ok result =>
      simp only [mapError_ok, bind, Except.bind, headed, framed, content, pure, Except.pure]

private theorem messageReader_body {body : μ → Located Body}
    (built : ∀ line fields content span, body (build line fields content span) = content)
    (placed : Input.at? buffer offset = .ok input)
    (headed : Http.head settings startLine input = .ok (⟨(line, fields), head⟩, after)) :
    ((messageReader settings startLine framing build).run buffer offset).map (body ·.value) =
      bodyAt settings after (framing line fields) := by
  rw [messageReader_run placed headed]
  cases framing line fields with
  | error fault => rfl
  | ok announced =>
    simp only [bodyAt]
    cases announced.body settings after with
    | error failure => rfl
    | ok result => simp only [Except.map, built]

/-- Behind a head that is read, the message is as its body is, and covers the two. -/
theorem messageReader_headed (sound : Sound startLine spells)
    (placed : Input.at? buffer offset = .ok input)
    (headed : Http.head settings startLine input = .ok (⟨(line, fields), head⟩, after)) :
    (messageReader settings startLine framing build).run buffer offset =
      (bodyAt settings after (framing line fields)).map fun body =>
        ⟨build line fields body head, head.hull body.span⟩ := by
  rw [messageReader_run placed headed]
  cases framing line fields with
  | error fault => rfl
  | ok announced =>
    simp only [bodyAt]
    cases content : announced.body settings after with
    | error failure => rfl
    | ok result =>
      obtain ⟨text, passHead, spelled⟩ := head_sound sound headed
      obtain ⟨rest, passBody, followed⟩ := body_sound announced content
      have covered : input.spanTo result.2 = head.hull result.1.span := by
        rw [(passHead.trans passBody).spanTo, followed.span, passHead.offset]
        cases spelled
        simp only [Span.hull, Span.ofLength, List.length_append, Span.mk.injEq]
        omega
      simp only [Except.map, covered]

end MessageReader

/-- The end of a body is found by the same rules, in the same order, for every message. -/
theorem parse_framing_order (settings : Settings) (buffer : Bytes) (offset : Int) (input : Input)
    (placed : Input.at? buffer offset = .ok input) :
    (∀ line fields head after,
      Http.head settings (requestLine settings) input = .ok (⟨(line, fields), head⟩, after) →
        RequestRules settings buffer fields head.stop
          ((Request.parse settings buffer offset).map (·.value.body))) ∧
    ∀ hint line fields head after,
      Http.head settings (statusLine settings) input = .ok (⟨(line, fields), head⟩, after) →
        ResponseRules settings buffer fields head.stop line.status.value hint
          ((Response.parse settings hint buffer offset).map (·.value.body)) := by
  constructor
  · intro line fields head after headed
    obtain ⟨rfl, inside⟩ := head_place requestLine_sound placed headed
    rw [Request.parse, Request.read_eq, messageReader_body (fun _ _ _ _ => rfl) placed headed]
    exact requestRules_of_fields inside
  · intro hint line fields head after headed
    obtain ⟨rfl, inside⟩ := head_place statusLine_sound placed headed
    rw [Response.parse, Response.read_eq, messageReader_body (fun _ _ _ _ => rfl) placed headed]
    exact responseRules_of_fields inside

/-- A request whose length is announced. -/
theorem parse_framing_order_sized :
    (Request.parse .standard (Ascii.bytes ['P', 'O', 'S', 'T', ' ', '/', ' ', 'H', 'T', 'T', 'P',
      '/', '1', '.', '1', '\n', 'C', 'o', 'n', 't', 'e', 'n', 't', '-', 'L', 'e', 'n', 'g', 't',
      'h', ':', '2', '\n', '\n', 'o', 'k']) 0).map (·.value.body) =
        .ok ⟨.sized (Span.ofLength 34 2), Span.ofLength 34 2⟩ :=
  ((parse_framing_order .standard (Ascii.bytes ['P', 'O', 'S', 'T', ' ', '/', ' ', 'H', 'T', 'T',
    'P', '/', '1', '.', '1', '\n', 'C', 'o', 'n', 't', 'e', 'n', 't', '-', 'L', 'e', 'n', 'g', 't',
    'h', ':', '2', '\n', '\n', 'o', 'k']) 0 _ rfl).1 _ _ _ _ rfl).sized 2 rfl trivial (by decide)

end WireSpan.Http
