import WireSpan.Proofs.Http.Grammar
import WireSpan.Proofs.Scan.Passage

/-! The scanners of lines and field sections, and the grammar of both. -/

namespace WireSpan.Http

open Scan

variable {input after : Input} {settings : Settings} {offset : Nat} {text rest : Bytes}

theorem lineEnd_sound {x : Located Bytes} (read : lineEnd settings input = .ok (x, after)) :
    ∃ text, input.Passes text after ∧ LineEndText settings.bareLf text := by
  unfold lineEnd at read
  by_cases allowed : settings.bareLf = true
  · rw [if_pos allowed] at read
    rcases orElse_eq_ok read with both | lone
    · exact ⟨_, (literal_sound both).1, .both⟩
    · exact ⟨_, (literal_sound lone).1, .lone allowed⟩
  · rw [if_neg allowed] at read
    exact ⟨_, (literal_sound read).1, .both⟩

theorem LineEndText.reads (ended : LineEndText settings.bareLf text) :
    ∃ x, Reads (lineEnd settings) offset text x rest := by
  unfold lineEnd
  cases ended with
  | both =>
    refine ⟨⟨Ascii.crlf, Span.ofLength offset Ascii.crlf.length⟩, ?_⟩
    have found : Reads (literal lineEndName Ascii.crlf) offset Ascii.crlf _ rest :=
      Reads.literal lineEndName
    by_cases allowed : settings.bareLf = true
    · unfold Reads at found ⊢
      rw [if_pos allowed, orElse, found]
    · rw [if_neg allowed]
      exact found
  | lone allowed =>
    refine ⟨⟨[Ascii.lineFeed], Span.ofLength offset 1⟩, ?_⟩
    have refused : ∃ failure,
        literal lineEndName Ascii.crlf ⟨offset, Ascii.lineFeed :: rest⟩ = .error failure := by
      cases rest <;> exact ⟨_, rfl⟩
    obtain ⟨failure, refused⟩ := refused
    have found : Reads (literal lineEndName [Ascii.lineFeed]) offset [Ascii.lineFeed] _ rest :=
      Reads.literal lineEndName
    unfold Reads at found ⊢
    rw [if_pos allowed, orElse, List.singleton_append, refused]
    rw [List.singleton_append] at found
    rw [found]
    rfl

/-- Nothing comes next, or a byte that a line end may begin with. -/
def BeforeLineEnd (rest : Bytes) : Prop :=
  ∀ b ∈ rest.head?, b = Ascii.carriageReturn ∨ b = Ascii.lineFeed

theorem BeforeLineEnd.stops {accepts : UInt8 → Bool} (before : BeforeLineEnd rest)
    (noReturn : accepts Ascii.carriageReturn = false) (noFeed : accepts Ascii.lineFeed = false) :
    Stops accepts rest := by
  intro b next
  rcases before b next with rfl | rfl
  · exact noReturn
  · exact noFeed

theorem LineEndText.before {bareLf : Bool} (ended : LineEndText bareLf text) :
    BeforeLineEnd (text ++ rest) := by
  intro b next
  cases ended with
  | both => exact .inl (Option.some.inj next).symm
  | lone => exact .inr (Option.some.inj next).symm

theorem lineEndAfter_sound {what : String} {u : Unit}
    (read : lineEndAfter settings what input = .ok (u, after)) :
    ∃ text, input.Passes text after ∧ LineEndText settings.bareLf text := by
  rw [lineEndAfter, peek?_bind] at read
  cases found : input.rest.head? with
  | none =>
    rw [found] at read
    cases read
  | some b =>
    rw [found] at read
    obtain ⟨x, mid, ended, result⟩ := bind_eq_ok.mp read
    obtain ⟨-, rfl⟩ := pure_eq_ok.mp result
    exact lineEnd_sound ended

theorem LineEndText.readsAfter (what : String) (ended : LineEndText settings.bareLf text) :
    Reads (lineEndAfter settings what) offset text () rest := by
  obtain ⟨x, read⟩ : ∃ x, Reads (lineEnd settings) offset text x rest := ended.reads
  have whole : Reads (lineEnd settings >>= fun _ => pure ()) offset text () rest :=
    read.map fun _ => ()
  cases ended <;> exact whole

/-- Trimming takes away nothing but blanks, and leaves none at the end. -/
theorem trimRight_spec (text : Bytes) :
    ∃ blank, text = Ascii.trimRight text ++ blank ∧ SpacingText blank ∧
      ∀ b ∈ (Ascii.trimRight text).getLast?, Ascii.isSpaceOrTab b = false := by
  refine ⟨(text.reverse.takeWhile Ascii.isSpaceOrTab).reverse, ?_, ?_, ?_⟩
  · rw [Ascii.trimRight, ← List.reverse_append, List.takeWhile_append_dropWhile,
      List.reverse_reverse]
  · intro b member
    exact List.all_eq_true.mp List.all_takeWhile b (List.mem_reverse.mp member)
  · intro b last
    rw [Ascii.trimRight, List.getLast?_reverse] at last
    exact stops_dropWhile _ _ b last

theorem trimRight_append {blank : Bytes} (trimmed : Trimmed text) (spacing : SpacingText blank) :
    Ascii.trimRight (text ++ blank) = text := by
  have stops : Stops Ascii.isSpaceOrTab text.reverse := by
    intro b next
    rw [List.head?_reverse] at next
    exact trimmed.last b next
  rw [Ascii.trimRight, List.reverse_append, List.dropWhile_append_of_pos, stops.takeWhile.2,
    List.reverse_reverse]
  intro b member
  exact spacing b (List.mem_reverse.mp member)

theorem isSpaceOrTab_iff {b : UInt8} :
    Ascii.isSpaceOrTab b = true ↔ b = Ascii.space ∨ b = Ascii.tab := by
  simp [Ascii.isSpaceOrTab]

theorem isFieldByte_of_isSpaceOrTab {b : UInt8} (blank : Ascii.isSpaceOrTab b = true) :
    isFieldByte b = true := by
  rcases isSpaceOrTab_iff.mp blank with rfl | rfl <;> decide

theorem fieldName_sound {x : Located String} (read : fieldName input = .ok (x, after)) :
    ∃ name, input.Passes (name ++ [Ascii.byte ':']) after ∧ RunText isTokenByte name ∧
      x = ⟨Ascii.latin1 name, Span.ofLength input.offset name.length⟩ := by
  obtain ⟨name, mid, found, later⟩ := bind_eq_ok.mp read
  obtain ⟨passes, all, -, place⟩ := takeWhile_sound found
  rw [peek?_bind] at later
  cases next : mid.rest.head? with
  | none =>
    rw [next] at later
    cases later
  | some b =>
    rw [next] at later
    simp only at later
    split at later
    · cases later
    · rename_i accepted
      simp only [Bool.or_eq_true, List.isEmpty_iff, bne_iff_ne, ne_eq, not_or,
        Decidable.not_not] at accepted
      obtain ⟨nonempty, rfl⟩ := accepted
      rw [skip_bind] at later
      obtain ⟨rfl, rfl⟩ := pure_eq_ok.mp later
      have colon := Input.passes_head next
      exact ⟨_, passes.trans colon, ⟨nonempty, all⟩, by rw [Located.map, place]⟩

theorem fieldName_reads (named : RunText isTokenByte text) :
    Reads fieldName offset (text ++ [Ascii.byte ':'])
      ⟨Ascii.latin1 text, Span.ofLength offset text.length⟩ rest := by
  refine (Reads.takeWhile named.all (Stops.cons (by decide) _)).bind ?_
  have nonempty : text.isEmpty = false := by simpa using named.nonempty
  unfold Reads
  rw [peek?_bind, List.cons_append, List.head?_cons]
  simp only [nonempty, bne_self_eq_false, Bool.or_self, Bool.false_eq_true, ↓reduceIte]
  rfl

theorem fieldValue_sound {x : Located Bytes} (read : fieldValue input = .ok (x, after)) :
    ∃ before value blank, input.Passes (before ++ (value ++ blank)) after ∧ SpacingText before ∧
      (∀ b ∈ value, isFieldByte b = true) ∧ Trimmed value ∧ SpacingText blank ∧
        (value = [] → blank = []) ∧
          x = ⟨value, Span.ofLength (input.offset + before.length) value.length⟩ := by
  obtain ⟨before, mid, spaced, later⟩ := bind_eq_ok.mp read
  obtain ⟨raw, stop, found, result⟩ := bind_eq_ok.mp later
  obtain ⟨rfl, rfl⟩ := pure_eq_ok.mp result
  obtain ⟨passBefore, blankBefore, stops, -⟩ := takeWhile_sound spaced
  obtain ⟨passRaw, visible, -, place⟩ := takeWhile_sound found
  obtain ⟨blank, same, blankAfter, last⟩ := trimRight_spec raw.value
  have headRaw : ∀ b ∈ raw.value.head?, Ascii.isSpaceOrTab b = false := by
    intro b next
    apply stops b
    obtain ⟨more, bytes⟩ := List.head?_eq_some_iff.mp next
    rw [passRaw.rest, bytes]
    rfl
  have passes := passBefore.trans passRaw
  rw [same] at passes headRaw
  refine ⟨_, _, blank, passes, blankBefore, ?_, ⟨?_, last⟩, blankAfter, ?_, ?_⟩
  · intro b member
    exact visible b (by rw [same]; exact List.mem_append_left _ member)
  · intro b next
    obtain ⟨more, bytes⟩ := List.head?_eq_some_iff.mp next
    exact headRaw b (by rw [bytes]; rfl)
  · intro empty
    rw [empty] at headRaw
    cases blank with
    | nil => rfl
    | cons b blank =>
      have blankByte := blankAfter b (by simp)
      rw [headRaw b rfl] at blankByte
      cases blankByte
  · rw [place, passBefore.offset]
    rfl

theorem fieldValue_reads_raw {before raw : Bytes} (blankBefore : SpacingText before)
    (stops : Stops Ascii.isSpaceOrTab (raw ++ rest)) (all : ∀ b ∈ raw, isFieldByte b = true)
    (ends : Stops isFieldByte rest) :
    Reads fieldValue offset (before ++ raw)
      ⟨Ascii.trimRight raw, Span.ofLength (offset + before.length) (Ascii.trimRight raw).length⟩
      rest :=
  (Reads.takeWhile blankBefore stops).bind ((Reads.takeWhile all ends).map
    fun raw : Located Bytes => (⟨Ascii.trimRight raw.value,
      Span.ofLength raw.span.start (Ascii.trimRight raw.value).length⟩ : Located Bytes))

theorem fieldValue_reads {before value blank : Bytes} (blankBefore : SpacingText before)
    (visible : ∀ b ∈ value, isFieldByte b = true) (trimmed : Trimmed value)
    (blankAfter : SpacingText blank) (behind : value = [] → blank = [])
    (ending : BeforeLineEnd rest) :
    Reads fieldValue offset (before ++ (value ++ blank))
      ⟨value, Span.ofLength (offset + before.length) value.length⟩ rest := by
  have stops : Stops Ascii.isSpaceOrTab (value ++ blank ++ rest) := by
    cases value with
    | nil =>
      rw [behind rfl]
      exact ending.stops (by decide) (by decide)
    | cons b value => exact Stops.cons (trimmed.head b rfl) _
  have all : ∀ b ∈ value ++ blank, isFieldByte b = true := by
    intro b member
    rcases List.mem_append.mp member with inside | behind
    · exact visible b inside
    · exact isFieldByte_of_isSpaceOrTab (blankAfter b behind)
  have read : Reads fieldValue offset (before ++ (value ++ blank)) _ rest :=
    fieldValue_reads_raw blankBefore stops all (ending.stops (by decide) (by decide))
  rwa [trimRight_append trimmed blankAfter] at read

theorem field_sound : Sound (field settings) (FieldText settings.bareLf) := by
  intro input after x read
  obtain ⟨value, scanned, rfl⟩ := located_eq_ok.mp read
  obtain ⟨name, first, found, later⟩ := bind_eq_ok.mp scanned
  obtain ⟨content, second, valued, later⟩ := bind_eq_ok.mp later
  obtain ⟨u, third, ended, result⟩ := bind_eq_ok.mp later
  obtain ⟨rfl, rfl⟩ := pure_eq_ok.mp result
  obtain ⟨name, passName, named, rfl⟩ := fieldName_sound found
  obtain ⟨before, value, blank, passValue, blankBefore, visible, trimmed, blankAfter, behind,
    rfl⟩ := fieldValue_sound valued
  obtain ⟨ending, passEnd, ended⟩ := lineEndAfter_sound ended
  have passes := (passName.trans passValue).trans passEnd
  simp only [List.append_assoc, List.cons_append, List.nil_append] at passes
  refine ⟨_, passes, ?_⟩
  rw [passes.spanTo, passName.offset, List.length_append, List.length_singleton, ← Nat.add_assoc]
  exact .mk named blankBefore visible trimmed blankAfter behind ended

theorem FieldText.reads {x : Located Field} (spelled : FieldText settings.bareLf offset text x) :
    Reads (field settings) offset text x rest := by
  cases spelled with
  | @mk name before value blank ending named blankBefore visible trimmed blankAfter behind ended =>
    apply Reads.located
    have same : name ++ Ascii.byte ':' :: (before ++ (value ++ (blank ++ ending))) =
        (name ++ [Ascii.byte ':']) ++ ((before ++ (value ++ blank)) ++ ending) := by
      simp only [List.append_assoc, List.cons_append, List.nil_append]
    have place : offset + (name ++ [Ascii.byte ':']).length = offset + name.length + 1 := by
      rw [List.length_append, List.length_singleton, Nat.add_assoc]
    rw [same]
    refine (fieldName_reads named).bind (Reads.bind ?_
      ((ended.readsAfter _).map fun _ => Field.mk _ _))
    rw [place]
    exact fieldValue_reads blankBefore visible trimmed blankAfter behind ended.before

/-- A field line begins with a byte of its name. -/
theorem FieldText.head {bareLf : Bool} {x : Located Field}
    (spelled : FieldText bareLf offset text x) :
    ∃ b more, text = b :: more ∧ isTokenByte b = true := by
  cases spelled with
  | mk named =>
    obtain ⟨b, more, rfl⟩ := List.exists_cons_of_ne_nil named.nonempty
    exact ⟨b, _, rfl, named.all b (by simp)⟩

/-- No line end begins with a byte of a token. -/
theorem optional_lineEnd_none {b : UInt8} {more : Bytes} (token : isTokenByte b = true) :
    Scan.optional (lineEnd settings) ⟨offset, b :: more⟩ = .ok (none, ⟨offset, b :: more⟩) := by
  rw [optional_eq_ok]
  refine .inr ⟨rfl, rfl, ?_⟩
  cases found : lineEnd settings ⟨offset, b :: more⟩ with
  | error failure => exact ⟨failure, rfl⟩
  | ok result =>
    obtain ⟨text, passes, ended⟩ := lineEnd_sound found
    have bytes := passes.rest
    cases ended with
    | both => exact absurd (List.cons.inj bytes).1 (ne_of_accepts token (by decide))
    | lone => exact absurd (List.cons.inj bytes).1 (ne_of_accepts token (by decide))

private theorem fieldsWithin_sound {left : Nat} {fields : Fields}
    (read : fieldsWithin settings left input = .ok (fields, after)) :
    ∃ text, input.Passes text after ∧ SectionText settings.bareLf input.offset text fields ∧
      fields.length ≤ left := by
  induction left generalizing input fields with
  | zero =>
    obtain ⟨found, mid, ending, later⟩ := bind_eq_ok.mp read
    rcases optional_eq_ok.mp ending with ⟨x, rfl, ended⟩ | ⟨rfl, rfl, -⟩
    · obtain ⟨rfl, rfl⟩ := pure_eq_ok.mp later
      obtain ⟨text, passes, ended⟩ := lineEnd_sound ended
      exact ⟨text, passes, .done ended, Nat.le_refl _⟩
    · cases later
  | succ left ih =>
    obtain ⟨found, mid, ending, later⟩ := bind_eq_ok.mp read
    rcases optional_eq_ok.mp ending with ⟨x, rfl, ended⟩ | ⟨rfl, rfl, -⟩
    · obtain ⟨rfl, rfl⟩ := pure_eq_ok.mp later
      obtain ⟨text, passes, ended⟩ := lineEnd_sound ended
      exact ⟨text, passes, .done ended, Nat.zero_le _⟩
    · obtain ⟨first, mid, found, later⟩ := bind_eq_ok.mp later
      obtain ⟨others, stop, more, result⟩ := bind_eq_ok.mp later
      obtain ⟨rfl, rfl⟩ := pure_eq_ok.mp result
      obtain ⟨text, passes, spelled⟩ := field_sound found
      obtain ⟨rest, passed, sectioned, counted⟩ := ih more
      rw [passes.offset] at sectioned
      exact ⟨_, passes.trans passed, .more spelled sectioned, Nat.succ_le_succ counted⟩

theorem fieldSection_sound {fields : Fields}
    (read : fieldSection settings input = .ok (fields, after)) :
    ∃ text, input.Passes text after ∧ SectionText settings.bareLf input.offset text fields ∧
      fields.length ≤ settings.fieldLimit := fieldsWithin_sound read

theorem SectionText.readsWithin {left : Nat} {fields : Fields}
    (spelled : SectionText settings.bareLf offset text fields) (counted : fields.length ≤ left) :
    Reads (fieldsWithin settings left) offset text fields rest := by
  induction spelled generalizing left with
  | @done offset ending ended =>
    obtain ⟨x, read⟩ : ∃ x, Reads (lineEnd settings) offset ending x rest := ended.reads
    have found : Reads (Scan.optional (lineEnd settings)) offset ending (some x) rest :=
      optional_eq_ok.mpr (.inl ⟨x, rfl, read⟩)
    cases left with
    | zero => exact found.thenNothing (Reads.pure [])
    | succ left => exact found.thenNothing (Reads.pure [])
  | @more offset text others field fields first sectioned ih =>
    cases left with
    | zero => cases counted
    | succ left =>
      obtain ⟨b, more, bytes, token⟩ := first.head
      have none : Reads (Scan.optional (lineEnd settings)) offset [] none
          (text ++ others ++ rest) := by
        rw [bytes]
        exact optional_lineEnd_none token
      exact none.nothingThen (first.reads.bind ((ih (Nat.le_of_succ_le_succ counted)).map _))

theorem SectionText.reads {fields : Fields}
    (spelled : SectionText settings.bareLf offset text fields)
    (counted : fields.length ≤ settings.fieldLimit) :
    Reads (fieldSection settings) offset text fields rest := spelled.readsWithin counted

end WireSpan.Http
