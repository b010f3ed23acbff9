import WireSpan.Proofs.Json.Walks

/-! What a walk that hides numbers and strings writes into a buffer: byte by byte, and as texts that
are replaced where they stand. -/

namespace WireSpan.Json

/-- The byte that hides a place of a value: a nine wherever a number stands, and a star between the
quotes of a string. -/
def cover? (node : Located Json) (place : Nat) : Option UInt8 :=
  match node.value with
  | number .. => if node.span.start ≤ place ∧ place < node.span.stop then some 0x39 else none
  | string _ => if node.span.start < place ∧ place + 1 < node.span.stop then some 0x2a else none
  | _ => none

/-- The byte that a visit writes at a place, if it writes there. -/
def Visit.write? (visit : Visit) (place : Nat) : Option UInt8 :=
  match visit.subject with
  | .value value => cover? ⟨value, visit.span⟩ place
  | .key _ => none

/-- The buffer when all visits have hidden what they are to. -/
def hideAll (walked : List Visit) (buffer : Bytes) : Bytes :=
  walked.foldl (fun buffer visit => visit.hide buffer) buffer

/-- Wherever the text stands at the offset, the visits replace it by the other text. -/
def Hides (walked : List Visit) (offset : Nat) (text hiddenText : Bytes) : Prop :=
  ∀ before after, before.length = offset →
    hideAll walked (before ++ text ++ after) = before ++ hiddenText ++ after

variable {buffer text more hiddenText hiddenMore front back : Bytes} {byte : UInt8} {span : Span}
  {visit : Visit} {walked others : List Visit} {place offset depth : Nat}

section Places

private theorem length_fill : (fill span byte buffer).length = buffer.length := by
  simp only [fill, Span.slice, List.length_append, List.length_take, List.length_replicate,
    List.length_drop]
  omega

private theorem getElem?_fill : (fill span byte buffer)[place]? =
    if span.start ≤ place ∧ place < span.stop then buffer[place]?.map fun _ => byte
    else buffer[place]? := by
  have ordered := span.ordered
  have length : (span.slice buffer).length =
      min (span.stop - span.start) (buffer.length - span.start) := by
    rw [Span.slice, List.length_take, List.length_drop, Span.length]
  rcases Nat.lt_or_ge place buffer.length with inside | beyond
  · rw [fill, List.append_assoc]
    rcases Nat.lt_or_ge place span.start with before | begun
    · rw [List.getElem?_append_left (by rw [List.length_take]; omega),
        List.getElem?_take_of_lt before, if_neg (by omega)]
    · rw [List.getElem?_append_right (by rw [List.length_take]; omega), List.length_take]
      rcases Nat.lt_or_ge place span.stop with covered | behind
      · rw [List.getElem?_append_left (by rw [List.length_replicate]; omega),
          List.getElem?_replicate_of_lt (by omega), if_pos ⟨begun, covered⟩,
          List.getElem?_eq_getElem inside, Option.map_some]
      · rw [List.getElem?_append_right (by rw [List.length_replicate]; omega),
          List.length_replicate, List.getElem?_drop, if_neg (by omega)]
        congr 1
        omega
  · rw [List.getElem?_eq_none (by rwa [length_fill]), List.getElem?_eq_none beyond]
    exact (ite_self none).symm

/-- The places strictly between the two ends of a span. -/
theorem inner_covers : ((inner span).start ≤ place ∧ place < (inner span).stop) ↔
    (span.start < place ∧ place + 1 < span.stop) := by
  simp only [inner, Span.between]
  omega

/-- A visit writes its byte wherever it writes one, and changes nothing elsewhere. -/
theorem getElem?_hide (visit : Visit) (buffer : Bytes) (place : Nat) :
    (visit.hide buffer)[place]? = buffer[place]?.map fun old => (visit.write? place).getD old := by
  have unchanged : buffer[place]? = buffer[place]?.map fun old => old := Option.map_id'.symm
  obtain ⟨depth, subject, span⟩ := visit
  cases subject with
  | key => exact unchanged
  | value value =>
    cases value with
    | number =>
      simp only [Visit.hide, Visit.write?, cover?, getElem?_fill]
      split
      · rfl
      · exact unchanged
    | string =>
      simp only [Visit.hide, Visit.write?, cover?, getElem?_fill, inner_covers]
      split
      · rfl
      · exact unchanged
    | _ => exact unchanged

private theorem length_hide : (visit.hide buffer).length = buffer.length := by
  unfold Visit.hide
  split
  · exact length_fill
  · exact length_fill
  · rfl

private theorem hideAll_cons :
    hideAll (visit :: walked) buffer = hideAll walked (visit.hide buffer) := rfl

private theorem hideAll_append :
    hideAll (walked ++ others) buffer = hideAll others (hideAll walked buffer) :=
  List.foldl_append

theorem length_hideAll : (hideAll walked buffer).length = buffer.length := by
  induction walked generalizing buffer with
  | nil => rfl
  | cons visit walked ih => rw [hideAll_cons, ih, length_hide]

/-- A place where no visit writes keeps its byte. -/
theorem getElem?_hideAll_of_none (untouched : ∀ visit ∈ walked, visit.write? place = none) :
    (hideAll walked buffer)[place]? = buffer[place]? := by
  induction walked generalizing buffer with
  | nil => rfl
  | cons visit walked ih =>
    obtain ⟨first, others⟩ := List.forall_mem_cons.mp untouched
    rw [hideAll_cons, ih others, getElem?_hide, first]
    exact Option.map_id'

theorem write?_eq_some (written : visit.write? place = some byte) :
    visit.isContainer = false ∧ visit.span.start ≤ place ∧ place < visit.span.stop := by
  obtain ⟨depth, subject, span⟩ := visit
  cases subject with
  | key => cases written
  | value value =>
    cases value with
    | number =>
      simp only [Visit.write?, cover?, Option.ite_none_right_eq_some] at written
      exact ⟨rfl, written.1⟩
    | string =>
      simp only [Visit.write?, cover?, Option.ite_none_right_eq_some] at written
      exact ⟨rfl, Nat.le_of_lt written.1.1, Nat.lt_of_succ_lt written.1.2⟩
    | _ => cases written

/-- At most one visit of a walk in order writes at a place. -/
theorem Visit.Precedes.write? {first second : Visit} (precedes : first.Precedes second)
    (written : first.write? place = some byte) : second.write? place = none := by
  obtain ⟨scalar, begins, ends⟩ := write?_eq_some written
  have apart := precedes.2 scalar
  cases again : second.write? place with
  | none => rfl
  | some other =>
    have later := (write?_eq_some again).2.1
    omega

/-- A place where a visit of a walk in order writes has that byte in the end. -/
theorem getElem?_hideAll_of_mem (preceding : walked.Pairwise Visit.Precedes)
    (member : visit ∈ walked) (written : visit.write? place = some byte)
    (inside : place < buffer.length) : (hideAll walked buffer)[place]? = some byte := by
  induction walked generalizing buffer with
  | nil => cases member
  | cons first walked ih =>
    obtain ⟨before, preceding⟩ := List.pairwise_cons.mp preceding
    rw [hideAll_cons]
    rcases List.mem_cons.mp member with rfl | later
    · have untouched := fun other listed => (before other listed).write? written
      rw [getElem?_hideAll_of_none untouched, getElem?_hide, written,
        List.getElem?_eq_getElem inside]
      rfl
    · exact ih preceding later (by rwa [length_hide])

end Places

section Texts

theorem Hides.nil : Hides [] offset text text := fun _ _ _ => rfl

/-- A visit that writes nothing. -/
theorem Hides.skip (idle : ∀ buffer, visit.hide buffer = buffer)
    (hides : Hides walked offset text hiddenText) :
    Hides (visit :: walked) offset text hiddenText := by
  intro before after length
  rw [hideAll_cons, idle, hides before after length]

theorem Hides.append (hides : Hides walked offset text hiddenText)
    (length : hiddenText.length = text.length)
    (behind : Hides others (offset + text.length) more hiddenMore) :
    Hides (walked ++ others) offset (text ++ more) (hiddenText ++ hiddenMore) := by
  intro before after place
  have first := hides before (more ++ after) place
  have second := behind (before ++ hiddenText) after (by rw [List.length_append, place, length])
  simp only [List.append_assoc] at first second ⊢
  rw [hideAll_append, first, second]

theorem Hides.behind (hides : Hides walked (offset + front.length) text hiddenText) :
    Hides walked offset (front ++ text) (front ++ hiddenText) := by
  intro before after place
  have whole := hides (before ++ front) after (by rw [List.length_append, place])
  simp only [List.append_assoc] at whole ⊢
  exact whole

theorem Hides.cons (hides : Hides walked (offset + 1) text hiddenText) :
    Hides walked offset (byte :: text) (byte :: hiddenText) := by
  have behind : Hides walked offset ([byte] ++ text) ([byte] ++ hiddenText) := hides.behind
  exact behind

/-- What stands around the text remains. -/
theorem Hides.within (hides : Hides walked (offset + front.length) text hiddenText) :
    Hides walked offset (front ++ text ++ back) (front ++ hiddenText ++ back) := by
  intro before after place
  have whole := hides.behind before (back ++ after) place
  simp only [List.append_assoc] at whole ⊢
  exact whole

theorem Hides.bracketed {opening closing : UInt8}
    (hides : Hides walked (offset + 1) text hiddenText) :
    Hides walked offset (opening :: text ++ [closing]) (opening :: hiddenText ++ [closing]) :=
  have within : Hides walked offset ([opening] ++ text ++ [closing])
    ([opening] ++ hiddenText ++ [closing]) := hides.within
  within

private theorem fill_here (length : text.length = span.length) (here : front.length = span.start) :
    fill span byte (front ++ text ++ back) =
      front ++ List.replicate text.length byte ++ back := by
  have slice : span.slice (front ++ text ++ back) = text := by
    rw [Span.slice, ← here, ← length, List.append_assoc, List.drop_left, List.take_left]
  have ahead : (front ++ text ++ back).take span.start = front := by
    rw [← here, List.append_assoc, List.take_left]
  have behind : (front ++ text ++ back).drop (span.start + text.length) = back := by
    rw [← here, ← List.length_append, List.drop_left]
  rw [fill, slice, ahead, behind]

theorem hides_number {value : Number} {numeral : String}
    (nines : hiddenText = List.replicate text.length 0x39) :
    Hides [⟨depth, .value (.number value numeral), Span.ofLength offset text.length⟩] offset text
      hiddenText := by
  intro before after place
  rw [nines]
  exact fill_here (Nat.add_sub_cancel_left ..).symm place

theorem hides_string {value : String} (stars : hiddenText = List.replicate text.length 0x2a) :
    Hides [⟨depth, .value (.string value), Span.ofLength offset
        (Ascii.doubleQuote :: text ++ [Ascii.doubleQuote]).length⟩] offset
      (Ascii.doubleQuote :: text ++ [Ascii.doubleQuote])
      (Ascii.doubleQuote :: hiddenText ++ [Ascii.doubleQuote]) := by
  intro before after place
  have length : (Ascii.doubleQuote :: text ++ [Ascii.doubleQuote]).length = text.length + 2 := by
    simp only [List.cons_append, List.length_cons, List.length_append, List.length_nil]
  have between : fill (inner (Span.ofLength offset (text.length + 2))) 0x2a
      (before ++ [Ascii.doubleQuote] ++ text ++ (Ascii.doubleQuote :: after)) =
      before ++ [Ascii.doubleQuote] ++ List.replicate text.length 0x2a ++
        (Ascii.doubleQuote :: after) := by
    refine fill_here ?_ ?_
    · simp only [inner, Span.between, Span.ofLength, Span.length]
      omega
    · simp only [inner, Span.between, Span.ofLength, List.length_append, List.length_singleton,
        place]
  rw [length, stars]
  simpa only [hideAll, List.foldl_cons, List.foldl_nil, Visit.hide, List.append_assoc,
    List.cons_append, List.nil_append] using between

end Texts

end WireSpan.Json
