import Mathlib.Order.Bounds.Basic
import WireSpan.Proofs.Program.Primitives

/-! Searches for a delimiter. A search finds the first place where the delimiter stands within its
window. The window ends where the limit says, as long as the limit does not lead before the
beginning of the buffer; one that does is counted from the end of the buffer. -/

namespace WireSpan

section Places

variable {buffer text : Bytes} {place start size : Nat}

private theorem stands_iff :
    Stands buffer place text ↔ place ≤ buffer.length ∧ text <+: buffer.drop place := by
  constructor
  · rintro ⟨before, after, rfl, rfl⟩
    rw [List.append_assoc, List.drop_left, List.length_append]
    exact ⟨Nat.le_add_right _ _, after, rfl⟩
  · rintro ⟨inside, after, same⟩
    refine ⟨buffer.take place, after, ?_, List.length_take_of_le inside⟩
    rw [List.append_assoc, same, List.take_append_drop]

private theorem stands_drop (inside : start ≤ buffer.length) :
    Stands (buffer.drop start) place text ↔ Stands buffer (start + place) text := by
  rw [stands_iff, stands_iff, List.drop_drop, List.length_drop]
  have same : place ≤ buffer.length - start ↔ start + place ≤ buffer.length := by omega
  rw [same]

/-- What stands in the first bytes of a buffer stands in the buffer and ends among them. -/
theorem stands_take : Stands (buffer.take size) place text ↔
    Stands buffer place text ∧ place + text.length ≤ size := by
  constructor
  · intro stands
    have ends := stands.length_le
    rw [List.length_take] at ends
    obtain ⟨-, begins⟩ := stands_iff.mp stands
    rw [List.drop_take, List.prefix_take_iff] at begins
    exact ⟨stands_iff.mpr ⟨by omega, begins.1⟩, by omega⟩
  · rintro ⟨stands, ends⟩
    have bound := stands.length_le
    obtain ⟨-, begins⟩ := stands_iff.mp stands
    refine stands_iff.mpr ⟨by rw [List.length_take]; omega, ?_⟩
    rw [List.drop_take, List.prefix_take_iff]
    exact ⟨begins, by omega⟩

end Places

/-- What a search comes to: the first of the places, or nothing where there are none. -/
def IsFirst (places : Set Nat) : Option Nat → Prop
  | some place => IsLeast places place
  | none => places = ∅

/-- Places that are all moved right by the same distance have their first place moved as well. -/
theorem IsFirst.moved {places others : Set Nat} {found : Option Nat} {distance : Nat}
    (first : IsFirst places found) (behind : ∀ place ∈ others, distance ≤ place)
    (same : ∀ place, place + distance ∈ others ↔ place ∈ places) :
    IsFirst others (found.map (· + distance)) := by
  have member {other : Nat} (there : other ∈ others) :
      ∃ place ∈ places, other = place + distance := by
    obtain ⟨place, rfl⟩ := Nat.exists_eq_add_of_le' (behind other there)
    exact ⟨place, (same place).mp there, rfl⟩
  cases found with
  | some place =>
    refine ⟨(same place).mpr first.1, fun other there => ?_⟩
    obtain ⟨place', there', rfl⟩ := member there
    exact Nat.add_le_add_right (first.2 there') distance
  | none =>
    refine Set.eq_empty_of_forall_notMem fun other there => ?_
    obtain ⟨place, there', -⟩ := member there
    exact Set.eq_empty_iff_forall_notMem.mp first place there'

namespace Scan

variable {text bytes : Bytes}

/-- The index of a text is the first place where the text stands. -/
theorem isFirst_indexOf? : IsFirst {place | Stands bytes place text} (indexOf? text bytes) := by
  induction bytes with
  | nil =>
    rw [indexOf?]
    split
    · rename_i empty
      rw [List.isEmpty_iff.mp empty]
      exact ⟨⟨[], [], rfl, rfl⟩, fun _ _ => Nat.zero_le _⟩
    · rename_i more
      refine Set.eq_empty_of_forall_notMem fun place stands => more ?_
      have nothing := Nat.eq_zero_of_add_eq_zero_left (Nat.le_zero.mp (Stands.length_le stands))
      exact List.isEmpty_iff_length_eq_zero.mpr nothing
  | cons b rest ih =>
    rw [indexOf?]
    split
    · rename_i begins
      refine ⟨stands_iff.mpr ⟨Nat.zero_le _, List.isPrefixOf_iff_prefix.mp begins⟩, ?_⟩
      exact fun _ _ => Nat.zero_le _
    · rename_i later
      have notHere : ¬ Stands (b :: rest) 0 text := by
        intro stands
        exact later (List.isPrefixOf_iff_prefix.mpr (stands_iff.mp stands).2)
      refine ih.moved (fun place stands => ?_) fun place => ?_
      · refine Nat.one_le_iff_ne_zero.mpr ?_
        rintro rfl
        exact notHere stands
      · rw [Set.mem_ofPred_eq, Set.mem_ofPred_eq, stands_iff, stands_iff, List.drop_succ_cons,
          List.length_cons, Nat.add_le_add_iff_right]

/-- The offset that a search does not look past. -/
def searchStop (limit : Option Int) (input : Input) : Nat :=
  match limit with
  | none => input.finish
  | some limit => input.index (min input.finish (input.offset + limit))

private theorem searchWindow?_eq (limit : Option Int) (input : Input) :
    searchWindow? limit input = if searchStop limit input < input.offset then none
      else some (input.upTo (searchStop limit input)) := by
  cases limit with
  | some limit => rfl
  | none =>
    have notBefore : ¬ input.finish < input.offset := Nat.not_lt.mpr (Nat.le_add_right _ _)
    rw [searchStop, if_neg notBefore, Input.upTo, Input.finish, Nat.add_sub_cancel_left,
      List.take_length]
    rfl

/-- A search finds the first place where the text stands and ends where the search does, or before
that. -/
theorem isFirst_search (text : Bytes) (limit : Option Int) (input : Input) :
    IsFirst {place | Stands input.rest place text ∧
        input.offset + place + text.length ≤ searchStop limit input}
      ((searchWindow? limit input).bind (indexOf? text)) := by
  rw [searchWindow?_eq]
  split
  · rename_i before
    refine Set.eq_empty_of_forall_notMem ?_
    rintro place ⟨-, ends⟩
    omega
  · rename_i notBefore
    have same : {place | Stands input.rest place text ∧
        input.offset + place + text.length ≤ searchStop limit input} =
        {place | Stands (input.upTo (searchStop limit input)) place text} := by
      ext place
      simp only [Set.mem_ofPred_eq, Input.upTo, stands_take, and_congr_right_iff]
      omega
    rw [same]
    exact isFirst_indexOf?

end Scan

/-- The places at or behind `start` where the delimiter stands and ends within `limit` bytes of
`start`, if there is a limit. -/
def delimiterPlaces (delimiter buffer : Bytes) (start : Nat) (limit : Option Int) : Set Nat :=
  {place | start ≤ place ∧ Stands buffer place delimiter ∧
    ∀ most ∈ limit, (place + delimiter.length : Int) ≤ start + most}

/-- The limit as a search reads it. One that leads before the beginning of the buffer is taken to
lead that far back from its end, but not before its beginning again. -/
def readLimit (buffer : Bytes) (start : Nat) (limit : Option Int) : Option Int :=
  limit.map fun most : Int =>
    if start + most < 0 then max (-start) (buffer.length + most) else most

section Limits

variable {delimiter buffer : Bytes} {start size : Nat} {limit : Option Int}

private theorem readLimit_of_inside (inside : ∀ most ∈ limit, 0 ≤ start + most) :
    readLimit buffer start limit = limit := by
  cases limit with
  | none => rfl
  | some most => exact congrArg some (if_neg (Int.not_lt.mpr (inside most rfl)))

private theorem readLimit_of_before {most : Int} (before : start + most < 0) :
    readLimit buffer start (some most) = some (max (-(start : Int)) (buffer.length + most)) :=
  congrArg some (if_pos before)

/-- A search that begins at `start` looks as far as its limit is read to lead. -/
theorem le_searchStop (inside : start ≤ buffer.length) (within : size ≤ buffer.length) :
    size ≤ Scan.searchStop limit ⟨start, buffer.drop start⟩ ↔
      ∀ most ∈ readLimit buffer start limit, (size : Int) ≤ start + most := by
  have finish : Input.finish ⟨start, buffer.drop start⟩ = buffer.length := by
    rw [Input.finish, List.length_drop, Nat.add_sub_of_le inside]
  cases limit with
  | none =>
    rw [Scan.searchStop, finish]
    exact iff_of_true within fun most given => absurd given (Option.not_mem_none most)
  | some most =>
    simp only [readLimit, Scan.searchStop, Input.index, finish, Option.map_some,
      Option.mem_some_iff, forall_eq']
    split <;> split <;> omega

/-- Nothing lies within a limit that leads before the beginning of the buffer. -/
theorem delimiterPlaces_of_before {most : Int} (before : start + most < 0) :
    delimiterPlaces delimiter buffer start (some most) = ∅ := by
  refine Set.eq_empty_of_forall_notMem ?_
  rintro place ⟨-, -, ends⟩
  have bound := ends most rfl
  omega

/-- A search from `start` finds the first place that its limit, as it is read, leaves to it. -/
theorem isFirst_delimiter (delimiter : Bytes) (limit : Option Int)
    (inside : start ≤ buffer.length) :
    IsFirst (delimiterPlaces delimiter buffer start (readLimit buffer start limit))
      (((Scan.searchWindow? limit ⟨start, buffer.drop start⟩).bind
        (Scan.indexOf? delimiter)).map (· + start)) := by
  refine (Scan.isFirst_search delimiter limit ⟨start, buffer.drop start⟩).moved
    (fun place there => there.1) fun place => ?_
  rw [Nat.add_comm, Set.mem_ofPred_eq, stands_drop inside]
  constructor
  · rintro ⟨-, stands, ends⟩
    refine ⟨stands, (le_searchStop inside stands.length_le).mpr ?_⟩
    exact_mod_cast ends
  · rintro ⟨stands, ends⟩
    refine ⟨Nat.le_add_right _ _, stands, ?_⟩
    exact_mod_cast (le_searchStop inside stands.length_le).mp ends

end Limits

namespace Command

/-- The step passes over all bytes before the first of the places, and fails to match without having
moved where there are no places. -/
structure StopsAtFirst (places : Set Nat) (delimiter buffer : Bytes) (start : Nat)
    (step : Answer Reply) : Prop where
  succeeds : (∃ reply, step.result = .ok reply) ↔ places.Nonempty
  found : ∀ place, IsLeast places place → ∃ span : Span, span.start = start ∧ span.stop = place ∧
    step = ⟨.ok (.matched (some ⟨.bytes (span.slice buffer), span⟩)), ⟨buffer, place⟩, []⟩
  missing : places = ∅ →
    step = ⟨.error (.failed ⟨.delimiterMissing delimiter, start, .general⟩), ⟨buffer, start⟩, []⟩

variable {delimiter buffer : Bytes} {start : Nat}

private theorem takeUntil_of_none {limit : Option Int} {input : Input}
    (missing : (Scan.searchWindow? limit input).bind (Scan.indexOf? delimiter) = none) :
    Scan.takeUntil delimiter limit input =
      .error ⟨.delimiterMissing delimiter, input.offset, .general⟩ := by
  simp only [Scan.takeUntil, missing]
  rfl

private theorem takeUntil_of_some {limit : Option Int} {input : Input} {count : Nat}
    (found : (Scan.searchWindow? limit input).bind (Scan.indexOf? delimiter) = some count) :
    Scan.takeUntil delimiter limit input =
      .ok (⟨input.rest.take count, Span.ofLength input.offset count⟩, input.advance count) := by
  simp only [Scan.takeUntil, found]

/-- A search stops at the first place that its limit, as it is read, leaves to it. -/
theorem stopsAtFirst_readLimit (delimiter : Bytes) (limit : Option Int)
    (inside : start ≤ buffer.length) :
    StopsAtFirst (delimiterPlaces delimiter buffer start (readLimit buffer start limit)) delimiter
      buffer start (run (.apply (.takeUntil delimiter limit)) ⟨buffer, start⟩) := by
  have first := isFirst_delimiter delimiter limit inside
  have place := Cursor.input_eq buffer start
  cases search : (Scan.searchWindow? limit ⟨start, buffer.drop start⟩).bind
      (Scan.indexOf? delimiter) with
  | none =>
    rw [search] at first
    rw [← place] at search
    rw [run_apply_of_error rfl (takeUntil_of_none search), Cursor.input_offset]
    refine ⟨⟨nofun, fun some => ?_⟩, fun place least => ?_, fun _ => rfl⟩
    · exact absurd first some.ne_empty
    · exact absurd first (Set.Nonempty.ne_empty ⟨place, least.1⟩)
  | some count =>
    rw [search] at first
    rw [← place] at search
    rw [run_apply_of_ok rfl (takeUntil_of_some search), place]
    refine ⟨⟨fun _ => ⟨_, first.1⟩, fun _ => ⟨_, rfl⟩⟩, fun place least => ?_, fun none => ?_⟩
    · obtain rfl := least.unique first
      refine ⟨Span.ofLength start count, rfl, Nat.add_comm .., ?_⟩
      have length : (Span.ofLength start count).length = count := Nat.add_sub_cancel_left ..
      have stop : (· + start) count = start + count := Nat.add_comm ..
      rw [Span.slice, length, stop]
      rfl
    · exact absurd none (Set.Nonempty.ne_empty ⟨_, first.1⟩)

/-- A search for a delimiter passes over all bytes before the first place where the delimiter stands
and ends within the limit, and fails without having moved if there is no such place. Only a limit
that leads before the beginning of the buffer is not taken at its word. Nothing lies within it, but
it is counted from the end of the buffer, and the search finds what stands before there. -/
theorem run_takeUntil_first (delimiter : Bytes) (limit : Option Int) (buffer : Bytes) (start : Nat)
    (inside : start ≤ buffer.length) :
    ((∀ most ∈ limit, 0 ≤ start + most) →
      StopsAtFirst (delimiterPlaces delimiter buffer start limit) delimiter buffer start
        (run (.apply (.takeUntil delimiter limit)) ⟨buffer, start⟩)) ∧
    ∀ most ∈ limit, start + most < 0 →
      delimiterPlaces delimiter buffer start limit = ∅ ∧
        StopsAtFirst
          (delimiterPlaces delimiter buffer start (some (max (-start) (buffer.length + most))))
          delimiter buffer start (run (.apply (.takeUntil delimiter limit)) ⟨buffer, start⟩) := by
  have stops := stopsAtFirst_readLimit delimiter limit inside
  refine ⟨fun within => ?_, fun most given before => ?_⟩
  · rwa [readLimit_of_inside within] at stops
  · obtain rfl := Option.mem_def.mp given
    rw [readLimit_of_before before] at stops
    exact ⟨delimiterPlaces_of_before before, stops⟩

/-- An `X` behind one other byte. It is found within two bytes, and also with a limit of minus one
byte, within which there is nothing. -/
theorem run_takeUntil_first_negative :
    (run (.apply (.takeUntil (Ascii.bytes ['X']) (some 2)))
        ⟨Ascii.bytes ['a', 'X', 'b'], 0⟩).cursor.offset = 1 ∧
      delimiterPlaces (Ascii.bytes ['X']) (Ascii.bytes ['a', 'X', 'b']) 0 (some (-1)) = ∅ ∧
      (run (.apply (.takeUntil (Ascii.bytes ['X']) (some (-1))))
        ⟨Ascii.bytes ['a', 'X', 'b'], 0⟩).cursor.offset = 1 := by
  have least : IsLeast
      (delimiterPlaces (Ascii.bytes ['X']) (Ascii.bytes ['a', 'X', 'b']) 0 (some 2)) 1 := by
    refine ⟨⟨Nat.zero_le _, ⟨Ascii.bytes ['a'], Ascii.bytes ['b'], rfl, rfl⟩, ?_⟩, ?_⟩
    · rintro most ⟨⟩
      decide
    · rintro place ⟨-, stands, -⟩
      refine Nat.one_le_iff_ne_zero.mpr ?_
      rintro rfl
      exact absurd (stands_iff.mp stands).2 (by decide)
  obtain ⟨found, -⟩ := run_takeUntil_first (Ascii.bytes ['X']) (some 2)
    (Ascii.bytes ['a', 'X', 'b']) 0 (by decide)
  obtain ⟨-, fromEnd⟩ := run_takeUntil_first (Ascii.bytes ['X']) (some (-1))
    (Ascii.bytes ['a', 'X', 'b']) 0 (by decide)
  obtain ⟨span, -, -, step⟩ := (found (by decide)).found 1 least
  obtain ⟨nothing, later⟩ := fromEnd (-1) rfl (by decide)
  obtain ⟨span', -, -, step'⟩ := later.found 1 least
  exact ⟨by rw [step], nothing, by rw [step']⟩

end Command

end WireSpan
