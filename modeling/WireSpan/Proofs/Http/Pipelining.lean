import WireSpan.Proofs.Http.Relocation
import WireSpan.Proofs.Http.Spelling.Fields
import WireSpan.Proofs.Http.Tiling

/-! Requests that follow one another. Each is read as it would be by itself, and the next one begins
where it ends. -/

namespace WireSpan.Http

open Scan

variable {settings : Settings} {buffer before text : Bytes} {input after : Input} {offset : Nat}

theorem RequestText.ne_nil {x : Located Request} (spelled : RequestText settings offset text x) :
    text ≠ [] := by
  cases spelled with
  | mk headed =>
    cases headed with
    | mk lined =>
      cases lined with
      | mk token => simp [token.nonempty]

theorem Request.read_sound {x : Located Request}
    (read : Request.read settings input = .ok (x, after)) :
    ∃ text, input.Passes text after ∧ RequestText settings input.offset text x := by
  rw [Request.read_eq] at read
  exact messageReader_sound requestLine_sound read

/-- What is parsed from a place in a buffer is what is read there. -/
theorem Request.parse_at (place : before.length = input.offset) :
    Request.parse settings (before ++ input.rest) input.offset =
      match Request.read settings input with
      | .ok (x, _) => .ok x
      | .error fault => .error (fault.reportedBy .http) := by
  have found : Input.at? (before ++ input.rest) input.offset = .ok input :=
    Input.at?_eq_ok.mpr ⟨before, rfl, place, rfl⟩
  rw [Request.parse, Reader.run, found]
  simp only [mapError_ok, bind, Except.bind]
  cases Request.read settings input <;> rfl

/-- Parsing one request after another from `start` on, each where the one before it ended, gives the
requests of a pipeline. It ends at `stop`, the end of the buffer or the place of the first fault. -/
inductive Pipelined (settings : Settings) (buffer : Bytes) :
    (start : Nat) → Request.Pipeline → (stop : Nat) → Prop where
  | done : Pipelined settings buffer buffer.length ⟨[], none⟩ buffer.length
  | refused {start : Nat} {fault : Fault} (inside : start < buffer.length)
      (failed : Request.parse settings buffer start = .error fault) :
      Pipelined settings buffer start ⟨[], some fault⟩ start
  | next {start stop : Nat} {request : Located Request} {pipeline : Request.Pipeline}
      (inside : start < buffer.length)
      (parsed : Request.parse settings buffer start = .ok request)
      (later : Pipelined settings buffer request.span.stop pipeline stop) :
      Pipelined settings buffer start ⟨request :: pipeline.requests, pipeline.fault⟩ stop

/-- As many turns as there are bytes are enough to come to an end. -/
theorem readMany_pipelined {count : Nat} (place : before.length = input.offset)
    (enough : input.rest.length ≤ count) :
    ∃ stop, Pipelined settings (before ++ input.rest) input.offset
      (Request.readMany settings count input) stop := by
  induction count generalizing before input with
  | zero =>
    have empty : input.rest = [] := List.eq_nil_of_length_eq_zero (Nat.le_zero.mp enough)
    rw [empty, List.append_nil, ← place]
    exact ⟨_, .done⟩
  | succ count ih =>
    rw [Request.readMany]
    by_cases ended : input.atEnd = true
    · have empty : input.rest = [] := List.isEmpty_iff.mp ended
      rw [if_pos ended, empty, List.append_nil, ← place]
      exact ⟨_, .done⟩
    · have inside : input.offset < (before ++ input.rest).length := by
        have some : 0 < input.rest.length := List.length_pos_iff.mpr (mt List.isEmpty_iff.mpr ended)
        rw [List.length_append, place]
        omega
      have alone : Request.parse settings (before ++ input.rest) input.offset = _ :=
        Request.parse_at place
      rw [if_neg ended]
      cases read : Request.read settings input with
      | error fault =>
        rw [read] at alone
        exact ⟨_, .refused inside alone⟩
      | ok result =>
        obtain ⟨request, after⟩ := result
        rw [read] at alone
        obtain ⟨text, passes, spelled⟩ := Request.read_sound read
        have some : 0 < text.length := List.length_pos_iff.mpr spelled.ne_nil
        have shorter := passes.length_rest
        have stops : request.span.stop = after.offset := by
          rw [spelled.span, passes.offset]
          rfl
        have placeAfter : (before ++ text).length = after.offset := by
          rw [List.length_append, place, passes.offset]
        obtain ⟨stop, later⟩ := ih placeAfter (by omega)
        rw [List.append_assoc, ← passes.rest, ← stops] at later
        exact ⟨stop, .next inside alone later⟩

theorem Pipelined.tiles {start stop : Nat} {pipeline : Request.Pipeline}
    (pipelined : Pipelined settings buffer start pipeline stop) :
    Tiles buffer start (pipeline.requests.map fun request => (request.span, anything)) stop := by
  induction pipelined with
  | done => rfl
  | refused => rfl
  | next inside parsed later ih =>
    obtain ⟨_, text, same, stands, spelled⟩ := Request.parse_sound parsed
    obtain rfl := Int.ofNat.inj same
    rw [List.map_cons, spelled.span]
    rw [spelled.span] at ih
    exact .cons stands trivial ih

/-- Without a fault the whole buffer has been read, and a fault is that of parsing what is left. -/
theorem Pipelined.ending {start stop : Nat} {pipeline : Request.Pipeline}
    (pipelined : Pipelined settings buffer start pipeline stop) :
    (pipeline.fault = none → stop = buffer.length) ∧
      ∀ fault, pipeline.fault = some fault → Request.parse settings buffer stop = .error fault := by
  induction pipelined with
  | done => exact ⟨fun _ => rfl, nofun⟩
  | refused inside failed =>
    refine ⟨nofun, ?_⟩
    intro fault same
    cases same
    exact failed
  | next inside parsed later ih => exact ih

/-- A request that takes up all bytes that it was parsed from is spelled by them. -/
theorem Request.parse_whole {x : Located Request} (parsed : Request.parse settings text 0 = .ok x)
    (whole : x.span = Span.ofLength 0 text.length) : RequestText settings 0 text x := by
  obtain ⟨start, own, same, ⟨before, more, rfl, place⟩, spelled⟩ := Request.parse_sound parsed
  obtain rfl := Int.ofNat.inj same
  obtain rfl := List.eq_nil_of_length_eq_zero place
  have covers : own.length = ([] ++ own ++ more).length := by
    have stops := congrArg Span.stop (spelled.span.symm.trans whole)
    simpa only [Span.ofLength, Nat.zero_add] using stops
  obtain rfl : more = [] := by
    rw [List.nil_append, List.length_append] at covers
    exact List.eq_nil_of_length_eq_zero (by omega)
  rwa [List.nil_append, List.append_nil]

/-- Further right and before other bytes a request is read as it is by itself, with its places
moved. -/
theorem RequestText.readsAfter {x : Located Request} (spelled : RequestText settings 0 text x)
    (distance : Nat) (rest : Bytes) :
    Request.read settings ⟨distance, text ++ rest⟩ =
      .ok (x.shiftWith (Request.shiftBy · distance) distance, ⟨distance + text.length, rest⟩) := by
  have moved : Request.read settings (Input.shiftBy ⟨0, text ++ rest⟩ distance) = _ :=
    Request.read_relocates _
  rw [spelled.reads] at moved
  rw [Nat.add_comm distance]
  simpa only [shifted, Input.shiftBy, Nat.zero_add] using moved

/-- Requests that are written one after another are read one after another, each with its places
moved past those before it. -/
theorem readMany_flatMap {messages : List (Bytes × Located Request)} {count : Nat}
    (alone : ∀ message ∈ messages, RequestText settings 0 message.1 message.2)
    (enough : (messages.flatMap Prod.fst).length ≤ count) (offset : Nat) :
    Request.readMany settings count ⟨offset, messages.flatMap Prod.fst⟩ =
      ⟨laidOut Prod.fst (fun message offset =>
        message.2.shiftWith (Request.shiftBy · offset) offset) messages offset, none⟩ := by
  induction messages generalizing count offset with
  | nil => cases count <;> rfl
  | cons message messages ih =>
    have spelled := alone message (by simp)
    have some : 0 < message.1.length := List.length_pos_iff.mpr spelled.ne_nil
    rw [List.flatMap_cons, List.length_append] at enough
    obtain ⟨count, rfl⟩ : ∃ more, count = more + 1 := ⟨count - 1, by omega⟩
    have notEnd : ¬ (Input.mk offset (message.1 ++ messages.flatMap Prod.fst)).atEnd = true := by
      simp [Input.atEnd, spelled.ne_nil]
    have others : ∀ other ∈ messages, RequestText settings 0 other.1 other.2 :=
      fun other member => alone other (List.mem_cons_of_mem _ member)
    have left : (messages.flatMap Prod.fst).length ≤ count := by omega
    rw [List.flatMap_cons, Request.readMany, if_neg notEnd, spelled.readsAfter]
    simp only [ih others left, laidOut]

/-- Requests that are parsed one by one are parsed alike where they follow one another, each with
its places moved past those before it. Whatever a buffer holds, its requests tile it up to where the
first fault is found, which is that of parsing what is left; without a fault they tile all of it. -/
theorem parseAll_exact (settings : Settings) :
    (∀ messages : List (Bytes × Located Request),
      (∀ message ∈ messages, Request.parse settings message.1 0 = .ok message.2 ∧
        message.2.span = Span.ofLength 0 message.1.length) →
      Request.parseAll settings (messages.flatMap Prod.fst) =
        ⟨laidOut Prod.fst (fun message offset =>
          message.2.shiftWith (Request.shiftBy · offset) offset) messages 0, none⟩) ∧
    ∀ buffer, ∃ stop,
      Pipelined settings buffer 0 (Request.parseAll settings buffer) stop ∧
      Tiles buffer 0 ((Request.parseAll settings buffer).requests.map fun request =>
        (request.span, anything)) stop ∧
      ((Request.parseAll settings buffer).fault = none → stop = buffer.length) ∧
      ∀ fault, (Request.parseAll settings buffer).fault = some fault →
        Request.parse settings buffer stop = .error fault := by
  constructor
  · intro messages alone
    refine readMany_flatMap ?_ (Nat.le_refl _) 0
    intro message member
    exact Request.parse_whole (alone message member).1 (alone message member).2
  · intro buffer
    have run : ∃ stop, Pipelined settings ([] ++ (Input.ofBytes buffer).rest) 0
        (Request.readMany settings buffer.length (Input.ofBytes buffer)) stop :=
      readMany_pipelined rfl (Nat.le_refl _)
    obtain ⟨stop, pipelined⟩ := run
    exact ⟨stop, pipelined, pipelined.tiles, pipelined.ending⟩

/-- A request without a body, and one with a byte of content right after it. -/
theorem parseAll_exact_two_requests :
    ∃ first second : Located Request,
      (Request.parse .standard (Ascii.bytes ['A', ' ', '/', ' ', 'H', 'T', 'T', 'P', '/', '1', '.',
        '0', '\n', '\n']) 0 = .ok first ∧ first.span = Span.ofLength 0 14) ∧
      (Request.parse .standard (Ascii.bytes ['B', ' ', '/', ' ', 'H', 'T', 'T', 'P', '/', '1', '.',
        '0', '\n', 'C', 'o', 'n', 't', 'e', 'n', 't', '-', 'L', 'e', 'n', 'g', 't', 'h', ':', '1',
        '\n', '\n', 'x']) 0 = .ok second ∧ second.span = Span.ofLength 0 32) ∧
      Request.parseAll .standard (Ascii.bytes ['A', ' ', '/', ' ', 'H', 'T', 'T', 'P', '/', '1',
        '.', '0', '\n', '\n', 'B', ' ', '/', ' ', 'H', 'T', 'T', 'P', '/', '1', '.', '0', '\n', 'C',
        'o', 'n', 't', 'e', 'n', 't', '-', 'L', 'e', 'n', 'g', 't', 'h', ':', '1', '\n', '\n',
        'x']) =
        ⟨[first.shiftWith (Request.shiftBy · 0) 0, second.shiftWith (Request.shiftBy · 14) 14],
          none⟩ := by
  obtain ⟨first, parsedFirst⟩ : ∃ first : Located Request,
      Request.parse .standard (Ascii.bytes ['A', ' ', '/', ' ', 'H', 'T', 'T', 'P', '/', '1', '.',
        '0', '\n', '\n']) 0 = .ok first ∧ first.span = Span.ofLength 0 14 := ⟨_, rfl, rfl⟩
  obtain ⟨second, parsedSecond⟩ : ∃ second : Located Request,
      Request.parse .standard (Ascii.bytes ['B', ' ', '/', ' ', 'H', 'T', 'T', 'P', '/', '1', '.',
        '0', '\n', 'C', 'o', 'n', 't', 'e', 'n', 't', '-', 'L', 'e', 'n', 'g', 't', 'h', ':', '1',
        '\n', '\n', 'x']) 0 = .ok second ∧ second.span = Span.ofLength 0 32 := ⟨_, rfl, rfl⟩
  exact ⟨first, second, parsedFirst, parsedSecond, (parseAll_exact .standard).1
    [(_, first), (_, second)] (List.forall_mem_cons.mpr ⟨parsedFirst,
      List.forall_mem_singleton.mpr parsedSecond⟩)⟩

end WireSpan.Http
