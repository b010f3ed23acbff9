import WireSpan.Program
import WireSpan.Proofs.Http.Chunks
import WireSpan.Proofs.Json.Acceptance
import WireSpan.Proofs.Matcher.Steady

/-! What programs do to a cursor, one step after another. The buffer stays the same, the offset
stays inside of it, and a step that fails to match has not moved at all. -/

namespace WireSpan

open Scan

theorem Json.forward_document (settings : Settings) : (Json.document settings).Forward := by
  have blanks : Json.blanks.Forward := (forward_takeWhile _).bind fun _ => forward_pure ()
  exact blanks.bind fun _ => (value_sound _ _).forward

namespace Http.Chunked

private theorem forward_ofMessage (settings : Settings) : (ofMessage settings).Forward :=
  ofMessage_sound.forward

private theorem forward_plain : plain.Forward := plain_sound.forward

end Http.Chunked

namespace Command

mutual

/-- The patterns that a step applies, also inside of transactions. -/
def patterns : Command → List Pattern
  | apply pattern => [pattern]
  | transaction commands => patternsOf commands
  | _ => []

def patternsOf : List Command → List Pattern
  | [] => []
  | command :: commands => patterns command ++ patternsOf commands

end

mutual

/-- The step is a return to a mark, or a transaction that holds one. -/
def returns : Command → Bool
  | reset _ => true
  | transaction commands => anyReturns commands
  | _ => false

def anyReturns : List Command → Bool
  | [] => false
  | command :: commands => returns command || anyReturns commands

end

end Command

/-- What steps leave of a cursor: the same buffer, an offset inside of it, and none before the first
one unless the steps may go back. -/
structure Cursor.Keeps (before after : Cursor) (mayReturn : Bool) : Prop where
  buffer : after.buffer = before.buffer
  inside : after.offset ≤ after.buffer.length
  forward : mayReturn = false → before.offset ≤ after.offset

namespace Cursor

variable {before mid after cursor : Cursor}

theorem Keeps.refl (inside : cursor.offset ≤ cursor.buffer.length) (mayReturn : Bool) :
    cursor.Keeps cursor mayReturn := ⟨rfl, inside, fun _ => Nat.le_refl _⟩

theorem Keeps.trans {first second : Bool} (begun : before.Keeps mid first)
    (continued : mid.Keeps after second) : before.Keeps after (first || second) where
  buffer := continued.buffer.trans begun.buffer
  inside := continued.inside
  forward stays := by
    obtain ⟨noFirst, noSecond⟩ := Bool.or_eq_false_iff.mp stays
    exact Nat.le_trans (begun.forward noFirst) (continued.forward noSecond)

private theorem keeps_of_advances {input : Input} (inside : cursor.offset ≤ cursor.buffer.length)
    (advances : cursor.input.Advances input) (mayReturn : Bool) :
    cursor.Keeps { cursor with offset := input.offset } mayReturn := by
  obtain ⟨text, passes⟩ := advances
  have place := cursor.input_offset
  have length : cursor.input.rest.length = cursor.buffer.length - cursor.offset :=
    List.length_drop
  have moved := passes.offset
  have whole := passes.length_rest
  refine ⟨rfl, ?_, fun _ => ?_⟩
  · simp only
    omega
  · simp only
    omega

end Cursor

/-- A step keeps what programs rely on, and where it fails to match it has not moved. -/
structure Cursor.Steady (before after : Cursor) (fault : Option Fault) (mayReturn : Bool) : Prop
    extends before.Keeps after mayReturn where
  unmoved : ∀ failure, fault = some (.failed failure) → after = before

/-- The fault of a step that gave no reply. -/
def Answer.fault? {α : Type} (answer : Answer α) : Option Fault :=
  match answer.result with
  | .ok _ => none
  | .error fault => some fault

/-- The cursor after a transaction that ended with a given fault: back at its start after a failure
to match, and otherwise wherever the steps inside left it. -/
def Cursor.leaving (start inside : Cursor) : Option Fault → Cursor
  | some (.failed _) => start
  | _ => inside

theorem Cursor.leaving_steady {start inside : Cursor} {mayReturn : Bool}
    (within : start.offset ≤ start.buffer.length) (keeps : start.Keeps inside mayReturn)
    (fault : Option Fault) : start.Steady (start.leaving inside fault) fault mayReturn := by
  unfold Cursor.leaving
  split
  · exact ⟨.refl within _, fun _ _ => rfl⟩
  · rename_i other
    refine ⟨keeps, ?_⟩
    rintro failure rfl
    exact absurd rfl (other failure)

namespace Command

variable {cursor : Cursor}

/-- An answer that leaves the cursor alone. -/
theorem steady_still {α : Type} (within : cursor.offset ≤ cursor.buffer.length)
    {answer : Answer α} (same : answer.cursor = cursor) (mayReturn : Bool) :
    cursor.Steady answer.cursor answer.fault? mayReturn := by
  rw [same]
  exact ⟨.refl within _, fun _ _ => rfl⟩

private theorem steady_runMatcher {α : Type} (within : cursor.offset ≤ cursor.buffer.length)
    {matcher : Matcher α} (steady : Matcher.Steady matcher) (reply : α → Reply) :
    cursor.Steady (runMatcher matcher reply cursor).cursor
      (runMatcher matcher reply cursor).fault? false := by
  have outcome := steady cursor.input
  have place := cursor.input_offset
  unfold runMatcher
  simp only
  generalize matcher cursor.input = found at outcome ⊢
  refine ⟨Cursor.keeps_of_advances within outcome.advances false, ?_⟩
  obtain ⟨result, after⟩ := found
  cases result with
  | ok value => exact nofun
  | error fault =>
    intro failure same
    cases same
    rw [outcome.unmoved failure rfl, place]

private theorem steady_runScan {α : Type} (within : cursor.offset ≤ cursor.buffer.length)
    {scan : Scan α}
    (forward : scan.Forward) (reply : α → Reply) :
    cursor.Steady (runScan scan reply cursor).cursor (runScan scan reply cursor).fault? false :=
  steady_runMatcher within (Matcher.steady_ofScan forward) reply

private theorem steady_runChunked (within : cursor.offset ≤ cursor.buffer.length)
    {scan : Scan (Located Http.ChunkedBody)} (forward : scan.Forward) :
    cursor.Steady (runChunked scan cursor).cursor (runChunked scan cursor).fault? false := by
  have steady := steady_runScan within forward Reply.chunkedBody
  unfold runChunked
  generalize runScan scan Reply.chunkedBody cursor = answer at steady ⊢
  obtain ⟨result, after, log⟩ := answer
  cases result with
  | error fault => exact steady
  | ok reply => cases reply <;> exact steady

private theorem steady_withSettings (within : cursor.offset ≤ cursor.buffer.length)
    {step : Settings → Cursor → Answer Reply}
    (steady : ∀ settings, cursor.Steady (step settings cursor).cursor
      (step settings cursor).fault? false) (draft : Settings.Draft) :
    cursor.Steady (withSettings draft step cursor).cursor
      (withSettings draft step cursor).fault? false := by
  unfold withSettings
  split
  · rename_i settings checked
    exact steady settings
  · exact steady_still within rfl false

/-- A return never leads past the place that is returned from. -/
theorem steady_reset (within : cursor.offset ≤ cursor.buffer.length) (mark : Int) :
    cursor.Steady (run (.reset mark) cursor).cursor (run (.reset mark) cursor).fault? true := by
  rw [run]
  split
  · rename_i after returned
    unfold Cursor.reset? at returned
    split at returned
    · rename_i passed
      cases returned
      refine ⟨⟨rfl, ?_, nofun⟩, nofun⟩
      simp only
      omega
    · cases returned
  · exact steady_still within rfl true

/-- A transaction ends as its steps do, and leaves the cursor as transactions do. -/
theorem run_transaction (commands : List Command) (cursor : Cursor) :
    (run (.transaction commands) cursor).fault? = (runAll commands cursor).fault? ∧
      (run (.transaction commands) cursor).cursor =
        cursor.leaving (runAll commands cursor).cursor (runAll commands cursor).fault? := by
  rw [run]
  unfold Answer.fault?
  cases (runAll commands cursor).result with
  | ok replies => exact ⟨rfl, rfl⟩
  | error fault => cases fault <;> exact ⟨rfl, rfl⟩

mutual

/-- Every step is steady. -/
theorem run_steady : (command : Command) → (∀ pattern ∈ command.patterns, pattern.Composed) →
    (cursor : Cursor) → cursor.offset ≤ cursor.buffer.length →
      cursor.Steady (run command cursor).cursor (run command cursor).fault? command.returns
  | peekByte, _, _, within => steady_runScan within forward_peek? .byte
  | peek count, _, _, within => steady_runScan within (forward_peek count) .bytes
  | describe, _, _, within => steady_still within rfl false
  | wholeBuffer, _, _, within => steady_still within rfl false
  | reset mark, _, _, within => steady_reset within mark
  | spanFrom _, _, _, within => steady_still within rfl false
  | idle, _, _, within => steady_still within rfl false
  | raise _, _, _, within => steady_still within rfl false
  | transaction commands, composed, cursor, within => by
    obtain ⟨sameFault, sameCursor⟩ := run_transaction commands cursor
    rw [sameFault, sameCursor]
    exact Cursor.leaving_steady within (runAll_keeps commands composed cursor within) _
  | json draft, _, _, within =>
    steady_withSettings within
      (fun settings => steady_runScan within (Json.forward_document settings) .tree) draft
  | plainChunked, _, _, within => steady_runChunked within Http.Chunked.forward_plain
  | chunked draft, _, _, within =>
    steady_withSettings within
      (fun settings => steady_runChunked within (Http.Chunked.forward_ofMessage settings)) draft
  | apply pattern, composed, _, within =>
    steady_runMatcher within (composed pattern (List.mem_singleton.mpr rfl)).steady_run .matched

/-- Steps that follow one another keep what each of them keeps. -/
theorem runAll_keeps : (commands : List Command) →
    (∀ pattern ∈ patternsOf commands, pattern.Composed) → (cursor : Cursor) →
      cursor.offset ≤ cursor.buffer.length →
        cursor.Keeps (runAll commands cursor).cursor (anyReturns commands)
  | [], _, _, within => .refl within false
  | command :: commands, composed, cursor, within => by
    obtain ⟨first, others⟩ := List.forall_mem_append.mp composed
    have keeps := (run_steady command first cursor within).toKeeps
    have later := runAll_keeps commands others (run command cursor).cursor keeps.inside
    rw [runAll, anyReturns]
    simp only
    split
    · exact keeps.trans (.refl keeps.inside _)
    · exact keeps.trans later

end

end Command

/-- A program that sees how each step ended before it chooses the next one. It goes on after errors
of any kind, inside of transactions too, or gives up with a fault. -/
inductive Session where
  | finish (fault : Option Fault)
  | perform (command : Command) (next : Except Fault Reply → Session)
  | transaction (body : Session) (next : Option Fault → Session)

/-- A step that was done: the cursors around it, how it ended, and whether it was or held a return
to a mark. -/
structure Event where
  before : Cursor
  after : Cursor
  fault : Option Fault
  mayReturn : Bool

/-- What a program did: how it ended, the cursor after it, and its steps in order. -/
structure Trace where
  fault : Option Fault
  cursor : Cursor
  events : List Event

namespace Session

/-- Runs a program. The steps inside a transaction come before the transaction itself. -/
def run : Session → Cursor → Trace
  | finish fault, cursor => ⟨fault, cursor, []⟩
  | perform command next, cursor =>
    let answer := command.run cursor
    let later := run (next answer.result) answer.cursor
    { later with
      events := ⟨cursor, answer.cursor, answer.fault?, command.returns⟩ :: later.events }
  | transaction body next, cursor =>
    let inside := run body cursor
    let after := cursor.leaving inside.cursor inside.fault
    let later := run (next inside.fault) after
    { later with
      events := inside.events ++
        ⟨cursor, after, inside.fault, inside.events.any (·.mayReturn)⟩ :: later.events }

/-- All patterns that the program may come to apply are composed. -/
def Composed : Session → Prop
  | finish _ => True
  | perform command next =>
    (∀ pattern ∈ command.patterns, pattern.Composed) ∧ ∀ result, Composed (next result)
  | transaction body next => Composed body ∧ ∀ fault, Composed (next fault)

/-- The program that does all steps, whatever becomes of each. -/
def each : List Command → Session
  | [] => finish none
  | command :: commands => perform command fun _ => each commands

/-- Running steps one by one is one of the programs. -/
theorem each_events (commands : List Command) (cursor : Cursor) :
    ((each commands).run cursor).events.map (fun event => (event.after, event.fault)) =
      (Command.runEach commands cursor).map fun answer => (answer.cursor, answer.fault?) := by
  induction commands generalizing cursor with
  | nil => rfl
  | cons command commands ih =>
    simp only [each, run, Command.runEach, List.map_cons, ih]

end Session

/-- A step as programs rely on it, in a buffer that stays as it was taken at the beginning. -/
structure Event.Steady (buffer : Bytes) (event : Event) : Prop where
  snapshot : event.after.buffer = buffer
  inside : event.after.offset ≤ buffer.length
  unmoved : ∀ failure, event.fault = some (.failed failure) →
    event.after.offset = event.before.offset
  forward : event.mayReturn = false → event.before.offset ≤ event.after.offset

theorem Cursor.Steady.event {before after : Cursor} {fault : Option Fault} {mayReturn : Bool}
    (steady : before.Steady after fault mayReturn) :
    Event.Steady before.buffer ⟨before, after, fault, mayReturn⟩ where
  snapshot := steady.buffer
  inside := by
    rw [← steady.buffer]
    exact steady.inside
  unmoved failure failed := by rw [steady.unmoved failure failed]
  forward := steady.forward

namespace Session

/-- Every step of a program is steady, and so is what it leaves of the cursor. -/
theorem run_keeps {session : Session} (composed : session.Composed) {cursor : Cursor}
    (within : cursor.offset ≤ cursor.buffer.length) :
    (∀ event ∈ (session.run cursor).events, event.Steady cursor.buffer) ∧
      cursor.Keeps (session.run cursor).cursor
        ((session.run cursor).events.any (·.mayReturn)) := by
  induction session generalizing cursor with
  | finish fault => exact ⟨List.forall_mem_nil _, .refl within _⟩
  | perform command next ih =>
    have first := Command.run_steady command composed.1 cursor within
    obtain ⟨others, later⟩ := ih _ (composed.2 (command.run cursor).result) first.inside
    rw [first.buffer] at others
    exact ⟨List.forall_mem_cons.mpr ⟨first.event, others⟩, first.toKeeps.trans later⟩
  | transaction body next inside ih =>
    obtain ⟨steps, keeps⟩ := inside composed.1 within
    have whole := Cursor.leaving_steady within keeps (body.run cursor).fault
    obtain ⟨others, later⟩ := ih _ (composed.2 (body.run cursor).fault) whole.inside
    rw [whole.buffer] at others
    constructor
    · exact List.forall_mem_append.mpr ⟨steps, List.forall_mem_cons.mpr ⟨whole.event, others⟩⟩
    · rw [run, List.any_append, List.any_cons, ← Bool.or_assoc, Bool.or_self]
      exact whole.toKeeps.trans later

/-- Whatever a program does to a cursor, and however it goes on after errors, the buffer stays the
same and the offset stays inside of it; a step that fails to match has not moved, and none goes back
but a return to a mark or a transaction that holds one. -/
theorem events_steady (buffer : Bytes) (offset : Int) (start : Cursor)
    (placed : Cursor.at? buffer offset = .ok start) (session : Session)
    (composed : session.Composed) :
    ∀ event ∈ (session.run start).events, event.Steady buffer := by
  have taken : start.buffer = buffer ∧ start.offset ≤ buffer.length := by
    unfold Cursor.at? Input.at? at placed
    split at placed
    · rename_i range
      cases placed
      refine ⟨rfl, ?_⟩
      simp only [Input.advance, Input.ofBytes]
      omega
    · cases placed
  obtain ⟨rfl, within⟩ := taken
  exact (run_keeps composed within).1

/-- A transaction that reads a byte, fails on the next five and gives up, after which the program
reads both bytes. -/
theorem events_steady_after_failure :
    ∃ session : Session,
      ((session.run ⟨[0x61, 0x62], 0⟩).events.map fun event =>
        (event.before.offset, event.after.offset)) = [(0, 1), (1, 1), (0, 0), (0, 2)] ∧
      ∀ event ∈ (session.run ⟨[0x61, 0x62], 0⟩).events, event.Steady [0x61, 0x62] := by
  have take (count : Int) : ∀ pattern ∈ (Command.apply (.take count)).patterns, pattern.Composed :=
    List.forall_mem_singleton.mpr (.take count)
  refine ⟨.transaction
    (.perform (.apply (.take 1)) fun _ => .perform (.apply (.take 5)) fun result =>
      .finish (match result with | .ok _ => none | .error fault => some fault))
    fun _ => .perform (.apply (.take 2)) fun _ => .finish none, rfl, ?_⟩
  exact events_steady [0x61, 0x62] 0 _ rfl _
    ⟨⟨take 1, fun _ => ⟨take 5, fun _ => trivial⟩⟩, fun _ => ⟨take 2, fun _ => trivial⟩⟩

end Session

end WireSpan
