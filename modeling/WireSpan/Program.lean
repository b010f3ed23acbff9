import WireSpan.Log
import WireSpan.Pattern
import WireSpan.Span.Checked

/-! Programs that read a buffer step by step, going on after errors of any kind. -/

namespace WireSpan

structure Cursor where
  buffer : Bytes
  offset : Nat
deriving DecidableEq, Repr

namespace Cursor

def at? (buffer : Bytes) (offset : Int) : Except Failure Cursor :=
  (Input.at? buffer offset).map fun input => ⟨buffer, input.offset⟩

def input (cursor : Cursor) : Input := (Input.ofBytes cursor.buffer).advance cursor.offset

theorem input_offset (cursor : Cursor) : cursor.input.offset = cursor.offset := Nat.zero_add _

def remaining (cursor : Cursor) : Nat := cursor.buffer.length - cursor.offset

def atEnd (cursor : Cursor) : Bool := decide (cursor.buffer.length ≤ cursor.offset)

def render (cursor : Cursor) : String :=
  s!"Cursor(offset={cursor.offset}, size={cursor.buffer.length})"

def spanFrom? (cursor : Cursor) (mark : Int) : Except Failure Span :=
  Span.ofBounds? mark cursor.offset

def reset? (cursor : Cursor) (mark : Int) : Except Failure Cursor :=
  if 0 ≤ mark ∧ mark ≤ cursor.offset then .ok { cursor with offset := mark.toNat }
  else .error ⟨.markNotPassed cursor.offset mark, mark, .general⟩

end Cursor

inductive Command where
  | peekByte
  | peek (count : Int)
  | describe
  | wholeBuffer
  | reset (mark : Int)
  | spanFrom (mark : Int)
  /-- Something happens outside, such as a change of the caller's own copy of the buffer. -/
  | idle
  | raise (text : String)
  | transaction (commands : List Command)
  | json (draft : Settings.Draft)
  | plainChunked
  | chunked (draft : Settings.Draft)
  | apply (pattern : Pattern)
deriving Inhabited

inductive Reply where
  | done
  | byte (value : Option UInt8)
  | bytes (value : Bytes)
  | state (offset remaining : Nat) (atEnd : Bool) (text : String)
  | span (value : Span)
  | tree (value : Located Json)
  | chunkedBody (value : Located Http.ChunkedBody)
  | matched (value : Option (Located Value))
  | transaction (mark : Nat) (replies : List Reply)

structure Answer (α : Type) where
  result : Except Fault α
  cursor : Cursor
  log : List Record := []

namespace Command

def runMatcher {α : Type} (matcher : Matcher α) (reply : α → Reply) (cursor : Cursor) :
    Answer Reply :=
  let outcome := matcher cursor.input
  ⟨outcome.result.map reply, { cursor with offset := outcome.input.offset }, []⟩

/-- Runs a scanner from a cursor, which does not move where the scanner fails. -/
def runScan {α : Type} (scan : Scan α) (reply : α → Reply) (cursor : Cursor) : Answer Reply :=
  runMatcher (Matcher.ofScan scan) reply cursor

def runChunked (scan : Scan (Located Http.ChunkedBody)) (cursor : Cursor) : Answer Reply :=
  let answer := runScan scan .chunkedBody cursor
  match answer.result with
  | .ok (.chunkedBody body) => { answer with log := [Log.chunkedBody body.value] }
  | _ => answer

def withSettings (draft : Settings.Draft) (step : Settings → Cursor → Answer Reply)
    (cursor : Cursor) : Answer Reply :=
  match draft.check with
  | .ok settings => step settings cursor
  | .error error => ⟨.error (.settings error), cursor, []⟩

mutual

def run : Command → Cursor → Answer Reply
  | peekByte, cursor => runScan Scan.peek? .byte cursor
  | peek count, cursor => runScan (Scan.peek count) .bytes cursor
  | describe, cursor =>
    ⟨.ok (.state cursor.offset cursor.remaining cursor.atEnd cursor.render), cursor, []⟩
  | wholeBuffer, cursor => ⟨.ok (.bytes cursor.buffer), cursor, []⟩
  | reset mark, cursor =>
    match cursor.reset? mark with
    | .ok after => ⟨.ok .done, after, []⟩
    | .error failure => ⟨.error (.failed failure), cursor, []⟩
  | spanFrom mark, cursor =>
    ⟨((cursor.spanFrom? mark).map .span).mapError .failed, cursor, []⟩
  | idle, cursor => ⟨.ok .done, cursor, []⟩
  | raise text, cursor => ⟨.error (.raised text), cursor, []⟩
  | transaction commands, cursor =>
    let answer := runAll commands cursor
    match answer.result with
    | .ok replies => ⟨.ok (.transaction cursor.offset replies), answer.cursor, answer.log⟩
    | .error (.failed failure) => ⟨.error (.failed failure), cursor, answer.log⟩
    | .error fault => ⟨.error fault, answer.cursor, answer.log⟩
  | json draft, cursor =>
    withSettings draft (fun settings => runScan (Json.document settings) .tree) cursor
  | plainChunked, cursor => runChunked Http.Chunked.plain cursor
  | chunked draft, cursor =>
    withSettings draft (fun settings => runChunked (Http.Chunked.ofMessage settings)) cursor
  | apply pattern, cursor => runMatcher pattern.run .matched cursor

/-- Runs steps up to the first one that gives no reply. -/
def runAll : List Command → Cursor → Answer (List Reply)
  | [], cursor => ⟨.ok [], cursor, []⟩
  | command :: commands, cursor =>
    let first := run command cursor
    match first.result with
    | .error fault => ⟨.error fault, first.cursor, first.log⟩
    | .ok reply =>
      let later := runAll commands first.cursor
      ⟨later.result.map (reply :: ·), later.cursor, first.log ++ later.log⟩

end

/-- Runs all steps, whatever becomes of each. -/
def runEach : List Command → Cursor → List (Answer Reply)
  | [], _ => []
  | command :: commands, cursor =>
    let answer := run command cursor
    answer :: runEach commands answer.cursor

end Command

end WireSpan
