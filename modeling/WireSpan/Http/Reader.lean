import WireSpan.Http.Framing
import WireSpan.Http.StartLine

/-! Whole messages: a head, and the body that it announces. -/

namespace WireSpan.Http

open Scan

/-- A reader of messages. Other than a scanner it can also fail on a numeral that is too long. -/
abbrev Reader (α : Type) := Input → Except Fault (α × Input)

def Reader.ofScan {α : Type} (scan : Scan α) : Reader α := fun input =>
  (scan input).mapError .failed

def Reader.run {α : Type} (reader : Reader α) (buffer : Bytes) (offset : Int) : Except Fault α :=
  Except.mapError (·.reportedBy .http) do
    let input ← (Input.at? buffer offset).mapError .failed
    return (← reader input).1

def head {α : Type} (settings : Settings) (startLine : Scan α) : Scan (Located (α × Fields)) :=
  located do return (← startLine, ← fieldSection settings)

namespace Request

def read (settings : Settings) : Reader (Located Request) := fun input => do
  let (⟨(line, fields), head⟩, afterHead) ←
    Reader.ofScan (Http.head settings (requestLine settings)) input
  let framing ← requestFraming fields
  let (body, after) ← Reader.ofScan (framing.body settings) afterHead
  let request : Request :=
    { method := line.method, target := line.target, version := line.version, fields, body, head }
  return (⟨request, input.spanTo after⟩, after)

def parse (settings : Settings) (buffer : Bytes) (offset : Int) : Except Fault (Located Request) :=
  (read settings).run buffer offset

structure Pipeline where
  requests : List (Located Request)
  fault : Option Fault
deriving DecidableEq, Repr

def readMany (settings : Settings) : (count : Nat) → Input → Pipeline
  | 0, _ => ⟨[], none⟩
  | count + 1, input =>
    if input.atEnd then ⟨[], none⟩
    else match read settings input with
      | .error fault => ⟨[], some (fault.reportedBy .http)⟩
      | .ok (request, after) =>
        let later := readMany settings count after
        ⟨request :: later.requests, later.fault⟩

/-- All requests of a buffer, each from where the one before it ended. A request has at least one
byte, so there are no more of them than bytes. -/
def parseAll (settings : Settings) (buffer : Bytes) : Pipeline :=
  readMany settings buffer.length (Input.ofBytes buffer)

end Request

namespace Response

def read (settings : Settings) (hint : Hint) : Reader (Located Response) := fun input => do
  let (⟨(line, fields), head⟩, afterHead) ←
    Reader.ofScan (Http.head settings (statusLine settings)) input
  let framing ← responseFraming fields line.status.value hint
  let (body, after) ← Reader.ofScan (framing.body settings) afterHead
  let response : Response :=
    { version := line.version, status := line.status, reason := line.reason, fields, body, head }
  return (⟨response, input.spanTo after⟩, after)

def parse (settings : Settings) (hint : Hint) (buffer : Bytes) (offset : Int) :
    Except Fault (Located Response) :=
  (read settings hint).run buffer offset

end Response

end WireSpan.Http
