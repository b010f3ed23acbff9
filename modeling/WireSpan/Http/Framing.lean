import WireSpan.Fault
import WireSpan.Http.Chunked

/-! How the end of a body is found, decided from the head alone. -/

namespace WireSpan.Http

open Scan

inductive Hint where
  /-- Nothing: a body has to be announced by the head. -/
  | lengthRequired
  /-- The connection is closed: what is not announced runs to the end. -/
  | readToClose
  /-- The response answers a request for the head alone: there is no body. -/
  | headOnly
deriving DecidableEq, Repr

inductive Framing where
  | absent
  | sized (length : Nat)
  | chunked
  | toEnd
  /-- The head does not say; only an empty body is acceptable. -/
  | unstated
deriving DecidableEq, Repr

def shownValueBytes : Nat := 16

def misframed {α : Type} (cause : Cause) (offset : Nat) : Except Fault α :=
  .error (.failed ⟨cause, offset, .general⟩)

def listItems (fields : Fields) : List (Located Field × Bytes) :=
  fields.flatMap fun field =>
    (Ascii.splitCommas field.value.value.value).map fun item => (field, Ascii.trim item)

/-- The number that all items denote, where `resolved` is what earlier ones denoted. The first item
that is no numeral, or denotes another number, decides. -/
def resolveLengths (resolved : Option Nat) :
    List (Located Field × Bytes) → Except Fault (Option Nat)
  | [] => .ok resolved
  | (field, item) :: items =>
    let value := field.value.value
    if item.isEmpty || !item.all Ascii.isDigit then
      misframed (.unexpected "decimal Content-Length" (value.value.take shownValueBytes))
        value.span.start
    else if Decimal.maxDigits < item.length then .error (.numeral (.tooLong item.length))
    else
      let length := Ascii.decimalNumber item
      match resolved with
      | some other =>
        if length = other then resolveLengths (some length) items
        else misframed (.conflictingLengths other length) field.span.start
      | none => resolveLengths (some length) items

def lengthFields (fields : Fields) : Fields := fields.named "content-length"

def codingFields (fields : Fields) : Fields := fields.named "transfer-encoding"

/-- The announced length, where there is one. It must not stand beside a transfer coding. -/
def contentLength (fields : Fields) : Except Fault (Option Nat) :=
  match lengthFields fields, codingFields fields with
  | [], _ => .ok none
  | length :: _, coding :: _ => misframed .mixedFraming (max length.span.start coding.span.start)
  | lengths, [] => resolveLengths none (listItems lengths)

def endsChunked (codings : Fields) : Bool :=
  match (listItems codings).getLast? with
  | some (_, coding) =>
    coding.map Ascii.lower == Ascii.bytes ['c', 'h', 'u', 'n', 'k', 'e', 'd']
  | none => false

/-- A request has a body only if its head says so, and a transfer coding that does not end chunked
leaves its end unknown. -/
def requestFraming (fields : Fields) : Except Fault Framing := do
  match ← contentLength fields with
  | some length => return .sized length
  | none =>
    match (codingFields fields).getLast? with
    | none => return .absent
    | some last =>
      if endsChunked (codingFields fields) then return .chunked
      else
        let value := last.value.value
        misframed (.unexpected "chunked as the final transfer coding"
          (value.value.take shownValueBytes)) value.span.start

def isBodiless (status : Nat) (hint : Hint) : Bool :=
  (decide (100 ≤ status) && decide (status < 200)) || status == 204 || status == 304 ||
    hint == .headOnly

/-- A length is looked at first, even where there is no body. -/
def responseFraming (fields : Fields) (status : Nat) (hint : Hint) : Except Fault Framing := do
  let length ← contentLength fields
  if isBodiless status hint then return .absent
  else match length with
    | some length => return .sized length
    | none =>
      if endsChunked (codingFields fields) then return .chunked
      else if hint = .readToClose then return .toEnd
      else return .unstated

def Framing.body (settings : Settings) : Framing → Scan (Located Body)
  | absent => do return ⟨.empty, Span.emptyAt (← here)⟩
  | sized length => do
    let content ← take length
    return ⟨.sized content.span, content.span⟩
  | chunked => do return (← Chunked.ofMessage settings).map .chunked
  | toEnd => do
    let content ← takeWhile fun _ => true
    return ⟨.toEnd content.span, content.span⟩
  | unstated => do
    match ← peek? with
    | none => return ⟨.empty, Span.emptyAt (← here)⟩
    | some _ => fail .unframedBody

end WireSpan.Http
