import WireSpan.Span
import WireSpan.Text.Quoted

/-! Why reading stopped: the causes, the offset each one points at, and the wording of each. Offsets
and counts are written out in full, however many digits they have. The limit of 4300 digits on
printing a whole number, beyond which a report would fail to be worded, is idealised away. -/

namespace WireSpan

inductive Kind where
  | endOfInput
  | unexpected
  | invalidRange
  | nonContiguous
  | malformedFieldName
  | ambiguousFraming
  | invalidChunkSize
  | delimiterNotFound
  | trailingData
  | tooFewRepetitions
  | limitExceeded
  | unframedBody
deriving DecidableEq, Repr

namespace Kind

def all : List Kind :=
  [endOfInput, unexpected, invalidRange, nonContiguous, malformedFieldName, ambiguousFraming,
    invalidChunkSize, delimiterNotFound, trailingData, tooFewRepetitions, limitExceeded,
    unframedBody]

def name : Kind → String
  | endOfInput => "UNEXPECTED_EOF"
  | unexpected => "UNEXPECTED_TOKEN"
  | invalidRange => "INVALID_RANGE"
  | nonContiguous => "NON_CONTIGUOUS"
  | malformedFieldName => "MALFORMED_HEADER_NAME"
  | ambiguousFraming => "AMBIGUOUS_FRAMING"
  | invalidChunkSize => "INVALID_CHUNK_SIZE"
  | delimiterNotFound => "DELIMITER_NOT_FOUND"
  | trailingData => "TRAILING_DATA"
  | tooFewRepetitions => "TOO_FEW_REPETITIONS"
  | limitExceeded => "LIMIT_EXCEEDED"
  | unframedBody => "UNFRAMED_BODY"

def label (kind : Kind) : String := String.ofList (kind.name.toList.map Char.toLower)

def ofName? (name : String) : Option Kind := all.find? (·.name == name)

end Kind

/-- What went wrong, with all that its wording needs except the offset. -/
inductive Cause where
  /-- The input ended where more bytes could have completed what was expected. -/
  | endOfInput (expected : String)
  | unexpected (expected : String) (found : Bytes)
  | negativeCount (count : Int)
  | delimiterMissing (delimiter : Bytes)
  /-- A repetition ended early, for want of what its part expected. -/
  | tooFewRepetitions (minimum matched : Nat) (expected : Option String)
  | tooManyFields (limit : Nat)
  | nestedTooDeep (limit : Nat)
  | malformedFieldName (found : UInt8)
  | malformedChunkSize (digits : Bytes)
  | malformedSizeLine (found : UInt8)
  /-- Both length indicators are present. -/
  | mixedFraming
  | conflictingLengths (first second : Nat)
  /-- Bytes follow a response head that says nothing about its body. -/
  | unframedBody
  | trailingData
  | positionOutside (offset : Int) (size : Nat)
  | markNotPassed (offset : Nat) (mark : Int)
  | invalidBounds (start stop : Int)
  | spansApart (first second : Span)
  | notInside (inner outer : Span)
  | beyondBuffer (span : Span) (size : Nat)
  | stalled
  /-- A cause that the caller words. -/
  | stated (kind : Kind) (message : String) (expected : Option String)
deriving DecidableEq, Repr

namespace Cause

def kind : Cause → Kind
  | endOfInput _ => .endOfInput
  | unexpected .. => .unexpected
  | negativeCount _ => .invalidRange
  | delimiterMissing _ => .delimiterNotFound
  | tooFewRepetitions .. => .tooFewRepetitions
  | tooManyFields _ => .limitExceeded
  | nestedTooDeep _ => .limitExceeded
  | malformedFieldName _ => .malformedFieldName
  | malformedChunkSize _ => .invalidChunkSize
  | malformedSizeLine _ => .invalidChunkSize
  | mixedFraming => .ambiguousFraming
  | conflictingLengths .. => .ambiguousFraming
  | unframedBody => .unframedBody
  | trailingData => .trailingData
  | positionOutside .. => .invalidRange
  | markNotPassed .. => .invalidRange
  | invalidBounds .. => .invalidRange
  | spansApart .. => .nonContiguous
  | notInside .. => .invalidRange
  | beyondBuffer .. => .invalidRange
  | stalled => .limitExceeded
  | stated kind _ _ => kind

def expected : Cause → Option String
  | endOfInput what => some what
  | unexpected what _ => some what
  | delimiterMissing delimiter => some (Text.quoteBytes delimiter)
  | tooFewRepetitions _ _ what => what
  | nestedTooDeep limit => some s!"nesting depth <= {limit}"
  | malformedFieldName _ => some "header name token followed by ':'"
  | malformedChunkSize _ => some "hexadecimal chunk size"
  | malformedSizeLine _ => some "hexadecimal chunk size"
  | stated _ _ what => what
  | _ => none

/-- The wording of the cause, without its offset. -/
def message : Cause → String
  | endOfInput what =>
    if what.isEmpty then "unexpected end of input"
    else s!"unexpected end of input, expected {what}"
  | unexpected what found =>
    if found.isEmpty then s!"expected {what}"
    else s!"expected {what}, found {Text.quoteBytes found}"
  | negativeCount count => s!"cannot take a negative number of bytes ({count})"
  | delimiterMissing delimiter => s!"delimiter {Text.quoteBytes delimiter} not found"
  | tooFewRepetitions minimum matched _ =>
    s!"expected at least {minimum} repetitions, matched {matched}"
  | tooManyFields limit => s!"more than {limit} header fields"
  | nestedTooDeep limit => s!"nesting deeper than {limit} levels"
  | malformedFieldName found => s!"invalid byte {Text.quoteBytes [found]} in header name"
  | malformedChunkSize digits => s!"invalid chunk size {Text.quoteBytes digits}"
  | malformedSizeLine found => s!"invalid byte {Text.quoteBytes [found]} in chunk size line"
  | mixedFraming => "message has both Content-Length and Transfer-Encoding"
  | conflictingLengths first second =>
    s!"conflicting Content-Length values {first} and {second}"
  | unframedBody =>
    "response body has no Content-Length or chunked framing and the connection is not " ++
      "known to be closed"
  | trailingData => "trailing data after JSON value"
  | positionOutside offset size => s!"cursor offset {offset} outside buffer of {size} bytes"
  | markNotPassed offset mark => s!"cannot reset cursor from {offset} to {mark}"
  | invalidBounds start stop => s!"invalid span range {start}..{stop}"
  | spansApart first second =>
    s!"cannot union non-contiguous spans {first.render} and {second.render}"
  | notInside inner outer => s!"{inner.render} is not contained in {outer.render}"
  | beyondBuffer span size => s!"{span.render} exceeds buffer of {size} bytes"
  | stalled => "a repeated step read nothing"
  | stated _ message _ => message

end Cause

inductive Layer where
  | general
  | span
  | http
  | json
deriving DecidableEq, Repr

/-- The names by which callers tell failures of the layers apart. -/
def Layer.name : Layer → String
  | general => "ParseError"
  | span => "SpanError"
  | http => "HttpParseError"
  | json => "JsonParseError"

/-- A cause at an offset. Offsets asked for by a caller may be negative. -/
structure Failure where
  cause : Cause
  offset : Int
  layer : Layer := .general
deriving DecidableEq, Repr

namespace Failure

def kind (failure : Failure) : Kind := failure.cause.kind

def expected (failure : Failure) : Option String := failure.cause.expected

/-- The full report: the wording of the cause, then the offset. -/
def message (failure : Failure) : String :=
  s!"{failure.cause.message} (at offset {failure.offset})"

/-- The form for developers, which quotes the wording. -/
def debugForm (failure : Failure) : String :=
  s!"{failure.layer.name}(kind={failure.kind.name}, offset={failure.offset}, " ++
    s!"message={Text.quoteText failure.cause.message})"

def reportedBy (failure : Failure) (layer : Layer) : Failure := { failure with layer }

def shiftBy (failure : Failure) (distance : Nat) : Failure :=
  { failure with offset := failure.offset + distance }

end Failure

end WireSpan
