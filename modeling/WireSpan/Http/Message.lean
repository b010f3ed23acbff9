import WireSpan.Http.Field

/-! Requests and responses as trees in which every part knows its place. -/

namespace WireSpan.Http

/-- One chunk of a chunked body. The span around it covers size line, data and their line ends;
around the last chunk it covers the size line and its line end. -/
structure Chunk where
  size : Nat
  /-- The size and the extensions, without the line end. -/
  sizeLine : Span
  extensions : Option Span
  data : Span
deriving DecidableEq, Repr

def Chunk.isLast (chunk : Chunk) : Bool := chunk.size == 0

structure ChunkedBody where
  chunks : List (Located Chunk)
  trailers : Fields
deriving DecidableEq, Repr

namespace ChunkedBody

def contentSpans (body : ChunkedBody) : List Span :=
  (body.chunks.filter (!·.value.isLast)).map (·.value.data)

def length (body : ChunkedBody) : Nat := (body.chunks.map (·.value.size)).foldr (· + ·) 0

end ChunkedBody

inductive Body where
  | empty
  | sized (content : Span)
  | chunked (body : ChunkedBody)
  | toEnd (content : Span)
deriving DecidableEq, Repr

namespace Body

def contentSpans : Body → List Span
  | empty => []
  | sized content => [content]
  | chunked body => body.contentSpans
  | toEnd content => [content]

def payload (body : Body) (buffer : Bytes) : Bytes := body.contentSpans.flatMap (·.slice buffer)

def formName : Body → String
  | empty => "EmptyBody"
  | sized _ => "ContentLengthBody"
  | chunked _ => "ChunkedBody"
  | toEnd _ => "ToEndBody"

end Body

structure Request where
  method : Located String
  target : Located String
  version : Located String
  fields : Fields
  body : Located Body
  /-- From the request line through the empty line. -/
  head : Span
deriving DecidableEq, Repr

structure Response where
  version : Located String
  status : Located Nat
  reason : Located String
  fields : Fields
  body : Located Body
  /-- From the status line through the empty line. -/
  head : Span
deriving DecidableEq, Repr

end WireSpan.Http
