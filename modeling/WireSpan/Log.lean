import WireSpan.Http.Reader
import WireSpan.Json.Document

/-! Log records. All that is logged about an operation can be told from its outcome. -/

namespace WireSpan

inductive Channel where
  | message
  | chunked
  | document
deriving DecidableEq, Repr

structure Record where
  channel : Channel
  text : String
deriving DecidableEq, Repr

namespace Log

def failed (channel : Channel) (what : String) (failure : Failure) : Record :=
  ⟨channel, s!"{what} parse failed: {failure.kind.name} at offset {failure.offset}"⟩

/-- A chunked body is recorded wherever it is read; its last chunk is not counted. -/
def chunkedBody (body : Http.ChunkedBody) : Record :=
  ⟨.chunked, s!"Decoded chunked body: {body.chunks.length - 1} chunks, {body.length} bytes, " ++
    s!"{body.trailers.length} trailers"⟩

def body : Http.Body → List Record
  | .chunked body => [chunkedBody body]
  | _ => []

def parsed (what : String) (fields : Http.Fields) (body : Http.Body) (span : Span) :
    Record :=
  ⟨.message,
    s!"Parsed {what}: {fields.length} headers, {body.formName}, span {span.render}"⟩

/-- What is recorded about a request. Only failures to match are recorded, not other faults. -/
def request : Except Fault (Located Http.Request) → List Record
  | .ok ⟨request, span⟩ =>
    body request.body.value ++
      [parsed s!"request {request.method.value} {request.target.value}" request.fields
        request.body.value span]
  | .error (.failed failure) => [failed .message "Request" failure]
  | .error _ => []

def response : Except Fault (Located Http.Response) → List Record
  | .ok ⟨response, span⟩ =>
    body response.body.value ++
      [parsed s!"response {response.status.value}" response.fields response.body.value span]
  | .error (.failed failure) => [failed .message "Response" failure]
  | .error _ => []

def pipeline (pipeline : Http.Request.Pipeline) : List Record :=
  pipeline.requests.flatMap (request <| .ok ·) ++
    (pipeline.fault.map fun fault => request (.error fault)).getD []

def document : Except Failure (Located Json) → List Record
  | .ok root =>
    [⟨.document, s!"Parsed JSON {root.value.form.name} spanning {root.span.render}"⟩]
  | .error failure => [failed .document "JSON" failure]

end Log

end WireSpan
