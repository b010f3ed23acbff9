import WireSpan.Proofs.Http.Framing

/-! Where messages end. A message that says itself where it ends is parsed from its own bytes alone:
with other bytes behind it, or with none, the parse gives the same tree. -/

namespace WireSpan

/-- A text that stands in a buffer also stands where the buffer is cut off behind it and goes on
with other bytes. -/
theorem Stands.followedBy {buffer text : Bytes} {offset : Nat} (stands : Stands buffer offset text)
    (rest : Bytes) :
    Input.at? (buffer.take (offset + text.length) ++ rest) offset =
      .ok ⟨offset, text ++ rest⟩ := by
  obtain ⟨before, after, rfl, rfl⟩ := stands
  refine Input.at?_eq_ok.mpr ⟨before, ?_, rfl, rfl⟩
  rw [← List.length_append, List.take_left, List.append_assoc]

namespace Http

variable {settings : Settings} {fields : Fields} {status : Nat} {hint : Hint} {framing : Framing}

/-- The response says itself where it ends: by a length, by its last chunk, or by not having a body
at all. -/
def Response.Delimited (hint : Hint) (response : Response) : Prop :=
  match response.body.value with
  | .empty => NeverBodied response.status.value hint
  | .sized _ => True
  | .chunked _ => True
  | .toEnd _ => False

private theorem responseFraming_of_never (never : NeverBodied status hint)
    (framed : responseFraming fields status hint = .ok framing) : framing = .absent := by
  obtain ⟨length, resolved, -⟩ := except_bind_eq_ok.mp framed
  cases (responseFraming_of_bodiless resolved never).symm.trans framed
  rfl

/-- A response that says where it ends has got its body from a framing that does. -/
theorem Response.framing_delimited {response : Response} {offset : Nat} {text : Bytes}
    (delimited : response.Delimited hint)
    (framed : responseFraming fields response.status.value hint = .ok framing)
    (followed : BodyText settings.bareLf settings.fieldLimit framing offset text response.body) :
    framing.Delimited := by
  unfold Response.Delimited at delimited
  generalize response.body = body at delimited followed
  cases followed with
  | absent => exact ⟨nofun, nofun⟩
  | sized => exact ⟨nofun, nofun⟩
  | chunked => exact ⟨nofun, nofun⟩
  | toEnd => exact delimited.elim
  | unstated => cases responseFraming_of_never delimited framed

theorem ResponseText.reads {offset : Nat} {text rest : Bytes} {x : Located Response}
    (spelled : ResponseText settings hint offset text x) (delimited : x.value.Delimited hint) :
    Response.read settings hint ⟨offset, text ++ rest⟩ =
      .ok (x, ⟨offset + text.length, rest⟩) := by
  rw [Response.read_eq]
  refine MessageText.reads (fun _ _ _ => StatusLineText.reads) ?_ spelled
  intro line fields announced head start text body framed built followed
  rw [built] at delimited
  exact Response.framing_delimited delimited framed followed

/-- A message that is read whatever follows it is parsed whatever follows it. -/
theorem Reader.run_followedBy {μ : Type} {reader : Reader (Located μ)} {x : Located μ}
    {buffer text rest : Bytes} {offset : Nat} {after : Input} (stands : Stands buffer offset text)
    (place : x.span = Span.ofLength offset text.length)
    (read : reader ⟨offset, text ++ rest⟩ = .ok (x, after)) :
    reader.run (buffer.take x.span.stop ++ rest) offset = .ok x := by
  rw [place]
  exact run_eq_ok.mpr ⟨_, _, stands.followedBy rest, read⟩

/-- The parse of a message depends on the bytes of the message only. A request is the same whatever
stands in place of the bytes behind it, and so is every response that says itself where it ends. -/
theorem parse_own_bytes (settings : Settings) (buffer rest : Bytes) (offset : Int) :
    (∀ message, Request.parse settings buffer offset = .ok message →
      Request.parse settings (buffer.take message.span.stop ++ rest) offset = .ok message) ∧
    ∀ hint message, Response.parse settings hint buffer offset = .ok message →
      message.value.Delimited hint →
        Response.parse settings hint (buffer.take message.span.stop ++ rest) offset =
          .ok message := by
  constructor
  · intro message parsed
    obtain ⟨start, text, rfl, stands, spelled⟩ := Request.parse_sound parsed
    exact Reader.run_followedBy stands spelled.span spelled.reads
  · intro hint message parsed delimited
    obtain ⟨start, text, rfl, stands, spelled⟩ := Response.parse_sound parsed
    exact Reader.run_followedBy stands spelled.span (spelled.reads delimited)

/-- A request with a byte of content, and a response that has no content because of its status. -/
theorem parse_own_bytes_then_others :
    (∃ request, Request.parse .standard (Ascii.bytes ['A', ' ', '/', ' ', 'H', 'T', 'T', 'P', '/',
        '1', '.', '0', '\n', 'C', 'o', 'n', 't', 'e', 'n', 't', '-', 'L', 'e', 'n', 'g', 't', 'h',
        ':', '1', '\n', '\n', 'x']) 0 = .ok request ∧
      Request.parse .standard (Ascii.bytes ['A', ' ', '/', ' ', 'H', 'T', 'T', 'P', '/', '1', '.',
        '0', '\n', 'C', 'o', 'n', 't', 'e', 'n', 't', '-', 'L', 'e', 'n', 'g', 't', 'h', ':', '1',
        '\n', '\n', 'x', '\r', '?']) 0 = .ok request) ∧
    ∃ response, Response.parse .standard .readToClose (Ascii.bytes ['H', 'T', 'T', 'P', '/', '1',
        '.', '1', ' ', '2', '0', '4', '\n', '\n', 'A', ':']) 0 = .ok response ∧
      response.value.Delimited .readToClose ∧
        Response.parse .standard .readToClose (Ascii.bytes ['H', 'T', 'T', 'P', '/', '1', '.', '1',
          ' ', '2', '0', '4', '\n', '\n', '\r', '?']) 0 = .ok response := by
  have requests := (parse_own_bytes .standard (Ascii.bytes ['A', ' ', '/', ' ', 'H', 'T', 'T', 'P',
    '/', '1', '.', '0', '\n', 'C', 'o', 'n', 't', 'e', 'n', 't', '-', 'L', 'e', 'n', 'g', 't', 'h',
    ':', '1', '\n', '\n', 'x']) (Ascii.bytes ['\r', '?']) 0).1
  have responses := (parse_own_bytes .standard (Ascii.bytes ['H', 'T', 'T', 'P', '/', '1', '.', '1',
    ' ', '2', '0', '4', '\n', '\n', 'A', ':']) (Ascii.bytes ['\r', '?']) 0).2
  have bodiless : NeverBodied 204 .readToClose := .inr (.inl rfl)
  exact ⟨⟨_, rfl, requests _ rfl⟩, _, rfl, bodiless, responses _ _ rfl bodiless⟩

end Http

end WireSpan
