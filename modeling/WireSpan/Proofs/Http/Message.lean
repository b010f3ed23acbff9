import WireSpan.Proofs.Http.Chunks
import WireSpan.Proofs.Http.StartLine
import WireSpan.Proofs.Span.Stands

/-! The readers of whole messages, and the grammar of messages. -/

namespace WireSpan

namespace Input

theorem at?_eq_ok {buffer : Bytes} {offset : Int} {input : Input} :
    Input.at? buffer offset = .ok input ↔
      ∃ before, buffer = before ++ input.rest ∧ before.length = input.offset ∧
        offset = input.offset := by
  unfold Input.at?
  constructor
  · intro found
    split at found
    · rename_i inside
      cases found
      refine ⟨buffer.take offset.toNat, (List.take_append_drop _ _).symm, ?_, ?_⟩
      · simp only [Input.advance, Input.ofBytes, List.length_take]
        omega
      · simp only [Input.advance, Input.ofBytes]
        omega
    · cases found
  · rintro ⟨before, same, length, rfl⟩
    have inside : 0 ≤ (input.offset : Int) ∧ (input.offset : Int) ≤ buffer.length := by
      rw [same, List.length_append]
      omega
    rw [if_pos inside, Int.toNat_natCast, ← length, same]
    simp [Input.advance, Input.ofBytes, length]

end Input

namespace Http

open Scan Chunked

variable {input after : Input} {settings : Settings} {offset : Nat} {text rest : Bytes}

theorem head_sound {α : Type} {startLine : Scan α} {spells : Nat → Bytes → α → Prop}
    (sound : Sound startLine spells) :
    Sound (head settings startLine) (HeadText settings spells) := by
  intro input after x read
  obtain ⟨value, scanned, rfl⟩ := located_eq_ok.mp read
  obtain ⟨parts, first, found, later⟩ := bind_eq_ok.mp scanned
  obtain ⟨fields, second, more, result⟩ := bind_eq_ok.mp later
  obtain ⟨rfl, rfl⟩ := pure_eq_ok.mp result
  obtain ⟨line, passLine, lined⟩ := sound found
  obtain ⟨rest, passRest, sectioned, counted⟩ := fieldSection_sound more
  have passes := passLine.trans passRest
  rw [passLine.offset] at sectioned
  rw [passes.spanTo]
  exact ⟨_, passes, .mk lined sectioned counted⟩

theorem HeadText.reads {α : Type} {startLine : Scan α} {spells : Nat → Bytes → α → Prop}
    {x : Located (α × Fields)}
    (complete : ∀ text parts rest, spells offset text parts →
      Reads startLine offset text parts rest)
    (spelled : HeadText settings spells offset text x) :
    Reads (head settings startLine) offset text x rest := by
  cases spelled with
  | mk lined sectioned counted =>
    apply Reads.located
    exact (complete _ _ _ lined).bind ((sectioned.reads counted).map (Prod.mk _))

theorem body_sound (framing : Framing) :
    Sound (framing.body settings) (BodyText settings.bareLf settings.fieldLimit framing) := by
  intro input after x read
  cases framing with
  | absent =>
    cases read
    exact ⟨[], .refl _, .absent⟩
  | sized length =>
    obtain ⟨content, mid, found, result⟩ := bind_eq_ok.mp read
    obtain ⟨rfl, rfl⟩ := pure_eq_ok.mp result
    obtain ⟨passes, rfl, place⟩ := take_sound found
    rw [place]
    exact ⟨_, passes, .sized⟩
  | chunked =>
    obtain ⟨content, mid, found, result⟩ := bind_eq_ok.mp read
    obtain ⟨rfl, rfl⟩ := pure_eq_ok.mp result
    obtain ⟨text, passes, spelled⟩ := ofMessage_sound found
    exact ⟨_, passes, .chunked spelled⟩
  | toEnd =>
    obtain ⟨content, mid, found, result⟩ := bind_eq_ok.mp read
    obtain ⟨rfl, rfl⟩ := pure_eq_ok.mp result
    obtain ⟨passes, -, -, place⟩ := takeWhile_sound found
    rw [place]
    exact ⟨_, passes, .toEnd⟩
  | unstated =>
    rw [Framing.body, peek?_bind] at read
    cases next : input.rest.head? with
    | none =>
      rw [next] at read
      cases read
      exact ⟨[], .refl _, .unstated⟩
    | some b =>
      rw [next] at read
      cases read

/-- The end of a body is told by the head, or by the body itself. -/
def Framing.Delimited (framing : Framing) : Prop := framing ≠ .toEnd ∧ framing ≠ .unstated

/-- A body that is delimited is read as it is whatever follows it. -/
theorem BodyText.reads {framing : Framing} {body : Located Body} (delimited : framing.Delimited)
    (spelled : BodyText settings.bareLf settings.fieldLimit framing offset text body) :
    Reads (framing.body settings) offset text body rest := by
  cases spelled with
  | absent => rfl
  | sized =>
    exact Reads.take.map fun content : Located Bytes =>
      Located.mk (Body.sized content.span) content.span
  | chunked spelled =>
    exact spelled.reads.map fun body : Located ChunkedBody => body.map Body.chunked
  | toEnd => exact absurd rfl delimited.1
  | unstated => exact absurd rfl delimited.2

theorem BodyText.span {framing : Framing} {body : Located Body}
    (spelled : BodyText settings.bareLf settings.fieldLimit framing offset text body) :
    body.span = Span.ofLength offset text.length := by
  cases spelled with
  | chunked spelled =>
    cases spelled
    rfl
  | _ => rfl

/-- Only a response can have a body that is not delimited. -/
theorem requestFraming_delimited {fields : Fields} {framing : Framing}
    (framed : requestFraming fields = .ok framing) : framing.Delimited := by
  obtain ⟨length, resolved, later⟩ := except_bind_eq_ok.mp framed
  cases length with
  | some length =>
    cases later
    exact ⟨nofun, nofun⟩
  | none =>
    cases codings : (codingFields fields).getLast? with
    | none =>
      simp only [codings] at later
      cases later
      exact ⟨nofun, nofun⟩
    | some last =>
      simp only [codings] at later
      split at later
      · cases later
        exact ⟨nofun, nofun⟩
      · cases later

theorem ofScan_eq_ok {α : Type} {scan : Scan α} {result : α × Input} :
    Reader.ofScan scan input = .ok result ↔ scan input = .ok result := by
  unfold Reader.ofScan
  cases scan input with
  | ok found => simp
  | error failure => simp

theorem run_eq_ok {α : Type} {reader : Reader α} {buffer : Bytes} {offset : Int} {value : α} :
    reader.run buffer offset = .ok value ↔
      ∃ input after, Input.at? buffer offset = .ok input ∧ reader input = .ok (value, after) := by
  unfold Reader.run
  cases found : Input.at? buffer offset with
  | error failure => simp [bind, Except.bind]
  | ok input =>
    cases read : reader input with
    | error fault => simp [bind, Except.bind, read]
    | ok result =>
      obtain ⟨first, second⟩ := result
      simp [bind, Except.bind, pure, Except.pure, read]

/-- The reader of messages with a given start line, of which those of requests and of responses are
the two cases. -/
def messageReader {α μ : Type} (settings : Settings) (startLine : Scan α)
    (framing : α → Fields → Except Fault Framing) (build : α → Fields → Located Body → Span → μ) :
    Reader (Located μ) := fun input => do
  let (⟨(line, fields), head⟩, afterHead) ← Reader.ofScan (Http.head settings startLine) input
  let announced ← framing line fields
  let (body, after) ← Reader.ofScan (announced.body settings) afterHead
  return (⟨build line fields body head, input.spanTo after⟩, after)

theorem Request.read_eq (settings : Settings) :
    Request.read settings = messageReader settings (requestLine settings) (fun _ => requestFraming)
      RequestLine.message := rfl

theorem Response.read_eq (settings : Settings) (hint : Hint) :
    Response.read settings hint = messageReader settings (statusLine settings)
      (fun line fields => responseFraming fields line.status.value hint) StatusLine.message := rfl

section

variable {α μ : Type} {startLine : Scan α} {spells : Nat → Bytes → α → Prop}
  {framing : α → Fields → Except Fault Framing} {build : α → Fields → Located Body → Span → μ}
  {x : Located μ}

theorem messageReader_sound (sound : Sound startLine spells)
    (read : messageReader settings startLine framing build input = .ok (x, after)) :
    ∃ text, input.Passes text after ∧
      MessageText settings spells framing build input.offset text x := by
  obtain ⟨⟨⟨⟨line, fields⟩, head⟩, mid⟩, headRead, later⟩ := except_bind_eq_ok.mp read
  obtain ⟨announced, framed, later⟩ := except_bind_eq_ok.mp later
  obtain ⟨⟨body, stop⟩, bodyRead, result⟩ := except_bind_eq_ok.mp later
  cases result
  obtain ⟨text, passHead, headed⟩ := head_sound sound (ofScan_eq_ok.mp headRead)
  obtain ⟨rest, passBody, followed⟩ := body_sound announced (ofScan_eq_ok.mp bodyRead)
  have passes := passHead.trans passBody
  rw [passHead.offset] at followed
  rw [passes.spanTo]
  exact ⟨_, passes, .mk headed framed followed⟩

/-- What is parsed stands in the buffer, spelled as it is wherever the reader reads. -/
theorem messageReader_run_sound {buffer : Bytes} {offset : Int} (sound : Sound startLine spells)
    (read : (messageReader settings startLine framing build).run buffer offset = .ok x) :
    ∃ start text, offset = (start : Nat) ∧ Stands buffer start text ∧
      MessageText settings spells framing build start text x := by
  obtain ⟨input, after, placed, found⟩ := run_eq_ok.mp read
  obtain ⟨before, same, length, rfl⟩ := Input.at?_eq_ok.mp placed
  obtain ⟨text, passes, spelled⟩ := messageReader_sound sound found
  refine ⟨_, text, rfl, ⟨before, after.rest, ?_, length⟩, spelled⟩
  rw [same, passes.rest, List.append_assoc]

theorem MessageText.span (spelled : MessageText settings spells framing build offset text x) :
    x.span = Span.ofLength offset text.length := by
  cases spelled
  rfl

/-- A message is read as it is whatever follows it, if the framing that gave it its body is
delimited. -/
theorem MessageText.reads {rest : Bytes}
    (complete : ∀ text parts rest, spells offset text parts →
      Reads startLine offset text parts rest)
    (delimited : ∀ line fields announced head start text body,
      framing line fields = .ok announced → x.value = build line fields body head →
        BodyText settings.bareLf settings.fieldLimit announced start text body →
          announced.Delimited)
    (spelled : MessageText settings spells framing build offset text x) :
    messageReader settings startLine framing build ⟨offset, text ++ rest⟩ =
      .ok (x, ⟨offset + text.length, rest⟩) := by
  cases spelled with
  | @mk text others line fields head announced body headed framed followed =>
    have headRead : Reads (Http.head settings startLine) offset text _ (others ++ rest) :=
      headed.reads complete
    have bodyRead : Reads (announced.body settings) (offset + text.length) others body rest :=
      followed.reads (delimited _ _ _ _ _ _ _ framed rfl followed)
    have place := (Input.passes_append offset (text ++ others) rest).spanTo
    rw [List.append_assoc, List.length_append, ← Nat.add_assoc] at place ⊢
    refine except_bind_eq_ok.mpr ⟨_, ofScan_eq_ok.mpr headRead, ?_⟩
    refine except_bind_eq_ok.mpr ⟨_, framed, ?_⟩
    refine except_bind_eq_ok.mpr ⟨_, ofScan_eq_ok.mpr bodyRead, ?_⟩
    simp only [place]
    rfl

end

theorem Request.parse_sound {buffer : Bytes} {offset : Int} {x : Located Request}
    (parsed : Request.parse settings buffer offset = .ok x) :
    ∃ start text, offset = (start : Nat) ∧ Stands buffer start text ∧
      RequestText settings start text x := by
  rw [Request.parse, Request.read_eq] at parsed
  exact messageReader_run_sound requestLine_sound parsed

theorem RequestText.reads {x : Located Request} (spelled : RequestText settings offset text x) :
    Request.read settings ⟨offset, text ++ rest⟩ = .ok (x, ⟨offset + text.length, rest⟩) := by
  rw [Request.read_eq]
  exact MessageText.reads (fun _ _ _ => RequestLineText.reads)
    (fun _ _ _ _ _ _ _ framed _ _ => requestFraming_delimited framed) spelled

theorem Response.parse_sound {hint : Hint} {buffer : Bytes} {offset : Int} {x : Located Response}
    (parsed : Response.parse settings hint buffer offset = .ok x) :
    ∃ start text, offset = (start : Nat) ∧ Stands buffer start text ∧
      ResponseText settings hint start text x := by
  rw [Response.parse, Response.read_eq] at parsed
  exact messageReader_run_sound statusLine_sound parsed

end Http

end WireSpan
