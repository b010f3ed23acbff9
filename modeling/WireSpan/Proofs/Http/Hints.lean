import WireSpan.Proofs.Http.Extent
import WireSpan.Proofs.Http.Failures
import WireSpan.Proofs.Http.Faults

/-! What the caller knows about a connection. It decides only about responses whose head does not
say where the body ends; and to one that answers a request for the head alone, nothing after the
head matters. -/

namespace WireSpan.Http

open Scan

/-- The body has no announced end, and there are bytes where it would be. -/
def Unframed (fault : Fault) : Prop :=
  ∃ failure, fault = .failed failure ∧ failure.kind = .unframedBody

/-- What becomes of one response under the three hints. A body that announces its end is the same
on a connection that closes; one that does not runs to the end there, also where it is empty; and
whatever else is wrong stays wrong. Asking for the head alone leaves out the body, and no hint
changes the rest. -/
structure HintRules (buffer : Bytes) (parse : Hint → Except Fault (Located Response)) : Prop where
  delimited : ∀ message, parse .lengthRequired = .ok message →
    message.value.Delimited .lengthRequired → parse .readToClose = .ok message
  silent : ∀ message, parse .lengthRequired = .ok message → message.value.body.value = .empty →
    ¬ NeverBodied message.value.status.value .lengthRequired →
      ∃ place, message.value.body.span = .emptyAt place ∧
        parse .readToClose = .ok ⟨{ message.value with
          body := ⟨.toEnd (.emptyAt place), .emptyAt place⟩ }, message.span⟩
  unframed : ∀ failure, parse .lengthRequired = .error (.failed failure) →
    failure.kind = .unframedBody →
      ∃ message start, ∃ inside : start ≤ buffer.length, failure.offset = (start : Nat) ∧
        parse .readToClose = .ok message ∧ message.value.body =
          ⟨.toEnd ⟨start, buffer.length, inside⟩, ⟨start, buffer.length, inside⟩⟩
  refused : ∀ fault, parse .lengthRequired = .error fault → ¬ Unframed fault →
    parse .readToClose = .error fault
  headOnly : ∀ hint message, parse hint = .ok message → ∃ bare, parse .headOnly = .ok bare
  bodiless : ∀ message, parse .headOnly = .ok message →
    message.value.body = ⟨.empty, .emptyAt message.value.head.stop⟩ ∧
      message.span.stop = message.value.head.stop
  sameHead : ∀ hint hint' message message', parse hint = .ok message →
    parse hint' = .ok message' →
      message'.value = { message.value with body := message'.value.body }

/-- The bodies behind a head that ends at `start` and does not say where a body would end. -/
def silentBody {buffer : Bytes} {start : Nat} (inside : start ≤ buffer.length) :
    Hint → Except Fault (Located Body)
  | .headOnly => .ok ⟨.empty, .emptyAt start⟩
  | .readToClose => .ok ⟨.toEnd ⟨start, buffer.length, inside⟩, ⟨start, buffer.length, inside⟩⟩
  | .lengthRequired =>
    if start = buffer.length then .ok ⟨.empty, .emptyAt start⟩
    else .error (.failed ⟨.unframedBody, start, .http⟩)

/-- The bodies that the three hints lead to, behind a head that ends at `start`. -/
inductive HintedBodies (buffer : Bytes) (start status : Nat) :
    (Hint → Except Fault (Located Body)) → Prop where
  | refused {fault : Fault} (framed : ¬ Unframed fault) :
      HintedBodies buffer start status fun _ => .error fault
  | never (never : NeverBodied status .lengthRequired) :
      HintedBodies buffer start status fun _ => .ok ⟨.empty, .emptyAt start⟩
  | announced {result : Except Fault (Located Body)}
      (nonempty : ∀ body, result = .ok body → body.value ≠ .empty)
      (framed : ∀ fault, result = .error fault → ¬ Unframed fault) :
      HintedBodies buffer start status fun hint =>
        if hint = .headOnly then .ok ⟨.empty, .emptyAt start⟩ else result
  | silent (bodied : ¬ NeverBodied status .lengthRequired) (inside : start ≤ buffer.length) :
      HintedBodies buffer start status (silentBody inside)

variable {settings : Settings} {fields : Fields} {buffer : Bytes} {start status : Nat}
  {fault : Fault} {framing : Framing} {input : Input}

private theorem unframed_failed {failure : Failure} :
    Unframed (.failed failure) ↔ failure.kind = .unframedBody := by
  constructor
  · rintro ⟨_, same, kind⟩
    cases same
    exact kind
  · exact fun kind => ⟨failure, rfl, kind⟩

private theorem framed_of_kind {failure : Failure} (other : failure.kind ≠ .unframedBody) :
    ¬ Unframed (.failed failure) := mt unframed_failed.mp other

private theorem unframed_reportedBy {layer : Layer} :
    Unframed (fault.reportedBy layer) ↔ Unframed fault := by
  cases fault with
  | failed failure =>
    rw [Fault.reportedBy, unframed_failed, unframed_failed]
    rfl
  | _ => rfl

/-- The lengths of a response may be in doubt, but not for want of any. -/
theorem resolveLengths_framed {resolved : Option Nat} {items : List (Located Field × Bytes)}
    (failed : resolveLengths resolved items = .error fault) : ¬ Unframed fault := by
  induction items generalizing resolved with
  | nil => cases failed
  | cons first items ih =>
    obtain ⟨field, item⟩ := first
    rw [resolveLengths] at failed
    split at failed
    · cases failed
      exact framed_of_kind (show Kind.unexpected ≠ .unframedBody by decide)
    · split at failed
      · cases failed
        rintro ⟨failure, same, -⟩
        cases same
      · simp only at failed
        split at failed
        · split at failed
          · exact ih failed
          · cases failed
            exact framed_of_kind (show Kind.ambiguousFraming ≠ .unframedBody by decide)
        · exact ih failed

private theorem contentLength_framed (failed : contentLength fields = .error fault) :
    ¬ Unframed fault := by
  unfold contentLength at failed
  split at failed
  · cases failed
  · cases failed
    exact framed_of_kind (show Kind.ambiguousFraming ≠ .unframedBody by decide)
  · exact resolveLengths_framed failed

private theorem inside_framed {failure : Failure} (inside : failure.Inside byteKinds input) :
    ¬ Unframed (.failed failure) := by
  intro unframed
  have listed := inside.listed
  rw [unframed_failed.mp unframed] at listed
  revert listed
  decide

private theorem bodyAt_framed (delimited : framing.Delimited)
    (failed : bodyAt settings input (.ok framing) = .error fault) : ¬ Unframed fault := by
  simp only [bodyAt] at failed
  split at failed
  · cases failed
  · rename_i failure found
    cases failed
    have framed := inside_framed (body_failsInside delimited found)
    rwa [← unframed_reportedBy] at framed

private theorem bodyAt_nonempty {body : Located Body} (delimited : framing.Delimited)
    (present : framing ≠ .absent) (read : bodyAt settings input (.ok framing) = .ok body) :
    body.value ≠ .empty := by
  simp only [bodyAt] at read
  split at read
  · rename_i content after found
    cases read
    obtain ⟨text, -, spelled⟩ := body_sound framing found
    cases spelled with
    | absent => exact absurd rfl present
    | unstated => exact absurd rfl delimited.2
    | _ =>
      intro empty
      cases empty
  · cases read

private theorem neverBodied_iff {hint : Hint} (other : hint ≠ .headOnly) :
    NeverBodied status hint ↔ NeverBodied status .lengthRequired := by
  simp [NeverBodied, other]

private theorem neverBodied_mono {hint : Hint} (never : NeverBodied status .lengthRequired) :
    NeverBodied status hint := by
  by_cases headOnly : hint = .headOnly
  · exact .inr (.inr (.inr headOnly))
  · exact (neverBodied_iff headOnly).mpr never

/-- Where a framing announces a body, only a request for the head alone leads to another one. -/
theorem hintedBodies_announced {rest : Bytes} (framing : Framing)
    (delimited : framing.Delimited) (present : framing ≠ .absent)
    (announces : ∀ hint, hint ≠ .headOnly → responseFraming fields status hint = .ok framing)
    (bare : responseFraming fields status .headOnly = .ok .absent) :
    HintedBodies buffer start status fun hint =>
      bodyAt settings ⟨start, rest⟩ (responseFraming fields status hint) := by
  have same : (fun hint => bodyAt settings ⟨start, rest⟩ (responseFraming fields status hint)) =
      fun hint => if hint = .headOnly then .ok ⟨.empty, .emptyAt start⟩
        else bodyAt settings ⟨start, rest⟩ (.ok framing) := by
    funext hint
    by_cases headOnly : hint = .headOnly
    · rw [if_pos headOnly, headOnly, bare]
      rfl
    · rw [if_neg headOnly, announces hint headOnly]
  rw [same]
  exact .announced (fun _ => bodyAt_nonempty delimited present) fun _ => bodyAt_framed delimited

/-- Where no framing announces a body, the hint decides whether there is one. -/
theorem hintedBodies_silent (resolved : contentLength fields = .ok none)
    (bodied : ¬ NeverBodied status .lengthRequired)
    (unfinished : ¬ FinallyChunked (codingFields fields)) (inside : start ≤ buffer.length) :
    HintedBodies buffer start status fun hint =>
      bodyAt settings ⟨start, buffer.drop start⟩ (responseFraming fields status hint) := by
  have rules (hint : Hint) : ResponseRules settings buffer fields start status hint
      (bodyAt settings ⟨start, buffer.drop start⟩ (responseFraming fields status hint)) :=
    responseRules_of_fields inside
  have same : (fun hint =>
      bodyAt settings ⟨start, buffer.drop start⟩ (responseFraming fields status hint)) =
        silentBody inside := by
    funext hint
    cases hint with
    | headOnly => exact (rules .headOnly).never none resolved (.inr (.inr (.inr rfl)))
    | readToClose =>
      have other : Hint.readToClose ≠ .headOnly := by decide
      have possible := mt (neverBodied_iff other).mp bodied
      have rest : Span.ofLength start (buffer.length - start) = ⟨start, buffer.length, inside⟩ := by
        simp only [Span.ofLength, Nat.add_sub_cancel' inside]
      rw [(rules .readToClose).toEnd resolved possible unfinished rfl, rest]
      rfl
    | lengthRequired =>
      have continues : Hint.lengthRequired ≠ .readToClose := by decide
      rw [silentBody]
      split
      · rename_i atEnd
        exact (rules .lengthRequired).silent resolved bodied unfinished continues atEnd
      · rename_i before
        exact (rules .lengthRequired).unframed resolved bodied unfinished continues
          (Nat.lt_of_le_of_ne inside before)
  rw [same]
  exact .silent bodied inside

/-- The bodies of every response are as the hints allow, whatever its fields say. -/
theorem hintedBodies_of_fields (inside : start ≤ buffer.length) :
    HintedBodies buffer start status fun hint =>
      bodyAt settings ⟨start, buffer.drop start⟩ (responseFraming fields status hint) := by
  cases resolved : contentLength fields with
  | error fault =>
    -- The length is looked at before the hint, so no hint makes a difference here.
    simp only [responseFraming_of_error resolved]
    exact .refused (mt unframed_reportedBy.mp (contentLength_framed resolved))
  | ok length =>
    have bare : NeverBodied status .headOnly := .inr (.inr (.inr rfl))
    have headOnly := responseFraming_of_bodiless resolved bare
    by_cases never : NeverBodied status .lengthRequired
    · have absent (hint : Hint) : responseFraming fields status hint = .ok .absent :=
        responseFraming_of_bodiless resolved (neverBodied_mono never)
      simp only [absent]
      exact .never never
    · have possible {hint : Hint} (other : hint ≠ .headOnly) : ¬ NeverBodied status hint :=
        mt (neverBodied_iff other).mp never
      cases length with
      | some length =>
        exact hintedBodies_announced (.sized length) ⟨nofun, nofun⟩ nofun
          (fun _ other => responseFraming_of_length resolved (possible other)) headOnly
      | none =>
        by_cases final : FinallyChunked (codingFields fields)
        · exact hintedBodies_announced .chunked ⟨nofun, nofun⟩ nofun
            (fun _ other => responseFraming_of_chunked resolved (possible other) final) headOnly
        · exact hintedBodies_silent resolved never final inside

namespace HintedBodies

variable {bodies : Hint → Except Fault (Located Body)} {hint : Hint} {body : Located Body}

/-- Where any hint leads to a body, asking for the head alone leads to none. -/
theorem bare (hinted : HintedBodies buffer start status bodies) (read : bodies hint = .ok body) :
    bodies .headOnly = .ok ⟨.empty, .emptyAt start⟩ := by
  cases hinted with
  | refused framed => cases read
  | never never => rfl
  | announced nonempty framed => rfl
  | silent bodied inside => rfl

/-- A body that is not due to the status and has no announced end is empty, and the closing of the
connection only turns it into one that ends there. -/
theorem readToClose_of_ok (hinted : HintedBodies buffer start status bodies)
    (read : bodies .lengthRequired = .ok body) :
    (bodies .readToClose = .ok body ∧
      (body.value = .empty → NeverBodied status .lengthRequired)) ∨
    body = ⟨.empty, .emptyAt start⟩ ∧ ¬ NeverBodied status .lengthRequired ∧
      bodies .readToClose = .ok ⟨.toEnd (.emptyAt start), .emptyAt start⟩ := by
  cases hinted with
  | refused framed => cases read
  | never never => exact .inl ⟨read, fun _ => never⟩
  | announced nonempty framed =>
    exact .inl ⟨read, fun empty => absurd empty (nonempty body read)⟩
  | silent bodied inside =>
    rw [silentBody] at read
    split at read
    · rename_i atEnd
      subst atEnd
      cases read
      exact .inr ⟨rfl, bodied, rfl⟩
    · cases read

theorem readToClose_of_error (hinted : HintedBodies buffer start status bodies)
    (failed : bodies .lengthRequired = .error fault) :
    (bodies .readToClose = .error fault ∧ ¬ Unframed fault) ∨
    ∃ inside : start ≤ buffer.length, fault = .failed ⟨.unframedBody, start, .http⟩ ∧
      bodies .readToClose =
        .ok ⟨.toEnd ⟨start, buffer.length, inside⟩, ⟨start, buffer.length, inside⟩⟩ := by
  cases hinted with
  | refused framed =>
    cases failed
    exact .inl ⟨rfl, framed⟩
  | never never => cases failed
  | announced nonempty framed => exact .inl ⟨failed, framed fault failed⟩
  | silent bodied inside =>
    rw [silentBody] at failed
    split at failed
    · cases failed
    · cases failed
      exact .inr ⟨inside, rfl, rfl⟩

end HintedBodies

/-- What holds of the bodies behind a head holds of the responses. -/
theorem HintedBodies.rules {bodies : Hint → Except Fault (Located Body)} {line : StatusLine}
    {head : Span} (hinted : HintedBodies buffer head.stop line.status.value bodies)
    (fields : Fields) :
    HintRules buffer fun hint => (bodies hint).map fun body =>
      ⟨line.message fields body head, head.hull body.span⟩ where
  delimited message parsed delimited := by
    obtain ⟨body, read, rfl⟩ := except_map_eq_ok.mp parsed
    rcases hinted.readToClose_of_ok read with ⟨same, -⟩ | ⟨rfl, bodied, -⟩
    · exact except_map_eq_ok.mpr ⟨body, same, rfl⟩
    · exact absurd delimited bodied
  silent message parsed empty bodied := by
    obtain ⟨body, read, rfl⟩ := except_map_eq_ok.mp parsed
    rcases hinted.readToClose_of_ok read with ⟨-, never⟩ | ⟨rfl, -, closed⟩
    · exact absurd (never empty) bodied
    · exact ⟨head.stop, rfl, except_map_eq_ok.mpr ⟨_, closed, rfl⟩⟩
  unframed failure parsed kind := by
    rcases hinted.readToClose_of_error (except_map_eq_error.mp parsed) with
      ⟨-, framed⟩ | ⟨inside, same, closed⟩
    · exact absurd (unframed_failed.mpr kind) framed
    · cases same
      exact ⟨_, head.stop, inside, rfl, except_map_eq_ok.mpr ⟨_, closed, rfl⟩, rfl⟩
  refused fault parsed framed := by
    rcases hinted.readToClose_of_error (except_map_eq_error.mp parsed) with
      ⟨same, -⟩ | ⟨inside, rfl, -⟩
    · exact except_map_eq_error.mpr same
    · exact absurd (unframed_failed.mpr rfl) framed
  headOnly hint message parsed := by
    obtain ⟨body, read, -⟩ := except_map_eq_ok.mp parsed
    exact ⟨_, except_map_eq_ok.mpr ⟨_, hinted.bare read, rfl⟩⟩
  bodiless message parsed := by
    obtain ⟨body, read, rfl⟩ := except_map_eq_ok.mp parsed
    cases read.symm.trans (hinted.bare read)
    exact ⟨rfl, Nat.max_self _⟩
  sameHead hint hint' message message' parsed parsed' := by
    obtain ⟨body, -, rfl⟩ := except_map_eq_ok.mp parsed
    obtain ⟨body', -, rfl⟩ := except_map_eq_ok.mp parsed'
    rfl

/-- What fails before any framing is looked at fails alike under all hints. -/
theorem hintRules_of_error (framed : ¬ Unframed fault) :
    HintRules buffer fun _ => .error fault where
  delimited _ parsed := nomatch parsed
  silent _ parsed := nomatch parsed
  unframed failure parsed kind := by
    cases parsed
    exact absurd (unframed_failed.mpr kind) framed
  refused _ parsed _ := parsed
  headOnly _ _ parsed := nomatch parsed
  bodiless _ parsed := nomatch parsed
  sameHead _ _ _ _ parsed := nomatch parsed

/-- The hint about the connection decides only about responses that do not announce the end of their
body, and what comes before the body does not depend on it. -/
theorem Response.parse_hints (settings : Settings) (buffer : Bytes) (offset : Int) :
    HintRules buffer fun hint => Response.parse settings hint buffer offset := by
  cases placed : Input.at? buffer offset with
  | error failure =>
    have same (hint : Hint) : Response.parse settings hint buffer offset =
        .error ((Fault.failed failure).reportedBy .http) :=
      run_eq_error.mpr ⟨_, rfl, .inl ⟨failure, placed, rfl⟩⟩
    simp only [same]
    unfold Input.at? at placed
    split at placed
    · cases placed
    · cases placed
      exact hintRules_of_error
        (framed_of_kind (show Kind.invalidRange ≠ .unframedBody by decide))
  | ok input =>
    cases headed : Http.head settings (statusLine settings) input with
    | error failure =>
      have same (hint : Hint) : Response.parse settings hint buffer offset =
          .error ((Fault.failed failure).reportedBy .http) :=
        run_eq_error.mpr ⟨_, rfl, .inr ⟨input, placed,
          except_bind_eq_error.mpr (.inl (ofScan_eq_error.mpr ⟨failure, headed, rfl⟩))⟩⟩
      simp only [same]
      have inside := head_failsInside statusLine_sound statusLine_failsInside headed
      exact hintRules_of_error (mt unframed_reportedBy.mp (inside_framed inside))
    | ok result =>
      obtain ⟨⟨⟨line, fields⟩, head⟩, after⟩ := result
      have parsed (hint : Hint) : Response.parse settings hint buffer offset =
          (bodyAt settings after (responseFraming fields line.status.value hint)).map fun body =>
            ⟨line.message fields body head, head.hull body.span⟩ := by
        rw [Response.parse, Response.read_eq]
        exact messageReader_headed statusLine_sound placed headed
      simp only [parsed]
      obtain ⟨rfl, inside⟩ := head_place statusLine_sound placed headed
      exact (hintedBodies_of_fields inside).rules fields

/-- A head that is silent about its end, and a byte behind it. -/
example :
    Response.parse .standard .lengthRequired (Ascii.bytes ['H', 'T', 'T', 'P', '/', '1', '.', '1',
        ' ', '2', '0', '0', '\n', '\n', 'x']) 0 =
      .error (.failed ⟨.unframedBody, 14, .http⟩) ∧
    (Response.parse .standard .readToClose (Ascii.bytes ['H', 'T', 'T', 'P', '/', '1', '.', '1',
        ' ', '2', '0', '0', '\n', '\n', 'x']) 0).map (·.value.body.span) =
      .ok (Span.ofLength 14 1) := ⟨rfl, rfl⟩

end WireSpan.Http
