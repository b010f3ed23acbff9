import WireSpan.Proofs.Http.Faults
import WireSpan.Proofs.Http.Truncation

/-! What becomes of a response that was cut off inside its status line. Reading it runs out of
input, except where digits of the status are missing: a repetition that ended early is reported
there, although it is the input that ended. -/

namespace WireSpan.Http

open Scan

variable {settings : Settings} {offset place : Nat} {buffer text front rest : Bytes} {bareLf : Bool}

/-- How a status line fails that is cut off at `place`, given where its status stands. -/
def statusCutKind (status : Span) (place : Nat) : Kind :=
  if status.start ≤ place ∧ place < status.stop then .tooFewRepetitions else .endOfInput

private theorem statusCutKind_before {length : Nat} (early : place < offset) :
    statusCutKind (Span.ofLength offset length) place = .endOfInput :=
  if_neg fun inside => Nat.not_le.mpr early inside.1

private theorem statusCutKind_inside {length count : Nat} (short : count < length) :
    statusCutKind (Span.ofLength offset length) (offset + count) = .tooFewRepetitions :=
  if_pos ⟨Nat.le_add_right _ _, Nat.add_lt_add_left short _⟩

private theorem statusCutKind_behind {length count : Nat} (long : length ≤ count) :
    statusCutKind (Span.ofLength offset length) (offset + count) = .endOfInput :=
  if_neg fun inside => Nat.not_lt.mpr (Nat.add_le_add_left long _) inside.2

/-- A repetition of bytes that lack some of their number ends early. -/
theorem times_cut (expected : String) {accepts : UInt8 → Bool} {count : Nat}
    (all : ∀ b ∈ text, accepts b = true) (truncated : Truncates front text) :
    FailsAs (times.go count (byteOf expected accepts) text.length) ⟨offset, front⟩
      .tooFewRepetitions := by
  induction text generalizing offset front with
  | nil => exact absurd truncated Truncates.not_nil
  | cons b more ih =>
    obtain ⟨accepted, all⟩ := List.forall_mem_cons.mp all
    rcases truncated.cons_cases with rfl | ⟨front, rfl, behind⟩
    · exact ⟨_, rfl, rfl⟩
    · have first : byteOf expected accepts ⟨offset, b :: front⟩ = .ok (_, ⟨offset + 1, front⟩) :=
        Reads.byteOf expected accepted
      have later : FailsAs (times.go count (byteOf expected accepts) more.length)
          ⟨offset + 1, front⟩ .tooFewRepetitions := ih all behind
      obtain ⟨failure, failed, kind⟩ := later.bind
      refine ⟨failure, ?_, kind⟩
      rw [List.length_cons, times.go]
      simp only [first]
      exact failed

private theorem statusCode_cut (length : text.length = 3)
    (digits : ∀ b ∈ text, Ascii.isDigit b = true)
    (truncated : Truncates front text) :
    FailsAs statusCode ⟨offset, front⟩ .tooFewRepetitions := by
  have early : FailsAs (times 3 (byteOf "status code digit" Ascii.isDigit)) ⟨offset, front⟩
      .tooFewRepetitions := by
    rw [times, ← length]
    exact times_cut _ digits truncated
  exact early.bind.located

theorem ReasonText.yields {phrase : Located String} (reasoned : ReasonText offset text phrase) :
    Yields reason offset text := by
  intro front truncated
  cases reasoned with
  | absent => exact absurd truncated Truncates.not_nil
  | @present text visible =>
    rcases truncated.cons_cases with rfl | ⟨front, rfl, behind⟩
    · exact .inr ⟨_, rfl⟩
    · have ending : BeforeLineEnd [] := nofun
      exact .inr ⟨_, (ReasonText.present (behind.all visible)).reads ending⟩

/-- Behind the status a line waits for its end, whatever is left of its reason. -/
theorem ReasonText.waits {α : Type} {phrase : Located String} {finish : Located String → Scan α}
    (what : String) (reasoned : ReasonText offset text phrase) (ended : LineEndText bareLf rest) :
    Waits (reason >>= fun phrase => lineEndAfter settings what >>= fun _ => finish phrase) offset
      (text ++ rest) :=
  reasoned.yields.thenWaits (fun _ => (hungry_lineEndAfter what).bind)
    (fun _ truncated => reasoned.reads (ended.beforeCut truncated))
    (ended.waitsAfter what).thenNothing

/-- A status line waits for its bytes everywhere but in its status. -/
theorem StatusLineText.cut {parts : StatusLine}
    (spelled : StatusLineText settings.bareLf offset text parts)
    (truncated : Truncates front text) :
    FailsAs (statusLine settings) ⟨offset, front⟩
      (statusCutKind parts.status.span (offset + front.length)) := by
  cases spelled with
  | @mk version status reason ending phrase versioned length digits reasoned ended =>
    -- the cut is in the version, before the space, in the status, or behind the status
    rcases truncated.append_cases with inside | ⟨front, rfl, behind⟩
    · have short := inside.short
      rw [statusCutKind_before (by omega)]
      exact (versioned.waits front inside).failsAs.bind
    · refine FailsAs.after versioned.reads ?_
      rcases behind.cons_cases with rfl | ⟨front, rfl, spaced⟩
      · rw [List.append_nil, statusCutKind_before (Nat.lt_succ_self _)]
        exact (hungry_singleSpace _).failsAs.bind
      · have space : Reads singleSpace (offset + version.length) [Ascii.space] _ front :=
          Reads.literal "SP"
        refine FailsAs.after space ?_
        have place : offset + (version ++ Ascii.space :: front).length =
            offset + version.length + 1 + front.length := by
          rw [List.length_append, List.length_cons]
          omega
        rw [place]
        rcases spaced.append_cases with inside | ⟨front, rfl, beyond⟩
        · rw [statusCutKind_inside inside.short]
          exact (statusCode_cut length digits inside).bind
        · have long : status.length ≤ (status ++ front).length := by
            rw [List.length_append]
            exact Nat.le_add_right _ _
          rw [statusCutKind_behind long]
          refine FailsAs.after (statusCode_reads length digits) ?_
          exact (reasoned.waits _ ended front beyond).failsAs

/-- The length of the line end that begins at `place`. -/
def lineEndLength (buffer : Bytes) (place : Nat) : Nat :=
  if buffer[place]? = some Ascii.carriageReturn then 2 else 1

private theorem lineEndLength_eq (stands : Stands buffer place text)
    (ended : LineEndText bareLf text) :
    lineEndLength buffer place = text.length := by
  obtain ⟨before, after, rfl, rfl⟩ := stands
  have next : (before ++ text ++ after)[before.length]? = (text ++ after)[0]? := by
    rw [List.append_assoc, List.getElem?_append_right (Nat.le_refl _), Nat.sub_self]
  rw [lineEndLength, next]
  cases ended with
  | both => rfl
  | lone => rfl

theorem ReasonText.stop {phrase : Located String} (reasoned : ReasonText offset text phrase) :
    phrase.span.stop = offset + text.length := by
  cases reasoned with
  | absent => rfl
  | @present reason visible =>
    show offset + 1 + reason.length = offset + (reason.length + 1)
    omega

/-- A status line ends behind the line end that follows its reason. -/
theorem StatusLineText.stop {parts : StatusLine}
    (spelled : StatusLineText bareLf offset text parts) (stands : Stands buffer offset text) :
    parts.reason.span.stop + lineEndLength buffer parts.reason.span.stop = offset + text.length := by
  cases spelled with
  | @mk version status reason ending phrase versioned length digits reasoned ended =>
    have parted : version ++ Ascii.space :: (status ++ (reason ++ ending)) =
        (version ++ Ascii.space :: (status ++ reason)) ++ ending := by
      simp only [List.append_assoc, List.cons_append]
    have place : phrase.span.stop =
        offset + (version ++ Ascii.space :: (status ++ reason)).length := by
      rw [reasoned.stop]
      simp only [List.length_append, List.length_cons]
      omega
    rw [parted] at stands ⊢
    have behind := (stands_append.mp stands).2
    rw [← place] at behind
    rw [lineEndLength_eq behind ended, List.length_append, ← Nat.add_assoc, ← place]

/-- Where the status line of a response ends, its line end included. -/
def Response.statusLineStop (buffer : Bytes) (message : Located Response) : Nat :=
  message.value.reason.span.stop + lineEndLength buffer message.value.reason.span.stop

/-- A response the status line of which has not arrived in full fails for want of bytes, unless the
first byte that is missing is a digit of its status. -/
theorem Response.parse_cut_in_statusLine (settings : Settings) (hint : Hint) (buffer : Bytes)
    (offset : Int) (message : Located Response) (cut : Nat)
    (parsed : Response.parse settings hint buffer offset = .ok message) (starts : offset ≤ cut)
    (short : cut < Response.statusLineStop buffer message) :
    ∃ failure, Response.parse settings hint (buffer.take cut) offset = .error (.failed failure) ∧
      failure.kind = statusCutKind message.value.status.span cut := by
  obtain ⟨start, text, rfl, stands, spelled⟩ := Response.parse_sound parsed
  cases spelled with
  | @mk head body line fields span framing content headed framed followed =>
    cases headed with
    | @mk first others _ _ lined sectioned counted =>
      obtain ⟨standsHead, -⟩ := stands_append.mp stands
      obtain ⟨standsLine, -⟩ := stands_append.mp standsHead
      have inLine : cut < line.reason.span.stop + lineEndLength buffer line.reason.span.stop :=
        short
      rw [lined.stop standsLine] at inLine
      obtain ⟨front, truncated, rfl, placed⟩ := standsLine.take (Int.ofNat_le.mp starts) inLine
      have fails : FailsAs (Http.head settings (statusLine settings)) ⟨start, front⟩ _ :=
        (lined.cut truncated).bind.located
      obtain ⟨failure, failed, kind⟩ : ∃ failure,
          Response.read settings hint ⟨start, front⟩ = .error (.failed failure) ∧
            failure.kind = _ := by
        rw [Response.read_eq]
        exact messageReader_head_fails fails
      refine ⟨failure.reportedBy .http, ?_, kind⟩
      exact run_eq_error.mpr ⟨_, rfl, .inr ⟨_, placed, failed⟩⟩

/-- With two of the three digits of its status a response is refused for their number. -/
theorem Response.parse_cut_in_statusLine_digits :
    ∃ failure, Response.parse .standard .headOnly ((Ascii.bytes ['H', 'T', 'T', 'P', '/', '1', '.',
        '1', ' ', '2', '0', '0', '\n', '\n']).take 11) 0 = .error (.failed failure) ∧
      failure.kind = .tooFewRepetitions :=
  Response.parse_cut_in_statusLine .standard .headOnly (Ascii.bytes ['H', 'T', 'T', 'P', '/', '1',
    '.', '1', ' ', '2', '0', '0', '\n', '\n']) 0 _ 11 rfl (by decide) (by decide)

end WireSpan.Http
