import WireSpan.Proofs.Http.Fields

/-! The scanners of start lines, and the grammar of both kinds. -/

namespace WireSpan.Http

open Scan

variable {input after : Input} {settings : Settings} {offset : Nat} {text rest : Bytes}

private theorem takeWhile1_run {expected : String} {accepts : UInt8 → Bool} {x : Located Bytes}
    (read : takeWhile1 expected accepts input = .ok (x, after)) :
    ∃ text, input.Passes text after ∧ RunText accepts text ∧
      x = ⟨text, Span.ofLength input.offset text.length⟩ := by
  obtain ⟨nonempty, found⟩ := takeWhile1_sound read
  obtain ⟨passes, all, -, place⟩ := takeWhile_sound found
  exact ⟨x.value, passes, ⟨nonempty, all⟩, by rw [← place]⟩

theorem version_sound {x : Located String} (read : version input = .ok (x, after)) :
    ∃ text, input.Passes text after ∧ VersionText text ∧
      x = ⟨Ascii.latin1 text, Span.ofLength input.offset text.length⟩ := by
  obtain ⟨value, scanned, rfl⟩ := located_eq_ok.mp read
  obtain ⟨name, first, named, later⟩ := bind_eq_ok.mp scanned
  obtain ⟨major, second, majored, later⟩ := bind_eq_ok.mp later
  obtain ⟨dot, third, dotted, later⟩ := bind_eq_ok.mp later
  obtain ⟨minor, fourth, minored, result⟩ := bind_eq_ok.mp later
  obtain ⟨rfl, rfl⟩ := pure_eq_ok.mp result
  obtain ⟨passName, rfl⟩ := literal_sound named
  obtain ⟨passMajor, majorDigit, -⟩ := byteOf_sound majored
  obtain ⟨passDot, rfl⟩ := literal_sound dotted
  obtain ⟨passMinor, minorDigit, -⟩ := byteOf_sound minored
  have passes := ((passName.trans passMajor).trans passDot).trans passMinor
  rw [passes.spanTo]
  refine ⟨_, passes, ?_, rfl⟩
  exact .mk (by simp [majorDigit, minorDigit])

theorem VersionText.reads (versioned : VersionText text) :
    Reads version offset text ⟨Ascii.latin1 text, Span.ofLength offset text.length⟩ rest := by
  apply Reads.located
  cases versioned with
  | @mk major minor digits =>
    refine (Reads.literal _).bind ((Reads.byteOf _ (digits major (by simp))).byteThen ?_)
    refine (Reads.literal _).byteThen ?_
    exact (Reads.byteOf _ (digits minor (by simp))).map fun x : Located UInt8 =>
      Ascii.latin1 (Ascii.bytes ['H', 'T', 'T', 'P', '/'] ++ [major] ++ Ascii.bytes ['.'] ++
        [x.value])

theorem requestLine_sound : Sound (requestLine settings) (RequestLineText settings.bareLf) := by
  intro input after parts read
  obtain ⟨method, first, methodRead, later⟩ := bind_eq_ok.mp read
  obtain ⟨_, second, firstSpace, later⟩ := bind_eq_ok.mp later
  obtain ⟨target, third, targetRead, later⟩ := bind_eq_ok.mp later
  obtain ⟨_, fourth, secondSpace, later⟩ := bind_eq_ok.mp later
  obtain ⟨version, fifth, versionRead, later⟩ := bind_eq_ok.mp later
  obtain ⟨_, sixth, lineRead, result⟩ := bind_eq_ok.mp later
  obtain ⟨rfl, rfl⟩ := pure_eq_ok.mp result
  obtain ⟨methodText, passMethod, token, rfl⟩ := takeWhile1_run methodRead
  obtain ⟨passFirst, -⟩ := literal_sound firstSpace
  obtain ⟨targetText, passTarget, targeted, rfl⟩ := takeWhile1_run targetRead
  obtain ⟨passSecond, -⟩ := literal_sound secondSpace
  obtain ⟨versionText, passVersion, versioned, rfl⟩ := version_sound versionRead
  obtain ⟨ending, passEnd, ended⟩ := lineEnd_sound lineRead
  have beforeTarget : second.offset = input.offset + methodText.length + 1 := by
    rw [passFirst.offset, passMethod.offset]
    rfl
  have beforeVersion :
      fourth.offset = input.offset + methodText.length + 1 + targetText.length + 1 := by
    rw [passSecond.offset, passTarget.offset, beforeTarget]
    rfl
  have whole := ((((passMethod.trans passFirst).trans passTarget).trans passSecond).trans
    passVersion).trans passEnd
  simp only [List.append_assoc, List.cons_append, List.nil_append] at whole
  refine ⟨_, whole, ?_⟩
  rw [beforeTarget, beforeVersion]
  exact .mk token targeted versioned ended

theorem RequestLineText.reads {parts : RequestLine}
    (spelled : RequestLineText settings.bareLf offset text parts) :
    Reads (requestLine settings) offset text parts rest := by
  cases spelled with
  | @mk method target version ending token targeted versioned ended =>
    obtain ⟨x, read⟩ : ∃ x, Reads (lineEnd settings)
        (offset + method.length + 1 + target.length + 1 + version.length) ending x rest :=
      ended.reads
    refine (Reads.takeWhile1 _ token.nonempty token.all (Stops.cons (by decide) _)).bind ?_
    refine (Reads.literal _).byteThen ?_
    refine (Reads.takeWhile1 _ targeted.nonempty targeted.all (Stops.cons (by decide) _)).bind ?_
    exact (Reads.literal _).byteThen (versioned.reads.bind (read.map fun _ => _))

private theorem times_sound {expected : String} {accepts : UInt8 → Bool}
    {count left : Nat} {xs : List (Located UInt8)}
    (read : times.go count (byteOf expected accepts) left input = .ok (xs, after)) :
    input.Passes (xs.map (·.value)) after ∧ (∀ b ∈ xs.map (·.value), accepts b = true) ∧
      xs.length = left := by
  induction left generalizing input xs with
  | zero =>
    obtain ⟨rfl, rfl⟩ := pure_eq_ok.mp read
    exact ⟨.refl _, by simp, rfl⟩
  | succ left ih =>
    rw [times.go] at read
    simp only at read
    split at read
    · rename_i first mid found
      obtain ⟨others, stop, more, result⟩ := bind_eq_ok.mp read
      obtain ⟨rfl, rfl⟩ := pure_eq_ok.mp result
      obtain ⟨passes, accepted, -⟩ := byteOf_sound found
      obtain ⟨passed, all, length⟩ := ih more
      exact ⟨passes.trans passed, by simpa [accepted] using all, by simp [length]⟩
    · cases read

theorem statusCode_sound {x : Located Nat} (read : statusCode input = .ok (x, after)) :
    ∃ text, input.Passes text after ∧ text.length = 3 ∧
      (∀ b ∈ text, Ascii.isDigit b = true) ∧
        x = ⟨Ascii.decimalNumber text, Span.ofLength input.offset text.length⟩ := by
  obtain ⟨value, scanned, rfl⟩ := located_eq_ok.mp read
  obtain ⟨digits, mid, found, result⟩ := bind_eq_ok.mp scanned
  obtain ⟨rfl, rfl⟩ := pure_eq_ok.mp result
  obtain ⟨passes, all, length⟩ := times_sound found
  rw [passes.spanTo]
  exact ⟨_, passes, by simpa using length, all, rfl⟩

theorem reason_sound : Sound reason ReasonText := by
  intro input after x read
  rw [reason, here_bind] at read
  obtain ⟨found, mid, tried, result⟩ := bind_eq_ok.mp read
  obtain ⟨rfl, rfl⟩ := pure_eq_ok.mp result
  rcases optional_eq_ok.mp tried with ⟨phrase, rfl, present⟩ | ⟨rfl, rfl, -⟩
  · obtain ⟨_, first, spaced, later⟩ := bind_eq_ok.mp present
    obtain ⟨run, second, found, result⟩ := bind_eq_ok.mp later
    obtain ⟨rfl, rfl⟩ := pure_eq_ok.mp result
    obtain ⟨passSpace, -⟩ := literal_sound spaced
    obtain ⟨passRun, visible, -, place⟩ := takeWhile_sound found
    rw [passSpace.offset] at place
    refine ⟨_, passSpace.trans passRun, ?_⟩
    rw [Option.getD_some, Located.map, place]
    exact .present visible
  · exact ⟨[], .refl _, .absent⟩

theorem statusLine_sound : Sound (statusLine settings) (StatusLineText settings.bareLf) := by
  intro input after parts read
  obtain ⟨version, first, versionRead, later⟩ := bind_eq_ok.mp read
  obtain ⟨_, second, spaceRead, later⟩ := bind_eq_ok.mp later
  obtain ⟨status, third, statusRead, later⟩ := bind_eq_ok.mp later
  obtain ⟨phrase, fourth, reasonRead, later⟩ := bind_eq_ok.mp later
  obtain ⟨_, fifth, lineRead, result⟩ := bind_eq_ok.mp later
  obtain ⟨rfl, rfl⟩ := pure_eq_ok.mp result
  obtain ⟨versionText, passVersion, versioned, rfl⟩ := version_sound versionRead
  obtain ⟨passSpace, -⟩ := literal_sound spaceRead
  obtain ⟨statusText, passStatus, length, digits, rfl⟩ := statusCode_sound statusRead
  obtain ⟨reasonText, passReason, reasoned⟩ := reason_sound reasonRead
  obtain ⟨ending, passEnd, ended⟩ := lineEndAfter_sound lineRead
  have beforeStatus : second.offset = input.offset + versionText.length + 1 := by
    rw [passSpace.offset, passVersion.offset]
    rfl
  have whole := (((passVersion.trans passSpace).trans passStatus).trans passReason).trans passEnd
  simp only [List.append_assoc, List.cons_append, List.nil_append] at whole
  rw [passStatus.offset, beforeStatus] at reasoned
  refine ⟨_, whole, ?_⟩
  rw [beforeStatus]
  exact .mk versioned length digits reasoned ended

/-- What single bytes of a class are read as, one after another. -/
def singleBytes : Nat → Bytes → List (Located UInt8)
  | _, [] => []
  | offset, b :: more => ⟨b, Span.ofLength offset 1⟩ :: singleBytes (offset + 1) more

private theorem map_value_singleBytes (offset : Nat) (bytes : Bytes) :
    (singleBytes offset bytes).map (·.value) = bytes := by
  induction bytes generalizing offset with
  | nil => rfl
  | cons b more ih => rw [singleBytes, List.map_cons, ih]

private theorem times_reads (expected : String) {accepts : UInt8 → Bool} {count : Nat}
    (all : ∀ b ∈ text, accepts b = true) :
    Reads (times.go count (byteOf expected accepts) text.length) offset text
      (singleBytes offset text) rest := by
  induction text generalizing offset with
  | nil => exact Reads.pure []
  | cons b more ih =>
    have first : Reads (byteOf expected accepts) offset [b] _ (more ++ rest) :=
      Reads.byteOf expected (all b (by simp))
    have later := @ih (offset + 1) fun c member => all c (List.mem_cons_of_mem _ member)
    unfold Reads at first ⊢
    rw [List.length_cons, times.go]
    rw [List.singleton_append] at first
    simp only [List.cons_append, first]
    have whole := later.map (⟨b, Span.ofLength offset 1⟩ :: ·)
    unfold Reads at whole
    rw [List.length_singleton, whole, singleBytes, Nat.add_assoc, Nat.add_comm 1]

theorem statusCode_reads (length : text.length = 3)
    (digits : ∀ b ∈ text, Ascii.isDigit b = true) :
    Reads statusCode offset text
      ⟨Ascii.decimalNumber text, Span.ofLength offset text.length⟩ rest := by
  apply Reads.located
  have read : Reads (times 3 (byteOf "status code digit" Ascii.isDigit)) offset text
      (singleBytes offset text) rest := by
    rw [times, ← length]
    exact times_reads _ digits
  have number := read.map fun digits : List (Located UInt8) =>
    Ascii.decimalNumber (digits.map (·.value))
  rwa [map_value_singleBytes] at number

theorem ReasonText.reads {phrase : Located String} (reasoned : ReasonText offset text phrase)
    (ending : BeforeLineEnd rest) : Reads reason offset text phrase rest := by
  unfold Reads
  rw [reason, here_bind]
  cases reasoned with
  | absent =>
    have refused : ∃ failure, reasonPart ⟨offset, rest⟩ = .error failure := by
      cases rest with
      | nil => exact ⟨_, rfl⟩
      | cons b more =>
        rcases ending b rfl with rfl | rfl
        · cases more <;> exact ⟨_, rfl⟩
        · cases more <;> exact ⟨_, rfl⟩
    have nothing : Reads (Scan.optional reasonPart) offset [] none rest :=
      optional_eq_ok.mpr (.inr ⟨rfl, rfl, refused⟩)
    exact nothing.map fun found => found.getD ⟨"", Span.emptyAt offset⟩
  | @present text visible =>
    have run : Reads (takeWhile isFieldByte) (offset + 1) text
        ⟨text, Span.ofLength (offset + 1) text.length⟩ rest :=
      Reads.takeWhile visible (ending.stops (by decide) (by decide))
    have part : Reads reasonPart offset (Ascii.space :: text) _ rest :=
      (Reads.literal "SP").byteThen (run.map fun reason : Located Bytes => reason.map Ascii.latin1)
    have found : Reads (Scan.optional reasonPart) offset (Ascii.space :: text) _ rest :=
      optional_eq_ok.mpr (.inl ⟨_, rfl, part⟩)
    exact found.map fun found => found.getD ⟨"", Span.emptyAt offset⟩

theorem StatusLineText.reads {parts : StatusLine}
    (spelled : StatusLineText settings.bareLf offset text parts) :
    Reads (statusLine settings) offset text parts rest := by
  cases spelled with
  | @mk version status reason ending phrase versioned length digits reasoned ended =>
    refine versioned.reads.bind ((Reads.literal _).byteThen ?_)
    refine (statusCode_reads length digits).bind ((reasoned.reads ended.before).bind ?_)
    exact (ended.readsAfter _).map fun _ => StatusLine.mk _ _ _

end WireSpan.Http
