import WireSpan.Proofs.Scan.Repetition

/-! What scanners do with texts that lack their end. A scanner waits for the rest of a text if it
runs out of input wherever the text is cut off. -/

namespace WireSpan

/-- `front` is what is left of `text` without one or more bytes at its end. -/
structure Truncates (front text : Bytes) : Prop where
  begins : front <+: text
  short : front.length < text.length

namespace Truncates

variable {front text more : Bytes} {b : UInt8}

theorem append_cases (truncated : Truncates front (text ++ more)) :
    Truncates front text ∨ ∃ rest, front = text ++ rest ∧ Truncates rest more := by
  rcases List.prefix_or_prefix_of_prefix truncated.begins (List.prefix_append text more) with
    inside | ⟨rest, rfl⟩
  · rcases Nat.lt_or_eq_of_le inside.length_le with short | same
    · exact .inl ⟨inside, short⟩
    · obtain rfl := inside.eq_of_length same
      refine .inr ⟨[], (List.append_nil _).symm, List.nil_prefix, ?_⟩
      have short := truncated.short
      rw [List.length_append] at short
      rw [List.length_nil]
      omega
  · have begins := (List.prefix_append_right_inj text).mp truncated.begins
    have short := truncated.short
    rw [List.length_append, List.length_append] at short
    exact .inr ⟨rest, rfl, begins, by omega⟩

theorem cons_cases (truncated : Truncates front (b :: text)) :
    front = [] ∨ ∃ rest, front = b :: rest ∧ Truncates rest text := by
  rcases List.prefix_cons_iff.mp truncated.begins with rfl | ⟨rest, rfl, begins⟩
  · exact .inl rfl
  · exact .inr ⟨rest, rfl, begins, Nat.lt_of_succ_lt_succ truncated.short⟩

theorem not_nil : ¬ Truncates front [] := fun truncated => Nat.not_lt_zero _ truncated.short

theorem eq_nil (truncated : Truncates front [b]) : front = [] := by
  rcases truncated.cons_cases with rfl | ⟨rest, -, impossible⟩
  · rfl
  · exact absurd impossible not_nil

theorem all {accepts : UInt8 → Bool} (truncated : Truncates front text)
    (accepted : ∀ b ∈ text, accepts b = true) : ∀ b ∈ front, accepts b = true :=
  fun b member => accepted b (truncated.begins.subset member)

theorem head? (truncated : Truncates front text) : ∀ b ∈ front.head?, b ∈ text.head? := by
  intro b next
  obtain ⟨more, rfl⟩ := List.head?_eq_some_iff.mp next
  obtain ⟨rest, rfl⟩ := truncated.begins
  rfl

theorem head?_ne (truncated : Truncates front text) (other : text.head? ≠ some b) :
    front.head? ≠ some b := fun next => other (truncated.head? b next)

theorem stops {accepts : UInt8 → Bool} (truncated : Truncates front text)
    (stopped : Stops accepts text) : Stops accepts front :=
  fun b next => stopped b (truncated.head? b next)

end Truncates

namespace Scan

variable {α β : Type} {input mid : Input} {offset : Nat} {text more : Bytes} {scan first : Scan α}
  {next : α → Scan β} {a : α}

/-- The scanner fails for want of bytes at the end of the input. -/
def RunsOut (scan : Scan α) (input : Input) : Prop :=
  ∃ expected, scan input = .error ⟨.endOfInput expected, input.finish, .general⟩

theorem RunsOut.bind (ended : RunsOut first input) : RunsOut (first >>= next) input := by
  obtain ⟨expected, failed⟩ := ended
  exact ⟨expected, by rw [bind_run, failed]⟩

theorem RunsOut.located (ended : RunsOut scan input) : RunsOut (located scan) input := by
  obtain ⟨expected, failed⟩ := ended
  exact ⟨expected, by rw [Scan.located, failed]⟩

theorem RunsOut.after {rest : Bytes} (read : Reads first offset text a rest)
    (ended : RunsOut (next a) ⟨offset + text.length, rest⟩) :
    RunsOut (first >>= next) ⟨offset, text ++ rest⟩ := by
  obtain ⟨expected, failed⟩ := ended
  refine ⟨expected, ?_⟩
  unfold Reads at read
  rw [bind_run, read]
  simp only [failed, (Input.passes_append offset text rest).finish]

/-- What ends the whole input leaves nothing to the scanner after it. -/
theorem RunsOut.afterAll (read : Reads first offset text a [])
    (ended : RunsOut (next a) ⟨offset + text.length, []⟩) :
    RunsOut (first >>= next) ⟨offset, text⟩ := by
  have whole := RunsOut.after read ended
  rwa [List.append_nil] at whole

theorem RunsOut.optional (ended : RunsOut scan input) :
    Scan.optional scan input = .ok (none, input) := by
  obtain ⟨expected, failed⟩ := ended
  exact optional_eq_ok.mpr (.inr ⟨rfl, rfl, _, failed⟩)

/-- The scanner fails with a failure of the kind. -/
def FailsAs (scan : Scan α) (input : Input) (kind : Kind) : Prop :=
  ∃ failure, scan input = .error failure ∧ failure.kind = kind

variable {kind : Kind}

theorem RunsOut.failsAs (ended : RunsOut scan input) : FailsAs scan input .endOfInput := by
  obtain ⟨expected, failed⟩ := ended
  exact ⟨_, failed, rfl⟩

theorem FailsAs.bind (fails : FailsAs first input kind) : FailsAs (first >>= next) input kind := by
  obtain ⟨failure, failed, same⟩ := fails
  exact ⟨failure, by rw [bind_run, failed], same⟩

theorem FailsAs.located (fails : FailsAs scan input kind) : FailsAs (located scan) input kind := by
  obtain ⟨failure, failed, same⟩ := fails
  exact ⟨failure, by rw [Scan.located, failed], same⟩

theorem FailsAs.after (read : first input = .ok (a, mid)) (fails : FailsAs (next a) mid kind) :
    FailsAs (first >>= next) input kind := by
  obtain ⟨failure, failed, same⟩ := fails
  exact ⟨failure, by rw [bind_run, read]; exact failed, same⟩

/-- On no input at all the scanner runs out. -/
def Hungry (scan : Scan α) : Prop := ∀ offset, RunsOut scan ⟨offset, []⟩

/-- On no input at all the scanner runs out or reads nothing. -/
def Idle (scan : Scan α) : Prop :=
  ∀ offset, RunsOut scan ⟨offset, []⟩ ∨ ∃ a, scan ⟨offset, []⟩ = .ok (a, ⟨offset, []⟩)

/-- Wherever the text is cut off, the scanner runs out. -/
def Waits (scan : Scan α) (offset : Nat) (text : Bytes) : Prop :=
  ∀ front, Truncates front text → RunsOut scan ⟨offset, front⟩

/-- Wherever the text is cut off, the scanner runs out or reads all of what is left. -/
def Yields (scan : Scan α) (offset : Nat) (text : Bytes) : Prop :=
  ∀ front, Truncates front text →
    RunsOut scan ⟨offset, front⟩ ∨ ∃ a, Reads scan offset front a []

theorem Hungry.bind (hungry : Hungry first) : Hungry (first >>= next) :=
  fun offset => (hungry offset).bind

theorem Waits.thenNothing (waits : Waits first offset text) : Waits (first >>= next) offset text :=
  fun front truncated => (waits front truncated).bind

theorem Waits.located (waits : Waits scan offset text) : Waits (located scan) offset text :=
  fun front truncated => (waits front truncated).located

theorem Waits.bind (waits : Waits first offset text)
    (reads : ∀ front, Truncates front more → Reads first offset text a front)
    (continued : Waits (next a) (offset + text.length) more) :
    Waits (first >>= next) offset (text ++ more) := by
  intro front truncated
  rcases truncated.append_cases with inside | ⟨rest, rfl, behind⟩
  · exact (waits front inside).bind
  · exact RunsOut.after (reads rest behind) (continued rest behind)

theorem Waits.byteThen {b : UInt8} (waits : Waits first offset [b])
    (reads : ∀ front, Truncates front more → Reads first offset [b] a front)
    (continued : Waits (next a) (offset + 1) more) :
    Waits (first >>= next) offset (b :: more) := waits.bind reads continued

/-- A first scanner may content itself with less than its text where the second then runs out. -/
theorem Yields.thenWaits (yields : Yields first offset text) (hungry : ∀ a, Hungry (next a))
    (reads : ∀ front, Truncates front more → Reads first offset text a front)
    (continued : Waits (next a) (offset + text.length) more) :
    Waits (first >>= next) offset (text ++ more) := by
  intro front truncated
  rcases truncated.append_cases with inside | ⟨rest, rfl, behind⟩
  · rcases yields front inside with ended | ⟨less, read⟩
    · exact ended.bind
    · exact RunsOut.afterAll read (hungry less _)
  · exact RunsOut.after (reads rest behind) (continued rest behind)

theorem Yields.bind (yields : Yields first offset text) (idle : ∀ a, Idle (next a))
    (reads : ∀ front, Truncates front more → Reads first offset text a front)
    (continued : Yields (next a) (offset + text.length) more) :
    Yields (first >>= next) offset (text ++ more) := by
  intro front truncated
  rcases truncated.append_cases with inside | ⟨rest, rfl, behind⟩
  · rcases yields front inside with ended | ⟨less, read⟩
    · exact .inl ended.bind
    · rcases idle less (offset + front.length) with ended | ⟨b, nothing⟩
      · exact .inl (RunsOut.afterAll read ended)
      · exact .inr ⟨b, read.thenNothing nothing⟩
  · rcases continued rest behind with ended | ⟨b, read⟩
    · exact .inl (RunsOut.after (reads rest behind) ended)
    · have begun := reads rest behind
      rw [← List.append_nil rest] at begun
      exact .inr ⟨b, begun.bind read⟩

theorem Yields.afterNothing
    (reads : ∀ front, Truncates front text → Reads first offset [] a front)
    (continued : Yields (next a) offset text) : Yields (first >>= next) offset text := by
  intro front truncated
  have begun := reads front truncated
  rcases continued front truncated with ended | ⟨value, read⟩
  · exact .inl (RunsOut.after begun ended)
  · rw [← List.append_nil front] at begun
    exact .inr ⟨value, begun.nothingThen read⟩

theorem Yields.located (yields : Yields scan offset text) : Yields (located scan) offset text := by
  intro front truncated
  rcases yields front truncated with ended | ⟨a, read⟩
  · exact .inl ended.located
  · exact .inr ⟨_, read.located⟩

theorem Yields.map (f : α → β) (yields : Yields scan offset text) :
    Yields (scan >>= fun a => pure (f a)) offset text := by
  intro front truncated
  rcases yields front truncated with ended | ⟨a, read⟩
  · exact .inl ended.bind
  · exact .inr ⟨f a, read.map f⟩

theorem Waits.literal (expected : String) : Waits (literal expected text) offset text := by
  intro front truncated
  have window : front.take text.length = front :=
    List.take_of_length_le (Nat.le_of_lt truncated.short)
  have different : front ≠ text := by
    rintro rfl
    exact Nat.lt_irrefl _ truncated.short
  refine ⟨expected, ?_⟩
  simp [Scan.literal, window, different, truncated.short, List.isPrefixOf_iff_prefix.mpr
    truncated.begins, runOut]

theorem Hungry.literal (expected : String) {b : UInt8} : Hungry (literal expected (b :: text)) :=
  fun _ => ⟨expected, rfl⟩

theorem Waits.byteOf (expected : String) (accepts : UInt8 → Bool) {b : UInt8} :
    Waits (byteOf expected accepts) offset [b] := by
  intro front truncated
  rw [truncated.eq_nil]
  exact ⟨expected, rfl⟩

theorem Waits.take : Waits (take text.length) offset text := by
  intro front truncated
  refine ⟨s!"{text.length} bytes", ?_⟩
  rw [Scan.take, List.take_of_length_le (Nat.le_of_lt truncated.short)]
  simp only [truncated.short, ↓reduceIte, runOut]

theorem Yields.takeWhile {accepts : UInt8 → Bool} (all : ∀ b ∈ text, accepts b = true) :
    Yields (takeWhile accepts) offset text :=
  fun _ truncated => .inr ⟨_, Reads.takeWhile (truncated.all all) (Stops.nil _)⟩

theorem Yields.takeWhile1 (expected : String) {accepts : UInt8 → Bool}
    (all : ∀ b ∈ text, accepts b = true) : Yields (takeWhile1 expected accepts) offset text := by
  intro front truncated
  cases front with
  | nil => exact .inl ⟨expected, rfl⟩
  | cons b front =>
    exact .inr ⟨_, Reads.takeWhile1 expected (List.cons_ne_nil _ _) (truncated.all all)
      (Stops.nil _)⟩

variable {turn : Scan (α ⊕ β)}

theorem RunsOut.collect (readsOn : ReadsOn turn)
    (ended : RunsOut (turn >>= fun
      | .inl value => do
        let (values, last) ← Scan.collect turn
        return (value :: values, last)
      | .inr last => return ([], last)) input) : RunsOut (Scan.collect turn) input := by
  obtain ⟨expected, failed⟩ := ended
  exact ⟨expected, by rw [collect_run turn readsOn]; exact failed⟩

theorem Hungry.collect (readsOn : ReadsOn turn) (hungry : Hungry turn) :
    Hungry (Scan.collect turn) := fun offset => (hungry offset).bind.collect readsOn

theorem FailsAs.collect (readsOn : ReadsOn turn)
    (fails : FailsAs (turn >>= fun
      | .inl value => do
        let (values, last) ← Scan.collect turn
        return (value :: values, last)
      | .inr last => return ([], last)) input kind) : FailsAs (Scan.collect turn) input kind := by
  obtain ⟨failure, failed, same⟩ := fails
  exact ⟨failure, by rw [collect_run turn readsOn]; exact failed, same⟩

theorem Waits.collectLast (readsOn : ReadsOn turn) (waits : Waits turn offset text) :
    Waits (Scan.collect turn) offset text :=
  fun front truncated => (waits front truncated).bind.collect readsOn

theorem Waits.collectMore {value : α} (readsOn : ReadsOn turn) (waits : Waits turn offset text)
    (reads : ∀ front, Truncates front more → Reads turn offset text (.inl value) front)
    (continued : Waits (Scan.collect turn) (offset + text.length) more) :
    Waits (Scan.collect turn) offset (text ++ more) :=
  fun front truncated => (waits.bind reads continued.thenNothing front truncated).collect readsOn

end Scan

end WireSpan
