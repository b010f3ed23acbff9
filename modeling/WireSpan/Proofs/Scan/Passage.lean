import WireSpan.Scan.Many

/-! What scanners pass over. Each scanner has two laws: what it read can be told from the bytes it
passed over, and where such bytes stand it reads just that. -/

namespace WireSpan

namespace Input

/-- `after` is what remains of `input` once `text` has been read. -/
structure Passes (input : Input) (text : Bytes) (after : Input) : Prop where
  rest : input.rest = text ++ after.rest
  offset : after.offset = input.offset + text.length

variable {input mid after : Input} {text more : Bytes}

theorem Passes.refl (input : Input) : input.Passes [] input := ⟨rfl, rfl⟩

theorem Passes.trans (first : input.Passes text mid) (second : mid.Passes more after) :
    input.Passes (text ++ more) after where
  rest := by rw [first.rest, second.rest, List.append_assoc]
  offset := by rw [second.offset, first.offset, List.length_append, Nat.add_assoc]

theorem Passes.length_rest (passes : input.Passes text after) :
    input.rest.length = text.length + after.rest.length := by
  rw [passes.rest, List.length_append]

theorem Passes.finish (passes : input.Passes text after) : after.finish = input.finish := by
  simp only [Input.finish, passes.offset, passes.length_rest]
  omega

theorem Passes.unique {other : Input} (passes : input.Passes text after)
    (again : input.Passes text other) : after = other := by
  obtain ⟨offset, rest⟩ := after
  obtain ⟨place, bytes⟩ := other
  have same := passes.rest.symm.trans again.rest
  rw [List.append_right_inj] at same
  have position := passes.offset.trans again.offset.symm
  cases same
  cases position
  rfl

theorem Passes.spanTo (passes : input.Passes text after) :
    input.spanTo after = Span.ofLength input.offset text.length := by
  simp [Input.spanTo, Span.between, Span.ofLength, passes.offset]

theorem passes_append (offset : Nat) (text rest : Bytes) :
    Passes ⟨offset, text ++ rest⟩ text ⟨offset + text.length, rest⟩ := ⟨rfl, rfl⟩

theorem passes_advance {count : Nat} (enough : count ≤ input.rest.length) :
    input.Passes (input.rest.take count) (input.advance count) where
  rest := (List.take_append_drop count input.rest).symm
  offset := by simp [Input.advance, Nat.min_eq_left enough]

theorem passes_of_take (same : input.rest.take text.length = text) :
    input.Passes text (input.advance text.length) := by
  have enough : text.length ≤ input.rest.length := by
    have bound := congrArg List.length same
    rw [List.length_take] at bound
    omega
  have passes := passes_advance enough
  rwa [same] at passes

theorem passes_head {b : UInt8} (next : input.rest.head? = some b) :
    input.Passes [b] (input.advance 1) := by
  obtain ⟨more, bytes⟩ := List.head?_eq_some_iff.mp next
  apply passes_of_take
  rw [bytes]
  rfl

end Input

theorem except_bind_eq_ok {ε α β : Type} {first : Except ε α} {next : α → Except ε β} {value : β} :
    (first >>= next) = .ok value ↔ ∃ a, first = .ok a ∧ next a = .ok value := by
  cases first with
  | ok a => simp [bind, Except.bind]
  | error e => simp [bind, Except.bind]

theorem except_bind_eq_error {ε α β : Type} {first : Except ε α} {next : α → Except ε β}
    {error : ε} :
    (first >>= next) = .error error ↔
      first = .error error ∨ ∃ a, first = .ok a ∧ next a = .error error := by
  cases first with
  | ok a => simp [bind, Except.bind]
  | error e => simp [bind, Except.bind]

theorem except_map_eq_ok {ε α β : Type} {result : Except ε α} {f : α → β} {value : β} :
    result.map f = .ok value ↔ ∃ a, result = .ok a ∧ f a = value := by
  cases result <;> simp [Except.map]

theorem except_map_eq_error {ε α β : Type} {result : Except ε α} {f : α → β} {error : ε} :
    result.map f = .error error ↔ result = .error error := by
  cases result <;> simp [Except.map]

@[simp]
theorem mapError_ok {ε ε' α : Type} (f : ε → ε') (value : α) :
    (Except.ok value : Except ε α).mapError f = .ok value := rfl

@[simp]
theorem mapError_error {ε ε' α : Type} (f : ε → ε') (error : ε) :
    (Except.error error : Except ε α).mapError f = .error (f error) := rfl

/-- A class of bytes tells its members from all others. -/
theorem ne_of_accepts {accepts : UInt8 → Bool} {b c : UInt8} (accepted : accepts b = true)
    (rejected : accepts c = false) : b ≠ c := by
  rintro rfl
  rw [rejected] at accepted
  cases accepted

/-- No byte of the class comes next. -/
def Stops (accepts : UInt8 → Bool) (rest : Bytes) : Prop := ∀ b ∈ rest.head?, accepts b = false

theorem Stops.nil (accepts : UInt8 → Bool) : Stops accepts [] := by
  intro b next
  cases next

theorem Stops.cons {accepts : UInt8 → Bool} {b : UInt8} (rejected : accepts b = false)
    (rest : Bytes) : Stops accepts (b :: rest) := by
  intro c next
  cases next
  exact rejected

theorem stops_dropWhile (accepts : UInt8 → Bool) (bytes : Bytes) :
    Stops accepts (bytes.dropWhile accepts) := by
  intro b next
  have rejected := List.head?_dropWhile_not accepts bytes
  rw [Option.mem_def.mp next] at rejected
  exact rejected

theorem Stops.takeWhile {accepts : UInt8 → Bool} {rest : Bytes} (stops : Stops accepts rest) :
    rest.takeWhile accepts = [] ∧ rest.dropWhile accepts = rest := by
  cases rest with
  | nil => exact ⟨rfl, rfl⟩
  | cons b rest =>
    have rejected : accepts b = false := stops b rfl
    simp [rejected]

namespace Scan

variable {α β : Type} {input after : Input}

theorem bind_eq_ok {first : Scan α} {next : α → Scan β} {value : β} :
    (first >>= next) input = .ok (value, after) ↔
      ∃ a mid, first input = .ok (a, mid) ∧ next a mid = .ok (value, after) := by
  rw [bind_run]
  constructor
  · intro read
    split at read
    · rename_i a mid found
      exact ⟨a, mid, found, read⟩
    · cases read
  · rintro ⟨a, mid, found, read⟩
    rw [found]
    exact read

theorem bind_eq_error {first : Scan α} {next : α → Scan β} {failure : Failure} :
    (first >>= next) input = .error failure ↔
      first input = .error failure ∨
        ∃ a mid, first input = .ok (a, mid) ∧ next a mid = .error failure := by
  rw [bind_run]
  constructor
  · intro failed
    split at failed
    · rename_i a mid found
      exact .inr ⟨a, mid, found, failed⟩
    · rename_i other found
      cases failed
      exact .inl found
  · rintro (failed | ⟨a, mid, found, failed⟩)
    · rw [failed]
    · rw [found]
      exact failed

theorem pure_eq_ok {value result : α} :
    (pure value : Scan α) input = .ok (result, after) ↔ value = result ∧ input = after := by
  simp [pure_run]

theorem located_eq_ok {scan : Scan α} {x : Located α} :
    located scan input = .ok (x, after) ↔
      ∃ value, scan input = .ok (value, after) ∧ x = ⟨value, input.spanTo after⟩ := by
  unfold located
  constructor
  · intro read
    split at read
    · rename_i value rest found
      cases read
      exact ⟨value, found, rfl⟩
    · cases read
  · rintro ⟨value, found, rfl⟩
    rw [found]

theorem optional_eq_ok {scan : Scan α} {result : Option α} :
    Scan.optional scan input = .ok (result, after) ↔
      (∃ value, result = some value ∧ scan input = .ok (value, after)) ∨
        (result = none ∧ after = input ∧ ∃ failure, scan input = .error failure) := by
  unfold Scan.optional
  constructor
  · intro read
    split at read
    · rename_i value rest found
      cases read
      exact .inl ⟨value, rfl, found⟩
    · rename_i failure found
      cases read
      exact .inr ⟨rfl, rfl, failure, found⟩
  · rintro (⟨value, rfl, found⟩ | ⟨rfl, rfl, failure, found⟩)
    · rw [found]
    · rw [found]

theorem orElse_eq_ok {first second : Scan α} {value : α}
    (read : orElse first second input = .ok (value, after)) :
    first input = .ok (value, after) ∨ second input = .ok (value, after) := by
  unfold orElse at read
  split at read
  · rename_i result found
    cases read
    exact .inl found
  · split at read
    · rename_i result found
      cases read
      exact .inr found
    · cases read

theorem literal_sound {expected : String} {text : Bytes} {x : Located Bytes}
    (read : literal expected text input = .ok (x, after)) :
    input.Passes text after ∧ x = ⟨text, Span.ofLength input.offset text.length⟩ := by
  unfold literal at read
  simp only at read
  split at read
  · rename_i same
    cases read
    exact ⟨Input.passes_of_take same, rfl⟩
  · split at read <;> cases read

theorem byteOf_sound {expected : String} {accepts : UInt8 → Bool} {x : Located UInt8}
    (read : byteOf expected accepts input = .ok (x, after)) :
    input.Passes [x.value] after ∧ accepts x.value = true ∧
      x.span = Span.ofLength input.offset 1 := by
  unfold byteOf at read
  split at read
  · cases read
  · rename_i b rest bytes
    split at read
    · rename_i accepted
      cases read
      exact ⟨⟨bytes, rfl⟩, accepted, rfl⟩
    · cases read

theorem takeWhile_sound {accepts : UInt8 → Bool} {x : Located Bytes}
    (read : takeWhile accepts input = .ok (x, after)) :
    input.Passes x.value after ∧ (∀ b ∈ x.value, accepts b = true) ∧ Stops accepts after.rest ∧
      x.span = Span.ofLength input.offset x.value.length := by
  unfold takeWhile at read
  cases read
  refine ⟨⟨List.takeWhile_append_dropWhile.symm, rfl⟩, ?_, stops_dropWhile _ _, rfl⟩
  intro b member
  exact List.all_eq_true.mp List.all_takeWhile b member

theorem takeWhile1_sound {expected : String} {accepts : UInt8 → Bool} {x : Located Bytes}
    (read : takeWhile1 expected accepts input = .ok (x, after)) :
    x.value ≠ [] ∧ takeWhile accepts input = .ok (x, after) := by
  unfold takeWhile1 at read
  split at read
  · cases read
  · rename_i b rest bytes
    split at read
    · rename_i accepted
      refine ⟨?_, read⟩
      unfold takeWhile at read
      cases read
      simp [bytes, accepted]
    · cases read

/-- A run fails as its first byte does. -/
theorem takeWhile1_eq_error {expected : String} {accepts : UInt8 → Bool} {failure : Failure} :
    takeWhile1 expected accepts input = .error failure ↔
      byteOf expected accepts input = .error failure := by
  obtain ⟨offset, rest⟩ := input
  cases rest with
  | nil => simp only [takeWhile1, byteOf, runOut, Except.error.injEq]
  | cons b more =>
    by_cases accepted : accepts b = true
    · simp only [takeWhile1, byteOf, if_pos accepted, takeWhile, reduceCtorEq]
    · simp only [takeWhile1, byteOf, if_neg accepted, fail, failAt, Except.error.injEq]

theorem take_sound {count : Nat} {x : Located Bytes}
    (read : take count input = .ok (x, after)) :
    input.Passes x.value after ∧ x.value.length = count ∧
      x.span = Span.ofLength input.offset count := by
  unfold take at read
  simp only at read
  split at read
  · cases read
  · rename_i notShort
    cases read
    have enough : count ≤ input.rest.length := by
      rw [List.length_take] at notShort
      omega
    exact ⟨Input.passes_advance enough, List.length_take_of_le enough, rfl⟩

/-- What the scanner reads is spelled by the bytes it passes over, at the offset of the first. -/
def Sound (scan : Scan α) (spells : Nat → Bytes → α → Prop) : Prop :=
  ∀ ⦃input after : Input⦄ ⦃value : α⦄, scan input = .ok (value, after) →
    ∃ text, input.Passes text after ∧ spells input.offset text value

/-- Where `text` stands before `rest`, the scanner reads it as `value` and leaves `rest`. -/
def Reads (scan : Scan α) (offset : Nat) (text : Bytes) (value : α) (rest : Bytes) : Prop :=
  scan ⟨offset, text ++ rest⟩ = .ok (value, ⟨offset + text.length, rest⟩)

variable {offset : Nat} {text more rest : Bytes}

theorem Reads.run_append {scan : Scan α} {value : α}
    (read : Reads scan offset (text ++ more) value rest) :
    scan ⟨offset, text ++ (more ++ rest)⟩ =
      .ok (value, ⟨offset + (text.length + more.length), rest⟩) := by
  unfold Reads at read
  rwa [List.append_assoc, List.length_append] at read

theorem Reads.pure (value : α) : Reads (Pure.pure value : Scan α) offset [] value rest := rfl

theorem Reads.bind {first : Scan α} {next : α → Scan β} {a : α} {value : β}
    (begun : Reads first offset text a (more ++ rest))
    (continued : Reads (next a) (offset + text.length) more value rest) :
    Reads (first >>= next) offset (text ++ more) value rest := by
  unfold Reads at begun continued ⊢
  rw [bind_run, List.append_assoc, begun, List.length_append, ← Nat.add_assoc]
  exact continued

/-- What a scanner leaves is up to the scanner after it. -/
theorem Reads.run_bind {first : Scan α} {next : α → Scan β} {a : α}
    (begun : Reads first offset text a rest) :
    (first >>= next) ⟨offset, text ++ rest⟩ = next a ⟨offset + text.length, rest⟩ := by
  unfold Reads at begun
  rw [bind_run, begun]

/-- A scanner that reads nothing leaves the whole text to what comes after it. -/
theorem Reads.nothingThen {first : Scan α} {next : α → Scan β} {a : α} {value : β}
    (begun : Reads first offset [] a (text ++ rest))
    (continued : Reads (next a) offset text value rest) :
    Reads (first >>= next) offset text value rest := begun.bind continued

theorem Reads.thenNothing {first : Scan α} {next : α → Scan β} {a : α} {value : β}
    (begun : Reads first offset text a rest)
    (continued : Reads (next a) (offset + text.length) [] value rest) :
    Reads (first >>= next) offset text value rest := by
  have read := begun.bind (show Reads (next a) _ [] value rest from continued)
  rwa [List.append_nil] at read

theorem Reads.byteThen {first : Scan α} {next : α → Scan β} {a : α} {value : β} {b : UInt8}
    (begun : Reads first offset [b] a (more ++ rest))
    (continued : Reads (next a) (offset + 1) more value rest) :
    Reads (first >>= next) offset (b :: more) value rest := begun.bind continued

theorem Reads.map {scan : Scan α} {value : α} (f : α → β)
    (read : Reads scan offset text value rest) :
    Reads (scan >>= fun a => Pure.pure (f a)) offset text (f value) rest := by
  unfold Reads at read ⊢
  rw [bind_run, read]
  rfl

theorem Reads.located {scan : Scan α} {value : α} (read : Reads scan offset text value rest) :
    Reads (located scan) offset text ⟨value, Span.ofLength offset text.length⟩ rest := by
  unfold Reads at read ⊢
  exact located_eq_ok.mpr ⟨value, read, by rw [(Input.passes_append offset text rest).spanTo]⟩

theorem Reads.literal (expected : String) :
    Reads (literal expected text) offset text ⟨text, Span.ofLength offset text.length⟩ rest := by
  simp [Reads, Scan.literal, Input.advance]

theorem Reads.byteOf (expected : String) {accepts : UInt8 → Bool} {b : UInt8}
    (accepted : accepts b = true) :
    Reads (byteOf expected accepts) offset [b] ⟨b, Span.ofLength offset 1⟩ rest := by
  simp [Reads, Scan.byteOf, accepted]

theorem Reads.takeWhile {accepts : UInt8 → Bool} (all : ∀ b ∈ text, accepts b = true)
    (stops : Stops accepts rest) :
    Reads (takeWhile accepts) offset text ⟨text, Span.ofLength offset text.length⟩ rest := by
  simp [Reads, Scan.takeWhile, List.takeWhile_append_of_pos all, List.dropWhile_append_of_pos all,
    stops.takeWhile]

theorem Reads.takeWhile1 (expected : String) {accepts : UInt8 → Bool} (nonempty : text ≠ [])
    (all : ∀ b ∈ text, accepts b = true) (stops : Stops accepts rest) :
    Reads (takeWhile1 expected accepts) offset text
      ⟨text, Span.ofLength offset text.length⟩ rest := by
  cases text with
  | nil => exact absurd rfl nonempty
  | cons b text =>
    have accepted : accepts b = true := all b (by simp)
    unfold Reads Scan.takeWhile1
    simp only [List.cons_append, accepted, ↓reduceIte]
    exact Reads.takeWhile all stops

theorem Reads.take :
    Reads (take text.length) offset text ⟨text, Span.ofLength offset text.length⟩ rest := by
  simp [Reads, Scan.take, Input.advance]

/-- The scanner fails, and with just this failure. -/
def Refuses (scan : Scan α) (input : Input) (failure : Failure) : Prop :=
  scan input = .error failure

variable {failure : Failure}

theorem Refuses.bind {first : Scan α} {next : α → Scan β} (refused : Refuses first input failure) :
    Refuses (first >>= next) input failure := bind_eq_error.mpr (.inl refused)

theorem Refuses.behind {first : Scan α} {next : α → Scan β} {a : α} {mid : Input}
    (read : first input = .ok (a, mid)) (refused : Refuses (next a) mid failure) :
    Refuses (first >>= next) input failure := bind_eq_error.mpr (.inr ⟨a, mid, read, refused⟩)

theorem Refuses.located {scan : Scan α} (refused : Refuses scan input failure) :
    Refuses (located scan) input failure := by
  unfold Refuses at refused ⊢
  rw [Scan.located, refused]

theorem peek?_bind (next : Option UInt8 → Scan β) (input : Input) :
    (peek? >>= next) input = next input.rest.head? input := rfl

theorem here_bind (next : Nat → Scan β) (input : Input) :
    (here >>= next) input = next input.offset input := rfl

theorem skip_bind (count : Nat) (next : Unit → Scan β) (input : Input) :
    (skip count >>= next) input = next () (input.advance count) := rfl

end Scan

end WireSpan
