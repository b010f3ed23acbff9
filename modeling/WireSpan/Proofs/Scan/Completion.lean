import WireSpan.Proofs.Scan.Truncation

/-! What more input would change. Where a scanner says that it ran out of input, what it was given
is the beginning of something that it asks for; and the scanners that ask for a form of the next
bytes say so wherever that is the case, so that any other failure of theirs is final. -/

namespace WireSpan.Scan

variable {α β : Type}

/-- Where the scanner says that it ran out of input, what it was given is the beginning of a
text. -/
def Completes (scan : Scan α) (spells : Bytes → Prop) : Prop :=
  ∀ ⦃input : Input⦄ ⦃failure : Failure⦄, scan input = .error failure → failure.kind = .endOfInput →
    ∃ more, spells (input.rest ++ more)

theorem completes_literal (expected : String) (text : Bytes) :
    (literal expected text).Completes (· = text) := by
  intro input failure failed ran
  unfold literal at failed
  simp only at failed
  split at failed
  · cases failed
  · split at failed
    · rename_i cut
      simp only [Bool.and_eq_true, decide_eq_true_eq, List.isPrefixOf_iff_prefix] at cut
      obtain ⟨short, more, whole⟩ := cut
      rw [List.length_take] at short
      rw [List.take_of_length_le (by omega)] at whole
      exact ⟨more, whole⟩
    · cases failed
      cases ran

theorem completes_take (count : Nat) : (take count).Completes (·.length = count) := by
  intro input failure failed ran
  unfold take at failed
  simp only at failed
  split at failed
  · rename_i short
    rw [List.length_take] at short
    refine ⟨List.replicate (count - input.rest.length) 0, ?_⟩
    simp only [List.length_append, List.length_replicate]
    omega
  · cases failed

/-- A failure on bytes that are not as asked: the scanner ran out of input if more bytes could make
them so, and failed for another reason if none could. -/
def Final (asked : Bytes → Prop) (otherwise : Kind) (bytes : Bytes) (kind : Kind) : Prop :=
  kind = .endOfInput ∧ (∃ more, asked (bytes ++ more)) ∨
    kind = otherwise ∧ ∀ more, ¬ asked (bytes ++ more)

/-- The scanner succeeds on bytes that begin as asked and on no others, and where it fails it tells
whether more bytes would help. -/
structure Decides (scan : Scan α) (asked : Bytes → Prop) (otherwise : Kind) : Prop where
  succeeds : ∀ ⦃input read⦄, scan input = .ok read → asked input.rest
  refuses : ∀ ⦃input failure⦄, scan input = .error failure → ¬ asked input.rest
  tells : ∀ ⦃input failure⦄, scan input = .error failure →
    Final asked otherwise input.rest failure.kind

variable {scan : Scan α} {other : Scan β} {asked : Bytes → Prop} {otherwise kind : Kind}
  {input : Input} {failure : Failure} {accepts : UInt8 → Bool} {text : Bytes}

/-- Scanners with the same failures ask for the same. -/
theorem Decides.congr (decides : scan.Decides asked otherwise)
    (same : ∀ input failure, other input = .error failure ↔ scan input = .error failure) :
    other.Decides asked otherwise := by
  refine ⟨fun input read found => ?_, fun input failure failed => ?_,
    fun input failure failed => ?_⟩
  · cases scanned : scan input with
    | ok result => exact decides.succeeds scanned
    | error failure =>
      rw [(same input failure).mpr scanned] at found
      cases found
  · exact decides.refuses ((same input failure).mp failed)
  · exact decides.tells ((same input failure).mp failed)

theorem map_eq_error {f : α → β} : (f <$> scan) input = .error failure ↔
    scan input = .error failure := by
  have composed : (f <$> scan) = scan >>= fun value => pure (f value) := rfl
  rw [composed, bind_eq_error]
  constructor
  · rintro (failed | ⟨value, mid, -, impossible⟩)
    · exact failed
    · cases impossible
  · exact .inl

theorem Decides.map (decides : scan.Decides asked otherwise) (f : α → β) :
    (f <$> scan).Decides asked otherwise := decides.congr fun _ _ => map_eq_error

/-- The scanner succeeds exactly where it is given what it asks for. -/
theorem Decides.exists_ok_iff (decides : scan.Decides asked otherwise) :
    (∃ read, scan input = .ok read) ↔ asked input.rest := by
  constructor
  · rintro ⟨read, found⟩
    exact decides.succeeds found
  · intro given
    cases found : scan input with
    | ok read => exact ⟨read, rfl⟩
    | error failure => exact absurd given (decides.refuses found)

/-- The scanner says that it ran out of input exactly where it is not given what it asks for and
more bytes would complete it. -/
theorem Decides.ranOut_iff (decides : scan.Decides asked otherwise)
    (different : otherwise ≠ .endOfInput) :
    (∃ failure, scan input = .error failure ∧ failure.kind = .endOfInput) ↔
      ¬ asked input.rest ∧ ∃ more, asked (input.rest ++ more) := by
  constructor
  · rintro ⟨failure, failed, ran⟩
    refine ⟨decides.refuses failed, ?_⟩
    rcases decides.tells failed with ⟨-, completed⟩ | ⟨same, -⟩
    · exact completed
    · exact absurd (same.symm.trans ran) different
  · rintro ⟨missing, more, completed⟩
    cases found : scan input with
    | ok read => exact absurd (decides.succeeds found) missing
    | error failure =>
      rcases decides.tells found with ⟨ran, -⟩ | ⟨-, never⟩
      · exact ⟨failure, rfl, ran⟩
      · exact absurd completed (never more)

/-- Where the scanner fails for another reason than a lack of bytes, it does so whatever bytes are
added. -/
theorem Decides.stays_refused (decides : scan.Decides asked otherwise)
    (failed : scan input = .error failure) (other : failure.kind ≠ .endOfInput)
    (offset : Nat) (more : Bytes) :
    ∃ later, scan ⟨offset, input.rest ++ more⟩ = .error later ∧ later.kind = failure.kind := by
  rcases decides.tells failed with ⟨ran, -⟩ | ⟨same, never⟩
  · exact absurd ran other
  · cases found : scan ⟨offset, input.rest ++ more⟩ with
    | ok read => exact absurd (decides.succeeds found) (never more)
    | error later =>
      rcases decides.tells found with ⟨-, further, completed⟩ | ⟨again, -⟩
      · rw [List.append_assoc] at completed
        exact absurd completed (never _)
      · exact ⟨later, rfl, again.trans same.symm⟩

theorem decides_literal (expected : String) (text : Bytes) :
    (literal expected text).Decides (text <+: ·) .unexpected := by
  have window (bytes : Bytes) : bytes.take text.length = text ↔ text <+: bytes :=
    ⟨fun same => same ▸ List.take_prefix _ _,
      fun begins => (List.prefix_iff_eq_take.mp begins).symm⟩
  refine ⟨fun input read found => ?_, fun input failure failed => ?_,
    fun input failure failed => ?_⟩
  · obtain ⟨passes, -⟩ := literal_sound found
    exact ⟨_, passes.rest.symm⟩
  · unfold literal at failed
    simp only at failed
    split at failed
    · cases failed
    · rename_i different
      exact mt (window _).mpr different
  · by_cases ran : failure.kind = .endOfInput
    · obtain ⟨more, whole⟩ := completes_literal expected text failed ran
      exact .inl ⟨ran, more, whole ▸ List.prefix_refl _⟩
    · unfold literal at failed
      simp only at failed
      split at failed
      · cases failed
      · rename_i different
        split at failed
        · cases failed
          exact absurd rfl ran
        · rename_i notCut
          cases failed
          refine .inr ⟨rfl, fun more begins => ?_⟩
          -- a text that more bytes complete is either there or cut off by the end of the input
          rcases List.prefix_or_prefix_of_prefix begins (List.prefix_append input.rest more) with
            whole | cut
          · exact different ((window _).mpr whole)
          · rcases Nat.lt_or_eq_of_le cut.length_le with short | same
            · apply notCut
              rw [List.take_of_length_le cut.length_le, decide_eq_true short, Bool.true_and]
              exact List.isPrefixOf_iff_prefix.mpr cut
            · exact different ((window _).mpr (cut.eq_of_length same ▸ List.prefix_refl _))

private theorem decides_take (count : Nat) :
    (take count).Decides (count ≤ ·.length) .invalidRange := by
  have short {input : Input} {failure : Failure} (failed : take count input = .error failure) :
      input.rest.length < count ∧ failure.kind = .endOfInput := by
    unfold take at failed
    simp only at failed
    split at failed
    · rename_i short
      rw [List.length_take] at short
      cases failed
      exact ⟨by omega, rfl⟩
    · cases failed
  refine ⟨fun input read found => ?_, fun input failure failed => ?_,
    fun input failure failed => ?_⟩
  · obtain ⟨passes, length, -⟩ := take_sound found
    rw [passes.length_rest, length]
    exact Nat.le_add_right _ _
  · exact Nat.not_le.mpr (short failed).1
  · obtain ⟨more, enough⟩ := completes_take count failed (short failed).2
    exact .inl ⟨(short failed).2, more, Nat.le_of_eq enough.symm⟩

/-- A negative number of bytes is refused whatever bytes there are. -/
theorem decides_takeCount (count : Int) :
    (takeCount count).Decides (fun bytes => 0 ≤ count ∧ count ≤ bytes.length) .invalidRange := by
  unfold takeCount
  split
  · rename_i negative
    have never (bytes : Bytes) : ¬ (0 ≤ count ∧ count ≤ bytes.length) := by omega
    exact ⟨nofun, fun _ _ _ => never _, fun _ _ failed => by
      cases failed
      exact .inr ⟨rfl, fun _ => never _⟩⟩
  · rename_i notNegative
    have same : (fun bytes : Bytes => 0 ≤ count ∧ count ≤ bytes.length) =
        (count.toNat ≤ ·.length) := by
      funext bytes
      rw [eq_iff_iff]
      omega
    rw [same]
    exact decides_take _

/-- The next byte, of which some are accepted. -/
theorem decides_byteOf (expected : String) (some : ∃ b, accepts b = true) :
    (byteOf expected accepts).Decides (fun bytes => ∃ b ∈ bytes.head?, accepts b = true)
      .unexpected := by
  refine ⟨fun input read found => ?_, fun input failure failed => ?_,
    fun input failure failed => ?_⟩
  · obtain ⟨passes, accepted, -⟩ := byteOf_sound found
    rw [passes.rest]
    exact ⟨_, rfl, accepted⟩
  · rintro ⟨b, next, accepted⟩
    obtain ⟨rest, bytes⟩ := List.head?_eq_some_iff.mp next
    unfold byteOf at failed
    simp only [bytes, accepted, if_true] at failed
    cases failed
  · unfold byteOf at failed
    split at failed
    · rename_i nothing
      cases failed
      obtain ⟨b, accepted⟩ := some
      refine .inl ⟨rfl, [b], ?_⟩
      rw [nothing]
      exact ⟨b, rfl, accepted⟩
    · rename_i b rest bytes
      split at failed
      · cases failed
      · rename_i rejected
        cases failed
        refine .inr ⟨rfl, ?_⟩
        rintro more ⟨c, next, accepted⟩
        rw [bytes] at next
        cases next
        exact rejected accepted

/-- A run fails where its first byte does. -/
theorem decides_takeWhile1 (expected : String) (some : ∃ b, accepts b = true) :
    (takeWhile1 expected accepts).Decides (fun bytes => ∃ b ∈ bytes.head?, accepts b = true)
      .unexpected := (decides_byteOf expected some).congr fun _ _ => takeWhile1_eq_error

end WireSpan.Scan
