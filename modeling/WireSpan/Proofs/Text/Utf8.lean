import Mathlib.Algebra.Group.Nat.Defs
import WireSpan.Text.Utf8

/-! The strict reader of UTF-8 reads exactly the encodings of scalar values: what it reads is an
encoding, and it reads every encoding back. -/

namespace WireSpan.Text.Utf8

theorem continuation?_eq_some {b : UInt8} {bits : Nat} :
    continuation? b = some bits ↔ bits < 64 ∧ b = UInt8.ofNat (bits + 0x80) := by
  unfold continuation?
  constructor
  · intro found
    split at found
    · rename_i within
      have lower := UInt8.le_iff_toNat_le.mp within.1
      have upper := UInt8.lt_iff_toNat_lt.mp within.2
      simp only [UInt8.reduceToNat] at lower upper
      have same : bits + 0x80 = b.toNat := by
        have value := Option.some.inj found
        omega
      refine ⟨by omega, ?_⟩
      rw [same, UInt8.ofNat_toNat]
    · cases found
  · rintro ⟨small, rfl⟩
    have value : (UInt8.ofNat (bits + 0x80)).toNat = bits + 0x80 := by
      rw [UInt8.toNat_ofNat']
      omega
    rw [if_pos, value, Nat.add_sub_cancel]
    rw [UInt8.le_iff_toNat_le, UInt8.lt_iff_toNat_lt, value]
    simp only [UInt8.reduceToNat]
    omega

/-- The bytes that carry the low `6 * count` bits of `code`. -/
def tails (code : Nat) : Nat → Bytes
  | 0 => []
  | count + 1 => UInt8.ofNat (code / 64 ^ count % 64 + 0x80) :: tails code count

private theorem length_tails (code count : Nat) : (tails code count).length = count := by
  induction count with
  | zero => rfl
  | succ count ih => simp [tails, ih]

private theorem continue?_eq_some {lead count code : Nat} {bytes : Bytes} :
    continue? lead count bytes = some code ↔
      code / 64 ^ count = lead ∧ ∃ rest, bytes = tails code count ++ rest := by
  induction count generalizing lead bytes with
  | zero => simp [continue?, tails, eq_comm]
  | succ count ih =>
    have next : code / 64 ^ count / 64 = code / 64 ^ (count + 1) := by
      rw [Nat.div_div_eq_div_mul, Nat.pow_succ]
    cases bytes with
    | nil => simp [continue?, tails]
    | cons b bytes =>
      rw [continue?, Option.bind_eq_some_iff]
      constructor
      · rintro ⟨bits, carried, found⟩
        obtain ⟨small, rfl⟩ := continuation?_eq_some.mp carried
        obtain ⟨high, rest, rfl⟩ := ih.mp found
        have low : code / 64 ^ count % 64 = bits := by omega
        refine ⟨by omega, rest, ?_⟩
        rw [tails, low]
        rfl
      · rintro ⟨high, rest, same⟩
        rw [tails, List.cons_append] at same
        obtain ⟨first, others⟩ := List.cons.inj same
        refine ⟨code / 64 ^ count % 64, ?_, ?_⟩
        · exact continuation?_eq_some.mpr ⟨Nat.mod_lt _ (by decide), first⟩
        · exact ih.mpr ⟨by omega, rest, others⟩

private theorem scalar?_eq_some {least lead count : Nat} {bytes : Bytes} {c : Char} :
    scalar? least lead count bytes = some c ↔
      least ≤ c.toNat ∧ c.toNat / 64 ^ count = lead ∧
        ∃ rest, bytes = tails c.toNat count ++ rest := by
  unfold scalar?
  rw [Option.bind_eq_some_iff]
  constructor
  · rintro ⟨code, found, chosen⟩
    by_cases valid : code.isValidChar
    · rw [dif_pos valid] at chosen
      by_cases enough : least ≤ code
      · rw [if_pos enough] at chosen
        cases chosen
        have same : (Char.ofNatAux code valid).toNat = code := rfl
        rw [same]
        exact ⟨enough, continue?_eq_some.mp found⟩
      · rw [if_neg enough] at chosen
        cases chosen
    · rw [dif_neg valid] at chosen
      cases chosen
  · rintro ⟨enough, high, rest⟩
    refine ⟨c.toNat, continue?_eq_some.mpr ⟨high, rest⟩, ?_⟩
    have valid : c.toNat.isValidChar := c.valid
    rw [dif_pos valid, if_pos enough]
    exact congrArg some (Char.ext rfl)

theorem toNat_lt (c : Char) : c.toNat < 0x110000 := by
  rcases c.valid with low | high
  · exact Nat.lt_trans low (by decide)
  · exact high.2

/-- The encoding of a character by the number of its continuation bytes. -/
theorem encodeChar_eq (c : Char) :
    String.utf8EncodeChar c =
      if c.toNat < 0x80 then [UInt8.ofNat c.toNat]
      else if c.toNat < 0x800 then UInt8.ofNat (c.toNat / 64 ^ 1 + 0xc0) :: tails c.toNat 1
      else if c.toNat < 0x10000 then UInt8.ofNat (c.toNat / 64 ^ 2 + 0xe0) :: tails c.toNat 2
      else UInt8.ofNat (c.toNat / 64 ^ 3 + 0xf0) :: tails c.toNat 3 := by
  have bound := toNat_lt c
  unfold String.utf8EncodeChar
  change (if c.toNat ≤ 0x7f then _ else if c.toNat ≤ 0x7ff then _ else if c.toNat ≤ 0xffff then _
    else _) = _
  simp only [← Nat.lt_succ_iff, Nat.succ_eq_add_one, Nat.reduceAdd, tails, Nat.reducePow,
    Nat.pow_zero, Nat.div_one]
  split
  · rfl
  · split
    · rename_i small
      have lead : c.toNat / 64 % 32 = c.toNat / 64 := Nat.mod_eq_of_lt (by omega)
      exact congrArg (fun n => UInt8.ofNat (n + 0xc0) :: _) lead
    · split
      · have lead : c.toNat / 4096 % 16 = c.toNat / 4096 := Nat.mod_eq_of_lt (by omega)
        exact congrArg (fun n => UInt8.ofNat (n + 0xe0) :: _) lead
      · have lead : c.toNat / 262144 % 8 = c.toNat / 262144 := Nat.mod_eq_of_lt (by omega)
        exact congrArg (fun n => UInt8.ofNat (n + 0xf0) :: _) lead

theorem toNat_ofNat {code : Nat} (valid : code.isValidChar) : (Char.ofNat code).toNat = code := by
  rw [Char.ofNat, dif_pos valid]
  rfl

private theorem lead_toNat {base high : Nat} (small : high + base < 256) :
    (UInt8.ofNat (high + base)).toNat = high + base := by
  rw [UInt8.toNat_ofNat']
  exact Nat.mod_eq_of_lt small

private theorem lead_eq {b : UInt8} {base high : Nat} (above : base ≤ b.toNat)
    (same : high = b.toNat - base) : b = UInt8.ofNat (high + base) := by
  rw [same, Nat.sub_add_cancel above, UInt8.ofNat_toNat]

/-- A sequence that is read has the lead byte and the continuation bytes of its character. -/
private theorem sequence_sound {b : UInt8} {bytes : Bytes} {c : Char}
    {base least count length total : Nat} (above : base ≤ b.toNat)
    (found : (scalar? least (b.toNat - base) count bytes).map (·, length) = some (c, total)) :
    least ≤ c.toNat ∧ c.toNat / 64 ^ count = b.toNat - base ∧ total = length ∧
      ∃ rest, b :: bytes =
        UInt8.ofNat (c.toNat / 64 ^ count + base) :: tails c.toNat count ++ rest := by
  obtain ⟨d, read, same⟩ := Option.map_eq_some_iff.mp found
  cases same
  obtain ⟨enough, lead, rest, rfl⟩ := scalar?_eq_some.mp read
  refine ⟨enough, lead, rfl, rest, ?_⟩
  rw [← lead_eq above lead]
  rfl

/-- What is read as a character begins with the encoding of that character. -/
theorem decode?_sound {bytes : Bytes} {c : Char} {count : Nat}
    (found : decode? bytes = some (c, count)) :
    ∃ rest, bytes = String.utf8EncodeChar c ++ rest ∧
      count = (String.utf8EncodeChar c).length := by
  cases bytes with
  | nil => cases found
  | cons b bytes =>
    have byte := b.toNat_lt
    rw [decode?] at found
    simp only [UInt8.lt_iff_toNat_lt, UInt8.reduceToNat] at found
    rw [encodeChar_eq]
    split at found
    · rename_i small
      obtain ⟨rfl, rfl⟩ := Prod.mk.inj (Option.some.inj found)
      have value : (Char.ofNat b.toNat).toNat = b.toNat :=
        toNat_ofNat (.inl (by omega))
      refine ⟨bytes, ?_, ?_⟩ <;> simp [value, small]
    · split at found
      · cases found
      · split at found
        · obtain ⟨least, lead, rfl, rest, same⟩ := sequence_sound (by omega) found
          rw [if_neg (by omega), if_pos (by omega), same]
          exact ⟨rest, rfl, by simp [length_tails]⟩
        · split at found
          · obtain ⟨least, lead, rfl, rest, same⟩ := sequence_sound (by omega) found
            rw [if_neg (by omega), if_neg (by omega), if_pos (by omega), same]
            exact ⟨rest, rfl, by simp [length_tails]⟩
          · split at found
            · obtain ⟨least, lead, rfl, rest, same⟩ := sequence_sound (by omega) found
              rw [if_neg (by omega), if_neg (by omega), if_neg (by omega), same]
              exact ⟨rest, rfl, by simp [length_tails]⟩
            · cases found

/-- Every encoding is read back, whatever follows it. -/
theorem decode?_encode (c : Char) (rest : Bytes) :
    decode? (String.utf8EncodeChar c ++ rest) =
      some (c, (String.utf8EncodeChar c).length) := by
  have bound := toNat_lt c
  rw [encodeChar_eq]
  split
  · rename_i small
    have lead : (UInt8.ofNat c.toNat).toNat = c.toNat := by
      rw [UInt8.toNat_ofNat']
      exact Nat.mod_eq_of_lt (by omega)
    simp [decode?, UInt8.lt_iff_toNat_lt, lead, small]
  · split
    · have read : scalar? 0x80 (c.toNat / 64 ^ 1) 1 (tails c.toNat 1 ++ rest) = some c :=
        scalar?_eq_some.mpr ⟨by omega, rfl, rest, rfl⟩
      rw [List.cons_append, decode?]
      simp only [UInt8.lt_iff_toNat_lt, UInt8.reduceToNat]
      rw [lead_toNat (by omega), if_neg (by omega), if_neg (by omega), if_pos (by omega),
        Nat.add_sub_cancel, read]
      simp [length_tails]
    · split
      · have read : scalar? 0x800 (c.toNat / 64 ^ 2) 2 (tails c.toNat 2 ++ rest) = some c :=
          scalar?_eq_some.mpr ⟨by omega, rfl, rest, rfl⟩
        rw [List.cons_append, decode?]
        simp only [UInt8.lt_iff_toNat_lt, UInt8.reduceToNat]
        rw [lead_toNat (by omega), if_neg (by omega), if_neg (by omega), if_neg (by omega),
          if_pos (by omega), Nat.add_sub_cancel, read]
        simp [length_tails]
      · have read : scalar? 0x10000 (c.toNat / 64 ^ 3) 3 (tails c.toNat 3 ++ rest) = some c :=
          scalar?_eq_some.mpr ⟨by omega, rfl, rest, rfl⟩
        rw [List.cons_append, decode?]
        simp only [UInt8.lt_iff_toNat_lt, UInt8.reduceToNat]
        rw [lead_toNat (by omega), if_neg (by omega), if_neg (by omega), if_neg (by omega),
          if_neg (by omega), if_pos (by omega), Nat.add_sub_cancel, read]
        simp [length_tails]

private theorem continuation?_of_mem_tails {b : UInt8} {code count : Nat}
    (member : b ∈ tails code count) :
    (continuation? b).isSome = true := by
  induction count with
  | zero => cases member
  | succ count ih =>
    rcases List.mem_cons.mp member with rfl | later
    · have carried : continuation? (UInt8.ofNat (code / 64 ^ count % 64 + 0x80)) =
          some (code / 64 ^ count % 64) :=
        continuation?_eq_some.mpr ⟨Nat.mod_lt _ (by decide), rfl⟩
      rw [carried]
      rfl
    · exact ih later

/-- No character begins with a continuation byte. -/
theorem continuation?_of_decode? {b : UInt8} {rest : Bytes} {result : Char × Nat}
    (found : decode? (b :: rest) = some result) : continuation? b = none := by
  cases carried : continuation? b with
  | none => rfl
  | some bits =>
    unfold continuation? at carried
    split at carried
    · rename_i within
      rw [decode?, if_neg (UInt8.not_lt.mpr within.1), if_pos within.2] at found
      cases found
    · cases carried

/-- Of the bytes of a character, all but the first are continuation bytes. -/
theorem continuation?_encodeChar {c : Char} {front rest : Bytes} {b : UInt8}
    (encoded : String.utf8EncodeChar c = front ++ b :: rest) :
    (continuation? b).isSome = true ↔ front ≠ [] := by
  cases front with
  | nil =>
    have found := decode?_encode c []
    rw [encoded, List.append_nil, List.nil_append] at found
    simp [continuation?_of_decode? found]
  | cons lead more =>
    have member (code count : Nat) (same : tails code count = more ++ b :: rest) :
        (continuation? b).isSome = true := by
      have listed : b ∈ tails code count := by simp [same]
      exact continuation?_of_mem_tails listed
    simp only [ne_eq, reduceCtorEq, not_false_eq_true, iff_true]
    rw [encodeChar_eq] at encoded
    split at encoded
    · simp at encoded
    · split at encoded
      · exact member _ _ (List.cons.inj encoded).2
      · split at encoded
        · exact member _ _ (List.cons.inj encoded).2
        · exact member _ _ (List.cons.inj encoded).2

/-- A character that lacks its last bytes is not read as any other. -/
theorem decode?_of_cut {c : Char} {front rest : Bytes} (nonempty : rest ≠ [])
    (encoded : String.utf8EncodeChar c = front ++ rest) : decode? front = none := by
  cases found : decode? front with
  | none => rfl
  | some result =>
    obtain ⟨d, count⟩ := result
    obtain ⟨more, rfl, rfl⟩ := decode?_sound found
    have first := decode?_encode d (more ++ rest)
    have second := decode?_encode c []
    rw [List.append_nil, encoded, List.append_assoc, first] at second
    have shorter := congrArg Prod.snd (Option.some.inj second)
    simp only [List.length_append] at shorter
    have some := List.length_pos_iff.mpr nonempty
    omega

end WireSpan.Text.Utf8
