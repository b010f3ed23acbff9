import WireSpan.Text.Case

/-! Texts that have the same lower case as an ASCII word. With the Kelvin sign read as the letter k
they are the texts that differ from the word in the case of ASCII letters only, whatever becomes of
the other characters outside ASCII. -/

namespace WireSpan.Text

/-- The only character outside ASCII whose lower case is in it. -/
def kelvinSign : Char := '\u212A'

/-- A way to put whole texts in lower case. Each character is replaced by a text, which may depend
on what stands around it. ASCII letters become small and the Kelvin sign becomes a k; of any other
character outside ASCII something outside ASCII is left. -/
structure Lowering where
  image : (before : List Char) → Char → (after : List Char) → List Char
  ascii : ∀ before c after, c.toNat < 0x80 → image before c after = [c.toLower]
  kelvin : ∀ before after, image before kelvinSign after = ['k']
  other : ∀ before c after, 0x80 ≤ c.toNat → c ≠ kelvinSign →
    ∃ d ∈ image before c after, 0x80 ≤ d.toNat

/-- Characters in lower case, where those in `before` precede them. -/
def Lowering.chars (lowering : Lowering) : (before : List Char) → List Char → List Char
  | _, [] => []
  | before, c :: after => lowering.image before c after ++ lowering.chars (before ++ [c]) after

/-- The lower case of a text. -/
def Lowering.text (lowering : Lowering) (text : String) : List Char :=
  lowering.chars [] text.toList

/-- All characters are ASCII characters. -/
def IsAscii (text : String) : Prop := ∀ c ∈ text.toList, c.toNat < 0x80

/-- The texts differ at most in the case of ASCII letters. -/
def AsciiAlike (first second : String) : Prop :=
  first.toList.map Char.toLower = second.toList.map Char.toLower

instance (first second : String) : Decidable (AsciiAlike first second) :=
  inferInstanceAs (Decidable (_ = _))

/-- The text with the letter k in place of every Kelvin sign. -/
def plainK (text : String) : String :=
  String.ofList (text.toList.map fun c => if c = kelvinSign then 'k' else c)

variable {c : Char} {chars before : List Char} {word text : String} {lowering : Lowering}

private theorem toLower_of_foreign (foreign : 0x80 ≤ c.toNat) : c.toLower = c := by
  refine dif_neg ?_
  rintro ⟨-, small⟩
  rw [UInt32.le_iff_toNat_le, Char.toNat_val] at small
  have limit : c.toNat ≤ 0x5a := small
  omega

private theorem toLower_ascii (ascii : c.toNat < 0x80) : c.toLower.toNat < 0x80 := by
  have all : ∀ code < 0x80, (Char.ofNat code).toLower.toNat < 0x80 := by decide
  have small := all c.toNat ascii
  rwa [Char.ofNat_toNat] at small

private theorem lowerChar_eq : lowerChar c = (if c = kelvinSign then 'k' else c).toLower := by
  unfold lowerChar kelvinSign
  split
  · rfl
  · rfl

private theorem kelvinSign_foreign : 0x80 ≤ kelvinSign.toNat := by decide

private theorem ne_kelvinSign (ascii : c.toNat < 0x80) : c ≠ kelvinSign := by
  rintro rfl
  exact absurd ascii (Nat.not_lt.mpr kelvinSign_foreign)

/-- Texts without other characters outside ASCII have the same lower case in every way. -/
theorem Lowering.chars_eq (plain : ∀ c ∈ chars, c.toNat < 0x80 ∨ c = kelvinSign) :
    lowering.chars before chars = chars.map lowerChar := by
  induction chars generalizing before with
  | nil => rfl
  | cons c after ih =>
    obtain ⟨first, others⟩ := List.forall_mem_cons.mp plain
    have image : lowering.image before c after = [lowerChar c] := by
      rcases first with ascii | rfl
      · rw [lowering.ascii _ _ _ ascii, lowerChar_eq, if_neg (ne_kelvinSign ascii)]
      · rw [lowering.kelvin]
        rfl
    rw [Lowering.chars, image, ih others]
    rfl

/-- Of a character that is neither in ASCII nor the Kelvin sign something stays outside ASCII. -/
theorem Lowering.exists_foreign (listed : c ∈ chars) (foreign : 0x80 ≤ c.toNat)
    (other : c ≠ kelvinSign) : ∃ d ∈ lowering.chars before chars, 0x80 ≤ d.toNat := by
  induction chars generalizing before with
  | nil => cases listed
  | cons first after ih =>
    rw [Lowering.chars]
    rcases List.mem_cons.mp listed with rfl | later
    · obtain ⟨d, image, outside⟩ := lowering.other before c after foreign other
      exact ⟨d, List.mem_append_left _ image, outside⟩
    · obtain ⟨d, image, outside⟩ := ih later
      exact ⟨d, List.mem_append_right _ image, outside⟩

/-- An ASCII word stays one. -/
theorem IsAscii.map_toLower (ascii : IsAscii word) :
    ∀ c ∈ word.toList.map Char.toLower, c.toNat < 0x80 := by
  intro c listed
  obtain ⟨letter, member, rfl⟩ := List.mem_map.mp listed
  exact toLower_ascii (ascii letter member)

/-- Without a Kelvin sign there is nothing to read differently. -/
theorem plainK_of_not_mem (absent : kelvinSign ∉ text.toList) : plainK text = text := by
  have same : ∀ c ∈ text.toList, (if c = kelvinSign then 'k' else c) = id c := by
    intro c member
    refine if_neg ?_
    rintro rfl
    exact absent member
  rw [plainK, List.map_congr_left same, List.map_id, String.ofList_toList]

theorem IsAscii.plainK_eq (ascii : IsAscii word) : plainK word = word :=
  plainK_of_not_mem fun member => ne_kelvinSign (ascii _ member) rfl

private theorem toList_lower (text : String) :
    (lower text).toList = (plainK text).toList.map Char.toLower := by
  rw [lower, plainK, String.toList_ofList, String.toList_ofList, List.map_map]
  exact List.map_congr_left fun c _ => lowerChar_eq

/-- A text has the lower case of an ASCII word exactly if, with the Kelvin sign read as k, it
differs from the word in the case of letters only. -/
theorem IsAscii.lower_eq_iff (ascii : IsAscii word) :
    lower word = lower text ↔ AsciiAlike word (plainK text) := by
  rw [← String.toList_inj, toList_lower, toList_lower, ascii.plainK_eq, AsciiAlike]

/-- Every way to put texts in lower case tells the same texts from an ASCII word. -/
theorem IsAscii.lowering_eq_iff (ascii : IsAscii word) :
    lowering.text word = lowering.text text ↔ AsciiAlike word (plainK text) := by
  have wordLower : lowering.text word = word.toList.map Char.toLower := by
    rw [Lowering.text, Lowering.chars_eq fun c member => .inl (ascii c member)]
    exact List.map_congr_left fun c member => by
      rw [lowerChar_eq, if_neg (ne_kelvinSign (ascii c member))]
  by_cases foreign : ∃ c ∈ text.toList, 0x80 ≤ c.toNat ∧ c ≠ kelvinSign
  · -- such a character leaves something outside ASCII on the one side, and is kept on the other
    obtain ⟨c, member, foreign, other⟩ := foreign
    refine iff_of_false ?_ ?_
    · intro same
      obtain ⟨d, image, outside⟩ : ∃ d ∈ lowering.text text, 0x80 ≤ d.toNat :=
        Lowering.exists_foreign member foreign other
      rw [← same, wordLower] at image
      have within := ascii.map_toLower d image
      omega
    · intro alike
      have kept : c ∈ (plainK text).toList.map Char.toLower := by
        rw [← toList_lower, lower, String.toList_ofList]
        refine List.mem_map.mpr ⟨c, member, ?_⟩
        rw [lowerChar_eq, if_neg other, toLower_of_foreign foreign]
      have within := ascii.map_toLower c (alike ▸ kept)
      omega
  · have plain : ∀ c ∈ text.toList, c.toNat < 0x80 ∨ c = kelvinSign := by
      intro c member
      by_cases kelvin : c = kelvinSign
      · exact .inr kelvin
      · exact .inl (Nat.lt_of_not_le fun outside => foreign ⟨c, member, outside, kelvin⟩)
    have textLower : lowering.text text = (plainK text).toList.map Char.toLower := by
      rw [Lowering.text, Lowering.chars_eq plain, ← toList_lower, lower, String.toList_ofList]
    rw [wordLower, textLower, AsciiAlike]

/-- No ASCII word differs from a text with a Kelvin sign in the case of ASCII letters only. -/
theorem IsAscii.not_alike (ascii : IsAscii word) (present : kelvinSign ∈ text.toList) :
    ¬ AsciiAlike word text := by
  intro alike
  have kept : kelvinSign ∈ text.toList.map Char.toLower :=
    List.mem_map.mpr ⟨_, present, toLower_of_foreign kelvinSign_foreign⟩
  have within := ascii.map_toLower kelvinSign (alike ▸ kept)
  exact absurd within (Nat.not_lt.mpr kelvinSign_foreign)

end WireSpan.Text
