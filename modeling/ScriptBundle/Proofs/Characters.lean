import ScriptBundle.Binding

/-! Classes of characters that exclude each other: a word character is never blank, and every
character of an upper-case name is a word character. -/
namespace ScriptBundle.Text

theorem alphanumRange {c : Char} (h : c.isAlphanum = true) :
    (48 ≤ c.toNat ∧ c.toNat ≤ 57) ∨ (65 ≤ c.toNat ∧ c.toNat ≤ 90) ∨
      (97 ≤ c.toNat ∧ c.toNat ≤ 122) := by
  rcases (Bool.or_eq_true _ _).mp h with letter | digit
  · rcases (Bool.or_eq_true _ _).mp letter with upper | lower
    · obtain ⟨low, high⟩ := of_decide_eq_true upper
      exact .inr (.inl ⟨UInt32.le_iff_toNat_le.mp low, UInt32.le_iff_toNat_le.mp high⟩)
    · obtain ⟨low, high⟩ := (Bool.and_eq_true _ _).mp lower
      exact .inr (.inr ⟨UInt32.le_iff_toNat_le.mp (of_decide_eq_true low),
        UInt32.le_iff_toNat_le.mp (of_decide_eq_true high)⟩)
  · obtain ⟨low, high⟩ := (Bool.and_eq_true _ _).mp digit
    exact .inl ⟨UInt32.le_iff_toNat_le.mp (of_decide_eq_true low),
      UInt32.le_iff_toNat_le.mp (of_decide_eq_true high)⟩

theorem rangesApart : ∀ word ∈ wordRanges, ∀ blank ∈ blankRanges,
    word.2 < blank.1 ∨ blank.2 < word.1 := by
  decide +kernel

theorem blankInRange {c : Char} (blank : isBlank c = true) :
    ∃ range ∈ blankRanges, range.1 ≤ c.toNat ∧ c.toNat ≤ range.2 := by
  simpa [isBlank, inRanges] using blank

/- Below the table of word ranges only letters, digits and the low line are word characters. -/
theorem wordNotBlank {c : Char} (word : isWord c = true) : isBlank c = false := by
  cases blank : isBlank c with
  | false => rfl
  | true =>
    exfalso
    obtain ⟨range, member, low, high⟩ := blankInRange blank
    have ascii : ∀ r ∈ blankRanges, r.2 < 48 ∨ 122 < r.1 := by decide
    simp only [isWord, inRanges, Bool.or_eq_true, Bool.and_eq_true, decide_eq_true_eq, beq_iff_eq,
      List.any_eq_true] at word
    rcases word with (alphanum | rfl) | ⟨_, other, listed, above, below⟩
    · have := alphanumRange alphanum
      have := ascii range member
      omega
    · have lowLine : '_'.toNat = 95 := rfl
      have := ascii range member
      omega
    · have := rangesApart other listed range member
      omega

theorem blankNotWord {c : Char} (blank : isBlank c = true) : isWord c = false := by
  cases word : isWord c with
  | false => rfl
  | true => simp [wordNotBlank word] at blank

theorem wordPlain {word : List Char} (h : ∀ c ∈ word, isWord c = true) : '\n' ∉ word :=
  fun member => absurd (h _ member) (by decide)

theorem upperWord {c : Char} (upper : c.isUpper = true) : isWord c = true := by
  have letter : c.isAlpha = true := (Bool.or_eq_true _ _).mpr (.inl upper)
  simp [isWord, Char.isAlphanum, letter]

theorem nameCharWord {c : Char} (h : Binding.isNameChar c = true) : isWord c = true := by
  simp only [Binding.isNameChar, Bool.or_eq_true, beq_iff_eq] at h
  rcases h with (upper | digit) | rfl
  · exact upperWord upper
  · simp [isWord, Char.isAlphanum, digit]
  · rfl

end ScriptBundle.Text
