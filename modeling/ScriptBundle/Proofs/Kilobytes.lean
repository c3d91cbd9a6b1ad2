import ScriptBundle.Proofs.Rounding

/-! Sizes in kilobytes as they are shown. A number of units is written with all its places and reads back as
itself, so what a size shows is the byte count rounded twice: to the bits of a double, and the quotient
by 1024 to the places. -/
namespace ScriptBundle
namespace Decimal

structure Whole (digits : List Char) : Prop where
  nonempty : digits ≠ []
  decimal : ∀ c ∈ digits, c.isDigit = true
  lone : digits.head? = some '0' → digits = ['0']

inductive Plain : ℕ → List Char → Prop where
  | whole {digits : List Char} (known : Whole digits) : Plain 0 digits
  | point {digits fraction : List Char} (known : Whole digits) (nonempty : fraction ≠ [])
      (decimal : ∀ c ∈ fraction, c.isDigit = true) : Plain fraction.length (digits ++ '.' :: fraction)

def wholePart (text : List Char) : List Char := text.takeWhile (· ≠ '.')

def fraction (text : List Char) : List Char := (text.dropWhile (· ≠ '.')).tail

def reading (text : String) : ℚ :=
  value (wholePart text.toList) + value (fraction text.toList) / 10 ^ (fraction text.toList).length

theorem valueStandard (digits : List Char) : value digits = Nat.ofDigitChars 10 digits 0 := by
  simp only [value, digit, Nat.ofDigitChars, Nat.mul_comm]

theorem valueRepr (n : ℕ) : value (Nat.repr n).toList = n := by
  rw [valueStandard, Nat.toList_repr]
  exact Nat.ofDigitChars_ten_toDigits

theorem leadZero {n : ℕ} (lead : (Nat.toDigits 10 n).head? = some '0') : n = 0 := by
  induction n using Nat.strong_induction_on with
  | _ n ih =>
    rcases lt_or_ge n 10 with single | several
    · rw [Nat.toDigits_of_lt_base single, List.head?_singleton, Option.some.injEq] at lead
      exact Nat.digitChar_eq_zero.mp lead
    · rw [Nat.toDigits_of_base_le (by decide) several, List.head?_append_of_ne_nil _ Nat.toDigits_ne_nil] at lead
      have front := ih (n / 10) (by omega) lead
      omega

theorem reprWhole (n : ℕ) : Whole (Nat.repr n).toList where
  nonempty := by
    rw [Nat.toList_repr]
    exact Nat.toDigits_ne_nil
  decimal := reprDecimal n
  lone lead := by
    rw [Nat.toList_repr] at lead
    rw [leadZero lead]
    rfl

theorem paddedChars (width n : ℕ) :
    (padded width n).toList = List.replicate (width - (Nat.repr n).length) '0' ++ (Nat.repr n).toList := by
  simp [padded]

theorem paddedDecimal (width n : ℕ) : ∀ c ∈ (padded width n).toList, c.isDigit = true := by
  intro c member
  rw [paddedChars, List.mem_append] at member
  rcases member with zero | digit
  · rw [List.eq_of_mem_replicate zero]
    rfl
  · exact reprDecimal n c digit

theorem paddedValue (width n : ℕ) : value (padded width n).toList = n := by
  rw [paddedChars, valueStandard, Nat.ofDigitChars_append, Nat.ofDigitChars_replicate_zero, Nat.mul_zero,
    ← valueStandard, valueRepr]

theorem paddedLength {width n : ℕ} (positive : 0 < width) (fits : n < 10 ^ width) :
    (padded width n).toList.length = width := by
  have short : (Nat.repr n).length ≤ width := by
    rw [← String.length_toList, Nat.toList_repr]
    exact (Nat.length_toDigits_le_iff (by decide) positive).mpr fits
  rw [paddedChars, List.length_append, List.length_replicate, String.length_toList]
  omega

theorem digitsStop {digits : List Char} (decimal : ∀ c ∈ digits, c.isDigit = true) (rest : List Char) :
    wholePart (digits ++ rest) = digits ++ wholePart rest ∧ fraction (digits ++ rest) = fraction rest := by
  have digitsOnly : ∀ c ∈ digits, decide (c ≠ '.') = true := by
    intro c member
    refine decide_eq_true fun point => ?_
    rw [point] at member
    cases decimal _ member
  rw [wholePart, fraction, List.takeWhile_append_of_pos digitsOnly, List.dropWhile_append_of_pos digitsOnly]
  exact ⟨rfl, rfl⟩

theorem wholeReads {text : String} (decimal : ∀ c ∈ text.toList, c.isDigit = true) :
    reading text = value text.toList := by
  have stop := digitsStop decimal []
  rw [List.append_nil] at stop
  rw [reading, stop.1, stop.2]
  simp [wholePart, fraction, value]

theorem pointReads {text : String} {digits places : List Char} (chars : text.toList = digits ++ '.' :: places)
    (decimal : ∀ c ∈ digits, c.isDigit = true) :
    reading text = value digits + value places / 10 ^ places.length := by
  have stop := digitsStop decimal ('.' :: places)
  rw [reading, chars, stop.1, stop.2]
  simp [wholePart, fraction]

theorem fixedChars (units : ℕ) {places : ℕ} (pointed : places ≠ 0) :
    (fixed units places).toList =
      (Nat.repr (units / 10 ^ places)).toList ++ '.' :: (padded places (units % 10 ^ places)).toList := by
  rw [fixed, if_neg pointed, String.toList_append, String.toList_append, List.append_assoc]
  rfl

theorem fractionLength (units : ℕ) {places : ℕ} (pointed : places ≠ 0) :
    (padded places (units % 10 ^ places)).toList.length = places :=
  paddedLength (Nat.pos_of_ne_zero pointed) (Nat.mod_lt _ (Nat.pow_pos (by decide)))

theorem fixedPlain (units places : ℕ) : Plain places (fixed units places).toList := by
  by_cases pointless : places = 0
  · subst pointless
    exact .whole (reprWhole units)
  · have length := fractionLength units pointless
    rw [fixedChars units pointless]
    conv => arg 1; rw [← length]
    refine .point (reprWhole _) (fun empty => pointless ?_) (paddedDecimal _ _)
    rw [← length, empty, List.length_nil]

theorem fixedReads (units places : ℕ) : reading (fixed units places) = units / 10 ^ places := by
  by_cases pointless : places = 0
  · subst pointless
    have whole : fixed units 0 = Nat.repr units := rfl
    rw [whole, wholeReads (reprDecimal units), valueRepr, pow_zero, div_one]
  · have parts : (units : ℚ) = 10 ^ places * (units / 10 ^ places : ℕ) + (units % 10 ^ places : ℕ) := by
      exact_mod_cast (Nat.div_add_mod units (10 ^ places)).symm
    rw [pointReads (fixedChars units pointless) (reprDecimal _), valueRepr, paddedValue, fractionLength units pointless,
      parts]
    field_simp

end Decimal

namespace Kilobytes
open Rounding (Rounds multiples significant toSignificand significandRounds significandExact nearestRounds)
open Decimal (Plain reading fixedPlain fixedReads)

theorem shownRounds (bytes places : ℕ) :
    Rounds (multiples (1 / 10 ^ places)) (toSignificand bytes / 1024) (reading (text bytes places)) := by
  have tenth : (0 : ℚ) < 1 / 10 ^ places := one_div_pos.mpr (pow_pos (by norm_num) places)
  have ratio : (toSignificand bytes / 1024 : ℚ) * (1024 : ℕ) =
      (toSignificand bytes * 10 ^ places : ℕ) * (1 / 10 ^ places) := by
    push_cast
    field_simp
  have shown : reading (text bytes places) = units bytes places * (1 / 10 ^ places) := by
    rw [text, fixedReads, mul_one_div]
  rw [shown]
  exact nearestRounds (by decide) tenth ratio

theorem showsNearest (places : ℕ) :
    (∀ bytes, Plain places (text bytes places).toList ∧ ∃ rounded : ℕ,
      (∀ x, Rounds (significant 53) bytes x ↔ x = rounded) ∧ (bytes ≤ 2 ^ 53 → rounded = bytes) ∧
      ∀ x, Rounds (multiples (1 / 10 ^ places)) (rounded / 1024) x ↔ x = reading (text bytes places)) ∧
    Monotone fun bytes => reading (text bytes places) := by
  refine ⟨fun bytes => ⟨fixedPlain _ _, toSignificand bytes, fun x => (significandRounds bytes).exactly,
    significandExact, fun x => (shownRounds bytes places).exactly⟩, fun bytes more order => ?_⟩
  have counts : (toSignificand bytes : ℚ) ≤ toSignificand more :=
    (significandRounds bytes).monotone (significandRounds more) (Nat.cast_le.mpr order)
  exact (shownRounds bytes places).monotone (shownRounds more places) (by linarith)

end Kilobytes
end ScriptBundle
