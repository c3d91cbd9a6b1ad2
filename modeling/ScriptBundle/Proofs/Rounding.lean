import Mathlib.Algebra.Order.Field.Power
import Mathlib.Algebra.Order.Field.Rat
import Mathlib.Algebra.Ring.Int.Parity
import Mathlib.Tactic.FieldSimp
import Mathlib.Tactic.Linarith
import Mathlib.Tactic.Ring
import ScriptBundle.Number

/-! Rounding as a relation: a value rounds to the nearest number of a grid, and on a tie to the even one. This
leaves no choice and keeps the order of the values, whatever numbers the grid is made of. The two grids here
are the multiples of a step, and the numbers of so many significant bits. -/
namespace ScriptBundle.Rounding

/- Counted in gaps between the two, the chosen number of a tie is even. Among the multiples of a step that is the
even multiple, and among the numbers of so many bits the one with an even significand. -/
structure Rounds (grid : Set ℚ) (value rounded : ℚ) : Prop where
  member : rounded ∈ grid
  closest : ∀ other ∈ grid, |value - rounded| ≤ |value - other|
  even : ∀ other ∈ grid, other ≠ rounded → |value - other| = |value - rounded| →
    ∃ steps : ℤ, Even steps ∧ rounded = steps * |rounded - other|

section Grids
variable {grid wider : Set ℚ} {value later x y : ℚ}

theorem Rounds.self (member : value ∈ grid) : Rounds grid value value where
  member := member
  closest other _ := by
    rw [sub_self, abs_zero]
    exact abs_nonneg _
  even other _ different tie := by
    rw [sub_self, abs_zero, abs_eq_zero, sub_eq_zero] at tie
    exact absurd tie.symm different

theorem Rounds.unique (first : Rounds grid value x) (second : Rounds grid value y) : x = y := by
  by_contra different
  have tie : |value - x| = |value - y| :=
    le_antisymm (first.closest y second.member) (second.closest x first.member)
  obtain ⟨a, evenA, atX⟩ := first.even y second.member (Ne.symm different) tie.symm
  obtain ⟨b, evenB, atY⟩ := second.even x first.member different tie
  rw [abs_sub_comm] at atY
  have gap : 0 < |x - y| := abs_pos.mpr (sub_ne_zero.mpr different)
  have apart : |((a - b : ℤ) : ℚ)| * |x - y| = 1 * |x - y| := by
    rw [← abs_of_pos gap, ← abs_mul, abs_of_pos gap, Int.cast_sub, sub_mul, ← atX, ← atY, one_mul]
  have unit : |a - b| = 1 := by exact_mod_cast mul_right_cancel₀ gap.ne' apart
  have parity : Even (a - b) := evenA.sub evenB
  rw [← even_abs, unit] at parity
  exact Int.not_even_one parity

theorem Rounds.exactly (rounds : Rounds grid value x) : Rounds grid value y ↔ y = x :=
  ⟨fun again => again.unique rounds, fun same => same ▸ rounds⟩

theorem nearerAbove (below : y < x) (near : |value - x| ≤ |value - y|) : x + y ≤ 2 * value := by
  by_contra short
  have far : |value - y| < x - value := abs_lt.mpr ⟨by linarith, by linarith⟩
  linarith [neg_abs_le (value - x)]

theorem nearerBelow (below : y < x) (near : |value - y| ≤ |value - x|) : 2 * value ≤ x + y := by
  by_contra long
  have far : |value - x| < value - y := abs_lt.mpr ⟨by linarith, by linarith⟩
  linarith [le_abs_self (value - y)]

theorem Rounds.monotone (first : Rounds grid value x) (second : Rounds grid later y) (order : value ≤ later) :
    x ≤ y := by
  by_contra below
  rw [not_le] at below
  -- Both values lie in the middle between y and x, so they are one value.
  have above := nearerAbove below (first.closest y second.member)
  have under := nearerBelow below (second.closest x first.member)
  obtain rfl : value = later := by linarith
  exact below.ne' (first.unique second)

theorem Rounds.widened (rounds : Rounds grid value x) (member : x ∈ wider)
    (farther : ∀ other ∈ wider, other ∈ grid ∨ |value - x| < |value - other|) : Rounds wider value x where
  member := member
  closest other found := (farther other found).elim (rounds.closest other) le_of_lt
  even other found different tie :=
    (farther other found).elim (fun inside => rounds.even other inside different tie) fun far => absurd tie far.ne'

end Grids

section Multiples
variable {n d : ℕ}

def multiples (step : ℚ) : Set ℚ := {x | ∃ k : ℤ, x = k * step}

theorem nearestHalf (n : ℕ) (positive : 0 < d) :
    2 * |(n : ℤ) - nearest n d * d| ≤ d ∧ (2 * |(n : ℤ) - nearest n d * d| = d → Even (nearest n d)) := by
  have whole : (n : ℤ) = (n / d : ℕ) * d + (n % d : ℕ) := by exact_mod_cast (Nat.div_add_mod' n d).symm
  have rest : n % d < d := Nat.mod_lt n positive
  unfold nearest
  split
  · rename_i up
    have left : (n : ℤ) - (n / d + 1 : ℕ) * d = -((d : ℤ) - (n % d : ℕ)) := by
      rw [Nat.cast_succ, add_mul]
      linarith
    rw [left, abs_neg, abs_of_pos (by omega)]
    refine ⟨by omega, fun tie => ?_⟩
    rw [Nat.even_iff]
    omega
  · rename_i down
    have left : (n : ℤ) - (n / d : ℕ) * d = (n % d : ℕ) := by linarith
    rw [left, abs_of_nonneg (by omega)]
    refine ⟨by omega, fun tie => ?_⟩
    rw [Nat.even_iff]
    omega

theorem nearestApart (positive : 0 < d) {k : ℤ} (different : k ≠ nearest n d) :
    |(n : ℤ) - nearest n d * d| ≤ |(n : ℤ) - k * d| ∧
      (|(n : ℤ) - k * d| = |(n : ℤ) - nearest n d * d| → Even (nearest n d) ∧ |(nearest n d : ℤ) - k| = 1) := by
  have half := nearestHalf n positive
  have apart : 1 ≤ |(nearest n d : ℤ) - k| := Int.one_le_abs (sub_ne_zero.mpr different.symm)
  have between : |(nearest n d : ℤ) - k| * d ≤ |(n : ℤ) - nearest n d * d| + |(n : ℤ) - k * d| := by
    calc |(nearest n d : ℤ) - k| * d = |(nearest n d * d - n : ℤ) + (n - k * d)| := by
          rw [sub_add_sub_cancel, ← sub_mul, abs_mul, Nat.abs_cast]
      _ ≤ |(nearest n d * d - n : ℤ)| + |(n : ℤ) - k * d| := abs_add_le ..
      _ = |(n : ℤ) - nearest n d * d| + |(n : ℤ) - k * d| := by rw [abs_sub_comm]
  have wide : (d : ℤ) ≤ |(nearest n d : ℤ) - k| * d := le_mul_of_one_le_left (Nat.cast_nonneg d) apart
  refine ⟨by linarith, fun tie => ⟨half.2 (by linarith), ?_⟩⟩
  have narrow : |(nearest n d : ℤ) - k| * d ≤ 1 * d := by linarith
  exact le_antisymm (le_of_mul_le_mul_right narrow (Nat.cast_pos.mpr positive)) apart

theorem nearestLe (n d : ℕ) : nearest n d ≤ n / d + 1 := by
  unfold nearest
  split <;> omega

theorem multipleDistance {step value : ℚ} (positive : 0 < d) (stepping : 0 < step) (ratio : value * d = n * step)
    (k : ℤ) : |value - k * step| = (|(n : ℤ) - k * d| : ℤ) * (step / d) := by
  have divisor : (0 : ℚ) < d := Nat.cast_pos.mpr positive
  have scaled : value - k * step = ((n - k * d : ℤ) : ℚ) * (step / d) := by
    push_cast
    field_simp
    linarith
  rw [scaled, abs_mul, abs_of_pos (div_pos stepping divisor), Int.cast_abs]

theorem nearestRounds {step value : ℚ} (positive : 0 < d) (stepping : 0 < step) (ratio : value * d = n * step) :
    Rounds (multiples step) value (nearest n d * step) := by
  have distance := multipleDistance positive stepping ratio
  have scale : 0 < step / d := div_pos stepping (Nat.cast_pos.mpr positive)
  rw [← Int.cast_natCast (nearest n d)]
  refine ⟨⟨nearest n d, rfl⟩, ?_, ?_⟩
  · rintro _ ⟨k, rfl⟩
    by_cases same : k = nearest n d
    · rw [same]
    · rw [distance, distance]
      exact mul_le_mul_of_nonneg_right (Int.cast_le.mpr (nearestApart positive same).1) scale.le
  · rintro _ ⟨k, rfl⟩ different tie
    have other : k ≠ nearest n d := fun same => different (by rw [same])
    rw [distance, distance] at tie
    obtain ⟨even, gap⟩ := (nearestApart positive other).2 (Int.cast_injective (mul_right_cancel₀ scale.ne' tie))
    refine ⟨nearest n d, even.natCast, ?_⟩
    rw [← sub_mul, abs_mul, abs_of_pos stepping, ← Int.cast_sub, ← Int.cast_abs, gap, Int.cast_one, one_mul]

end Multiples

section Significands

def significant (bits : ℕ) : Set ℚ := {x | ∃ m e : ℤ, |m| < 2 ^ bits ∧ x = m * 2 ^ e}

theorem shiftMember {bits m : ℕ} (small : m ≤ 2 ^ bits) (positive : 0 < bits) (e : ℕ) :
    (m * 2 ^ e : ℚ) ∈ significant bits := by
  rcases small.lt_or_eq with less | rfl
  · exact ⟨m, e, by exact_mod_cast less, by simp⟩
  · refine ⟨1, bits + e, ?_, ?_⟩
    · rw [abs_one]
      exact one_lt_pow₀ (by decide) positive.ne'
    · simp [zpow_add₀]

theorem wholeMember {n : ℕ} (small : n ≤ 2 ^ 53) : (n : ℚ) ∈ significant 53 := by
  have member := shiftMember small (by decide) 0
  rwa [pow_zero, mul_one] at member

/- A number of so many bits is a multiple of the unit, or it is too small to come near. -/
theorem significantCases (bits : ℕ) {unit : ℕ} {x : ℚ} (member : x ∈ significant (bits + 1)) :
    x ∈ multiples (2 ^ unit) ∨ x < 2 ^ bits * 2 ^ unit := by
  obtain ⟨m, e, small, rfl⟩ := member
  by_cases reaches : (unit : ℤ) ≤ e
  · obtain ⟨more, rfl⟩ := Int.le.dest reaches
    refine .inl ⟨m * 2 ^ more, ?_⟩
    push_cast
    rw [zpow_add₀ two_ne_zero, zpow_natCast, zpow_natCast]
    ring
  · refine .inr ?_
    have low : (2 : ℚ) ^ e ≤ 2 ^ ((unit : ℤ) - 1) := zpow_le_zpow_right₀ one_le_two (by omega)
    have size : (m : ℚ) < 2 ^ (bits + 1) := by exact_mod_cast (abs_lt.mp small).2
    calc (m : ℚ) * 2 ^ e < 2 ^ (bits + 1) * 2 ^ e := mul_lt_mul_of_pos_right size (zpow_pos two_pos e)
      _ ≤ 2 ^ (bits + 1) * 2 ^ ((unit : ℤ) - 1) := mul_le_mul_of_nonneg_left low (by positivity)
      _ = 2 ^ bits * 2 ^ unit := by
        rw [zpow_sub_one₀ two_ne_zero, zpow_natCast, pow_succ]
        ring

theorem significandSize {n : ℕ} (large : 2 ^ 53 ≤ n) :
    2 ^ 52 * 2 ^ (n.log2 + 1 - 53) ≤ n ∧ n < 2 ^ 53 * 2 ^ (n.log2 + 1 - 53) := by
  have nonzero : n ≠ 0 := by omega
  have long : 53 ≤ n.log2 := (Nat.le_log2 nonzero).mpr large
  rw [← pow_add, ← pow_add]
  constructor
  · rw [show 52 + (n.log2 + 1 - 53) = n.log2 by omega]
    exact Nat.log2_self_le nonzero
  · rw [show 53 + (n.log2 + 1 - 53) = n.log2 + 1 by omega]
    exact Nat.lt_log2_self

theorem toSignificandSmall {n : ℕ} (small : n < 2 ^ 53) : toSignificand n = n := if_pos small

theorem toSignificandLarge {n : ℕ} (large : 2 ^ 53 ≤ n) :
    toSignificand n = nearest n (2 ^ (n.log2 + 1 - 53)) * 2 ^ (n.log2 + 1 - 53) := if_neg (not_lt.mpr large)

theorem significandRounds (n : ℕ) : Rounds (significant 53) n (toSignificand n) := by
  rcases lt_or_ge n (2 ^ 53) with small | large
  · rw [toSignificandSmall small]
    exact .self (wholeMember small.le)
  · obtain ⟨least, most⟩ := significandSize large
    rw [toSignificandLarge large]
    generalize n.log2 + 1 - 53 = unit at least most ⊢
    have unitPositive : 0 < 2 ^ unit := Nat.two_pow_pos unit
    have rounds : Rounds (multiples (2 ^ unit)) n (nearest n (2 ^ unit) * 2 ^ unit) :=
      nearestRounds unitPositive (pow_pos two_pos unit) (by push_cast; rfl)
    push_cast
    refine rounds.widened (shiftMember ?_ (by decide) unit) fun other member => ?_
    · have quotient : n / 2 ^ unit < 2 ^ 53 := (Nat.div_lt_iff_lt_mul unitPositive).mpr most
      exact (nearestLe n _).trans quotient
    · refine (significantCases 52 member).imp_right fun less => ?_
      -- The least multiple of the unit with all bits in use lies between the smaller number and n.
      have start : (2 ^ 52 * 2 ^ unit : ℚ) ≤ n := by exact_mod_cast least
      calc |(n : ℚ) - nearest n (2 ^ unit) * 2 ^ unit| ≤ |(n : ℚ) - 2 ^ 52 * 2 ^ unit| :=
            rounds.closest _ ⟨2 ^ 52, by push_cast; rfl⟩
        _ = n - 2 ^ 52 * 2 ^ unit := abs_of_nonneg (sub_nonneg.mpr start)
        _ < n - other := sub_lt_sub_left less _
        _ ≤ |(n : ℚ) - other| := le_abs_self _

theorem significandExact {n : ℕ} (small : n ≤ 2 ^ 53) : toSignificand n = n := by
  exact_mod_cast (significandRounds n).unique (.self (wholeMember small))

end Significands
end ScriptBundle.Rounding
