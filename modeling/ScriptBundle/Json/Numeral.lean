import ScriptBundle.Json.Reader
import ScriptBundle.Number
/-! JSON numerals: a whole part without superfluous zeros, a fraction and an exponent. The sign is
not part of a numeral. -/
namespace ScriptBundle.Json

structure Numeral where
  whole : List Char
  fraction : List Char
  exponent : Int
  deriving DecidableEq, Repr

def readDigits (short : Fault) : Reader (List Char) := fun text =>
  match text.takeWhile Char.isDigit with
  | [] => .error (if text.isEmpty then short else .malformed)
  | digits => .ok (digits, text.dropWhile Char.isDigit)

theorem readDigitsShortens (short : Fault) : Shortens (readDigits short) := by
  intro text value rest h
  have whole : text.takeWhile Char.isDigit ++ text.dropWhile Char.isDigit = text :=
    List.takeWhile_append_dropWhile
  have lengths := congrArg List.length whole
  rw [List.length_append] at lengths
  unfold readDigits at h
  split at h
  · cases h
  · rename_i digits notEmpty
    cases h
    have := List.length_pos_iff.mpr notEmpty
    omega

def readWhole (short : Fault) : Reader (List Char) := fun text =>
  match readDigits short text with
  | .error fault => .error fault
  | .ok ('0' :: _ :: _, _) => .error .malformed
  | .ok taken => .ok taken

def readFraction (short : Fault) : Reader (List Char)
  | '.' :: rest => readDigits short rest
  | rest => .ok ([], rest)

def readExponentDigits (short : Fault) : Reader Int
  | '+' :: rest => (readDigits short rest).map fun taken => ((Decimal.value taken.1 : Int), taken.2)
  | '-' :: rest => (readDigits short rest).map fun taken => (-(Decimal.value taken.1 : Int), taken.2)
  | rest => (readDigits short rest).map fun taken => ((Decimal.value taken.1 : Int), taken.2)

def readExponent (short : Fault) : Reader Int
  | 'e' :: rest => readExponentDigits short rest
  | 'E' :: rest => readExponentDigits short rest
  | rest => .ok (0, rest)

def readNumeral (short : Fault) : Reader Numeral := fun text =>
  match readWhole short text with
  | .error fault => .error fault
  | .ok (whole, rest) =>
    match readFraction short rest with
    | .error fault => .error fault
    | .ok (fraction, rest) =>
      match readExponent short rest with
      | .error fault => .error fault
      | .ok (exponent, rest) => .ok (⟨whole, fraction, exponent⟩, rest)

theorem readWholeShortens (short : Fault) : Shortens (readWhole short) := by
  intro text value rest h
  unfold readWhole at h
  split at h
  · cases h
  · cases h
  · rename_i found
    cases h
    exact readDigitsShortens short found

theorem readFractionLength {short : Fault} {text value rest}
    (h : readFraction short text = .ok (value, rest)) : rest.length ≤ text.length := by
  unfold readFraction at h
  split at h
  · exact Nat.le_of_lt (Nat.lt_succ_of_lt (readDigitsShortens short h))
  · cases h; exact Nat.le_refl _

theorem mappedDigitsLength {α : Type} {short : Fault} {text value rest} {f : List Char → α}
    (h : (readDigits short text).map (fun taken => (f taken.1, taken.2)) = .ok (value, rest)) :
    rest.length < text.length := by
  cases found : readDigits short text with
  | error fault => rw [found] at h; cases h
  | ok taken =>
    rw [found] at h
    cases h
    exact readDigitsShortens short found

theorem readExponentDigitsShortens (short : Fault) : Shortens (readExponentDigits short) := by
  intro text value rest h
  unfold readExponentDigits at h
  split at h
  · exact Nat.lt_succ_of_lt (mappedDigitsLength (f := fun d => (Decimal.value d : Int)) h)
  · exact Nat.lt_succ_of_lt (mappedDigitsLength (f := fun d => -(Decimal.value d : Int)) h)
  · exact mappedDigitsLength (f := fun d => (Decimal.value d : Int)) h

theorem readExponentLength {short : Fault} {text value rest}
    (h : readExponent short text = .ok (value, rest)) : rest.length ≤ text.length := by
  unfold readExponent at h
  split at h
  · exact Nat.le_of_lt (Nat.lt_succ_of_lt (readExponentDigitsShortens short h))
  · exact Nat.le_of_lt (Nat.lt_succ_of_lt (readExponentDigitsShortens short h))
  · cases h; exact Nat.le_refl _

theorem readNumeralShortens (short : Fault) : Shortens (readNumeral short) := by
  intro text value rest h
  unfold readNumeral at h
  split at h
  · cases h
  · rename_i whole afterWhole foundWhole
    split at h
    · cases h
    · rename_i fraction afterFraction foundFraction
      split at h
      · cases h
      · rename_i exponent afterExponent foundExponent
        cases h
        have := readWholeShortens short foundWhole
        have := readFractionLength foundFraction
        have := readExponentLength foundExponent
        omega

namespace Numeral

def absorb (significand : Nat) : List Char → Nat × List Char
  | [] => (significand, [])
  | c :: rest =>
    let next := significand * 10 + Decimal.digit c
    if next < 2 ^ 64 then absorb next rest else (significand, c :: rest)

/-- From here on a product no longer rounds to a finite double. -/
def overflow : Nat := Nat.pow 2 1024 - Nat.pow 2 970

def tooLarge (n : Numeral) : Bool :=
  let (leading, dropped) := absorb 0 n.whole
  let (significand, ignored) := absorb leading n.fraction
  let exponent := n.exponent + dropped.length - (n.fraction.length - ignored.length : Nat)
  significand != 0 && (308 < exponent || (0 ≤ exponent && overflow ≤
    Rounding.toSignificand significand * Rounding.toSignificand (Nat.pow 10 exponent.toNat)))

end Numeral
end ScriptBundle.Json
