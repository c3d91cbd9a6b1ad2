import ScriptBundle.Json.Numeral
import ScriptBundle.Json.Quoted
/-! Skipping a JSON value that nobody asked for, at any depth. Only its shape is checked: a number
may have any size and quoted text may hold lone surrogates. -/
namespace ScriptBundle.Json

/-- A value without parts. A numeral that the text cuts short counts as malformed here. -/
def skipScalar : Reader Unit
  | [] => .error .ended
  | c :: rest =>
    if c = 'n' then readWord "ull".toList rest
    else if c = 't' then readWord "rue".toList rest
    else if c = 'f' then readWord "alse".toList rest
    else if c = '"' then skipQuoted rest
    else if c = '-' then (readNumeral .malformed rest).map fun taken => ((), taken.2)
    else if c.isDigit then (readNumeral .malformed (c :: rest)).map fun taken => ((), taken.2)
    else .error .malformed

theorem skippedNumeralLength {text rest : List Char} {value : Unit}
    (h : (readNumeral .malformed text).map (fun taken => ((), taken.2)) = .ok (value, rest)) :
    rest.length < text.length := by
  cases found : readNumeral .malformed text with
  | error fault => rw [found] at h; cases h
  | ok taken =>
    rw [found] at h
    cases h
    exact readNumeralShortens _ found

theorem skipScalarShortens : Shortens skipScalar := by
  intro text value rest h
  unfold skipScalar at h
  split at h
  · cases h
  · rename_i c tail
    split at h
    · exact Nat.lt_succ_of_le (readWordLength h)
    · split at h
      · exact Nat.lt_succ_of_le (readWordLength h)
      · split at h
        · exact Nat.lt_succ_of_le (readWordLength h)
        · split at h
          · exact Nat.lt_succ_of_lt (skipQuotedShortens h)
          · split at h
            · exact Nat.lt_succ_of_lt (skippedNumeralLength h)
            · split at h
              · exact skippedNumeralLength h
              · cases h

inductive Frame where
  | list
  | object
  deriving DecidableEq, Repr

inductive Due where
  | value
  | member
  | next
  deriving DecidableEq, Repr

/-- Skips up to the end of the outermost value; the frames are the brackets still open. -/
def skip (due : Due) (frames : List Frame) (text : List Char) : Except Fault (List Char) :=
  match due, frames with
  | .next, [] => .ok text
  | .next, frame :: frames =>
    match found : readHead text with
    | .error fault => .error fault
    | .ok (c, rest) =>
      have := readHeadShortens found
      match frame with
      | .list =>
        if c = ',' then skip .value (.list :: frames) rest
        else if c = ']' then skip .next frames rest
        else .error .malformed
      | .object =>
        if c = ',' then skip .member (.object :: frames) rest
        else if c = '}' then skip .next frames rest
        else .error .malformed
  | .value, frames =>
    match found : readHead text with
    | .error fault => .error fault
    | .ok (c, rest) =>
      have := readHeadShortens found
      if c = '[' then
        match start : readHead rest with
        | .error fault => .error fault
        | .ok (d, tail) =>
          have := readHeadShortens start
          if d = ']' then skip .next frames tail else skip .value (.list :: frames) (d :: tail)
      else if c = '{' then
        match start : readHead rest with
        | .error fault => .error fault
        | .ok (d, tail) =>
          have := readHeadShortens start
          if d = '}' then skip .next frames tail else skip .member (.object :: frames) (d :: tail)
      else
        match scalar : skipScalar (c :: rest) with
        | .error fault => .error fault
        | .ok ((), after) =>
          have := skipScalarShortens scalar
          skip .next frames after
  | .member, frames =>
    match found : readHead text with
    | .error fault => .error fault
    | .ok (c, rest) =>
      have := readHeadShortens found
      if c = '"' then
        match key : skipQuoted rest with
        | .error fault => .error fault
        | .ok ((), after) =>
          have := skipQuotedShortens key
          match colon : readColon after with
          | .error fault => .error fault
          | .ok ((), after) =>
            have := readColonShortens colon
            skip .value frames after
      else .error .malformed
termination_by text.length
decreasing_by all_goals grind

theorem skipLength {due frames text rest} (h : skip due frames text = .ok rest) :
    rest.length ≤ text.length ∧ (due ≠ .next → rest.length < text.length) := by
  fun_induction skip due frames text generalizing rest <;> grind

def skipValue : Reader Unit := fun text => (skip .value [] text).map fun rest => ((), rest)

theorem skipValueShortens : Shortens skipValue := by
  intro text value rest h
  unfold skipValue at h
  cases found : skip .value [] text with
  | error fault => rw [found] at h; cases h
  | ok after =>
    rw [found] at h
    cases h
    exact (skipLength found).2 (by decide)

end ScriptBundle.Json
