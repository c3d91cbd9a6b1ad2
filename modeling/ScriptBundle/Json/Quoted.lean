import ScriptBundle.Json.Reader
/-! Quoted JSON text: escapes, pairs of surrogates and plain characters up to the closing quote.
Text that is only skipped may hold lone surrogates; text that is kept may not. -/
namespace ScriptBundle.Json

def hexDigit? (c : Char) : Option Nat :=
  if c.isDigit then some (c.toNat - '0'.toNat)
  else if 'a' ≤ c ∧ c ≤ 'f' then some (c.toNat - 'a'.toNat + 10)
  else if 'A' ≤ c ∧ c ≤ 'F' then some (c.toNat - 'A'.toNat + 10)
  else none

def byteLength (text : List Char) : Nat := text.foldl (fun n c => n + c.utf8Size) 0

/-- Four hexadecimal digits. With fewer than four bytes left the text has ended, whatever they are. -/
def readUnit : Reader Nat
  | a :: b :: c :: d :: rest =>
    match hexDigit? a, hexDigit? b, hexDigit? c, hexDigit? d with
    | some w, some x, some y, some z => .ok (((w * 16 + x) * 16 + y) * 16 + z, rest)
    | _, _, _, _ => .error .malformed
  | short => .error (if byteLength short < 4 then .ended else .malformed)

theorem readUnitShortens : Shortens readUnit := by
  intro text value rest h
  unfold readUnit at h
  split at h
  · split at h
    · cases h; simp only [List.length_cons]; omega
    · cases h
  · cases h

def isLeading (unit : Nat) : Bool := 0xD800 ≤ unit && unit ≤ 0xDBFF

def isTrailing (unit : Nat) : Bool := 0xDC00 ≤ unit && unit ≤ 0xDFFF

def joined (leading trailing : Nat) : Char :=
  Char.ofNat ((leading - 0xD800) * 0x400 + (trailing - 0xDC00) + 0x10000)

def readTrailing (leading : Nat) : Reader Char
  | [] => .error .ended
  | '\\' :: [] => .error .ended
  | '\\' :: 'u' :: rest =>
    match readUnit rest with
    | .error fault => .error fault
    | .ok (unit, rest) =>
      if isTrailing unit then .ok (joined leading unit, rest) else .error .malformed
  | _ => .error .malformed

theorem readTrailingShortens (leading : Nat) : Shortens (readTrailing leading) := by
  intro text value rest h
  unfold readTrailing at h
  split at h
  · cases h
  · cases h
  · split at h
    · cases h
    · rename_i unit tail found
      have shorter := readUnitShortens found
      split at h
      · simp only [Except.ok.injEq, Prod.mk.injEq] at h
        simp only [← h.2, List.length_cons]
        omega
      · cases h
  · cases h

def readCodePoint : Reader Char := fun text =>
  match readUnit text with
  | .error fault => .error fault
  | .ok (unit, rest) =>
    if isTrailing unit then .error .malformed
    else if isLeading unit then readTrailing unit rest
    else .ok (Char.ofNat unit, rest)

theorem readCodePointShortens : Shortens readCodePoint := by
  intro text value rest h
  unfold readCodePoint at h
  split at h
  · cases h
  · rename_i unit tail found
    have := readUnitShortens found
    split at h
    · cases h
    · split at h
      · have := readTrailingShortens unit h
        omega
      · cases h; assumption

def letterEscape? (c : Char) : Option Char :=
  match c with
  | '"' => some '"'
  | '\\' => some '\\'
  | '/' => some '/'
  | 'b' => some '\x08'
  | 'f' => some '\x0c'
  | 'n' => some '\n'
  | 'r' => some '\r'
  | 't' => some '\t'
  | _ => none

def readEscape : Reader Char
  | [] => .error .ended
  | c :: rest =>
    if c = 'u' then readCodePoint rest
    else match letterEscape? c with
      | some value => .ok (value, rest)
      | none => .error .malformed

theorem readEscapeShortens : Shortens readEscape := by
  intro text value rest h
  unfold readEscape at h
  split at h
  · cases h
  · split at h
    · exact Nat.lt_succ_of_lt (readCodePointShortens h)
    · split at h
      · cases h; exact Nat.lt_succ_self _
      · cases h

def isControl (c : Char) : Bool := c.toNat < 0x20

def readQuoted (text : List Char) : Except Fault (List Char × List Char) :=
  match text with
  | [] => .error .ended
  | c :: rest =>
    if c = '"' then .ok ([], rest)
    else if c = '\\' then
      match found : readEscape rest with
      | .error fault => .error fault
      | .ok (value, after) =>
        have := readEscapeShortens found
        match readQuoted after with
        | .error fault => .error fault
        | .ok (values, after) => .ok (value :: values, after)
    else if isControl c then .error .malformed
    else match readQuoted rest with
      | .error fault => .error fault
      | .ok (values, after) => .ok (c :: values, after)
termination_by text.length
decreasing_by all_goals simp_wf; try omega

theorem readQuotedShortens : Shortens readQuoted := by
  intro text value rest h
  fun_induction readQuoted text generalizing value rest <;> simp_all <;> try grind

def skipEscape : Reader Unit
  | [] => .error .ended
  | c :: rest =>
    if c = 'u' then (readUnit rest).map fun taken => ((), taken.2)
    else if (letterEscape? c).isSome then .ok ((), rest)
    else .error .malformed

theorem skipEscapeShortens : Shortens skipEscape := by
  intro text value rest h
  unfold skipEscape at h
  split at h
  · cases h
  · rename_i c tail
    split at h
    · cases found : readUnit tail with
      | error fault => rw [found] at h; cases h
      | ok taken =>
        rw [found] at h
        cases h
        exact Nat.lt_succ_of_lt (readUnitShortens found)
    · split at h
      · cases h; exact Nat.lt_succ_self _
      · cases h

def skipQuoted (text : List Char) : Except Fault (Unit × List Char) :=
  match text with
  | [] => .error .ended
  | c :: rest =>
    if c = '"' then .ok ((), rest)
    else if c = '\\' then
      match found : skipEscape rest with
      | .error fault => .error fault
      | .ok ((), after) =>
        have := skipEscapeShortens found
        skipQuoted after
    else if isControl c then .error .malformed
    else skipQuoted rest
termination_by text.length
decreasing_by all_goals simp_wf; try omega

theorem skipQuotedShortens : Shortens skipQuoted := by
  intro text value rest h
  fun_induction skipQuoted text generalizing value rest <;> simp_all <;> try grind

end ScriptBundle.Json
