/-! Readers of JSON text. A reader takes a value from the head of the text and returns it with what
is left, or says what is wrong first: the text ended inside a value, a value has the wrong type, or
the text is not JSON. -/
namespace ScriptBundle.Json

inductive Fault where
  | ended
  | mistyped
  | malformed
  deriving DecidableEq, Repr

def Fault.message : Fault → String
  | ended => "the text ends inside a value"
  | mistyped => "a value does not have the type of its field"
  | malformed => "the text is not well formed"

abbrev Reader (α : Type) := List Char → Except Fault (α × List Char)

def Shortens {α : Type} (read : Reader α) : Prop :=
  ∀ ⦃text value rest⦄, read text = .ok (value, rest) → rest.length < text.length

def isSpace (c : Char) : Bool := c == ' ' || c == '\n' || c == '\t' || c == '\r'

def skipSpace (text : List Char) : List Char := text.dropWhile isSpace

theorem skipSpaceLength (text : List Char) : (skipSpace text).length ≤ text.length :=
  (List.dropWhile_suffix _).length_le

def readHead : Reader Char := fun text =>
  match skipSpace text with
  | [] => .error .ended
  | c :: rest => .ok (c, rest)

theorem readHeadShortens : Shortens readHead := by
  intro text value rest h
  have bound := skipSpaceLength text
  unfold readHead at h
  split at h
  · cases h
  · rename_i found
    cases h
    rw [found] at bound
    exact bound

def readWord : List Char → Reader Unit
  | [], text => .ok ((), text)
  | _ :: _, [] => .error .ended
  | c :: word, d :: text => if c = d then readWord word text else .error .malformed

theorem readWordLength {word text rest : List Char} (h : readWord word text = .ok ((), rest)) :
    rest.length ≤ text.length := by
  induction word generalizing text with
  | nil => cases h; exact Nat.le_refl _
  | cons c word ih =>
    cases text with
    | nil => simp [readWord] at h
    | cons d text =>
      simp only [readWord] at h
      split at h
      · exact Nat.le_succ_of_le (ih h)
      · contradiction

def readColon : Reader Unit := fun text =>
  match readHead text with
  | .error fault => .error fault
  | .ok (c, rest) => if c = ':' then .ok ((), rest) else .error .malformed

theorem readColonShortens : Shortens readColon := by
  intro text value rest h
  unfold readColon at h
  split at h
  · cases h
  · rename_i found
    split at h
    · cases h; exact readHeadShortens found
    · cases h

inductive Step where
  | closed (rest : List Char)
  | item (rest : List Char)
  deriving DecidableEq, Repr

def nextStep (close : Char) (first : Bool) (text : List Char) : Except Fault Step :=
  match readHead text with
  | .error fault => .error fault
  | .ok (c, rest) =>
    if c = close then .ok (.closed rest)
    else if first then .ok (.item (c :: rest))
    else if c = ',' then
      match readHead rest with
      | .error fault => .error fault
      | .ok (d, rest) => if d = close then .error .malformed else .ok (.item (d :: rest))
    else .error .malformed

theorem nextStepItem {close first text rest} (h : nextStep close first text = .ok (.item rest)) :
    rest.length ≤ text.length := by
  unfold nextStep at h
  split at h
  · cases h
  · rename_i c tail found
    have outer := readHeadShortens found
    split at h
    · cases h
    · split at h
      · cases h; exact outer
      · split at h
        · split at h
          · cases h
          · rename_i d last next
            have inner := readHeadShortens next
            split at h
            · cases h
            · cases h
              rw [List.length_cons]
              omega
        · cases h

theorem nextStepClosed {close first text rest} (h : nextStep close first text = .ok (.closed rest)) :
    rest.length < text.length := by
  unfold nextStep at h
  split at h
  · cases h
  · rename_i c tail found
    split at h
    · cases h; exact readHeadShortens found
    · split at h
      · cases h
      · split at h
        · split at h
          · cases h
          · split at h <;> cases h
        · cases h

def readItems {α : Type} (item : Reader α) (shortens : Shortens item) (first : Bool)
    (text : List Char) : Except Fault (List α × List Char) :=
  match next : nextStep ']' first text with
  | .error fault => .error fault
  | .ok (.closed rest) => .ok ([], rest)
  | .ok (.item start) =>
    match found : item start with
    | .error fault => .error fault
    | .ok (value, rest) =>
      have : rest.length < text.length := Nat.lt_of_lt_of_le (shortens found) (nextStepItem next)
      match readItems item shortens false rest with
      | .error fault => .error fault
      | .ok (values, rest) => .ok (value :: values, rest)
termination_by text.length

theorem readItemsShortens {α : Type} {item : Reader α} {shortens : Shortens item} {first text values rest}
    (h : readItems item shortens first text = .ok (values, rest)) : rest.length < text.length := by
  fun_induction readItems item shortens first text generalizing values rest with
  | case1 => contradiction
  | case2 first text closed next => cases h; exact nextStepClosed next
  | case3 => contradiction
  | case4 => simp_all
  | case5 first text start next value after found shorter values' rest' tail ih =>
    cases h
    exact Nat.lt_trans (ih tail) shorter

end ScriptBundle.Json
