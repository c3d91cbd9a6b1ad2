import ScriptBundle.Json.Numeral
import ScriptBundle.Json.Quoted
import ScriptBundle.Table
/-! Values of a known type: text, lists of texts, and tables of such lists. A value of another type
is still looked at before it is refused, so that text that is no JSON at all is named as such. -/
namespace ScriptBundle.Json

def refuse {α : Type} : Except Fault α → Fault
  | .ok _ => .mistyped
  | .error fault => fault

def refuseNumeral (text : List Char) : Fault :=
  match readNumeral .ended text with
  | .error fault => fault
  | .ok (numeral, _) => if numeral.tooLarge then .malformed else .mistyped

def wrongType : List Char → Fault
  | [] => .ended
  | c :: rest =>
    if c = 'n' then refuse (readWord "ull".toList rest)
    else if c = 't' then refuse (readWord "rue".toList rest)
    else if c = 'f' then refuse (readWord "alse".toList rest)
    else if c = '"' then refuse (readQuoted rest)
    else if c = '[' ∨ c = '{' then .mistyped
    else if c = '-' then refuseNumeral rest
    else if c.isDigit then refuseNumeral (c :: rest)
    else .malformed

def readString : Reader String := fun text =>
  match readHead text with
  | .error fault => .error fault
  | .ok (c, rest) =>
    if c = '"' then (readQuoted rest).map fun taken => (String.ofList taken.1, taken.2)
    else .error (wrongType (c :: rest))

theorem readStringShortens : Shortens readString := by
  intro text value rest h
  unfold readString at h
  split at h
  · cases h
  · rename_i c tail found
    have outer := readHeadShortens found
    split at h
    · cases inner : readQuoted tail with
      | error fault => rw [inner] at h; cases h
      | ok taken =>
        rw [inner] at h
        cases h
        exact Nat.lt_trans (readQuotedShortens inner) outer
    · cases h

def readStrings : Reader (List String) := fun text =>
  match readHead text with
  | .error fault => .error fault
  | .ok (c, rest) =>
    if c = '[' then readItems readString readStringShortens true rest
    else .error (wrongType (c :: rest))

theorem readStringsShortens : Shortens readStrings := by
  intro text value rest h
  unfold readStrings at h
  split at h
  · cases h
  · rename_i c tail found
    split at h
    · exact Nat.lt_trans (readItemsShortens h) (readHeadShortens found)
    · cases h

def readKey : Reader String
  | '"' :: rest => (readQuoted rest).map fun taken => (String.ofList taken.1, taken.2)
  | _ => .error .malformed

theorem readKeyShortens : Shortens readKey := by
  intro text value rest h
  unfold readKey at h
  split at h
  · rename_i tail
    cases inner : readQuoted tail with
    | error fault => rw [inner] at h; cases h
    | ok taken =>
      rw [inner] at h
      cases h
      exact Nat.lt_succ_of_lt (readQuotedShortens inner)
  · cases h

/-- The members of an object whose opening brace is already taken. A member is read from what
follows its key, colon included, and changes the state built from the members before it. -/
def readMembers {σ : Type} (member : σ → String → Reader σ)
    (shortens : ∀ state key, Shortens (member state key)) (first : Bool) (state : σ)
    (text : List Char) : Except Fault (σ × List Char) :=
  match next : nextStep '}' first text with
  | .error fault => .error fault
  | .ok (.closed rest) => .ok (state, rest)
  | .ok (.item start) =>
    match key : readKey start with
    | .error fault => .error fault
    | .ok (name, after) =>
      match found : member state name after with
      | .error fault => .error fault
      | .ok (state, rest) =>
        have := nextStepItem next
        have := readKeyShortens key
        have := shortens _ _ found
        readMembers member shortens false state rest
termination_by text.length
decreasing_by omega

theorem readMembersShortens {σ : Type} {member : σ → String → Reader σ}
    {shortens : ∀ state key, Shortens (member state key)} {first state text result rest}
    (h : readMembers member shortens first state text = .ok (result, rest)) :
    rest.length < text.length := by
  fun_induction readMembers member shortens first state text with
  | case1 => contradiction
  | case2 first state text closed next => cases h; exact nextStepClosed next
  | case3 => contradiction
  | case4 => contradiction
  | case5 first state text start next name after key state' rest' found h₁ h₂ h₃ ih =>
    have := ih h
    omega

def tableMember (table : Table (List String)) (key : String) : Reader (Table (List String)) := fun text =>
  match readColon text with
  | .error fault => .error fault
  | .ok ((), rest) => (readStrings rest).map fun taken => (table.insert key taken.1, taken.2)

theorem tableMemberShortens (table : Table (List String)) (key : String) :
    Shortens (tableMember table key) := by
  intro text value rest h
  unfold tableMember at h
  split at h
  · cases h
  · rename_i tail found
    have outer := readColonShortens found
    cases inner : readStrings tail with
    | error fault => rw [inner] at h; cases h
    | ok taken =>
      rw [inner] at h
      cases h
      exact Nat.lt_trans (readStringsShortens inner) outer

def readTable : Reader (Table (List String)) := fun text =>
  match readHead text with
  | .error fault => .error fault
  | .ok (c, rest) =>
    if c = '{' then readMembers tableMember tableMemberShortens true Table.empty rest
    else .error (wrongType (c :: rest))

theorem readTableShortens : Shortens readTable := by
  intro text value rest h
  unfold readTable at h
  split at h
  · cases h
  · rename_i c tail found
    split at h
    · exact Nat.lt_trans (readMembersShortens h) (readHeadShortens found)
    · cases h

end ScriptBundle.Json
