import ScriptBundle.Number
/-! Message templates. A placeholder is a number in braces, written with decimal digits after at
most one plus sign; it stands for the argument with that index. A brace that opens no placeholder
for an argument is kept as it is, and arguments are never expanded again. -/
namespace ScriptBundle.Template

def indexLimit : Nat := UInt64.size

def unsigned : List Char → List Char
  | '+' :: rest => rest
  | rest => rest

def index? (text : List Char) : Option Nat :=
  let digits := unsigned text
  if digits ≠ [] ∧ digits.all Char.isDigit = true ∧ Decimal.value digits < indexLimit then
    some (Decimal.value digits)
  else none

def placeholder? (text : List Char) : Option (Nat × List Char) :=
  match text.dropWhile (· != '}') with
  | '}' :: rest => (index? (text.takeWhile (· != '}'))).map (·, rest)
  | _ => none

theorem placeholderCut {text rest : List Char} {index : Nat} : placeholder? text = some (index, rest) ↔
    ∃ body, text = body ++ '}' :: rest ∧ '}' ∉ body ∧ index? body = some index := by
  constructor
  · intro found
    unfold placeholder? at found
    split at found
    · rename_i after closed
      obtain ⟨number, read, same⟩ := Option.map_eq_some_iff.mp found
      cases same
      refine ⟨text.takeWhile (· != '}'), ?_, fun member => ?_, read⟩
      · rw [← closed, List.takeWhile_append_dropWhile]
      · cases List.all_eq_true.mp List.all_takeWhile '}' member
    · cases found
  · rintro ⟨body, rfl, plain, read⟩
    have inside : ∀ c ∈ body, (c != '}') = true := fun c member => bne_iff_ne.mpr fun same => plain (same ▸ member)
    have taken : (body ++ '}' :: rest).takeWhile (· != '}') = body := by
      rw [List.takeWhile_append_of_pos inside, List.takeWhile_cons_of_neg (by decide), List.append_nil]
    have left : (body ++ '}' :: rest).dropWhile (· != '}') = '}' :: rest := by
      rw [List.dropWhile_append_of_pos inside, List.dropWhile_cons_of_neg (by decide)]
    rw [placeholder?, left, taken, read]
    rfl

theorem placeholderShorter {text rest : List Char} {index : Nat}
    (h : placeholder? text = some (index, rest)) : rest.length < text.length := by
  obtain ⟨body, rfl, _⟩ := placeholderCut.mp h
  rw [List.length_append, List.length_cons]
  omega

def expand (args : List String) : List Char → List Char
  | [] => []
  | c :: rest =>
    if c = '{' then
      match found : placeholder? rest with
      | none => c :: expand args rest
      | some (index, after) =>
        have := placeholderShorter found
        match args[index]? with
        | none => c :: expand args rest
        | some arg => arg.toList ++ expand args after
    else c :: expand args rest
termination_by text => text.length
decreasing_by all_goals simp_wf; try omega

def fill (template : String) (args : List String) : String :=
  String.ofList (expand args template.toList)

end ScriptBundle.Template
