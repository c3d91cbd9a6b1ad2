import ScriptBundle.Number
import ScriptBundle.Text.Cut

/-! Lines of a text that is put together from parts. Splitting is the library's own splitting at
line feeds, so a line feed between two parts keeps their lines apart and moves the numbers of the
second part by the number of lines of the first. -/
namespace ScriptBundle
namespace Text

theorem splitOnStandard (separator : Char) (text : List Char) :
    splitOn separator text = text.splitOn separator := by
  induction text with
  | nil => rfl
  | cons c rest ih =>
    rw [List.splitOn_cons_eq_if_modifyHead]
    by_cases same : c = separator
    · subst same
      simp [ih]
    · simp [splitOnOther same, same, ih]

theorem piecewise {α : Type} (separator : α) {motive : List α → Prop}
    (plain : ∀ piece, separator ∉ piece → motive piece)
    (cut : ∀ piece rest, separator ∉ piece → motive rest → motive (piece ++ separator :: rest))
    (text : List α) : motive text := by
  by_cases inside : separator ∈ text
  · obtain ⟨piece, rest, parts, fresh⟩ := List.eq_append_cons_of_mem inside
    rw [parts]
    exact cut piece rest fresh (piecewise separator plain cut rest)
  · exact plain text inside
termination_by text.length
decreasing_by simp only [parts, List.length_append, List.length_cons]; omega

theorem splitOnPiece {separator : Char} {text piece : List Char} (member : piece ∈ splitOn separator text) :
    separator ∉ piece ∧ ∀ c ∈ piece, c ∈ text := by
  rw [splitOnStandard] at member
  induction text using piecewise separator with
  | plain text fresh =>
    rw [List.splitOn_eq_singleton fresh, List.mem_singleton] at member
    subst member
    exact ⟨fresh, fun _ => id⟩
  | cut first rest fresh ih =>
    rw [List.splitOn_append_cons_self, List.splitOn_eq_singleton fresh, List.singleton_append, List.mem_cons] at member
    rcases member with rfl | later
    · exact ⟨fresh, fun c inside => List.mem_append_left _ inside⟩
    · obtain ⟨without, inside⟩ := ih later
      exact ⟨without, fun c here => List.mem_append_right _ (List.mem_cons_of_mem _ (inside c here))⟩

end Text

namespace Lines

def linesOf (text : String) : List String := (split text.toList).map String.ofList

theorem splitAppend (first second : List Char) :
    split (first ++ '\n' :: second) = split first ++ split second := by
  simp [split, Text.splitOnStandard, List.splitOn_append_cons_self]

theorem splitPlain {text : List Char} (plain : '\n' ∉ text) : split text = [text] := by
  simp [split, Text.splitOnStandard, List.splitOn_eq_singleton plain]

theorem splitLength (text : List Char) : (split text).length = text.count '\n' + 1 := by
  induction text with
  | nil => rfl
  | cons c rest ih =>
    by_cases same : c = '\n'
    · subst same
      simpa [split] using ih
    · simpa [split, Text.splitOnOther same, same] using ih

theorem linesAppend (first second : String) :
    linesOf (first ++ "\n" ++ second) = linesOf first ++ linesOf second := by
  simp [linesOf, splitAppend]

def OneLine (text : String) : Prop := '\n' ∉ text.toList

instance (text : String) : Decidable (OneLine text) := inferInstanceAs (Decidable (¬ _))

theorem oneLineAppend {first second : String} :
    OneLine (first ++ second) ↔ OneLine first ∧ OneLine second := by
  simp [OneLine]

theorem oneLineRepr (n : Nat) : OneLine (Nat.repr n) := by
  intro member
  cases Decimal.reprDecimal n _ member

theorem oneLineChars {chars : List Char} (plain : chars.elem '\n' = false) : OneLine (String.ofList chars) := by
  simpa [OneLine] using plain

theorem linesPlain {text : String} (plain : OneLine text) : linesOf text = [text] := by
  simp [linesOf, splitPlain plain]

def lineFeeds (text : String) : Nat := text.toList.count '\n'

theorem lineFeedsAppend (first second : String) :
    lineFeeds (first ++ second) = lineFeeds first + lineFeeds second := by
  simp [lineFeeds]

theorem linesLength (text : String) : (linesOf text).length = lineFeeds text + 1 := by
  simp [linesOf, splitLength, lineFeeds]

theorem lineFeedsPlain {text : String} (plain : OneLine text) : lineFeeds text = 0 :=
  List.count_eq_zero.mpr plain

theorem numberedLines (text : String) :
    numbered text = (linesOf text).zipIdx.map fun entry => (number entry.2, entry.1) := by
  simp [numbered, linesOf, List.mapIdx_eq_zipIdx_map, List.zipIdx_map]

end Lines
end ScriptBundle
