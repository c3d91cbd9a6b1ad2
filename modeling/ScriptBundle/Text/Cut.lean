import ScriptBundle.Text.Characters
/-! Cutting a text: from the left, by a fixed literal or the longest run of word characters, or at
every separator. Lines are cut at line feeds only: a carriage return stays in its line, and a final
line feed leaves an empty last line. -/
namespace ScriptBundle

namespace Text

def literal? : List Char → List Char → Option (List Char)
  | [], text => some text
  | _ :: _, [] => none
  | c :: literal, d :: text => if c = d then literal? literal text else none

theorem literalAppend (literal rest : List Char) : literal? literal (literal ++ rest) = some rest := by
  induction literal with
  | nil => rfl
  | cons c literal ih => simp [literal?, ih]

theorem literalSource {literal text rest : List Char} (h : literal? literal text = some rest) :
    text = literal ++ rest := by
  induction literal generalizing text with
  | nil => cases h; rfl
  | cons c literal ih =>
    cases text with
    | nil => simp [literal?] at h
    | cons d text =>
      simp only [literal?] at h
      split at h
      · rename_i same
        rw [ih h, same, List.cons_append]
      · contradiction

def word? (text : List Char) : Option (List Char × List Char) :=
  match text.takeWhile isWord with
  | [] => none
  | word => some (word, text.dropWhile isWord)

theorem wordSource {text word rest : List Char} (h : word? text = some (word, rest)) :
    text = word ++ rest ∧ word ≠ [] ∧ ∀ c ∈ word, isWord c = true := by
  unfold word? at h
  split at h
  · contradiction
  · rename_i taken notEmpty
    simp only [Option.some.injEq, Prod.mk.injEq] at h
    obtain ⟨rfl, rfl⟩ := h
    exact ⟨List.takeWhile_append_dropWhile.symm, notEmpty, List.all_eq_true.mp List.all_takeWhile⟩

def occurs (needle : List Char) : List Char → Bool
  | [] => needle.isEmpty
  | c :: rest => needle.isPrefixOf (c :: rest) || occurs needle rest

def splitOn (separator : Char) (text : List Char) : List (List Char) :=
  text.foldr (fun c pieces => if c = separator then [] :: pieces else pieces.modifyHead (c :: ·)) [[]]

@[simp] theorem splitOnSeparator (separator : Char) (rest : List Char) :
    splitOn separator (separator :: rest) = [] :: splitOn separator rest := by
  simp [splitOn]

theorem splitOnOther {separator c : Char} (other : c ≠ separator) (rest : List Char) :
    splitOn separator (c :: rest) = (splitOn separator rest).modifyHead (c :: ·) := by
  simp [splitOn, other]

end Text

namespace Lines

/-- Lines are counted from one in a 32-bit word, so the count starts over at zero after 2^32 - 1. -/
abbrev LineNumber := UInt32

def split (text : List Char) : List (List Char) := Text.splitOn '\n' text

def number (index : Nat) : LineNumber := UInt32.ofNat (index + 1)

def numbered (text : String) : List (LineNumber × String) :=
  (split text.toList).mapIdx fun index line => (number index, String.ofList line)

end Lines
end ScriptBundle
