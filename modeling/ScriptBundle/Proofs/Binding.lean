import Mathlib.Data.List.Count
import Mathlib.Data.List.Nodup
import ScriptBundle.Proofs.Characters
import ScriptBundle.Proofs.Lines

/-! Which names a line binds. The two shapes exclude each other, since one starts with a small letter
and the other with a capital, so a line binds one name at most. -/
namespace ScriptBundle.Binding
open Text (isBlank isWord skipBlanks literal? literalSource)

theorem declaredShape {line name : List Char} (h : declared? line = some name) :
    ∃ word ∈ keywords, ∃ blank rest, isBlank blank = true ∧ line = word.toList ++ blank :: rest := by
  obtain ⟨rest, keyword, blanks⟩ := Option.bind_eq_some_iff.mp h
  obtain ⟨word, member, taken⟩ := List.exists_of_findSome?_eq_some keyword
  cases rest with
  | nil => simp at blanks
  | cons blank rest =>
    refine ⟨word, member, blank, rest, ?_, literalSource taken⟩
    cases isBlank : isBlank blank with
    | true => rfl
    | false => simp [isBlank] at blanks

theorem nameShape {line name rest : List Char} (h : name? line = some (name, rest)) :
    line = name ++ rest ∧ ∀ c ∈ name, isNameChar c = true := by
  cases line with
  | nil => simp [name?] at h
  | cons c line =>
    simp only [name?] at h
    split at h <;> try contradiction
    rename_i upper
    cases Option.some.inj h
    refine ⟨by simp, ?_⟩
    intro d member
    rcases List.mem_cons.mp member with rfl | inside
    · simp [isNameChar, upper]
    · exact List.all_eq_true.mp List.all_takeWhile d inside

theorem assignedShape {line name : List Char} (h : assigned? line = some name) :
    ∃ blanks rest, (∀ c ∈ name, isNameChar c = true) ∧ (∀ c ∈ blanks, isBlank c = true) ∧
      line = name ++ blanks ++ '=' :: rest := by
  simp only [assigned?, bind, Option.bind_eq_some_iff] at h
  obtain ⟨⟨word, behind⟩, named, rest, equals, opening, _, last⟩ := h
  split at last <;> try contradiction
  cases Option.some.inj last
  obtain ⟨source, chars⟩ := nameShape named
  refine ⟨behind.takeWhile isBlank, rest, chars, ?_, ?_⟩
  · exact List.all_eq_true.mp List.all_takeWhile
  · have split : behind = behind.takeWhile isBlank ++ skipBlanks behind :=
      List.takeWhile_append_dropWhile.symm
    have opened : skipBlanks behind = '=' :: rest := literalSource equals
    rw [source, List.append_assoc, ← opened, ← split]

theorem declaredNotAssigned {line name : List Char} (h : declared? line = some name) :
    assigned? line = none := by
  obtain ⟨word, member, blank, rest, _, rfl⟩ := declaredShape h
  have words : word = "const" ∨ word = "let" ∨ word = "var" := by simpa [keywords] using member
  rcases words with rfl | rfl | rfl <;> rfl

theorem trackedAtMostOne (symbols : List String) (line : String) :
    (tracked symbols line).length ≤ 1 := by
  unfold tracked
  split
  · simp
  · refine Nat.le_trans (List.length_filter_le _ _) ?_
    rw [List.length_map]
    cases found : declared? line.toList with
    | none => cases assigned : assigned? line.toList <;> simp [found, assigned]
    | some name => simp [found, declaredNotAssigned found]

theorem trackedMember {symbols : List String} {line symbol : String}
    (bound : symbol ∈ tracked symbols line) : symbol ∈ symbols := by
  unfold tracked at bound
  split at bound
  · simp at bound
  · simpa using (List.mem_filter.mp bound).2

def inText (symbols : List String) (text : String) : List String :=
  (Lines.linesOf text).flatMap (tracked symbols)

def lineCount (symbols lines : List String) (symbol : String) : Nat :=
  lines.countP fun line => symbol ∈ tracked symbols line

theorem lineCountEq (symbols lines : List String) (symbol : String) :
    lineCount symbols lines symbol = (lines.flatMap (tracked symbols)).count symbol := by
  induction lines with
  | nil => rfl
  | cons line rest ih =>
    have distinct : (tracked symbols line).Nodup := by
      match small : tracked symbols line, trackedAtMostOne symbols line with
      | [], _ => simp
      | [_], _ => simp
    rw [lineCount, List.countP_cons, ← lineCount, ih, List.flatMap_cons, List.count_append,
      List.Nodup.count distinct, Nat.add_comm]
    by_cases bound : symbol ∈ tracked symbols line <;> simp [bound]

section Dot

/- No shape goes past a dot, so a line that holds one binds what it binds before the dot. -/
theorem dropWhileDot {keep : Char → Bool} (stops : keep '.' = false) (before after : List Char) :
    (before ++ '.' :: after).dropWhile keep = before.dropWhile keep ++ '.' :: after := by
  rw [List.dropWhile_append]
  split
  · rename_i empty
    rw [List.isEmpty_iff.mp empty, List.dropWhile_cons_of_neg (by simp [stops]), List.nil_append]
  · rfl

theorem takeWhileDot {keep : Char → Bool} (stops : keep '.' = false) (before after : List Char) :
    (before ++ '.' :: after).takeWhile keep = before.takeWhile keep := by
  induction before with
  | nil => simp [stops]
  | cons c before ih => simp [List.takeWhile_cons, ih]

theorem literalDot {literal : List Char} (plain : '.' ∉ literal) (before after : List Char) :
    literal? literal (before ++ '.' :: after) = (literal? literal before).map (· ++ '.' :: after) := by
  induction literal generalizing before with
  | nil => rfl
  | cons c literal ih =>
    obtain ⟨other, plain⟩ := not_or.mp (List.mem_cons.not.mp plain)
    cases before with
    | nil => simp [literal?, Ne.symm other]
    | cons d before =>
      by_cases same : c = d
      · simp [literal?, same, ih plain]
      · simp [literal?, same]

theorem nameDot (before after : List Char) :
    name? (before ++ '.' :: after) =
      (name? before).map fun found => (found.1, found.2 ++ '.' :: after) := by
  cases before with
  | nil => rfl
  | cons c before =>
    by_cases upper : c.isUpper = true
    · simp [name?, upper, takeWhileDot, dropWhileDot, show isNameChar '.' = false from rfl]
    · simp [name?, upper]

theorem skipBlanksDot (before after : List Char) :
    skipBlanks (before ++ '.' :: after) = skipBlanks before ++ '.' :: after :=
  dropWhileDot rfl before after

theorem keywordDot {words : List String} (plain : ∀ word ∈ words, '.' ∉ word.toList)
    (before after : List Char) :
    words.findSome? (fun word => literal? word.toList (before ++ '.' :: after)) =
      (words.findSome? fun word => literal? word.toList before).map (· ++ '.' :: after) := by
  induction words with
  | nil => rfl
  | cons word words ih =>
    obtain ⟨first, plain⟩ := List.forall_mem_cons.mp plain
    rw [List.findSome?_cons, List.findSome?_cons, literalDot first, ih plain]
    cases literal? word.toList before <;> rfl

theorem declaredDot (before after : List Char) :
    declared? (before ++ '.' :: after) = declared? before := by
  simp only [declared?, keywordDot (show ∀ word ∈ keywords, '.' ∉ word.toList by decide)]
  cases keywords.findSome? fun word => literal? word.toList before with
  | none => rfl
  | some rest =>
    have head : ((rest ++ '.' :: after).head?.map isBlank).getD false =
        (rest.head?.map isBlank).getD false := by
      cases rest with
      | nil => rfl
      | cons c rest => rfl
    simp only [Option.map_some, bind, Option.bind_some, head]
    split
    · simp only [skipBlanksDot, nameDot]
      cases name? (skipBlanks rest) with
      | none => rfl
      | some found =>
        simp only [Option.map_some, Option.bind_some, skipBlanksDot,
          literalDot (show '.' ∉ ['='] by decide)]
        cases literal? ['='] (skipBlanks found.2) <;> rfl
    · rfl

theorem assignedDot (before after : List Char) :
    assigned? (before ++ '.' :: after) = assigned? before := by
  simp only [assigned?, nameDot]
  cases name? before with
  | none => rfl
  | some found =>
    simp only [Option.map_some, bind, Option.bind_some, skipBlanksDot,
      literalDot (show '.' ∉ ['='] by decide)]
    cases literal? ['='] (skipBlanks found.2) with
    | none => rfl
    | some rest =>
      simp only [Option.map_some, Option.bind_some, skipBlanksDot]
      cases skipBlanks rest with
      | nil => rfl
      | cons c rest => rfl

theorem isPrefixOfBefore {start : List Char} {stop : Char} (plain : stop ∉ start) (before after : List Char) :
    start.isPrefixOf (before ++ stop :: after) = start.isPrefixOf before := by
  induction start generalizing before with
  | nil => rfl
  | cons c start ih =>
    obtain ⟨other, plain⟩ := not_or.mp (List.mem_cons.not.mp plain)
    cases before with
    | nil => simp [List.isPrefixOf, Ne.symm other]
    | cons d before => simp [List.isPrefixOf, ih plain]

theorem commentDot (before after : List Char) :
    isComment (before ++ '.' :: after) = isComment before := by
  rw [isComment, skipBlanksDot, isPrefixOfBefore (by decide), isPrefixOfBefore (by decide), isComment]

def namesOn (symbols : List String) (line : List Char) : List String :=
  tracked symbols (String.ofList line)

theorem namesOnDot (symbols : List String) (before after : List Char) :
    namesOn symbols (before ++ '.' :: after) = namesOn symbols before := by
  simp only [namesOn, tracked, String.toList_ofList, commentDot, declaredDot, assignedDot,
    List.filterMap_cons, List.filterMap_nil]

end Dot

section Silent

theorem namesOnNone {line : List Char} (undeclared : declared? line = none)
    (unassigned : assigned? line = none) (symbols : List String) : namesOn symbols line = [] := by
  simp [namesOn, tracked, undeclared, unassigned]

theorem namesOnHead {c : Char} (small : c.isUpper = false) (other : c ≠ 'c' ∧ c ≠ 'l' ∧ c ≠ 'v')
    (rest : List Char) (symbols : List String) : namesOn symbols (c :: rest) = [] := by
  refine namesOnNone ?_ (by simp [assigned?, name?, small]) symbols
  simp [declared?, keywords, literal?, other.1.symm, other.2.1.symm, other.2.2.symm]

theorem namesOnWord {word : List Char} (chars : ∀ c ∈ word, isWord c = true) (rest : List Char)
    (symbols : List String) : namesOn symbols (word ++ ']' :: rest) = [] := by
  have cut : (word ++ ']' :: rest).dropWhile isWord = ']' :: rest := by
    rw [List.dropWhile_append_of_pos chars]; rfl
  refine namesOnNone ?_ ?_ symbols
  · cases found : declared? (word ++ ']' :: rest) with
    | none => rfl
    | some name =>
      exfalso
      obtain ⟨keyword, member, blank, behind, isBlank, same⟩ := declaredShape found
      have letters : ∀ w ∈ keywords, w.toList.all isWord = true := by decide
      rw [same, List.dropWhile_append_of_pos (List.all_eq_true.mp (letters keyword member)),
        List.dropWhile_cons_of_neg (by simp [Text.blankNotWord isBlank])] at cut
      cases cut
      cases isBlank
  · cases found : assigned? (word ++ ']' :: rest) with
    | none => rfl
    | some name =>
      exfalso
      obtain ⟨blanks, behind, named, blank, same⟩ := assignedShape found
      rw [same, List.append_assoc,
        List.dropWhile_append_of_pos fun c member => Text.nameCharWord (named c member)] at cut
      cases blanks with
      | nil => cases cut
      | cons b blanks =>
        have notWord := Text.blankNotWord (blank b List.mem_cons_self)
        rw [List.cons_append, List.dropWhile_cons_of_neg (by simp [notWord])] at cut
        cases cut
        cases blank ']' List.mem_cons_self

end Silent

end ScriptBundle.Binding
