import ScriptBundle.Proofs.Binding
import ScriptBundle.Proofs.Callback

/-! The grammar of the lines that bind a name. Readers take the longest run of blanks and of name characters, but
what follows a run never belongs to it, so a line has one reading at most and the readers find it. -/
namespace ScriptBundle.Binding
open Text (isBlank skipBlanks literal? literalAppend literalSource breaks breaksRun IsGap skipAppend skipSource)

inductive Named : List Char → Prop where
  | mk {first : Char} {others : List Char} (capital : first.isUpper = true)
      (chars : ∀ c ∈ others, c.isUpper = true ∨ c.isDigit = true ∨ c = '_') : Named (first :: others)

inductive Declares (name : List Char) : List Char → Prop where
  | mk {word : String} {blanks gap : List Char} (keyword : word = "const" ∨ word = "let" ∨ word = "var")
      (apart : blanks ≠ []) (blank : IsGap blanks) (named : Named name) (around : IsGap gap) (rest : List Char) :
      Declares name (word.toList ++ blanks ++ name ++ gap ++ '=' :: rest)

inductive Assigns (name : List Char) : List Char → Prop where
  | mk {before behind : List Char} {opening : Char} (named : Named name) (gap : IsGap before) (blank : IsGap behind)
      (opens : opening = '{' ∨ opening = '[' ∨ opening = '\'' ∨ opening = '"') (rest : List Char) :
      Assigns name (name ++ before ++ '=' :: (behind ++ opening :: rest))

def Binds (name line : List Char) : Prop := Declares name line ∨ Assigns name line

section Names
variable {name text rest closing gap : List Char}

theorem nameCharIff {c : Char} : isNameChar c = true ↔ c.isUpper = true ∨ c.isDigit = true ∨ c = '_' := by
  simp only [isNameChar, Bool.or_eq_true, beq_iff_eq, or_assoc]

theorem nameAppend (named : Named name) (stop : breaks isNameChar closing = true) (rest : List Char) :
    name? (name ++ (closing ++ rest)) = some (name, closing ++ rest) := by
  obtain @⟨first, others, capital, chars⟩ := named
  obtain ⟨kept, left⟩ := breaksRun (fun c member => nameCharIff.mpr (chars c member)) stop rest
  rw [List.cons_append, name?, if_pos capital, kept, left]

theorem nameSource (taken : name? text = some (name, rest)) : Named name ∧ text = name ++ rest := by
  cases text with
  | nil => cases taken
  | cons first text =>
    simp only [name?] at taken
    split at taken <;> try contradiction
    rename_i capital
    cases Option.some.inj taken
    have chars : ∀ c ∈ text.takeWhile isNameChar, isNameChar c = true := List.all_eq_true.mp List.all_takeWhile
    exact ⟨⟨capital, fun c member => nameCharIff.mp (chars c member)⟩, by simp⟩

theorem namedSolid (named : Named name) : breaks isBlank name = true := by
  obtain @⟨first, others, capital, chars⟩ := named
  simp [breaks, Text.wordNotBlank (Text.upperWord capital)]

theorem gapEnds (blank : IsGap gap) : breaks isNameChar (gap ++ ['=']) = true := by
  cases gap with
  | nil => rfl
  | cons c gap =>
    cases other : isNameChar c with
    | false => simp [breaks, other]
    | true =>
      have word := Text.blankNotWord (blank c List.mem_cons_self)
      rw [Text.nameCharWord other] at word
      contradiction

theorem targetRead (named : Named name) (blank : IsGap gap) (rest : List Char) :
    name? (name ++ (gap ++ '=' :: rest)) = some (name, gap ++ '=' :: rest) ∧
      literal? ['='] (skipBlanks (gap ++ '=' :: rest)) = some rest := by
  have read := nameAppend named (gapEnds blank) rest
  have solid : breaks isBlank ['='] = true := rfl
  have skipped : skipBlanks (gap ++ '=' :: rest) = '=' :: rest := skipAppend blank solid rest
  rw [List.append_assoc] at read
  exact ⟨read, congrArg (literal? ['=']) skipped⟩

theorem targetSource {after : List Char} (read : name? text = some (name, after))
    (equals : literal? ['='] (skipBlanks after) = some rest) :
    Named name ∧ ∃ gap, IsGap gap ∧ text = name ++ (gap ++ '=' :: rest) := by
  obtain ⟨named, source⟩ := nameSource read
  obtain ⟨gap, blank, skipped⟩ := skipSource after
  rw [literalSource equals] at skipped
  exact ⟨named, gap, blank, source.trans (congrArg (name ++ ·) skipped)⟩

end Names

section Shapes
variable {name line : List Char}

theorem keywordIff {word : String} : word ∈ keywords ↔ word = "const" ∨ word = "let" ∨ word = "var" := by
  simp only [keywords, List.mem_cons, List.not_mem_nil, or_false]

theorem keywordTaken {word : String} (keyword : word ∈ keywords) (rest : List Char) :
    keywords.findSome? (fun other => literal? other.toList (word.toList ++ rest)) = some rest := by
  rcases keywordIff.mp keyword with rfl | rfl | rfl <;> rfl

theorem spacedSource {text : List Char} (spaced : (text.head?.map isBlank).getD false = true) :
    ∃ blanks, blanks ≠ [] ∧ IsGap blanks ∧ text = blanks ++ skipBlanks text := by
  cases text with
  | nil => cases spaced
  | cons c text =>
    have first : isBlank c = true := spaced
    obtain ⟨gap, blank, source⟩ := skipSource text
    have skipped : skipBlanks (c :: text) = skipBlanks text := List.dropWhile_cons_of_pos first
    refine ⟨c :: gap, List.cons_ne_nil _ _, List.forall_mem_cons.mpr ⟨first, blank⟩, ?_⟩
    rw [skipped, List.cons_append, ← source]

theorem declaredSource (found : declared? line = some name) : Declares name line := by
  simp only [declared?, bind, Option.bind_eq_some_iff] at found
  obtain ⟨behind, keyword, found⟩ := found
  obtain ⟨word, member, taken⟩ := List.exists_of_findSome?_eq_some keyword
  split at found <;> try contradiction
  rename_i spaced
  simp only [Option.bind_some, Option.bind_eq_some_iff] at found
  obtain ⟨⟨name, after⟩, read, rest, equals, last⟩ := found
  cases Option.some.inj last
  obtain ⟨named, gap, around, target⟩ := targetSource read equals
  obtain ⟨blanks, apart, blank, skipped⟩ := spacedSource spaced
  rw [literalSource taken, skipped, target]
  have declares := Declares.mk (keywordIff.mp member) apart blank named around rest
  simpa only [List.append_assoc] using declares

theorem declaredRead (declares : Declares name line) : declared? line = some name := by
  obtain @⟨word, blanks, gap, keyword, apart, blank, named, around, rest⟩ := declares
  obtain ⟨read, equals⟩ := targetRead named around rest
  have skipped := skipAppend blank (namedSolid named) (gap ++ '=' :: rest)
  have spaced : ((blanks ++ (name ++ (gap ++ '=' :: rest))).head?.map isBlank).getD false = true := by
    cases blanks with
    | nil => contradiction
    | cons c blanks => exact blank c List.mem_cons_self
  simp only [List.append_assoc, declared?, keywordTaken (keywordIff.mpr keyword), bind,
    Option.bind_some, spaced, if_true, skipped, read, equals]

theorem assignedSource (found : assigned? line = some name) : Assigns name line := by
  simp only [assigned?, bind, Option.bind_eq_some_iff] at found
  obtain ⟨⟨name, after⟩, read, rest, equals, opening, head, last⟩ := found
  split at last <;> try contradiction
  rename_i opens
  cases Option.some.inj last
  obtain ⟨named, before, gap, target⟩ := targetSource read equals
  obtain ⟨behind, blank, skipped⟩ := skipSource rest
  obtain ⟨others, opened⟩ := List.head?_eq_some_iff.mp head
  rw [opened] at skipped
  rw [target, skipped]
  have value : opening = '{' ∨ opening = '[' ∨ opening = '\'' ∨ opening = '"' := by
    simpa [opensValue, or_assoc] using opens
  have assigns := Assigns.mk named gap blank value others
  simpa only [List.append_assoc] using assigns

theorem assignedRead (assigns : Assigns name line) : assigned? line = some name := by
  obtain @⟨before, behind, opening, named, gap, blank, opens, rest⟩ := assigns
  obtain ⟨read, equals⟩ := targetRead named gap (behind ++ opening :: rest)
  have solid : breaks isBlank [opening] = true := by
    rcases opens with rfl | rfl | rfl | rfl <;> rfl
  have skipped : skipBlanks (behind ++ opening :: rest) = opening :: rest := skipAppend blank solid rest
  have value : opensValue opening = true := by
    rcases opens with rfl | rfl | rfl | rfl <;> rfl
  simp only [List.append_assoc, assigned?, bind, read, equals,
    Option.bind_some, skipped, List.head?_cons, value, if_true]

theorem declaredExact : declared? line = some name ↔ Declares name line := ⟨declaredSource, declaredRead⟩

theorem assignedExact : assigned? line = some name ↔ Assigns name line := ⟨assignedSource, assignedRead⟩

theorem bindsFound (binds : Binds name line) : (declared? line).or (assigned? line) = some name := by
  rcases binds with declares | assigns
  · rw [declaredRead declares, Option.some_or]
  · have assigned := assignedRead assigns
    cases found : declared? line with
    | none => rw [Option.none_or, assigned]
    | some other =>
      rw [declaredNotAssigned found] at assigned
      cases assigned

theorem bindsUnique {other : List Char} (binds : Binds name line) (also : Binds other line) : name = other :=
  Option.some.inj ((bindsFound binds).symm.trans (bindsFound also))

theorem bindsNoComment (binds : Binds name line) : isComment line = false := by
  rcases binds with declares | assigns
  · obtain @⟨word, blanks, gap, keyword, apart, blank, named, around, rest⟩ := declares
    rcases keyword with rfl | rfl | rfl <;> rfl
  · obtain @⟨before, behind, opening, named, gap, blank, opens, rest⟩ := assigns
    obtain @⟨first, others, capital, chars⟩ := named
    have solid : isBlank first = false := Text.wordNotBlank (Text.upperWord capital)
    have slash : '/' ≠ first := fun same => by subst same; cases capital
    have star : '*' ≠ first := fun same => by subst same; cases capital
    simp [isComment, skipBlanks, solid, List.isPrefixOf, slash, star]

end Shapes

def namesFound (line : String) : List String :=
  ([declared?, assigned?].filterMap fun shape => shape line.toList).map String.ofList

theorem namesFoundIff {line name : String} : name ∈ namesFound line ↔ Binds name.toList line.toList := by
  have shapes (chars : List Char) : chars ∈ [declared?, assigned?].filterMap (fun shape => shape line.toList) ↔
      Binds chars line.toList := by
    simp only [List.mem_filterMap, List.mem_cons, List.not_mem_nil, or_false, exists_eq_or_imp, exists_eq_left,
      declaredExact, assignedExact, Binds]
  rw [namesFound, List.mem_map]
  constructor
  · rintro ⟨chars, found, rfl⟩
    rw [String.toList_ofList]
    exact (shapes chars).mp found
  · intro binds
    exact ⟨name.toList, (shapes _).mpr binds, String.ofList_toList⟩

theorem namesFoundOnce (line : String) : (namesFound line).length ≤ 1 := by
  rw [namesFound, List.length_map]
  cases found : declared? line.toList with
  | none => cases assigned : assigned? line.toList <;> simp [found, assigned]
  | some name => simp [found, declaredNotAssigned found]

theorem trackedFound (symbols : List String) (line : String) :
    tracked symbols line = (namesFound line).filter (symbols.contains ·) := by
  unfold tracked
  split
  · rename_i comment
    have nothing : namesFound line = [] := by
      refine List.eq_nil_iff_forall_not_mem.mpr fun name found => ?_
      rw [bindsNoComment (namesFoundIff.mp found)] at comment
      cases comment
    rw [nothing, List.filter_nil]
  · rfl

theorem trackedIff {symbols : List String} {line name : String} :
    name ∈ tracked symbols line ↔ name ∈ symbols ∧ Binds name.toList line.toList := by
  rw [trackedFound, List.mem_filter, namesFoundIff, List.contains_iff_mem, and_comm]

theorem trackedSole {symbols : List String} {line name : String} :
    tracked symbols line = [name] ↔ name ∈ tracked symbols line := by
  constructor
  · intro same
    rw [same]
    exact List.mem_singleton_self name
  · intro inside
    have once := Nat.le_antisymm (trackedAtMostOne symbols line) (List.length_pos_of_mem inside)
    obtain ⟨sole, only⟩ := List.length_eq_one_iff.mp once
    rw [only] at inside ⊢
    rw [List.mem_singleton.mp inside]

theorem trackedAlike {line other : String} (alike : ∀ name, Binds name line.toList ↔ Binds name other.toList)
    (symbols : List String) : tracked symbols line = tracked symbols other := by
  have members (name : String) : name ∈ tracked symbols line ↔ name ∈ tracked symbols other := by
    rw [trackedIff, trackedIff, alike]
  cases found : tracked symbols line with
  | nil =>
    refine (List.eq_nil_iff_forall_not_mem.mpr fun name bound => ?_).symm
    have inside := (members name).mpr bound
    rw [found] at inside
    cases inside
  | cons name names =>
    have inside : name ∈ tracked symbols line := by
      rw [found]
      exact List.mem_cons_self
    rw [← found, trackedSole.mpr inside, trackedSole.mpr ((members name).mp inside)]

theorem boundExactly (symbols : List String) (line : String) :
    (∀ name, tracked symbols line = [name] ↔ name ∈ symbols ∧ Binds name.toList line.toList) ∧
    (tracked symbols line = [] ↔ ∀ name ∈ symbols, ¬ Binds name.toList line.toList) ∧
    (∀ first second, Binds first line.toList → Binds second line.toList → first = second) ∧
    (namesFound line).length ≤ 1 ∧
    tracked symbols line = (namesFound line).filter (symbols.contains ·) := by
  refine ⟨fun name => ?_, ?_, fun first second => bindsUnique, namesFoundOnce line, trackedFound symbols line⟩
  · rw [trackedSole, trackedIff]
  · rw [List.eq_nil_iff_forall_not_mem]
    simp only [trackedIff, not_and]

end ScriptBundle.Binding
