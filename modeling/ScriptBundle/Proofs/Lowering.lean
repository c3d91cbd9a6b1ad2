import ScriptBundle.Proofs.Binding
import ScriptBundle.Proofs.Callback

/-! Lowering keeps the names that a text binds, in their order. Every match starts at a dot, which no
binding goes past, and none of the line starts inside a match can begin a binding. So a match may be
written anew, on one line, as long as the lines behind it stay as they are. -/
namespace ScriptBundle.Downlevel
open Text (isBlank isWord skipBlanks literal? literalSource word? wordSource wordPlain blankNotWord upperWord)
open Lines (split)
open Binding (namesOn namesOnDot namesOnHead namesOnWord)

def bound (symbols : List String) (text : List Char) : List String :=
  (split text).flatMap (namesOn symbols)

def later (symbols : List String) (text : List Char) : List String :=
  (split text).tail.flatMap (namesOn symbols)

def firstLine (text : List Char) : List Char := text.takeWhile (· != '\n')

section Parts
variable (symbols : List String)

theorem splitFirst (text : List Char) : split text = firstLine text :: (split text).tail := by
  induction text with
  | nil => rfl
  | cons c rest ih =>
    by_cases feed : c = '\n'
    · subst feed
      rfl
    · rw [split, Text.splitOnOther feed, ← split, ih]
      simp [firstLine, feed]

theorem boundParts (text : List Char) :
    bound symbols text = namesOn symbols (firstLine text) ++ later symbols text := by
  rw [bound, splitFirst, List.flatMap_cons, later]

theorem laterFeed (rest : List Char) : later symbols ('\n' :: rest) = bound symbols rest := rfl

theorem laterOther {c : Char} (other : c ≠ '\n') (rest : List Char) :
    later symbols (c :: rest) = later symbols rest := by
  rw [later, split, Text.splitOnOther other, List.tail_modifyHead, ← split, later]

theorem laterPlain {start : List Char} (plain : '\n' ∉ start) (rest : List Char) :
    later symbols (start ++ rest) = later symbols rest := by
  induction start with
  | nil => rfl
  | cons c start ih =>
    obtain ⟨other, plain⟩ := not_or.mp (List.mem_cons.not.mp plain)
    rw [List.cons_append, laterOther symbols (Ne.symm other), ih plain]

theorem firstLineAppend {start : List Char} (plain : '\n' ∉ start) (rest : List Char) :
    firstLine (start ++ rest) = start ++ firstLine rest := by
  refine List.takeWhile_append_of_pos ?_
  rintro c member
  exact bne_iff_ne.mpr fun same => plain (same ▸ member)

theorem firstLineDot (before after : List Char) :
    namesOn symbols (firstLine (before ++ '.' :: after)) = namesOn symbols (firstLine before) := by
  by_cases feed : '\n' ∈ before
  · have same : firstLine (before ++ '.' :: after) = firstLine before := by
      rw [firstLine, List.takeWhile_append, if_neg, firstLine]
      intro whole
      have kept := List.all_takeWhile (p := (· != '\n')) (l := before)
      rw [(List.takeWhile_prefix _).eq_of_length whole] at kept
      simpa using List.all_eq_true.mp kept _ feed
    rw [same]
  · have alone : firstLine before = before := by simpa [firstLine] using firstLineAppend feed []
    have opened : firstLine ('.' :: after) = '.' :: firstLine after := rfl
    rw [firstLineAppend feed, opened, namesOnDot, alone]

theorem laterDot (before after : List Char) :
    later symbols (before ++ '.' :: after) = later symbols before ++ later symbols after := by
  induction before with
  | nil => exact laterOther symbols (by decide) after
  | cons c before ih =>
    by_cases feed : c = '\n'
    · subst feed
      rw [List.cons_append, laterFeed, laterFeed, boundParts, firstLineDot, ih, boundParts symbols before,
        List.append_assoc]
    · rw [List.cons_append, laterOther symbols feed, laterOther symbols feed, ih]

theorem boundDot (before after : List Char) :
    bound symbols (before ++ '.' :: after) = bound symbols before ++ later symbols after := by
  rw [boundParts, firstLineDot, laterDot, boundParts symbols before, List.append_assoc]

end Parts

section Readers
variable {symbols : List String}

theorem blankSilent {c : Char} (blank : isBlank c = true) (rest : List Char) :
    namesOn symbols (c :: rest) = [] := by
  have letter := blankNotWord blank
  refine namesOnHead ?_ ⟨?_, ?_, ?_⟩ rest symbols
  · cases upper : c.isUpper with
    | false => rfl
    | true => cases letter.symm.trans (upperWord upper)
  all_goals rintro rfl; contradiction

theorem skippedSilent {text : List Char} (silent : namesOn symbols (firstLine (skipBlanks text)) = []) :
    namesOn symbols (firstLine text) = [] := by
  cases text with
  | nil => rfl
  | cons c rest =>
    by_cases blank : isBlank c = true
    · by_cases feed : c = '\n'
      · subst feed
        rfl
      · rw [firstLine, List.takeWhile_cons_of_pos (by simpa using feed)]
        exact blankSilent blank _
    · rwa [skipBlanks, List.dropWhile_cons_of_neg blank] at silent

/- Blanks may hold line feeds. The lines that they end hold nothing but blanks, up to the last one,
which goes on with what stands behind the blanks. -/
theorem laterSkip {text : List Char} (silent : namesOn symbols (firstLine (skipBlanks text)) = []) :
    later symbols text = later symbols (skipBlanks text) := by
  induction text with
  | nil => rfl
  | cons c rest ih =>
    by_cases blank : isBlank c = true
    · have skipped : skipBlanks (c :: rest) = skipBlanks rest := List.dropWhile_cons_of_pos blank
      rw [skipped] at silent ⊢
      by_cases feed : c = '\n'
      · subst feed
        rw [laterFeed, boundParts, skippedSilent silent, List.nil_append, ih silent]
      · rw [laterOther symbols feed, ih silent]
    · rw [skipBlanks, List.dropWhile_cons_of_neg blank]

theorem laterLiteral {literal text rest : List Char} (plain : '\n' ∉ literal)
    (h : literal? literal text = some rest) : later symbols text = later symbols rest := by
  rw [literalSource h, laterPlain symbols plain]

theorem laterSkipLiteral {c : Char} {literal text rest : List Char} (plain : '\n' ∉ c :: literal)
    (small : c.isUpper = false) (other : c ≠ 'c' ∧ c ≠ 'l' ∧ c ≠ 'v')
    (h : literal? (c :: literal) (skipBlanks text) = some rest) :
    later symbols text = later symbols rest := by
  rw [laterSkip, laterLiteral plain h]
  rw [literalSource h, firstLineAppend plain]
  exact namesOnHead small other _ symbols

theorem laterWord {text word rest : List Char} (h : word? text = some (word, rest)) :
    later symbols text = later symbols rest := by
  obtain ⟨source, _, chars⟩ := wordSource h
  rw [source, laterPlain symbols (wordPlain chars)]

theorem laterSkipWord {text word rest : List Char} (h : word? (skipBlanks text) = some (word, ']' :: rest)) :
    later symbols text = later symbols rest := by
  obtain ⟨source, _, chars⟩ := wordSource h
  rw [laterSkip, laterWord h, laterOther symbols (by decide)]
  have closed : firstLine (']' :: rest) = ']' :: firstLine rest := rfl
  rw [source, firstLineAppend (wordPlain chars), closed]
  exact namesOnWord chars _ symbols

theorem laterPair {text rest : List Char} {names : List Char × List Char}
    (h : pair? text = some (names, ']' :: rest)) : later symbols text = later symbols rest := by
  simp only [pair?, bind, Option.bind_eq_some_iff] at h
  obtain ⟨⟨first, behind⟩, taken, afterComma, comma, ⟨second, last⟩, takenSecond, same⟩ := h
  cases same
  rw [laterWord taken, laterLiteral (by decide) comma, laterSkipWord takenSecond]

theorem pairPlain {text rest : List Char} {names : List Char × List Char}
    (h : pair? text = some (names, rest)) : '\n' ∉ names.1 ∧ '\n' ∉ names.2 := by
  simp only [pair?, bind, Option.bind_eq_some_iff] at h
  obtain ⟨⟨first, behind⟩, taken, afterComma, _, ⟨second, last⟩, takenSecond, same⟩ := h
  cases same
  exact ⟨wordPlain (wordSource taken).2.2, wordPlain (wordSource takenSecond).2.2⟩

theorem callHead {call text rest : List Char} (dot : call.head? = some '.')
    (h : literal? call text = some rest) : text.head? = some '.' := by
  rw [literalSource h, List.head?_append, dot, Option.some_or]

theorem singleHeaderSource {call text name rest : List Char} (dot : call.head? = some '.')
    (plain : '\n' ∉ call) (h : singleHeader? call text = some (name, rest)) :
    text.head? = some '.' ∧ later symbols text = later symbols rest ∧ '\n' ∉ name := by
  simp only [singleHeader?, bind, Option.bind_eq_some_iff] at h
  obtain ⟨afterCall, called, ⟨word, afterWord⟩, taken, afterList, closed, behind, brace, same⟩ := h
  cases same
  refine ⟨callHead dot called, ?_, wordPlain (wordSource taken).2.2⟩
  rw [laterLiteral plain called, laterWord taken, laterLiteral (by decide) closed,
    laterSkipLiteral (by decide) (by decide) (by decide) brace]

theorem pairHeaderSource {call text rest : List Char} {names : List Char × List Char}
    (dot : call.head? = some '.') (plain : '\n' ∉ call)
    (h : pairHeader? call text = some (names, rest)) :
    text.head? = some '.' ∧ later symbols text = later symbols rest ∧
      '\n' ∉ names.1 ∧ '\n' ∉ names.2 := by
  simp only [pairHeader?, bind, Option.bind_eq_some_iff] at h
  obtain ⟨afterCall, called, ⟨pair, afterPair⟩, taken, afterList, closed, behind, brace, same⟩ := h
  cases same
  refine ⟨callHead dot called, ?_, pairPlain taken⟩
  have bracket : afterPair = ']' :: (')' :: afterList) := literalSource closed
  rw [bracket] at taken
  rw [laterLiteral plain called, laterPair taken, laterOther symbols (by decide),
    laterSkipLiteral (by decide) (by decide) (by decide) brace]

theorem laterReturnedPair {text rest : List Char} {names : List Char × List Char}
    (h : returnedPair? text = some (names, rest)) : later symbols text = later symbols rest := by
  simp only [returnedPair?, bind, Option.bind_eq_some_iff] at h
  obtain ⟨afterReturn, returned, afterBracket, opened, ⟨pair, afterPair⟩, taken, afterList, closed,
    behind, brace, same⟩ := h
  cases same
  have bracket : afterPair = ']' :: (';' :: afterList) := literalSource closed
  rw [bracket] at taken
  rw [laterSkipLiteral (by decide) (by decide) (by decide) returned,
    laterSkipLiteral (by decide) (by decide) (by decide) opened, laterPair taken,
    laterOther symbols (by decide), laterSkipLiteral (by decide) (by decide) (by decide) brace]

end Readers

/- A match that no line start inside or behind it can tell from what is written for it. -/
structure Inert (symbols : List String) (text out rest : List Char) : Prop where
  atDot : text.head? = some '.'
  fromDot : out.head? = some '.'
  plain : '\n' ∉ out
  behind : later symbols text = later symbols rest

theorem headDot {text : List Char} (h : text.head? = some '.') : ∃ rest, text = '.' :: rest := by
  cases text with
  | nil => cases h
  | cons c rest =>
    cases h
    exact ⟨rest, rfl⟩

theorem inertStep {symbols : List String} {text out rest : List Char}
    (inert : Inert symbols text out rest) (before : List Char) :
    bound symbols (before ++ (out ++ rest)) = bound symbols (before ++ text) := by
  obtain ⟨tail, rfl⟩ := headDot inert.atDot
  obtain ⟨written, rfl⟩ := headDot inert.fromDot
  have plain : '\n' ∉ written := fun member => inert.plain (List.mem_cons_of_mem _ member)
  have behind : later symbols tail = later symbols rest := by
    rw [← inert.behind, laterOther symbols (by decide)]
  rw [List.cons_append, boundDot, boundDot, laterPlain symbols plain, behind]

section Rules
variable (symbols : List String)

theorem bindingPlain {name : List Char} {parameter : String} (plainName : '\n' ∉ name)
    (plainParameter : '\n' ∉ parameter.toList) (index : Nat) : '\n' ∉ binding name parameter index := by
  have named := List.not_mem_append (show '\n' ∉ " var ".toList by decide) plainName
  have given := List.not_mem_append (List.not_mem_append named (show '\n' ∉ " = ".toList by decide))
    plainParameter
  have opened := List.not_mem_append given (show '\n' ∉ "[".toList by decide)
  have indexed := List.not_mem_append opened (Lines.oneLineRepr index)
  exact List.not_mem_append indexed (show '\n' ∉ "];".toList by decide)

theorem pairInert {call start text rest : List Char} {names : List Char × List Char}
    {parameter : String} (dot : call.head? = some '.') (plainCall : '\n' ∉ call)
    (header : pairHeader? call text = some (names, rest)) (startDot : start.head? = some '.')
    (plainStart : '\n' ∉ start) (plainParameter : '\n' ∉ parameter.toList) :
    Inert symbols text (start ++ binding names.1 parameter 0 ++ binding names.2 parameter 1) rest := by
  obtain ⟨head, keeps, first, second⟩ := pairHeaderSource dot plainCall header
  refine ⟨head, ?_, ?_, keeps⟩
  · rw [List.append_assoc, List.head?_append, startDot, Option.some_or]
  · exact List.not_mem_append (List.not_mem_append plainStart (bindingPlain first plainParameter 0))
      (bindingPlain second plainParameter 1)

theorem rulesInert {rule : Rule} (member : rule ∈ rules) {text out rest : List Char}
    (found : rule.at? text = some (out, rest)) : Inert symbols text out rest := by
  simp only [rules, List.mem_cons, List.not_mem_nil, or_false] at member
  rcases member with rfl | rfl | rfl | rfl
  · obtain ⟨name, header, same⟩ := Rule.atSource.mp found
    cases same
    obtain ⟨head, keeps, plain⟩ := singleHeaderSource rfl (by decide) header
    exact ⟨head, rfl, List.not_mem_append (by decide) (bindingPlain plain (by decide) 0), keeps⟩
  · obtain ⟨⟨names, returned⟩, matched, same⟩ := Rule.atSource.mp found
    obtain ⟨behind, header, body⟩ := mapReturnSource.mp matched
    simp only [mapIdentity] at same
    split at same <;> try contradiction
    cases same
    obtain ⟨head, keeps, _⟩ := pairHeaderSource rfl (by decide) header
    exact ⟨head, rfl, by decide, keeps.trans (laterReturnedPair body)⟩
  · obtain ⟨names, header, same⟩ := Rule.atSource.mp found
    cases same
    exact pairInert symbols rfl (by decide) header rfl (by decide) (by decide)
  · obtain ⟨names, header, same⟩ := Rule.atSource.mp found
    cases same
    exact pairInert symbols rfl (by decide) header rfl (by decide) (by decide)

end Rules

theorem passBound {symbols : List String} {rule : Rule}
    (inert : ∀ {text out rest}, rule.at? text = some (out, rest) → Inert symbols text out rest)
    (written : List Char) (count : Nat) (text : List Char) :
    bound symbols (rule.pass written count text).1 = bound symbols (written.reverse ++ text) := by
  induction text using matchwise rule.at? rule.shorter generalizing written count with
  | nil => rw [Rule.pass, List.append_nil]
  | hit text out rest found ih =>
    rw [Rule.passHit found, ih, List.reverseAux_eq, List.reverse_append, List.reverse_reverse, List.append_assoc]
    exact inertStep (inert found) written.reverse
  | miss c rest missed ih =>
    rw [Rule.passMiss missed, ih, List.reverse_cons, List.append_assoc, List.singleton_append]

theorem passesBound {symbols : List String} {listed : List Rule}
    (inert : ∀ rule ∈ listed, ∀ {text out rest}, rule.at? text = some (out, rest) →
      Inert symbols text out rest) (start : List Char × Nat) :
    bound symbols (listed.foldl (fun r rule => rule.pass [] r.2 r.1) start).1 = bound symbols start.1 := by
  induction listed generalizing start with
  | nil => rfl
  | cons rule listed ih =>
    obtain ⟨first, others⟩ := List.forall_mem_cons.mp inert
    rw [List.foldl_cons, ih others, passBound first, List.reverse_nil, List.nil_append]

theorem boundText (symbols : List String) (text : String) :
    Binding.inText symbols text = bound symbols text.toList := by
  rw [Binding.inText, Lines.linesOf, List.flatMap_map]
  rfl

theorem lowerInText (symbols : List String) (text : String) :
    Binding.inText symbols (lower text).text = Binding.inText symbols text := by
  rw [boundText, boundText, lower, String.toList_ofList]
  exact passesBound (fun rule member => rulesInert symbols member) (text.toList, 0)

end ScriptBundle.Downlevel
