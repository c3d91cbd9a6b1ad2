import ScriptBundle.Text.Cut
/-! Downleveling of callbacks that take a destructured list as their parameter. Each rule lowers
one shape of callback header; every rule in turn goes over the text, each from left to right. -/
namespace ScriptBundle.Downlevel
open Text (skipBlanks literal? word?)

def singleHeader? (call : List Char) (text : List Char) : Option (List Char × List Char) := do
  let rest ← literal? call text
  let (name, rest) ← word? rest
  let rest ← literal? "])".toList rest
  let rest ← literal? ['{'] (skipBlanks rest)
  some (name, rest)

def pair? (text : List Char) : Option ((List Char × List Char) × List Char) := do
  let (first, rest) ← word? text
  let rest ← literal? [','] rest
  let (second, rest) ← word? (skipBlanks rest)
  some ((first, second), rest)

def pairHeader? (call : List Char) (text : List Char) :
    Option ((List Char × List Char) × List Char) := do
  let rest ← literal? call text
  let (names, rest) ← pair? rest
  let rest ← literal? "])".toList rest
  let rest ← literal? ['{'] (skipBlanks rest)
  some (names, rest)

def returnedPair? (text : List Char) : Option ((List Char × List Char) × List Char) := do
  let rest ← literal? "return".toList (skipBlanks text)
  let rest ← literal? ['['] (skipBlanks rest)
  let (names, rest) ← pair? rest
  let rest ← literal? "];".toList rest
  let rest ← literal? "\x7d)".toList (skipBlanks rest)
  some (names, rest)

def filterCall : List Char := ".filter(function([".toList
def mapCall : List Char := ".map(function([".toList
def forEachCall : List Char := ".forEach(function([".toList

def binding (name : List Char) (parameter : String) (index : Nat) : List Char :=
  " var ".toList ++ name ++ " = ".toList ++ parameter.toList ++ "[".toList ++
    (Nat.repr index).toList ++ "];".toList

def opened (call : String) (parameter : String) : List Char :=
  call.toList ++ "(function(".toList ++ parameter.toList ++ ") \x7b".toList

section Reached

def Reaches (text rest : List Char) : Prop := ∃ taken, text = taken ++ rest ∧ '.' ∉ taken

theorem reachesTrans {text middle rest : List Char} (first : Reaches text middle)
    (second : Reaches middle rest) : Reaches text rest := by
  obtain ⟨before, rfl, plain⟩ := first
  obtain ⟨behind, rfl, plainBehind⟩ := second
  exact ⟨before ++ behind, (List.append_assoc ..).symm, List.not_mem_append plain plainBehind⟩

theorem literalReaches {literal text rest : List Char} (plain : '.' ∉ literal)
    (h : literal? literal text = some rest) : Reaches text rest :=
  ⟨literal, Text.literalSource h, plain⟩

theorem wordReaches {text word rest : List Char} (h : word? text = some (word, rest)) :
    Reaches text rest := by
  obtain ⟨source, _, chars⟩ := Text.wordSource h
  refine ⟨word, source, fun member => ?_⟩
  cases chars '.' member

theorem blanksReach (text : List Char) : Reaches text (skipBlanks text) := by
  refine ⟨text.takeWhile Text.isBlank, List.takeWhile_append_dropWhile.symm, fun member => ?_⟩
  cases List.all_eq_true.mp List.all_takeWhile '.' member

theorem pairReaches {text names rest} (h : pair? text = some (names, rest)) : Reaches text rest := by
  simp only [pair?, bind, Option.bind_eq_some_iff] at h
  obtain ⟨⟨first, behind⟩, taken, afterComma, comma, ⟨second, left⟩, takenLast, same⟩ := h
  cases same
  have separated : Reaches text afterComma := reachesTrans (wordReaches taken) (literalReaches (by decide) comma)
  exact reachesTrans separated (reachesTrans (blanksReach afterComma) (wordReaches takenLast))

theorem returnedPairReaches {text names rest} (h : returnedPair? text = some (names, rest)) :
    Reaches text rest := by
  simp only [returnedPair?, bind, Option.bind_eq_some_iff] at h
  obtain ⟨afterReturn, returned, afterBracket, bracket, ⟨pair, behind⟩, taken, closed, closing, left, brace,
    same⟩ := h
  cases same
  have word := reachesTrans (blanksReach text) (literalReaches (by decide) returned)
  have list := reachesTrans (blanksReach afterReturn) (literalReaches (by decide) bracket)
  have names := reachesTrans (pairReaches taken) (literalReaches (by decide) closing)
  have last := reachesTrans (blanksReach closed) (literalReaches (by decide) brace)
  exact reachesTrans word (reachesTrans list (reachesTrans names last))

def Dotted (text : List Char) : Prop := ∃ tail, text = '.' :: tail ∧ '.' ∉ tail

theorem dottedAppend {text more : List Char} (dotted : Dotted text) (plain : '.' ∉ more) :
    Dotted (text ++ more) := by
  obtain ⟨tail, rfl, plainTail⟩ := dotted
  exact ⟨tail ++ more, rfl, List.not_mem_append plainTail plain⟩

def TakesDotted (text rest : List Char) : Prop := ∃ taken, text = taken ++ rest ∧ Dotted taken

theorem dottedReaches {text middle rest : List Char} (first : TakesDotted text middle)
    (second : Reaches middle rest) : TakesDotted text rest := by
  obtain ⟨taken, rfl, dotted⟩ := first
  obtain ⟨behind, rfl, plain⟩ := second
  exact ⟨taken ++ behind, (List.append_assoc ..).symm, dottedAppend dotted plain⟩

theorem singleHeaderDotted {call text name rest} (dotted : Dotted call)
    (h : singleHeader? call text = some (name, rest)) : TakesDotted text rest := by
  simp only [singleHeader?, bind, Option.bind_eq_some_iff] at h
  obtain ⟨afterCall, called, ⟨word, behind⟩, taken, closed, bracket, left, brace, same⟩ := h
  cases same
  have list := reachesTrans (wordReaches taken) (literalReaches (by decide) bracket)
  have last := reachesTrans (blanksReach closed) (literalReaches (by decide) brace)
  exact dottedReaches ⟨call, Text.literalSource called, dotted⟩ (reachesTrans list last)

theorem pairHeaderDotted {call text names rest} (dotted : Dotted call)
    (h : pairHeader? call text = some (names, rest)) : TakesDotted text rest := by
  simp only [pairHeader?, bind, Option.bind_eq_some_iff] at h
  obtain ⟨afterCall, called, ⟨pair, behind⟩, taken, closed, bracket, left, brace, same⟩ := h
  cases same
  have list := reachesTrans (pairReaches taken) (literalReaches (by decide) bracket)
  have last := reachesTrans (blanksReach closed) (literalReaches (by decide) brace)
  exact dottedReaches ⟨call, Text.literalSource called, dotted⟩ (reachesTrans list last)

end Reached

/-- A pattern and what is written for the names it has captured, unless these are refused. What the
pattern takes goes from a dot to some place before the next one. -/
structure Rule where
  Captured : Type
  pattern? : List Char → Option (Captured × List Char)
  rewrite : Captured → Option (List Char)
  dotted : ∀ ⦃text captured rest⦄, pattern? text = some (captured, rest) → TakesDotted text rest

def filterSingle : Rule where
  Captured := List Char
  pattern? := singleHeader? filterCall
  rewrite name := some (opened ".filter" "item" ++ binding name "item" 0)
  dotted := fun _ _ _ found => singleHeaderDotted ⟨_, rfl, by decide⟩ found

def pairRule (call : List Char) (dotted : Dotted call) (method parameter : String) : Rule where
  Captured := List Char × List Char
  pattern? := pairHeader? call
  rewrite names :=
    some (opened method parameter ++ binding names.1 parameter 0 ++ binding names.2 parameter 1)
  dotted := fun _ _ _ found => pairHeaderDotted dotted found

def mapReturn? (text : List Char) :
    Option (((List Char × List Char) × (List Char × List Char)) × List Char) := do
  let (names, rest) ← pairHeader? mapCall text
  let (returned, rest) ← returnedPair? rest
  some ((names, returned), rest)

theorem mapReturnDotted {text captured rest} (h : mapReturn? text = some (captured, rest)) :
    TakesDotted text rest := by
  simp only [mapReturn?, bind, Option.bind_eq_some_iff] at h
  obtain ⟨⟨names, behind⟩, header, ⟨returned, left⟩, body, same⟩ := h
  cases same
  exact dottedReaches (pairHeaderDotted ⟨_, rfl, by decide⟩ header) (returnedPairReaches body)

def mapIdentity : Rule where
  Captured := (List Char × List Char) × (List Char × List Char)
  pattern? := mapReturn?
  rewrite captured :=
    if captured.2 = captured.1 then
      some (opened ".map" "item" ++ " return [item[0], item[1]]; \x7d)".toList)
    else none
  dotted := fun _ _ _ found => mapReturnDotted found

def mapPair : Rule := pairRule mapCall ⟨_, rfl, by decide⟩ ".map" "item"

def forEachPair : Rule := pairRule forEachCall ⟨_, rfl, by decide⟩ ".forEach" "entry"

def rules : List Rule := [filterSingle, mapIdentity, mapPair, forEachPair]

theorem Rule.patternShorter (rule : Rule) {text captured rest} (h : rule.pattern? text = some (captured, rest)) :
    rest.length < text.length := by
  obtain ⟨_, rfl, tail, rfl, _⟩ := rule.dotted h
  simp only [List.cons_append, List.length_cons, List.length_append]
  omega

def Rule.replacement (rule : Rule) (captured : rule.Captured) (taken : List Char) : List Char × Nat :=
  match rule.rewrite captured with
  | some out => (out, 1)
  | none => (taken, 0)

/-- Matches are replaced from left to right and never overlap; everything between them is copied. What
is already written stands in reverse before the text. -/
def Rule.pass (rule : Rule) (written : List Char) (count : Nat) : List Char → List Char × Nat
  | [] => (written.reverse, count)
  | c :: rest =>
    match _ : rule.pattern? (c :: rest) with
    | some (captured, after) =>
      let taken := (c :: rest).take ((c :: rest).length - after.length)
      let replaced := rule.replacement captured taken
      rule.pass (replaced.1.reverseAux written) (count + replaced.2) after
    | none => rule.pass (c :: written) count rest
termination_by text => text.length
decreasing_by
  · exact rule.patternShorter ‹_›
  · exact Nat.lt_succ_self _

structure Lowered where
  text : String
  count : Nat
  deriving DecidableEq, Repr

def lower (text : String) : Lowered :=
  let result := rules.foldl (fun r rule => rule.pass [] r.2 r.1) (text.toList, 0)
  ⟨String.ofList result.1, result.2⟩

def applyAll (transformers : List (String → Lowered)) (text : String) : Lowered :=
  transformers.foldl (fun done transform =>
    let next := transform done.text
    ⟨next.text, done.count + next.count⟩) ⟨text, 0⟩

theorem foldlApplyAll (transformers : List (String → Lowered)) (text : String) (count : Nat) :
    transformers.foldl (fun done transform =>
      ⟨(transform done.text).text, done.count + (transform done.text).count⟩) (Lowered.mk text count) =
      ⟨(applyAll transformers text).text, count + (applyAll transformers text).count⟩ := by
  induction transformers generalizing text count with
  | nil => rfl
  | cons transform others ih =>
    rw [applyAll, List.foldl_cons, List.foldl_cons, ih, ih, Nat.zero_add, Nat.add_assoc]

theorem applyAllCons (transform : String → Lowered) (others : List (String → Lowered)) (text : String) :
    applyAll (transform :: others) text = ⟨(applyAll others (transform text).text).text,
      (transform text).count + (applyAll others (transform text).text).count⟩ := by
  rw [applyAll, List.foldl_cons, foldlApplyAll, Nat.zero_add]

theorem applyAllOne (transform : String → Lowered) (text : String) :
    applyAll [transform] text = transform text := by
  rw [applyAllCons]
  rfl

def lowerTimes (n : Nat) (text : String) : Lowered := applyAll (List.replicate n lower) text

end ScriptBundle.Downlevel
