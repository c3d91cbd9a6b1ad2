import ScriptBundle.Proofs.Characters
import ScriptBundle.Proofs.Passes

/-! How the callbacks that are lowered are written: a call, a list of names and an opening brace, with
blanks at their places. The readers take exactly these headers, and each rule writes for a header
what depends on its names alone. -/
namespace ScriptBundle
namespace Text

def IsName (word : List Char) : Prop := word ≠ [] ∧ ∀ c ∈ word, isWord c = true

def IsGap (blanks : List Char) : Prop := ∀ c ∈ blanks, isBlank c = true

def breaks (keep : Char → Bool) (text : List Char) : Bool := text.head?.any fun c => !keep c

theorem breaksRun {keep : Char → Bool} {run text : List Char} (chars : ∀ c ∈ run, keep c = true)
    (stop : breaks keep text = true) (rest : List Char) :
    (run ++ (text ++ rest)).takeWhile keep = run ∧
      (run ++ (text ++ rest)).dropWhile keep = text ++ rest := by
  cases text with
  | nil => cases stop
  | cons c text =>
    have outside : ¬ keep c = true := by simpa [breaks] using stop
    rw [List.takeWhile_append_of_pos chars, List.dropWhile_append_of_pos chars, List.cons_append,
      List.takeWhile_cons_of_neg outside, List.dropWhile_cons_of_neg outside, List.append_nil]
    exact ⟨rfl, rfl⟩

theorem wordAppend {word closing : List Char} (named : IsName word) (stop : breaks isWord closing = true)
    (rest : List Char) : word? (word ++ (closing ++ rest)) = some (word, closing ++ rest) := by
  obtain ⟨notEmpty, chars⟩ := named
  obtain ⟨kept, left⟩ := breaksRun chars stop rest
  rw [word?, kept, left]
  cases word with
  | nil => contradiction
  | cons c word => rfl

theorem wordNamed {text word rest : List Char} (taken : word? text = some (word, rest)) :
    IsName word ∧ text = word ++ rest := by
  obtain ⟨source, notEmpty, chars⟩ := wordSource taken
  exact ⟨⟨notEmpty, chars⟩, source⟩

theorem skipAppend {gap opening : List Char} (blank : IsGap gap) (solid : breaks isBlank opening = true)
    (rest : List Char) : skipBlanks (gap ++ (opening ++ rest)) = opening ++ rest :=
  (breaksRun blank solid rest).2

theorem skipSource (text : List Char) : ∃ gap, IsGap gap ∧ text = gap ++ skipBlanks text :=
  ⟨text.takeWhile isBlank, List.all_eq_true.mp List.all_takeWhile, List.takeWhile_append_dropWhile.symm⟩

theorem nameSolid {word : List Char} (named : IsName word) : breaks isBlank word = true := by
  obtain ⟨notEmpty, chars⟩ := named
  cases word with
  | nil => contradiction
  | cons c word => simp [breaks, wordNotBlank (chars c List.mem_cons_self)]

end Text

namespace Downlevel
open Text

inductive Callback where
  | filter (name : List Char)
  | map (first second : List Char)
  | forEach (first second : List Char)
  deriving DecidableEq, Repr

namespace Callback

def call : Callback → List Char
  | filter _ => filterCall
  | map _ _ => mapCall
  | forEach _ _ => forEachCall

def names : Callback → List (List Char)
  | filter name => [name]
  | map first second | forEach first second => [first, second]

def written : Callback → List Char
  | filter name => ".filter(function(item) \x7b var ".toList ++ name ++ " = item[0];".toList
  | map first second =>
    ".map(function(item) \x7b var ".toList ++ first ++ " = item[0]; var ".toList ++ second ++
      " = item[1];".toList
  | forEach first second =>
    ".forEach(function(entry) \x7b var ".toList ++ first ++ " = entry[0]; var ".toList ++ second ++
      " = entry[1];".toList

end Callback

def identityWritten : List Char := ".map(function(item) \x7b return [item[0], item[1]]; \x7d)".toList

inductive NameList : List (List Char) → List Char → Prop where
  | one {name : List Char} (named : IsName name) : NameList [name] name
  | more {name gap list : List Char} {names : List (List Char)} (named : IsName name) (blank : IsGap gap)
      (others : NameList names list) : NameList (name :: names) (name ++ [','] ++ gap ++ list)

inductive Spelled (call : List Char) (names : List (List Char)) : List Char → Prop where
  | mk {list gap : List Char} (listed : NameList names list) (blank : IsGap gap) :
      Spelled call names (call ++ list ++ "])".toList ++ gap ++ ['{'])

def Header (callback : Callback) : List Char → Prop := Spelled callback.call callback.names

inductive Returns (first second : List Char) : List Char → Prop where
  | mk {before between behind list : List Char} (blankBefore : IsGap before) (blankBetween : IsGap between)
      (listed : NameList [first, second] list) (blankBehind : IsGap behind) :
      Returns first second (before ++ "return".toList ++ between ++ ['['] ++ list ++ "];".toList ++
        behind ++ "\x7d)".toList)

section Readers

theorem pairSource {text first second rest : List Char} (h : pair? text = some ((first, second), rest)) :
    ∃ list, NameList [first, second] list ∧ text = list ++ rest := by
  simp only [pair?, bind, Option.bind_eq_some_iff] at h
  obtain ⟨⟨name, behind⟩, taken, afterComma, comma, ⟨last, left⟩, takenLast, same⟩ := h
  cases same
  obtain ⟨named, rfl⟩ := wordNamed taken
  obtain ⟨gap, blank, source⟩ := skipSource afterComma
  obtain ⟨namedLast, skipped⟩ := wordNamed takenLast
  have separated : behind = [','] ++ afterComma := literalSource comma
  refine ⟨_, .more named blank (.one namedLast), ?_⟩
  rw [separated, source, skipped]
  simp only [List.append_assoc]

theorem pairAppend {first second list closing : List Char} (listed : NameList [first, second] list)
    (stop : breaks isWord closing = true) (rest : List Char) :
    pair? (list ++ (closing ++ rest)) = some ((first, second), closing ++ rest) := by
  cases listed with
  | @more _ gap last _ named blank others =>
    cases others with
    | more _ _ none => cases none
    | one namedLast =>
      have comma : breaks isWord [','] = true := rfl
      simp only [pair?, List.append_assoc, bind, wordAppend named comma, Option.bind_some, literalAppend,
        skipAppend blank (nameSolid namedLast), wordAppend namedLast stop]

theorem singleHeaderAppend {call taken name : List Char} (spelled : Spelled call [name] taken)
    (rest : List Char) : singleHeader? call (taken ++ rest) = some (name, rest) := by
  cases spelled with
  | @mk list gap listed blank =>
    cases listed with
    | more _ _ none => cases none
    | one named =>
      have bracket : breaks isWord "])".toList = true := rfl
      have brace : breaks isBlank ['{'] = true := rfl
      simp only [singleHeader?, List.append_assoc, bind, literalAppend, Option.bind_some,
        wordAppend named bracket, skipAppend blank brace]

theorem singleHeaderExact {call text name rest : List Char} :
    singleHeader? call text = some (name, rest) ↔
      ∃ taken, Spelled call [name] taken ∧ text = taken ++ rest := by
  constructor
  · intro h
    simp only [singleHeader?, bind, Option.bind_eq_some_iff] at h
    obtain ⟨afterCall, called, ⟨word, behind⟩, taken, closed, bracket, left, brace, same⟩ := h
    cases same
    obtain ⟨named, source⟩ := wordNamed taken
    obtain ⟨gap, blank, skipped⟩ := skipSource closed
    have listed : behind = "])".toList ++ closed := literalSource bracket
    refine ⟨_, .mk (.one named) blank, ?_⟩
    rw [literalSource called, source, listed, skipped, literalSource brace]
    simp only [List.append_assoc]
  · rintro ⟨taken, spelled, rfl⟩
    exact singleHeaderAppend spelled rest

theorem pairHeaderAppend {call taken first second : List Char} (spelled : Spelled call [first, second] taken)
    (rest : List Char) : pairHeader? call (taken ++ rest) = some ((first, second), rest) := by
  cases spelled with
  | @mk list gap listed blank =>
    have bracket : breaks isWord "])".toList = true := rfl
    have brace : breaks isBlank ['{'] = true := rfl
    simp only [pairHeader?, List.append_assoc, bind, literalAppend, Option.bind_some,
      pairAppend listed bracket, skipAppend blank brace]

theorem pairHeaderExact {call text first second rest : List Char} :
    pairHeader? call text = some ((first, second), rest) ↔
      ∃ taken, Spelled call [first, second] taken ∧ text = taken ++ rest := by
  constructor
  · intro h
    simp only [pairHeader?, bind, Option.bind_eq_some_iff] at h
    obtain ⟨afterCall, called, ⟨⟨name, last⟩, behind⟩, taken, closed, bracket, left, brace, same⟩ := h
    cases same
    obtain ⟨list, listed, source⟩ := pairSource taken
    obtain ⟨gap, blank, skipped⟩ := skipSource closed
    have closing : behind = "])".toList ++ closed := literalSource bracket
    refine ⟨_, .mk listed blank, ?_⟩
    rw [literalSource called, source, closing, skipped, literalSource brace]
    simp only [List.append_assoc]
  · rintro ⟨taken, spelled, rfl⟩
    exact pairHeaderAppend spelled rest

theorem returnedPairExact {text first second rest : List Char} :
    returnedPair? text = some ((first, second), rest) ↔
      ∃ body, Returns first second body ∧ text = body ++ rest := by
  constructor
  · intro h
    simp only [returnedPair?, bind, Option.bind_eq_some_iff] at h
    obtain ⟨afterReturn, returned, afterBracket, opened, ⟨⟨name, last⟩, behind⟩, taken, closed, bracket,
      left, brace, same⟩ := h
    cases same
    obtain ⟨before, blankBefore, skipped⟩ := skipSource text
    obtain ⟨between, blankBetween, skippedReturn⟩ := skipSource afterReturn
    obtain ⟨list, listed, source⟩ := pairSource taken
    obtain ⟨gap, blank, skippedList⟩ := skipSource closed
    have closing : behind = "];".toList ++ closed := literalSource bracket
    refine ⟨_, .mk blankBefore blankBetween listed blank, ?_⟩
    rw [skipped, literalSource returned, skippedReturn, literalSource opened, source, closing, skippedList,
      literalSource brace]
    simp only [List.append_assoc]
  · rintro ⟨body, returns, rfl⟩
    cases returns with
    | @mk before between behind list blankBefore blankBetween listed blankBehind =>
      have word : breaks isBlank "return".toList = true := rfl
      have opening : breaks isBlank ['['] = true := rfl
      have bracket : breaks isWord "];".toList = true := rfl
      have brace : breaks isBlank "\x7d)".toList = true := rfl
      simp only [returnedPair?, List.append_assoc, bind, literalAppend, Option.bind_some,
        skipAppend blankBefore word, skipAppend blankBetween opening, pairAppend listed bracket,
        skipAppend blankBehind brace]

end Readers

section Written

def given (parameter : String) (index : Nat) : List Char :=
  " = ".toList ++ (parameter.toList ++ ("[".toList ++ ((Nat.repr index).toList ++ "];".toList)))

theorem bindingGiven (name : List Char) (parameter : String) (index : Nat) :
    binding name parameter index = " var ".toList ++ (name ++ given parameter index) := by
  unfold binding given
  simp only [List.append_assoc]

theorem singleWritten (name : List Char) :
    opened ".filter" "item" ++ binding name "item" 0 = (Callback.filter name).written := by
  have opening : opened ".filter" "item" ++ " var ".toList = ".filter(function(item) \x7b var ".toList := by
    decide
  have last : given "item" 0 = " = item[0];".toList := by decide
  rw [bindingGiven, last, ← List.append_assoc, opening, ← List.append_assoc]
  rfl

theorem pairWritten {method parameter : String} {start between behind : List Char}
    (opening : opened method parameter ++ " var ".toList = start)
    (middle : given parameter 0 ++ " var ".toList = between) (last : given parameter 1 = behind)
    (first second : List Char) :
    opened method parameter ++ binding first parameter 0 ++ binding second parameter 1 =
      start ++ first ++ between ++ second ++ behind := by
  rw [← opening, ← middle, ← last, bindingGiven, bindingGiven]
  simp only [List.append_assoc]

theorem mapWritten (first second : List Char) :
    opened ".map" "item" ++ binding first "item" 0 ++ binding second "item" 1 =
      (Callback.map first second).written := by
  refine pairWritten ?_ ?_ ?_ first second
  all_goals decide

theorem forEachWritten (first second : List Char) :
    opened ".forEach" "entry" ++ binding first "entry" 0 ++ binding second "entry" 1 =
      (Callback.forEach first second).written := by
  refine pairWritten ?_ ?_ ?_ first second
  all_goals decide

end Written

section Rules

theorem filterSingleExact {text out rest : List Char} :
    filterSingle.at? text = some (out, rest) ↔
      ∃ taken, (∃ name, Header (.filter name) taken ∧ out = (Callback.filter name).written) ∧
        text = taken ++ rest := by
  rw [Rule.atSource]
  constructor
  · rintro ⟨name, header, same⟩
    cases same
    obtain ⟨taken, spelled, source⟩ := singleHeaderExact.mp header
    exact ⟨taken, ⟨name, spelled, singleWritten name⟩, source⟩
  · rintro ⟨taken, ⟨name, spelled, rfl⟩, source⟩
    exact ⟨name, singleHeaderExact.mpr ⟨taken, spelled, source⟩, congrArg some (singleWritten name)⟩

theorem pairRuleExact {call : List Char} {dotted : Dotted call} {method parameter : String}
    {callback : List Char → List Char → Callback}
    (headers : ∀ first second, Header (callback first second) = Spelled call [first, second])
    (writes : ∀ first second, opened method parameter ++ binding first parameter 0 ++
      binding second parameter 1 = (callback first second).written) {text out rest : List Char} :
    (pairRule call dotted method parameter).at? text = some (out, rest) ↔
      ∃ taken, (∃ first second, Header (callback first second) taken ∧
        out = (callback first second).written) ∧ text = taken ++ rest := by
  simp only [Rule.atSource, headers]
  constructor
  · rintro ⟨⟨first, second⟩, header, same⟩
    cases same
    obtain ⟨taken, spelled, source⟩ := pairHeaderExact.mp header
    exact ⟨taken, ⟨first, second, spelled, writes first second⟩, source⟩
  · rintro ⟨taken, ⟨first, second, spelled, rfl⟩, source⟩
    exact ⟨(first, second), pairHeaderExact.mpr ⟨taken, spelled, source⟩, congrArg some (writes first second)⟩

theorem mapPairExact {text out rest : List Char} :
    mapPair.at? text = some (out, rest) ↔
      ∃ taken, (∃ first second, Header (.map first second) taken ∧
        out = (Callback.map first second).written) ∧ text = taken ++ rest :=
  pairRuleExact (fun _ _ => rfl) mapWritten

theorem forEachPairExact {text out rest : List Char} :
    forEachPair.at? text = some (out, rest) ↔
      ∃ taken, (∃ first second, Header (.forEach first second) taken ∧
        out = (Callback.forEach first second).written) ∧ text = taken ++ rest :=
  pairRuleExact (fun _ _ => rfl) forEachWritten

theorem mapReturnSource {text rest : List Char} {names returned : List Char × List Char} :
    mapReturn? text = some ((names, returned), rest) ↔
      ∃ behind, pairHeader? mapCall text = some (names, behind) ∧
        returnedPair? behind = some (returned, rest) := by
  simp only [mapReturn?, bind, Option.bind_eq_some_iff]
  constructor
  · rintro ⟨⟨listed, behind⟩, header, ⟨last, left⟩, body, same⟩
    cases same
    exact ⟨behind, header, body⟩
  · rintro ⟨behind, header, body⟩
    exact ⟨(names, behind), header, (returned, rest), body, rfl⟩

theorem mapIdentityExact {text out rest : List Char} :
    mapIdentity.at? text = some (out, rest) ↔
      ∃ taken, (∃ first second header body, Header (.map first second) header ∧ Returns first second body ∧
        taken = header ++ body ∧ out = identityWritten) ∧ text = taken ++ rest := by
  have written : opened ".map" "item" ++ " return [item[0], item[1]]; \x7d)".toList = identityWritten := by
    decide
  simp only [Rule.atSource, mapIdentity, written]
  constructor
  · rintro ⟨⟨⟨first, second⟩, returned⟩, matched, same⟩
    split at same <;> try contradiction
    rename_i names
    cases same
    cases names
    obtain ⟨_, header, body⟩ := mapReturnSource.mp matched
    obtain ⟨taken, spelled, rfl⟩ := pairHeaderExact.mp header
    obtain ⟨tail, returns, rfl⟩ := returnedPairExact.mp body
    exact ⟨taken ++ tail, ⟨first, second, taken, tail, spelled, returns, rfl, rfl⟩, by rw [List.append_assoc]⟩
  · rintro ⟨_, ⟨first, second, taken, tail, spelled, returns, rfl, rfl⟩, rfl⟩
    refine ⟨((first, second), (first, second)), mapReturnSource.mpr ⟨tail ++ rest, ?_, ?_⟩, if_pos rfl⟩
    · exact pairHeaderExact.mpr ⟨taken, spelled, List.append_assoc ..⟩
    · exact returnedPairExact.mpr ⟨tail, returns, rfl⟩

end Rules

def Callback.IsIdentity : Callback → List Char → Prop
  | map first second, rest => ∃ body after, Returns first second body ∧ rest = body ++ after
  | _, _ => False

inductive Rewrites : List Char → List Char → Prop where
  | header {callback : Callback} {taken : List Char} (spelled : Header callback taken) :
      Rewrites taken callback.written
  | identity {first second taken body : List Char} (spelled : Header (.map first second) taken)
      (returns : Returns first second body) : Rewrites (taken ++ body) identityWritten

/- What is taken from the head of a text, what is written for it, and the rest of the text. A map that
returns its own names is lowered as a whole, and any other callback up to its opening brace. -/
inductive Lowers : List Char → List Char → List Char → Prop where
  | header {callback : Callback} {taken rest : List Char} (spelled : Header callback taken)
      (other : ¬ callback.IsIdentity rest) : Lowers taken callback.written rest
  | identity {first second taken body rest : List Char} (spelled : Header (.map first second) taken)
      (returns : Returns first second body) : Lowers (taken ++ body) identityWritten rest

def Headed (text : List Char) : Prop := ∃ callback taken rest, Header callback taken ∧ text = taken ++ rest

section Dots

/- The characters of a header behind its call, and of a returned list, that are neither part of a name nor
blank, with the letters of the one word among them. -/
def marks : List Char := ",])\x7breturn[;\x7d".toList

structure Foreign (c : Char) : Prop where
  word : isWord c = false
  blank : isBlank c = false
  mark : c ∉ marks

theorem dotForeign : Foreign '.' := ⟨by decide, by decide, by decide⟩

section Foreign
variable {c : Char}

theorem foreignLiteral (foreign : Foreign c) {literal : List Char} (inside : literal.all marks.contains = true) :
    c ∉ literal :=
  fun member => foreign.mark (List.contains_iff_mem.mp (List.all_eq_true.mp inside c member))

theorem namePlain (foreign : Foreign c) {name : List Char} (named : IsName name) : c ∉ name :=
  fun member => Bool.false_ne_true (foreign.word.symm.trans (named.2 c member))

theorem gapPlain (foreign : Foreign c) {gap : List Char} (blank : IsGap gap) : c ∉ gap :=
  fun member => Bool.false_ne_true (foreign.blank.symm.trans (blank c member))

theorem nameListPlain (foreign : Foreign c) {names : List (List Char)} {list : List Char}
    (listed : NameList names list) : c ∉ list := by
  induction listed with
  | one named => exact namePlain foreign named
  | more named blank _ ih =>
    have comma : c ∉ [','] := foreignLiteral foreign rfl
    exact List.not_mem_append (List.not_mem_append (List.not_mem_append (namePlain foreign named) comma)
      (gapPlain foreign blank)) ih

theorem spelledPlain (foreign : Foreign c) {call taken : List Char} {names : List (List Char)}
    (spelled : Spelled call names taken) : ∃ tail, taken = call ++ tail ∧ c ∉ tail := by
  cases spelled with
  | @mk list gap listed blank =>
    have bracket : c ∉ "])".toList := foreignLiteral foreign rfl
    have brace : c ∉ ['{'] := foreignLiteral foreign rfl
    refine ⟨list ++ "])".toList ++ gap ++ ['{'], by simp only [List.append_assoc], ?_⟩
    exact List.not_mem_append (List.not_mem_append (List.not_mem_append (nameListPlain foreign listed) bracket)
      (gapPlain foreign blank)) brace

theorem returnsPlain (foreign : Foreign c) {first second body : List Char} (returns : Returns first second body) :
    c ∉ body := by
  cases returns with
  | mk blankBefore blankBetween listed blankBehind =>
    have word : c ∉ "return".toList := foreignLiteral foreign rfl
    have opening : c ∉ ['['] := foreignLiteral foreign rfl
    have bracket : c ∉ "];".toList := foreignLiteral foreign rfl
    have brace : c ∉ "\x7d)".toList := foreignLiteral foreign rfl
    have before := List.not_mem_append (List.not_mem_append (gapPlain foreign blankBefore) word)
      (gapPlain foreign blankBetween)
    have list := List.not_mem_append (List.not_mem_append before opening) (nameListPlain foreign listed)
    exact List.not_mem_append (List.not_mem_append (List.not_mem_append list bracket)
      (gapPlain foreign blankBehind)) brace

end Foreign

theorem headerDotted {callback : Callback} {taken : List Char} (header : Header callback taken) :
    Dotted taken := by
  obtain ⟨tail, rfl, plain⟩ := spelledPlain dotForeign header
  refine dottedAppend ?_ plain
  cases callback <;> exact ⟨_, rfl, by decide⟩

theorem nameListNames {names : List (List Char)} {list : List Char} (listed : NameList names list) :
    ∀ name ∈ names, IsName name := by
  induction listed with
  | one named => exact List.forall_mem_singleton.mpr named
  | more named _ _ ih => exact List.forall_mem_cons.mpr ⟨named, ih⟩

theorem headerNames {callback : Callback} {taken : List Char} (header : Header callback taken) :
    ∀ name ∈ callback.names, IsName name := by
  cases header with
  | mk listed _ => exact nameListNames listed

theorem writtenDotted {callback : Callback} (named : ∀ name ∈ callback.names, IsName name) :
    Dotted callback.written := by
  have plain : ∀ name ∈ callback.names, '.' ∉ name := fun name member => namePlain dotForeign (named name member)
  cases callback with
  | filter name =>
    have name := plain _ List.mem_cons_self
    exact dottedAppend (dottedAppend ⟨_, rfl, by decide⟩ name) (by decide)
  | map first second | forEach first second =>
    have first := plain _ List.mem_cons_self
    have second := plain _ (List.mem_cons_of_mem _ List.mem_cons_self)
    exact dottedAppend (dottedAppend (dottedAppend (dottedAppend ⟨_, rfl, by decide⟩ first) (by decide)) second)
      (by decide)

theorem rewritesDotted {taken out : List Char} (rewrites : Rewrites taken out) : Dotted taken ∧ Dotted out := by
  cases rewrites with
  | header spelled => exact ⟨headerDotted spelled, writtenDotted (headerNames spelled)⟩
  | identity spelled returns =>
    exact ⟨dottedAppend (headerDotted spelled) (returnsPlain dotForeign returns), _, rfl, by decide⟩

theorem lowersDotted {taken out rest : List Char} (lowers : Lowers taken out rest) :
    Dotted taken ∧ Dotted out := by
  cases lowers with
  | header spelled => exact rewritesDotted (.header spelled)
  | identity spelled returns => exact rewritesDotted (.identity spelled returns)

end Dots

end Downlevel
end ScriptBundle
