import Mathlib.Logic.Function.Basic
import ScriptBundle.Number
import ScriptBundle.Proofs.Sweep

/-! What a lowered callback does with its argument. The text that was written is read as statements,
and these run one after the other over the names in scope: each reads what its source holds by then.
A callback keeps what its list of names meant unless its first name is the parameter that was written
for the list, since the second name is then read from the wrong value. -/
namespace ScriptBundle.Downlevel
open Text

structure Element where
  source : List Char
  index : Nat
  deriving DecidableEq, Repr

structure Assignment where
  target : List Char
  value : Element
  deriving DecidableEq, Repr

structure Entry where
  parameter : List Char
  assignments : List Assignment
  returned : Option (Element × Element)
  deriving DecidableEq, Repr

section Reading

def index? (text : List Char) : Option (Nat × List Char) := do
  let (digits, rest) ← word? text
  if digits.all Char.isDigit then some (Nat.ofDigitChars 10 digits 0, rest) else none

def element? (text : List Char) : Option (Element × List Char) := do
  let (source, rest) ← word? text
  let rest ← literal? ['['] rest
  let (index, rest) ← index? rest
  let rest ← literal? [']'] rest
  some (⟨source, index⟩, rest)

def assignment? (text : List Char) : Option (Assignment × List Char) := do
  let rest ← literal? " var ".toList text
  let (target, rest) ← word? rest
  let rest ← literal? " = ".toList rest
  let (value, rest) ← element? rest
  let rest ← literal? [';'] rest
  some (⟨target, value⟩, rest)

def returned? (text : List Char) : Option ((Element × Element) × List Char) := do
  let rest ← literal? " return [".toList text
  let (first, rest) ← element? rest
  let rest ← literal? ", ".toList rest
  let (second, rest) ← element? rest
  let rest ← literal? "]; \x7d)".toList rest
  some ((first, second), rest)

theorem literalLength {literal text rest : List Char} (h : literal? literal text = some rest) :
    text.length = literal.length + rest.length := by
  rw [literalSource h, List.length_append]

theorem wordLength {text word rest : List Char} (h : word? text = some (word, rest)) :
    rest.length < text.length := by
  obtain ⟨same, notEmpty, _⟩ := wordSource h
  have := List.length_pos_iff.mpr notEmpty
  rw [same, List.length_append]
  omega

theorem indexLength {text rest : List Char} {index : Nat} (h : index? text = some (index, rest)) :
    rest.length < text.length := by
  simp only [index?, bind, Option.bind_eq_some_iff] at h
  obtain ⟨⟨digits, left⟩, word, same⟩ := h
  split at same <;> try contradiction
  cases same
  exact wordLength word

theorem elementLength {text rest : List Char} {element : Element} (h : element? text = some (element, rest)) :
    rest.length < text.length := by
  simp only [element?, bind, Option.bind_eq_some_iff] at h
  obtain ⟨⟨source, r₁⟩, h₁, r₂, h₂, ⟨index, r₃⟩, h₃, r₄, h₄, same⟩ := h
  cases same
  have := wordLength h₁
  have := literalLength h₂
  have := indexLength h₃
  have := literalLength h₄
  simp only at *
  omega

theorem assignmentLength {text rest : List Char} {assignment : Assignment}
    (h : assignment? text = some (assignment, rest)) : rest.length < text.length := by
  simp only [assignment?, bind, Option.bind_eq_some_iff] at h
  obtain ⟨r₁, h₁, ⟨target, r₂⟩, h₂, r₃, h₃, ⟨value, r₄⟩, h₄, r₅, h₅, same⟩ := h
  cases same
  have := literalLength h₁
  have := wordLength h₂
  have := literalLength h₃
  have := elementLength h₄
  have := literalLength h₅
  simp only at *
  omega

def readAssignments (text : List Char) : List Assignment × List Char :=
  match found : assignment? text with
  | some (first, rest) =>
    have := assignmentLength found
    let others := readAssignments rest
    (first :: others.1, others.2)
  | none => ([], text)
termination_by text.length

def Entry.read? (text : List Char) : Option Entry := do
  let rest ← literal? ['.'] text
  let (_, rest) ← word? rest
  let rest ← literal? "(function(".toList rest
  let (parameter, rest) ← word? rest
  let rest ← literal? ") \x7b".toList rest
  match readAssignments rest with
  | (assigned, []) => some ⟨parameter, assigned, none⟩
  | (assigned, rest) =>
    match returned? rest with
    | some (pair, []) => some ⟨parameter, assigned, some pair⟩
    | _ => none

end Reading

section Running

abbrev Scope (V : Type) := List Char → Option V

variable {V : Type} (element : V → Nat → V)

def Element.eval (e : Element) (scope : Scope V) : Option V := (scope e.source).map (element · e.index)

def Assignment.run (scope : Scope V) (a : Assignment) : Option (Scope V) := do
  let value ← a.value.eval element scope
  some (Function.update scope a.target (some value))

def Entry.enter (entry : Entry) (value : V) : Option (Scope V) :=
  entry.assignments.foldlM (Assignment.run element)
    (Function.update (fun _ => none) entry.parameter (some value))

def Entry.answer (entry : Entry) (value : V) : Option (V × V) := do
  let scope ← entry.enter element value
  let (first, second) ← entry.returned
  let first ← first.eval element scope
  let second ← second.eval element scope
  some (first, second)

def enter? (value : V) (text : List Char) : Option (Scope V) :=
  (Entry.read? text).bind fun entry => entry.enter element value

def answer? (value : V) (text : List Char) : Option (V × V) :=
  (Entry.read? text).bind fun entry => entry.answer element value

end Running

section Written

theorem readStep {text rest : List Char} {first : Assignment}
    (found : assignment? text = some (first, rest)) :
    readAssignments text = (first :: (readAssignments rest).1, (readAssignments rest).2) := by
  rw [readAssignments]
  split
  · rename_i other left same
    cases found.symm.trans same
    rfl
  · rename_i none
    cases found.symm.trans none

theorem readStop {text : List Char} (missed : assignment? text = none) :
    readAssignments text = ([], text) := by
  rw [readAssignments]
  split
  · rename_i some
    cases missed.symm.trans some
  · rfl

theorem digitWord {c : Char} (digit : c.isDigit = true) : isWord c = true := by
  simp [isWord, Char.isAlphanum, digit]

theorem indexAppend {closing : List Char} (stop : breaks isWord closing = true) (index : Nat)
    (rest : List Char) :
    index? ((Nat.repr index).toList ++ (closing ++ rest)) = some (index, closing ++ rest) := by
  have digits := Decimal.reprDecimal index
  have named : IsName (Nat.repr index).toList := by
    refine ⟨?_, fun c member => digitWord (digits c member)⟩
    rw [Nat.toList_repr]
    exact Nat.toDigits_ne_nil
  have value : Nat.ofDigitChars 10 (Nat.repr index).toList 0 = index := by
    rw [Nat.toList_repr]
    exact Nat.ofDigitChars_toDigits (by decide) (by decide)
  simp only [index?, bind, wordAppend named stop, Option.bind_some, List.all_eq_true.mpr digits, value, if_true]

theorem elementAppend {source : List Char} (named : IsName source) (index : Nat) (rest : List Char) :
    element? (source ++ (['['] ++ ((Nat.repr index).toList ++ ([']'] ++ rest)))) =
      some (⟨source, index⟩, rest) := by
  have opening : breaks isWord ['['] = true := rfl
  have closing : breaks isWord [']'] = true := rfl
  simp only [element?, bind, wordAppend named opening, Option.bind_some, literalAppend, indexAppend closing]

theorem assignmentAppend {target : List Char} {parameter : String} (named : IsName target)
    (namedParameter : IsName parameter.toList) (index : Nat) (rest : List Char) :
    assignment? (binding target parameter index ++ rest) =
      some (⟨target, ⟨parameter.toList, index⟩⟩, rest) := by
  have equals : breaks isWord " = ".toList = true := rfl
  have closing : "];".toList = [']'] ++ [';'] := rfl
  have opening : "[".toList = ['['] := rfl
  rw [bindingGiven]
  unfold given
  rw [closing, opening]
  simp only [assignment?, List.append_assoc, bind, literalAppend, Option.bind_some, wordAppend named equals,
    elementAppend namedParameter]

theorem openedRead {call parameter : String} {method body : List Char} {assigned : List Assignment}
    (dotted : call.toList = ['.'] ++ method) (named : IsName method) (namedParameter : IsName parameter.toList)
    (read : readAssignments body = (assigned, [])) :
    Entry.read? (opened call parameter ++ body) = some ⟨parameter.toList, assigned, none⟩ := by
  have bracket : breaks isWord "(function(".toList = true := rfl
  have brace : breaks isWord ") \x7b".toList = true := rfl
  unfold opened
  rw [dotted]
  simp only [Entry.read?, List.append_assoc, bind, literalAppend, Option.bind_some, wordAppend named bracket,
    wordAppend namedParameter brace, read]

end Written

namespace Callback

def parameter : Callback → List Char
  | filter _ | map _ _ => "item".toList
  | forEach _ _ => "entry".toList

def entry (callback : Callback) : Entry where
  parameter := callback.parameter
  assignments := callback.names.zipIdx.map fun place => ⟨place.1, callback.parameter, place.2⟩
  returned := none

def Captures (callback : Callback) : Prop := ∃ second, callback.names = [callback.parameter, second]

end Callback

section Entries

theorem bindingsRead {first second : List Char} {parameter : String} (named : IsName first)
    (namedSecond : IsName second) (namedParameter : IsName parameter.toList) :
    readAssignments (binding first parameter 0 ++ binding second parameter 1) =
      ([⟨first, parameter.toList, 0⟩, ⟨second, parameter.toList, 1⟩], []) := by
  have last := assignmentAppend namedSecond namedParameter 1 []
  rw [List.append_nil] at last
  rw [readStep (assignmentAppend named namedParameter 0 _), readStep last, readStop rfl]

theorem lettersNamed {word : List Char} (notEmpty : word ≠ []) (letters : word.all Char.isAlpha = true) :
    IsName word := by
  refine ⟨notEmpty, fun c member => ?_⟩
  have letter := List.all_eq_true.mp letters c member
  simp [isWord, Char.isAlphanum, letter]

theorem itemNamed : IsName "item".toList := lettersNamed (by decide) rfl

theorem entryNamed : IsName "entry".toList := lettersNamed (by decide) rfl

theorem writtenRead {callback : Callback} (named : ∀ name ∈ callback.names, IsName name) :
    Entry.read? callback.written = some callback.entry := by
  cases callback with
  | filter name =>
    have single := assignmentAppend (named name List.mem_cons_self) itemNamed 0 []
    rw [List.append_nil] at single
    have read : readAssignments (binding name "item" 0) = ([⟨name, "item".toList, 0⟩], []) := by
      rw [readStep single, readStop rfl]
    have method : IsName "filter".toList := lettersNamed (by decide) rfl
    rw [← singleWritten]
    exact openedRead rfl method itemNamed read
  | map first second =>
    have read := bindingsRead (named first List.mem_cons_self)
      (named second (List.mem_cons_of_mem _ List.mem_cons_self)) itemNamed
    have method : IsName "map".toList := lettersNamed (by decide) rfl
    rw [← mapWritten, List.append_assoc]
    exact openedRead rfl method itemNamed read
  | forEach first second =>
    have read := bindingsRead (named first List.mem_cons_self)
      (named second (List.mem_cons_of_mem _ List.mem_cons_self)) entryNamed
    have method : IsName "forEach".toList := lettersNamed (by decide) rfl
    rw [← forEachWritten, List.append_assoc]
    exact openedRead rfl method entryNamed read

theorem identityRead : Entry.read? identityWritten =
    some ⟨"item".toList, [], some (⟨"item".toList, 0⟩, ⟨"item".toList, 1⟩)⟩ := by
  decide +kernel

end Entries

section Meaning
variable {V : Type} (element : V → Nat → V) (value : V)

theorem pairEntered (first second parameter : List Char) :
    (Entry.mk parameter [⟨first, parameter, 0⟩, ⟨second, parameter, 1⟩] none).enter element value =
      some (Function.update (Function.update (Function.update (fun _ => none) parameter (some value))
        first (some (element value 0)))
        second (some (element (if first = parameter then element value 0 else value) 1))) := by
  by_cases captured : first = parameter
  · subst captured
    simp [Entry.enter, Assignment.run, Element.eval]
  · simp [Entry.enter, Assignment.run, Element.eval, captured, Ne.symm captured]

end Meaning

def Binds (out : String) (names : List (List Char)) : Prop :=
  ∀ (V : Type) (element : V → Nat → V) (value : V), ∃ scope, enter? element value out.toList = some scope ∧
    ∀ index name, names[index]? = some name → scope name = some (element value index)

inductive Value where
  | number (n : Nat)
  | pair (first second : Value)
  | missing
  deriving DecidableEq, Repr

def Value.element : Value → Nat → Value
  | pair first _, 0 => first
  | pair _ second, 1 => second
  | _, _ => missing

theorem singleBinds {out : String} {name parameter : List Char}
    (read : Entry.read? out.toList = some ⟨parameter, [⟨name, parameter, 0⟩], none⟩) :
    Binds out [name] := by
  intro V element value
  have entered : enter? element value out.toList = some (Function.update
      (Function.update (fun _ => none) parameter (some value)) name (some (element value 0))) := by
    simp [enter?, read, Entry.enter, Assignment.run, Element.eval]
  refine ⟨_, entered, ?_⟩
  intro index other found
  obtain ⟨rfl, rfl⟩ : index = 0 ∧ name = other := by simpa using List.getElem?_eq_some_iff.mp found
  exact Function.update_self ..

theorem pairBinds {out : String} {first second parameter : List Char} (distinct : first ≠ second)
    (read : Entry.read? out.toList =
      some ⟨parameter, [⟨first, parameter, 0⟩, ⟨second, parameter, 1⟩], none⟩) :
    Binds out [first, second] ↔ first ≠ parameter := by
  constructor
  · rintro binds rfl
    -- with a list in the first place, the second name gets an element of that list
    obtain ⟨scope, entered, held⟩ :=
      binds Value Value.element (.pair (.pair (.number 1) (.number 2)) (.number 3))
    rw [enter?, read, Option.bind_some, pairEntered, if_pos rfl] at entered
    have second := held 1 second rfl
    rw [← Option.some.inj entered, Function.update_self] at second
    cases second
  · intro other V element value
    refine ⟨_, by rw [enter?, read, Option.bind_some, pairEntered, if_neg other], ?_⟩
    intro index name found
    match index, found with
    | 0, found =>
      cases found
      rw [Function.update_of_ne distinct, Function.update_self]
    | 1, found =>
      cases found
      rw [Function.update_self]

theorem bindsUnlessCaptured {callback : Callback} (named : ∀ name ∈ callback.names, IsName name)
    (distinct : callback.names.Nodup) :
    Binds (String.ofList callback.written) callback.names ↔ ¬ callback.Captures := by
  have read : Entry.read? (String.ofList callback.written).toList = some callback.entry := by
    rw [String.toList_ofList, writtenRead named]
  cases callback with
  | filter name =>
    refine iff_of_true (singleBinds read) ?_
    rintro ⟨second, same⟩
    cases (List.cons.inj same).2
  | map first second | forEach first second =>
    have different : first ≠ second := by simpa [Callback.names] using distinct
    refine (pairBinds different read).trans (not_congr ?_)
    constructor
    · intro captured
      exact ⟨second, congrArg (· :: [second]) captured⟩
    · rintro ⟨other, same⟩
      exact (List.cons.inj same).1

/- Wherever a callback stands in a text, exactly one case does not keep its names: the first of two names
is the parameter. A map that returns its names keeps what it returns. -/
theorem keepsParametersUnlessCaptured (before rest : String) :
    (∀ (callback : Callback) (taken : String), Header callback taken.toList → callback.names.Nodup →
      ¬ callback.IsIdentity rest.toList →
      ∃ out, (lower (before ++ taken ++ rest)).text = (lower before).text ++ out ++ (lower rest).text ∧
        (Binds out callback.names ↔ ¬ callback.Captures)) ∧
    ∀ first second (taken body : String), Header (.map first second) taken.toList →
      Returns first second body.toList →
      ∃ out, (lower (before ++ (taken ++ body) ++ rest)).text = (lower before).text ++ out ++ (lower rest).text ∧
        ∀ (V : Type) (element : V → Nat → V) (value : V),
          answer? element value out.toList = some (element value 0, element value 1) := by
  constructor
  · intro callback taken header distinct other
    refine ⟨String.ofList callback.written, lowerAround ?_ before,
      bindsUnlessCaptured (headerNames header) distinct⟩
    rw [String.toList_ofList]
    exact .header header other
  · intro first second taken body header returns
    refine ⟨String.ofList identityWritten, lowerAround ?_ before, ?_⟩
    · rw [String.toList_append, String.toList_ofList]
      exact .identity header returns
    · intro V element value
      rw [String.toList_ofList, answer?, identityRead]
      simp [Entry.answer, Entry.enter, Element.eval]

/- The first name takes the place of the list, so the second is read from the first element. -/
theorem itemCapturesItsList :
    Header (.map "item".toList "b".toList) ".map(function([item, b]) \x7b".toList ∧
      ["item".toList, "b".toList].Nodup ∧
      (lower ".map(function([item, b]) \x7b").text =
        ".map(function(item) \x7b var item = item[0]; var b = item[1];" ∧
      (enter? Value.element (.pair (.pair (.number 1) (.number 2)) (.number 3))
        (lower ".map(function([item, b]) \x7b").text.toList).bind (· "b".toList) = some (.number 2) ∧
      Value.element (.pair (.pair (.number 1) (.number 2)) (.number 3)) 1 = .number 3 := by
  have space : IsGap [' '] := List.forall_mem_singleton.mpr rfl
  have named : IsName "b".toList := lettersNamed (by decide) rfl
  have listed : NameList ["item".toList, "b".toList] "item, b".toList := .more itemNamed space (.one named)
  exact ⟨.mk listed space, by decide, by decide +kernel, by decide +kernel, rfl⟩

end ScriptBundle.Downlevel
