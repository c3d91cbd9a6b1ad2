import Mathlib.Data.List.ReduceOption
import ScriptBundle.Manifest.Reader
import ScriptBundle.Proofs.JsonSkip

/-! A manifest from a JSON object. The object may give any of the fields, in any order, with members that no
field has among them; it may be laid out in any way. What it gives is read as it was written, and the rest
comes from the built-in manifest. -/
namespace ScriptBundle

namespace Table
variable {α : Type}

theorem insertFresh {entries : List (String × α)} {key : String} (fresh : key ∉ entries.map (·.1)) (value : α) :
    (⟨entries⟩ : Table α).insert key value = ⟨entries ++ [(key, value)]⟩ := by
  have same : updateEntries key (fun _ => value) entries = entries ++ [(key, value)] := by
    induction entries with
    | nil => rfl
    | cons entry rest ih =>
      simp only [List.map_cons, List.mem_cons, not_or] at fresh
      rw [updateEntries, if_neg (Ne.symm fresh.1), ih fresh.2, List.cons_append]
  exact congrArg Table.mk same

theorem ofListDistinct {entries : List (String × α)} (distinct : (entries.map (·.1)).Nodup) :
    ofList entries = ⟨entries⟩ := by
  have inserted (done rest : List (String × α)) (apart : ((done ++ rest).map (·.1)).Nodup) :
      rest.foldl (fun (t : Table α) entry => t.insert entry.1 entry.2) ⟨done⟩ = ⟨done ++ rest⟩ := by
    induction rest generalizing done with
    | nil => simp
    | cons entry rest ih =>
      have fresh : entry.1 ∉ done.map (·.1) := by
        intro member
        rw [List.map_append, List.nodup_append] at apart
        exact apart.2.2 _ member _ List.mem_cons_self rfl
      rw [List.foldl_cons, insertFresh fresh, ih (done ++ [entry]) (by simpa using apart), List.append_assoc]
      rfl
  exact inserted [] entries (by simpa using distinct)

end Table

namespace Manifest
open Json

def Field.Written (m : Manifest) : Field → List Char → Prop
  | title => StringText m.title
  | version => StringText m.version
  | output => StringText m.output
  | coreModules => StringsText m.coreModules
  | testModules => StringsText m.testModules
  | dependencies => TableText m.dependencies.entries
  | trackedSymbols => StringsText m.trackedSymbols
  | excludedFiles => StringsText m.excludedFiles

inductive MemberOf (m : Manifest) : Option Field → List Char → Prop where
  | field {field : Field} {text : List Char} (written : MemberText (Field.Written m) (field.key, field) text) :
      MemberOf m (some field) text
  | other {key : String} {text : List Char} (unknown : ∀ field : Field, key ≠ field.key)
      (written : MemberText (fun _ : Unit => WellFormed .value) (key, ()) text) : MemberOf m none text

inductive ObjectText (m : Manifest) (members : List (Option Field)) : List Char → Prop where
  | mk {before body after : List Char} (blank : Spaces before) (items : Items (MemberOf m) '}' true members body)
      (space : Spaces after) : ObjectText m members (before ++ '{' :: (body ++ after))

def validated (m : Manifest) : Except ManifestError Manifest :=
  match m.flaw? with
  | some flaw => .error (.flawed flaw)
  | none => .ok m

/- A manifest with one field read from another one. Of a key that its table of dependencies repeats, the last
value is left. -/
def Field.taken (m base : Manifest) : Field → Manifest
  | title => { base with title := m.title }
  | version => { base with version := m.version }
  | output => { base with output := m.output }
  | coreModules => { base with coreModules := m.coreModules }
  | testModules => { base with testModules := m.testModules }
  | dependencies => { base with dependencies := Table.ofList m.dependencies.entries }
  | trackedSymbols => { base with trackedSymbols := m.trackedSymbols }
  | excludedFiles => { base with excludedFiles := m.excludedFiles }

def overBuiltin (m : Manifest) (given : List Field) : Manifest where
  title := if .title ∈ given then m.title else builtin.title
  version := if .version ∈ given then m.version else builtin.version
  output := if .output ∈ given then m.output else builtin.output
  coreModules := if .coreModules ∈ given then m.coreModules else builtin.coreModules
  testModules := if .testModules ∈ given then m.testModules else builtin.testModules
  dependencies := if .dependencies ∈ given then m.dependencies else builtin.dependencies
  trackedSymbols := if .trackedSymbols ∈ given then m.trackedSymbols else builtin.trackedSymbols
  excludedFiles := if .excludedFiles ∈ given then m.excludedFiles else builtin.excludedFiles

section Fields
variable {m : Manifest} {given : List Field} {field : Field} {before text : List Char}

theorem overBuiltinNone (m : Manifest) : m.overBuiltin [] = builtin := by
  simp [overBuiltin]

theorem overBuiltinAll (m : Manifest) : m.overBuiltin Field.all = m := by
  simp [overBuiltin, Field.all]

theorem overBuiltinReverse (m : Manifest) (given : List Field) : m.overBuiltin given.reverse = m.overBuiltin given := by
  simp [overBuiltin]

theorem takenOverBuiltin (distinct : m.dependencies.keys.Nodup) :
    field.taken m (m.overBuiltin given) = m.overBuiltin (field :: given) := by
  have table : Table.ofList m.dependencies.entries = m.dependencies := Table.ofListDistinct distinct
  cases field <;> simp [Field.taken, overBuiltin, table]

theorem takenAll (distinct : m.dependencies.keys.Nodup) (fields given : List Field) :
    fields.foldl (fun base field => field.taken m base) (m.overBuiltin given) =
      m.overBuiltin (fields.reverse ++ given) := by
  induction fields generalizing given with
  | nil => rfl
  | cons field fields ih =>
    rw [List.foldl_cons, takenOverBuiltin distinct, ih, List.reverse_cons, List.append_assoc]
    rfl

theorem setRead {α : Type} {read : Reader α} {assign : α → Manifest} {value : α} (reads : Reads read text value) :
    Reads (set read assign) text (assign value) := by
  intro tail ends
  rw [set, reads tail ends]
  rfl

theorem fieldRead (base : Manifest) (blank : Spaces before) (written : field.Written m text) :
    Reads (field.read base) (before ++ text) (field.taken m base) := by
  cases field <;> rw [Field.read]
  case title | version | output => exact setRead (readsAfter (stringAfter blank) (stringRead written))
  case dependencies => exact setRead (readsAfter (tableAfter blank) (tableRead written))
  all_goals exact setRead (readsAfter (stringsAfter blank) (stringsRead written))

end Fields

section Members
variable {m : Manifest} {text : List Char}

theorem keyField (field : Field) : Field.ofKey? field.key = some field := by
  cases field <;> rfl

theorem keyUnknown {key : String} (unknown : ∀ field : Field, key ≠ field.key) : Field.ofKey? key = none := by
  refine List.find?_eq_none.mpr fun field _ => ?_
  simpa using Ne.symm (unknown field)

theorem fieldMember {draft : Draft} {field : Field} (fresh : field ∉ draft.given) {gap before : List Char}
    (blank : Spaces gap) (space : Spaces before) (written : field.Written m text) :
    Reads (draft.member field.key) (gap ++ ':' :: (before ++ text))
      ⟨field.taken m draft.manifest, field :: draft.given⟩ := by
  intro tail ends
  have read := fieldRead draft.manifest space written tail ends
  rw [Draft.member, keyField, List.append_assoc, colonAfter blank, List.cons_append, colonRead]
  simp only [List.contains_iff_mem, fresh, if_false, read]
  rfl

theorem otherMember {draft : Draft} {key : String} (unknown : ∀ field : Field, key ≠ field.key)
    {gap before : List Char} (blank : Spaces gap) (space : Spaces before) (formed : WellFormed .value text) :
    Reads (draft.member key) (gap ++ ':' :: (before ++ text)) draft := by
  intro tail ends
  rw [Draft.member, keyUnknown unknown, List.append_assoc, colonAfter blank, List.cons_append, colonRead]
  simp only [valueRead space formed tail ends]
  rfl

theorem nextFresh {field : Field} {fields given : List Field} (once : (field :: (fields ++ given)).Nodup) :
    field ∉ given ∧ (fields ++ field :: given).Nodup :=
  ⟨fun member => (List.nodup_cons.mp once).1 (List.mem_append_right _ member), List.perm_middle.nodup_iff.mpr once⟩

theorem memberOfOpens : Opens (MemberOf m) := by
  rintro _ text (⟨written⟩ | ⟨_, written⟩)
  · exact memberOpens _ text written
  · exact memberOpens _ text written

theorem membersRead {draft : Draft} {first : Bool} {members : List (Option Field)}
    (items : Items (MemberOf m) '}' first members text) (once : (members.reduceOption ++ draft.given).Nodup)
    (tail : List Char) :
    readMembers Draft.member Draft.memberShortens first draft (text ++ tail) =
      .ok (⟨members.reduceOption.foldl (fun base field => field.taken m base) draft.manifest,
        members.reduceOption.reverse ++ draft.given⟩, tail) := by
  induction members generalizing first draft text with
  | nil => exact membersClosed items _ tail
  | cons member members ih =>
    obtain ⟨_, rest, holds, more, step⟩ := membersNext memberOfOpens items
    cases holds with
    | @field field _ written =>
      obtain ⟨spelled, blank, space, value⟩ := written
      rw [List.reduceOption_cons_of_some, List.cons_append] at once
      obtain ⟨fresh, still⟩ := nextFresh once
      rw [step rfl spelled (fieldMember fresh blank space value), ih more still]
      simp
    | other unknown written =>
      obtain ⟨spelled, blank, space, value⟩ := written
      rw [List.reduceOption_cons_of_none] at once ⊢
      rw [step rfl spelled (otherMember unknown blank space value), ih more once]

theorem objectParsed {members : List (Option Field)} {text : String} (written : ObjectText m members text.toList)
    (once : members.reduceOption.Nodup) :
    parse text = (members.reduceOption.foldl (fun base field => field.taken m base) builtin).validated := by
  generalize source : text.toList = chars at written
  cases written with
  | @mk before body after blank items space =>
    have read := membersRead (m := m) items (show (_ ++ (Draft.mk builtin []).given).Nodup by simpa using once) after
    have rest : skipSpace after = [] := by
      rw [← List.append_nil after, spaceRun space]
      rfl
    have parsed : ofJson text = .ok (members.reduceOption.foldl (fun base field => field.taken m base) builtin) := by
      rw [ofJson, source, readValue, headFound blank rfl]
      simp [read, Except.map, rest]
    rw [parse, parsed]
    rfl

theorem objectParsedOver (distinct : m.dependencies.keys.Nodup) {members : List (Option Field)} {text : String}
    (written : ObjectText m members text.toList) (once : members.reduceOption.Nodup) :
    parse text = (m.overBuiltin members.reduceOption).validated := by
  rw [objectParsed written once, ← overBuiltinNone m, takenAll distinct, List.append_nil, overBuiltinReverse]

end Members

section Serialized
variable (m : Manifest)

theorem fieldPretty (field : Field) (depth : Nat) : field.Written m ((field.value m).pretty depth) := by
  cases field with
  | title | version | output =>
    rw [Field.value, Value.pretty]
    exact quotedText _
  | dependencies => exact tablePretty _ depth
  | coreModules | testModules | trackedSymbols | excludedFiles => exact stringsPretty _ depth

def Field.object (fields : List Field) : Value := .object (fields.map fun field => (field.key, field.value m))

theorem objectPretty (fields : List Field) :
    ObjectText m (fields.map some) (Field.object m fields).render.toList := by
  have written (field : Field) (depth : Nat) :
      MemberOf m (some field) (quoted field.key ++ (": ".toList ++ (field.value m).pretty depth)) :=
    .field (memberPretty (fieldPretty m field depth))
  obtain ⟨body, same, items⟩ := prettyObject written fields 0
  rw [Field.object, Value.render, String.toList_ofList, same]
  simpa using ObjectText.mk noSpaces (itemsMap some items) noSpaces

theorem reduceOptionFields (fields : List Field) : (fields.map some).reduceOption = fields := by
  simp [List.reduceOption]

end Serialized

theorem parsesWhatIsWritten (m : Manifest) (distinct : m.dependencies.keys.Nodup) :
    (∀ members text, members.reduceOption.Nodup → ObjectText m members text.toList →
      parse text = (m.overBuiltin members.reduceOption).validated) ∧
    (∀ fields, ObjectText m (fields.map some) (Field.object m fields).render.toList) ∧
    (m.flaw? = none → parse m.toJson.render = .ok m) := by
  refine ⟨fun members text once written => objectParsedOver distinct written once, objectPretty m, fun fit => ?_⟩
  have whole : parse m.toJson.render = _ := objectParsedOver distinct (objectPretty m Field.all) (by decide)
  rw [whole, reduceOptionFields, overBuiltinAll, validated, fit]

theorem ledgerParsesWhatIsWritten :
    let m : Manifest :=
      ⟨"Ledger", "1.2.0", "Ledger\t.gs", ["Limits.gs"], ["Limits.test.gs"],
       ⟨[("Limits.test.gs", ["Limits.gs"])]⟩, ["LIMIT"], []⟩
    m.dependencies.keys.Nodup ∧
      parse "\x7b\"notes\" : [-0.5e+1, \"\\ud800\"],\n  \"output\": \"Ledger\\t.gs\"\x7d " =
        .ok { builtin with output := "Ledger\t.gs" } ∧
      parse m.toJson.render = .ok m := by
  intro m
  have distinct : m.dependencies.keys.Nodup := by decide
  have space : Spaces [' '] := List.forall_mem_singleton.mpr rfl
  have digit (c : Char) (known : c.isDigit = true) : Digits [c] := ⟨by simp, List.forall_mem_singleton.mpr known⟩
  have numeral : NumeralText "0.5e+1".toList :=
    .mk (digit '0' rfl) (by simp) (.some (digit '5' rfl)) (.some (.inl rfl) (.inr (.inl rfl)) (digit '1' rfl))
  have surrogate : QuotedText "\\ud800".toList := .unit (.mk rfl rfl rfl rfl) .nil
  have notes : WellFormed .value "[-0.5e+1, \"\\ud800\"]".toList :=
    .list noSpaces (.nextItem (.scalar (.negative numeral)) noSpaces space
      (.lastItem (.scalar (.quoted surrogate)) noSpaces))
  have unknown : ∀ field : Field, "notes" ≠ field.key := by
    intro field
    cases field <;> decide
  have other : MemberOf m none _ := .other unknown (.mk (quotedText "notes") space space notes)
  have output : MemberOf m (some .output) _ :=
    .field (.mk (quotedText "output") noSpaces space (quotedText "Ledger\t.gs"))
  have written : ObjectText m [none, some .output] _ :=
    .mk noSpaces (.first noSpaces other (.later noSpaces (newlineBlank 1) output (.closed noSpaces))) space
  have holds := parsesWhatIsWritten m distinct
  refine ⟨distinct, ?_, holds.2.2 (by decide)⟩
  have parsed := holds.1 [none, some .output]
    "\x7b\"notes\" : [-0.5e+1, \"\\ud800\"],\n  \"output\": \"Ledger\\t.gs\"\x7d " (by decide) written
  rw [parsed]
  decide +kernel

end Manifest
end ScriptBundle
