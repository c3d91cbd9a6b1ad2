import ScriptBundle.Proofs.ManifestText

/-! A manifest that breaks off. Every bracket and every quote that is open has to be closed, so a reader that is
given only a part of what it would take gets to the end of the text first, and says so. No part of a written
manifest is then taken for a manifest that leaves fields out. -/
namespace ScriptBundle
namespace Json

def Broken (text cut : List Char) : Prop := ∃ c rest, text = cut ++ c :: rest

def Cuts {α : Type} (read : Reader α) (text : List Char) : Prop :=
  ∀ cut, Broken text cut → read cut = .error .ended

section Breaking
variable {text more gap cut : List Char} {c : Char}

theorem brokenAppend (broken : Broken (text ++ more) cut) :
    Broken text cut ∨ ∃ part, cut = text ++ part ∧ Broken more part := by
  obtain ⟨c, rest, same⟩ := broken
  rcases List.append_eq_append_iff.mp same with ⟨part, rfl, left⟩ | ⟨part, rfl, left⟩
  · exact .inr ⟨part, rfl, c, rest, left⟩
  · cases part with
    | nil => exact .inr ⟨[], by simp, c, rest, by simpa using left.symm⟩
    | cons d part => exact .inl ⟨d, part, rfl⟩

theorem brokenCons (broken : Broken (c :: text) cut) : cut = [] ∨ ∃ part, cut = c :: part ∧ Broken text part := by
  obtain ⟨d, rest, same⟩ := broken
  cases cut with
  | nil => exact .inl rfl
  | cons e cut =>
    cases same
    exact .inr ⟨cut, rfl, d, rest, rfl⟩

theorem brokenBehind (broken : Broken text cut) : Broken (c :: text) (c :: cut) := by
  obtain ⟨d, rest, rfl⟩ := broken
  exact ⟨d, rest, rfl⟩

theorem brokenNil : ¬ Broken [] cut := by
  rintro ⟨c, rest, same⟩
  simp at same

theorem brokenAfter (blank : Spaces gap) (broken : Broken (gap ++ text) cut) :
    Spaces cut ∨ ∃ part, cut = gap ++ part ∧ Broken text part := by
  rcases brokenAppend broken with ⟨c, rest, rfl⟩ | behind
  · exact .inl fun d member => blank d (List.mem_append_left _ member)
  · exact .inr behind

theorem brokenHead (blank : Spaces gap) (broken : Broken (gap ++ c :: text) cut) :
    Spaces cut ∨ ∃ part, cut = gap ++ c :: part ∧ Broken text part := by
  rcases brokenAfter blank broken with space | ⟨_, rfl, behind⟩
  · exact .inl space
  rcases brokenCons behind with rfl | ⟨part, rfl, later⟩
  · exact .inl (by simpa using blank)
  · exact .inr ⟨part, rfl, later⟩

theorem headEnded (blank : Spaces cut) : readHead cut = .error .ended := by
  rw [← List.append_nil cut, headAfter blank]
  rfl

theorem cutsAfter {α : Type} {read : Reader α}
    (after : ∀ {gap}, Spaces gap → ∀ text, read (gap ++ text) = read text) (ended : read [] = .error .ended)
    (blank : Spaces gap) (cuts : Cuts read text) : Cuts read (gap ++ text) := by
  intro cut broken
  rcases brokenAfter blank broken with space | ⟨part, rfl, behind⟩
  · rw [← List.append_nil cut, after space, ended]
  · rw [after blank, cuts part behind]

theorem colonCut (blank : Spaces gap) (broken : Broken (gap ++ ':' :: text) cut) :
    readColon cut = .error .ended ∨ ∃ part, readColon cut = .ok ((), part) ∧ Broken text part := by
  rcases brokenHead blank broken with space | ⟨part, rfl, behind⟩
  · rw [readColon, headEnded space]
    exact .inl rfl
  · rw [colonAfter blank]
    exact .inr ⟨part, colonRead, behind⟩

theorem stepEnded {close : Char} {first : Bool} (blank : Spaces cut) : nextStep close first cut = .error .ended := by
  rw [nextStep, headEnded blank]

theorem stepDivided {close : Char} (comma : ',' ≠ close) (blank : Spaces cut) :
    nextStep close false (',' :: cut) = .error .ended := by
  simp [nextStep, headSolid (c := ',') rfl, comma, headEnded blank]

theorem endsBroken (ends : Ends text) (broken : Broken text cut) : Ends cut := by
  obtain ⟨d, rest, rfl⟩ := broken
  cases cut with
  | nil => simp [Ends]
  | cons e cut => exact ends

end Breaking

section Quoted

theorem hexSize {c : Char} {n : Nat} (digit : hexDigit? c = some n) : c.utf8Size = 1 := by
  refine Char.utf8Size_eq_one_iff.mpr ?_
  unfold hexDigit? at digit
  split at digit
  · rename_i known
    simp only [Char.isDigit, Bool.and_eq_true, decide_eq_true_eq] at known
    exact UInt32.le_trans known.2 (by decide)
  · split at digit
    · rename_i known
      exact UInt32.le_trans known.2 (by decide)
    · split at digit
      · rename_i known
        exact UInt32.le_trans known.2 (by decide)
      · cases digit

/- Hexadecimal digits are one byte each, so fewer than four of them are always too short. -/
theorem unitCut {n : Nat} {digits : List Char} (unit : HexUnit n digits) : Cuts readUnit digits := by
  intro cut broken
  cases unit with
  | mk first second third fourth =>
    rcases brokenCons broken with rfl | ⟨_, rfl, behindFirst⟩
    · rfl
    rcases brokenCons behindFirst with rfl | ⟨_, rfl, behindSecond⟩
    · simp [readUnit, byteLength, hexSize first]
    rcases brokenCons behindSecond with rfl | ⟨_, rfl, behindThird⟩
    · simp [readUnit, byteLength, hexSize first, hexSize second]
    rcases brokenCons behindThird with rfl | ⟨_, rfl, behindFourth⟩
    · simp [readUnit, byteLength, hexSize first, hexSize second, hexSize third]
    exact absurd behindFourth brokenNil

theorem trailingCut {low : Nat} {digits : List Char} (unit : HexUnit low digits) (leading : Nat) :
    Cuts (readTrailing leading) ('\\' :: 'u' :: digits) := by
  intro cut broken
  rcases brokenCons broken with rfl | ⟨_, rfl, escaped⟩
  · rfl
  rcases brokenCons escaped with rfl | ⟨part, rfl, behind⟩
  · rfl
  simp [readTrailing, unitCut unit part behind]

theorem spellsCut {c : Char} {piece : List Char} (spells : Spells c piece) : Cuts readQuoted piece := by
  intro cut broken
  rw [readQuotedStep]
  cases spells with
  | plain =>
    rcases brokenCons broken with rfl | ⟨_, rfl, behind⟩
    · rfl
    exact absurd behind brokenNil
  | letter =>
    rcases brokenCons broken with rfl | ⟨_, rfl, escaped⟩
    · rfl
    rcases brokenCons escaped with rfl | ⟨_, rfl, behind⟩
    · rfl
    exact absurd behind brokenNil
  | unit spelled =>
    rcases brokenCons broken with rfl | ⟨_, rfl, escaped⟩
    · rfl
    rcases brokenCons escaped with rfl | ⟨part, rfl, behind⟩
    · rfl
    simp [readEscape, readCodePoint, unitCut spelled part behind]
  | @pair high _ _ _ spelled leading other =>
    rcases brokenCons broken with rfl | ⟨_, rfl, escaped⟩
    · rfl
    rcases brokenCons escaped with rfl | ⟨_, rfl, units⟩
    · rfl
    rcases brokenAppend units with inside | ⟨part, rfl, behind⟩
    · simp [readEscape, readCodePoint, unitCut spelled _ inside]
    simp [readEscape, readCodePoint, unitRead spelled, leading, leadingNotTrailing leading,
      trailingCut other high part behind]

theorem quotedCut {chars spelled : List Char} (inner : Spelled chars spelled) :
    Cuts readQuoted (spelled ++ ['"']) := by
  induction inner with
  | nil =>
    intro cut broken
    rcases brokenCons broken with rfl | ⟨_, rfl, behind⟩
    · rw [readQuotedStep]
    · exact absurd behind brokenNil
  | cons spells more ih =>
    intro cut broken
    rw [List.append_assoc] at broken
    rcases brokenAppend broken with inside | ⟨part, rfl, behind⟩
    · exact spellsCut spells cut inside
    · rw [quotedSpells spells, ih part behind]
      rfl

theorem stringCut {value : String} {text : List Char} (written : StringText value text) : Cuts readString text := by
  intro cut broken
  cases written with
  | mk inner =>
    rcases brokenCons broken with rfl | ⟨part, rfl, behind⟩
    · rfl
    simp [readString, headSolid (c := '"') rfl, quotedCut inner part behind, Except.map]

theorem keyCut {value : String} {text cut : List Char} (written : StringText value text) (broken : Broken text cut)
    (some : cut ≠ []) : readKey cut = .error .ended := by
  cases written with
  | mk inner =>
    rcases brokenCons broken with rfl | ⟨part, rfl, behind⟩
    · exact absurd rfl some
    simp [readKey, quotedCut inner part behind, Except.map]

end Quoted

section Items
variable {α : Type} {item : α → List Char → Prop} {close : Char} {first : Bool} {text cut : List Char}

theorem itemsClosedCut (items : Items item close first [] text) (broken : Broken text cut) :
    nextStep close first cut = .error .ended := by
  cases items with
  | closed blank =>
    rcases brokenHead blank broken with space | ⟨_, rfl, behind⟩
    · exact stepEnded space
    · exact absurd behind brokenNil

theorem itemsNextCut (bracket : close = ']' ∨ close = '}') (opens : Opens item) {value : α} {values : List α}
    (items : Items item close first (value :: values) text) (broken : Broken text cut) :
    nextStep close first cut = .error .ended ∨
      ∃ written rest start, item value written ∧ Items item close false values rest ∧
        nextStep close first cut = .ok (.item start) ∧ start ≠ [] ∧ Broken (written ++ rest) start := by
  obtain ⟨comma, quote⟩ := bracketOther bracket
  cases items with
  | first blank written more =>
    obtain ⟨inner, rfl⟩ := opens _ _ written
    rcases brokenHead blank broken with space | ⟨part, rfl, behind⟩
    · exact .inl (stepEnded space)
    · refine .inr ⟨_, _, '"' :: part, written, more, ?_, List.cons_ne_nil _ _, brokenBehind behind⟩
      rw [stepAfter blank, stepFirst rfl quote]
  | later blank space written more =>
    obtain ⟨inner, rfl⟩ := opens _ _ written
    rcases brokenHead blank broken with space | ⟨_, rfl, divided⟩
    · exact .inl (stepEnded space)
    rw [stepAfter blank]
    rcases brokenHead space divided with room | ⟨part, rfl, behind⟩
    · exact .inl (stepDivided comma room)
    · refine .inr ⟨_, _, '"' :: part, written, more, ?_, List.cons_ne_nil _ _, brokenBehind behind⟩
      rw [stepLater space rfl comma quote]

theorem readItemsCut {read : Reader α} {shortens : Shortens read} (opens : Opens item)
    (each : ∀ value text, item value text → Reads read text value)
    (cuts : ∀ value text, item value text → Cuts read text) {values : List α}
    (items : Items item ']' first values text) : Cuts (readItems read shortens first) text := by
  induction values generalizing first text with
  | nil =>
    intro cut broken
    rw [readItemsStep, itemsClosedCut items broken]
  | cons value values ih =>
    intro cut broken
    rw [readItemsStep]
    rcases itemsNextCut (.inl rfl) opens items broken with
      ended | ⟨written, rest, start, holds, more, next, _, inside⟩
    · rw [ended]
    rw [next]
    rcases brokenAppend inside with within | ⟨part, rfl, behind⟩
    · simp only [cuts value written holds start within]
    have ends : Ends part := endsBroken (by simpa using itemsEnd (.inl rfl) more []) behind
    simp only [each value written holds part ends, ih more part behind]
    rfl

theorem readMembersCut {σ : Type} {member : σ → String → Reader σ}
    {shortens : ∀ state key, Shortens (member state key)} (opens : Opens item) (Fits : σ → List α → Prop)
    (each : ∀ {state value values text}, Fits state (value :: values) → item value text →
      ∃ key name after next, text = name ++ after ∧ StringText key name ∧ Cuts (member state key) after ∧
        Reads (member state key) after next ∧ Fits next values)
    {state : σ} {values : List α} (items : Items item '}' first values text) (fits : Fits state values) :
    Cuts (readMembers member shortens first state) text := by
  -- the members before the one in which the text breaks off are read in full, and the state fits after each
  induction values generalizing first state text with
  | nil =>
    intro cut broken
    rw [readMembersStep, itemsClosedCut items broken]
  | cons value values ih =>
    intro cut broken
    rw [readMembersStep]
    rcases itemsNextCut (.inr rfl) opens items broken with
      ended | ⟨written, rest, start, holds, more, step, some, inside⟩
    · rw [ended]
    obtain ⟨key, name, after, next, rfl, spelled, cuts, reads, still⟩ := each fits holds
    rw [step]
    rw [List.append_assoc] at inside
    rcases brokenAppend inside with within | ⟨part, rfl, behind⟩
    · simp only [keyCut spelled within some]
    simp only [keyRead spelled]
    rcases brokenAppend behind with within | ⟨part, rfl, later⟩
    · simp only [cuts part within]
    have ends : Ends part := endsBroken (by simpa using itemsEnd (.inr rfl) more []) later
    simp only [reads part ends, ih more still part later]

end Items

section Typed
variable {text : List Char}

theorem stringsCut {values : List String} (written : StringsText values text) : Cuts readStrings text := by
  intro cut broken
  cases written with
  | mk items =>
    rcases brokenCons broken with rfl | ⟨part, rfl, behind⟩
    · rfl
    rw [readStrings, headSolid rfl]
    exact readItemsCut stringOpens (fun _ _ => stringRead) (fun _ _ => stringCut) items part behind

theorem tableMemberCut {table : Table (List String)} {key : String} {values : List String} {gap before : List Char}
    (blank : Spaces gap) (space : Spaces before) (written : StringsText values text) :
    Cuts (tableMember table key) (gap ++ ':' :: (before ++ text)) := by
  intro cut broken
  rcases colonCut blank broken with ended | ⟨part, colon, behind⟩
  · simp [tableMember, ended]
  · simp [tableMember, colon, cutsAfter stringsAfter rfl space (stringsCut written) part behind, Except.map]

theorem tableCut {entries : List (String × List String)} (written : TableText entries text) :
    Cuts readTable text := by
  intro cut broken
  cases written with
  | mk items =>
    rcases brokenCons broken with rfl | ⟨part, rfl, behind⟩
    · rfl
    rw [readTable, headSolid rfl]
    refine readMembersCut memberOpens (fun _ _ => True) ?_ items trivial part behind
    rintro table _ entries _ - ⟨spelled, blank, space, value⟩
    exact ⟨_, _, _, _, rfl, spelled, tableMemberCut blank space value, tableMemberRead blank space value, trivial⟩

end Typed
end Json

namespace Manifest
open Json

section Fields
variable {m base : Manifest} {field : Field} {before text : List Char}

theorem setCut {α : Type} {read : Reader α} {assign : α → Manifest} (cuts : Cuts read text) :
    Cuts (set read assign) text := by
  intro cut broken
  rw [set, cuts cut broken]
  rfl

theorem fieldCut (space : Spaces before) (written : field.Written m text) :
    Cuts (field.read base) (before ++ text) := by
  cases field <;> rw [Field.read]
  case title | version | output => exact setCut (cutsAfter stringAfter rfl space (stringCut written))
  case dependencies => exact setCut (cutsAfter tableAfter rfl space (tableCut written))
  all_goals exact setCut (cutsAfter stringsAfter rfl space (stringsCut written))

theorem fieldMemberCut {draft : Draft} (fresh : field ∉ draft.given) {gap : List Char} (blank : Spaces gap)
    (space : Spaces before) (written : field.Written m text) :
    Cuts (draft.member field.key) (gap ++ ':' :: (before ++ text)) := by
  intro cut broken
  rw [Draft.member, keyField]
  rcases colonCut blank broken with ended | ⟨part, colon, behind⟩
  · simp [fresh, ended]
  · simp [fresh, colon, fieldCut space written part behind, Except.map]

end Fields

theorem objectCut {m : Manifest} {fields : List Field} {body : List Char} (once : fields.Nodup)
    (items : Items (fun field => MemberText (Field.Written m) (field.key, field)) '}' true fields body) :
    Cuts readValue ('{' :: body) := by
  intro cut broken
  rcases brokenCons broken with rfl | ⟨part, rfl, behind⟩
  · rfl
  have members : Cuts (readMembers Draft.member Draft.memberShortens true ⟨builtin, []⟩) body := by
    refine readMembersCut (fun _ _ => memberOpens _ _) (fun draft fields => (fields ++ draft.given).Nodup) ?_ items
      (by simpa using once)
    rintro draft field fields _ apart ⟨spelled, blank, space, value⟩
    obtain ⟨fresh, still⟩ := nextFresh apart
    exact ⟨_, _, _, _, rfl, spelled, fieldMemberCut fresh blank space value, fieldMember fresh blank space value,
      still⟩
  rw [readValue, headSolid rfl]
  simp [members part behind, Except.map]

theorem wholeParsed (m : Manifest) (fault : Fault) : parse m.toJson.render ≠ .error (.unparsable fault) := by
  have parsed : parse m.toJson.render = _ := objectParsed (objectPretty m Field.all) (by decide)
  rw [parsed, validated]
  split <;> simp

theorem jsonCut (m : Manifest) : Cuts readValue m.toJson.render.toList := by
  have written (field : Field) (depth : Nat) :
      MemberText (Field.Written m) (field.key, field)
        (quoted field.key ++ (": ".toList ++ (field.value m).pretty depth)) :=
    memberPretty (fieldPretty m field depth)
  obtain ⟨body, same, items⟩ := prettyObject written Field.all 0
  rw [toJson, Value.render, String.toList_ofList, same]
  exact objectCut (by decide) items

theorem truncatedEnds (m : Manifest) {cut rest : String} (whole : m.toJson.render = cut ++ rest) :
    parse cut = .error (.unparsable .ended) ↔ rest ≠ "" := by
  constructor
  · rintro ended rfl
    rw [String.append_empty] at whole
    exact wholeParsed m .ended (whole ▸ ended)
  · intro more
    obtain ⟨c, after, last⟩ := List.exists_cons_of_ne_nil (mt String.toList_eq_nil_iff.mp more)
    have broken : Broken m.toJson.render.toList cut.toList := ⟨c, after, by rw [whole, String.toList_append, last]⟩
    rw [parse, ofJson, jsonCut m _ broken]

theorem flawedTruncatedEnds :
    let m : Manifest := ⟨"\x1f", "1", "", ["A.gs"], ["A.gs"], ⟨[("A.gs", [])]⟩, [], []⟩
    let fields := "f\",\n  \"version\": \"1\",\n  \"output\": \"\",\n  \"coreModules\": [\n    \"A.gs\"\n  ],\n  " ++
      "\"testModules\": [\n    \"A.gs\"\n  ],\n  \"dependencies\": \x7b\n    \"A.gs\": []\n  \x7d,\n  " ++
      "\"trackedSymbols\": [],\n  \"excludedFiles\": []\n"
    let escape := "\x7b\n  \"title\": \"\\u001"
    m.toJson.render = escape ++ (fields ++ "\x7d") ∧
      parse escape = .error (.unparsable .ended) ∧ parse (escape ++ fields) = .error (.unparsable .ended) := by
  intro m fields escape
  have whole : m.toJson.render = escape ++ (fields ++ "\x7d") := by decide +kernel
  have last : m.toJson.render = escape ++ fields ++ "\x7d" := whole.trans String.append_assoc.symm
  exact ⟨whole, (truncatedEnds m whole).mpr (by decide), (truncatedEnds m last).mpr (by decide)⟩

end Manifest
end ScriptBundle
