import Mathlib.Data.List.Basic
import ScriptBundle.Json.Typed
import ScriptBundle.Json.Value

/-! JSON texts and the readers that take values from them. A text is told by how it is put together, with
blanks wherever JSON allows them and with any escapes. A reader takes exactly such a text, whatever comes
behind it. -/
namespace ScriptBundle.Json

def Spaces (gap : List Char) : Prop := ∀ c ∈ gap, isSpace c = true

def Ends (tail : List Char) : Prop :=
  ∀ c ∈ tail.head?, c.isDigit = false ∧ c ≠ '.' ∧ c ≠ 'e' ∧ c ≠ 'E'

def Reads {α : Type} (read : Reader α) (text : List Char) (value : α) : Prop :=
  ∀ tail, Ends tail → read (text ++ tail) = .ok (value, tail)

section Blanks
variable {gap before rest text : List Char} {c close : Char} {first : Bool}

theorem noSpaces : Spaces [] := fun _ member => absurd member List.not_mem_nil

theorem spaceRun (blank : Spaces gap) (text : List Char) : skipSpace (gap ++ text) = skipSpace text :=
  List.dropWhile_append_of_pos blank

theorem headAfter (blank : Spaces gap) (text : List Char) : readHead (gap ++ text) = readHead text := by
  rw [readHead, spaceRun blank, ← readHead]

theorem headSolid (solid : isSpace c = false) : readHead (c :: rest) = .ok (c, rest) := by
  simp [readHead, skipSpace, solid]

theorem headFound (blank : Spaces gap) (solid : isSpace c = false) : readHead (gap ++ c :: rest) = .ok (c, rest) := by
  rw [headAfter blank, headSolid solid]

theorem colonAfter (blank : Spaces gap) (text : List Char) : readColon (gap ++ text) = readColon text := by
  rw [readColon, headAfter blank, ← readColon]

theorem colonRead : readColon (':' :: rest) = .ok ((), rest) := by
  rw [readColon, headSolid rfl]
  rfl

theorem stepAfter (blank : Spaces gap) (text : List Char) :
    nextStep close first (gap ++ text) = nextStep close first text := by
  rw [nextStep, headAfter blank, ← nextStep]

theorem stepClosed (solid : isSpace close = false) : nextStep close first (close :: rest) = .ok (.closed rest) := by
  simp [nextStep, headSolid solid]

theorem stepFirst (solid : isSpace c = false) (other : c ≠ close) :
    nextStep close true (c :: rest) = .ok (.item (c :: rest)) := by
  simp [nextStep, headSolid solid, other]

theorem stepLater (blank : Spaces before) (solid : isSpace c = false) (comma : ',' ≠ close) (other : c ≠ close) :
    nextStep close false (',' :: (before ++ c :: rest)) = .ok (.item (c :: rest)) := by
  simp [nextStep, headSolid (c := ',') rfl, headFound blank solid, comma, other]

theorem endsAfter (blank : Spaces gap) (mark : c = ',' ∨ c = ']' ∨ c = '}') : Ends (gap ++ c :: rest) := by
  intro d found
  cases gap with
  | nil =>
    cases found
    rcases mark with rfl | rfl | rfl <;> decide
  | cons space gap =>
    cases found
    have known := blank d List.mem_cons_self
    simp only [isSpace, Bool.or_eq_true, beq_iff_eq] at known
    rcases known with ((rfl | rfl) | rfl) | rfl <;> decide

theorem readsAfter {α : Type} {read : Reader α} {value : α} (after : ∀ text, read (gap ++ text) = read text)
    (reads : Reads read text value) : Reads read (gap ++ text) value := by
  intro tail ends
  rw [List.append_assoc, after]
  exact reads tail ends

end Blanks

section Quoted

inductive HexUnit : Nat → List Char → Prop where
  | mk {a b c d : Char} {w x y z : Nat} (first : hexDigit? a = some w) (second : hexDigit? b = some x)
      (third : hexDigit? c = some y) (fourth : hexDigit? d = some z) :
      HexUnit (((w * 16 + x) * 16 + y) * 16 + z) [a, b, c, d]

inductive Spells : Char → List Char → Prop where
  | plain {c : Char} (quote : c ≠ '"') (escape : c ≠ '\\') (printed : isControl c = false) : Spells c [c]
  | letter {c letter : Char} (known : letterEscape? letter = some c) : Spells c ['\\', letter]
  | unit {n : Nat} {digits : List Char} (spelled : HexUnit n digits) (leading : isLeading n = false)
      (trailing : isTrailing n = false) : Spells (Char.ofNat n) ('\\' :: 'u' :: digits)
  | pair {high low : Nat} {digits others : List Char} (spelled : HexUnit high digits)
      (leading : isLeading high = true) (other : HexUnit low others) (trailing : isTrailing low = true) :
      Spells (joined high low) ('\\' :: 'u' :: digits ++ '\\' :: 'u' :: others)

inductive Spelled : List Char → List Char → Prop where
  | nil : Spelled [] []
  | cons {c : Char} {chars piece rest : List Char} (spells : Spells c piece) (more : Spelled chars rest) :
      Spelled (c :: chars) (piece ++ rest)

inductive StringText (value : String) : List Char → Prop where
  | mk {spelled : List Char} (inner : Spelled value.toList spelled) : StringText value ('"' :: (spelled ++ ['"']))

theorem readQuotedStep (text : List Char) : readQuoted text =
    match text with
    | [] => .error .ended
    | c :: rest =>
      if c = '"' then .ok ([], rest)
      else if c = '\\' then
        match readEscape rest with
        | .error fault => .error fault
        | .ok (value, after) => (readQuoted after).map fun taken => (value :: taken.1, taken.2)
      else if isControl c then .error .malformed
      else (readQuoted rest).map fun taken => (c :: taken.1, taken.2) := by
  fun_cases readQuoted text <;> simp_all [Except.map]

theorem unitRead {n : Nat} {digits : List Char} (unit : HexUnit n digits) (rest : List Char) :
    readUnit (digits ++ rest) = .ok (n, rest) := by
  cases unit with
  | mk first second third fourth => simp [readUnit, first, second, third, fourth]

theorem letterOther {letter c : Char} (known : letterEscape? letter = some c) : letter ≠ 'u' := by
  rintro rfl
  cases known

theorem leadingNotTrailing {n : Nat} (leading : isLeading n = true) : isTrailing n = false := by
  simp only [isLeading, isTrailing, Bool.and_eq_true, decide_eq_true_eq, Bool.and_eq_false_iff,
    decide_eq_false_iff_not] at leading ⊢
  omega

theorem quotedSpells {c : Char} {piece : List Char} (spells : Spells c piece) (rest : List Char) :
    readQuoted (piece ++ rest) = (readQuoted rest).map fun taken => (c :: taken.1, taken.2) := by
  rw [readQuotedStep (piece ++ rest)]
  cases spells with
  | plain quote escape printed => simp [quote, escape, printed]
  | letter known => simp [readEscape, letterOther known, known]
  | unit spelled leading trailing => simp [readEscape, readCodePoint, unitRead spelled, leading, trailing]
  | pair spelled leading other trailing =>
    simp [readEscape, readCodePoint, unitRead spelled, leading, leadingNotTrailing leading, readTrailing,
      unitRead other, trailing]

theorem quotedRead {chars spelled : List Char} (inner : Spelled chars spelled) (tail : List Char) :
    readQuoted (spelled ++ '"' :: tail) = .ok (chars, tail) := by
  induction inner with
  | nil =>
    rw [List.nil_append, readQuotedStep]
    rfl
  | cons spells more ih =>
    rw [List.append_assoc, quotedSpells spells, ih]
    rfl

theorem keyRead {value : String} {text : List Char} (written : StringText value text) (tail : List Char) :
    readKey (text ++ tail) = .ok (value, tail) := by
  cases written with
  | mk inner => simp [readKey, quotedRead inner, Except.map]

theorem stringAfter {gap : List Char} (blank : Spaces gap) (text : List Char) :
    readString (gap ++ text) = readString text := by
  rw [readString, headAfter blank, ← readString]

theorem stringRead {value : String} {text : List Char} (written : StringText value text) :
    Reads readString text value := by
  intro tail _
  cases written with
  | mk inner => simp [readString, headSolid (c := '"') rfl, quotedRead inner, Except.map]

theorem hexLetterDigit : ∀ n, n < 16 → hexDigit? (hexLetter n) = some n := by decide

theorem controlUnit {c : Char} (control : c.toNat < 0x20) :
    HexUnit c.toNat ['0', '0', hexLetter (c.toNat / 16), hexLetter (c.toNat % 16)] := by
  have zero : hexDigit? '0' = some 0 := by decide
  have unit := HexUnit.mk zero zero (hexLetterDigit (c.toNat / 16) (by omega))
    (hexLetterDigit (c.toNat % 16) (by omega))
  rwa [show ((0 * 16 + 0) * 16 + c.toNat / 16) * 16 + c.toNat % 16 = c.toNat by omega] at unit

theorem escapeSpells (c : Char) : Spells c (escape c) := by
  unfold escape
  split
  iterate 7 exact .letter rfl
  rename_i quote backslash _ _ _ _ _
  split
  · rename_i control
    have unit := Spells.unit (controlUnit control) (by simp [isLeading]; omega) (by simp [isTrailing]; omega)
    rwa [Char.ofNat_toNat] at unit
  · rename_i printed
    exact .plain quote backslash (by simpa [isControl] using printed)

theorem quotedText (value : String) : StringText value (quoted value) := by
  have spelled (chars : List Char) : Spelled chars (chars.flatMap escape) := by
    induction chars with
    | nil => exact .nil
    | cons c chars ih => exact .cons (escapeSpells c) ih
  exact .mk (spelled value.toList)

end Quoted

section Items
variable {α : Type}

inductive Items (item : α → List Char → Prop) (close : Char) : Bool → List α → List Char → Prop where
  | closed {first : Bool} {gap : List Char} (blank : Spaces gap) : Items item close first [] (gap ++ [close])
  | first {before text rest : List Char} {value : α} {values : List α} (blank : Spaces before)
      (written : item value text) (more : Items item close false values rest) :
      Items item close true (value :: values) (before ++ (text ++ rest))
  | later {gap before text rest : List Char} {value : α} {values : List α} (blank : Spaces gap)
      (space : Spaces before) (written : item value text) (more : Items item close false values rest) :
      Items item close false (value :: values) (gap ++ ',' :: (before ++ (text ++ rest)))

def Opens (item : α → List Char → Prop) : Prop := ∀ value text, item value text → ∃ rest, text = '"' :: rest

variable {item : α → List Char → Prop} {close : Char} {first : Bool} {text : List Char}

theorem itemsEnd (bracket : close = ']' ∨ close = '}') {values : List α} (items : Items item close false values text)
    (tail : List Char) : Ends (text ++ tail) := by
  cases items with
  | closed blank =>
    rw [List.append_assoc]
    exact endsAfter blank (.inr bracket)
  | later blank =>
    rw [List.append_assoc]
    exact endsAfter blank (.inl rfl)

theorem itemsMap {β : Type} (f : β → α) {values : List β}
    (items : Items (fun value => item (f value)) close first values text) :
    Items item close first (values.map f) text := by
  induction items with
  | closed blank => exact .closed blank
  | first blank written more ih => exact .first blank written ih
  | later blank space written more ih => exact .later blank space written ih

theorem itemsClosed (bracket : close = ']' ∨ close = '}') (items : Items item close first [] text)
    (tail : List Char) : nextStep close first (text ++ tail) = .ok (.closed tail) := by
  cases items with
  | closed blank =>
    rw [List.append_assoc, stepAfter blank]
    exact stepClosed (by rcases bracket with rfl | rfl <;> rfl)

theorem bracketOther (bracket : close = ']' ∨ close = '}') : ',' ≠ close ∧ '"' ≠ close := by
  rcases bracket with rfl | rfl <;> decide

theorem itemsNext (bracket : close = ']' ∨ close = '}') (opens : Opens item) {value : α} {values : List α}
    (items : Items item close first (value :: values) text) :
    ∃ written rest, item value written ∧ Items item close false values rest ∧
      ∀ tail, nextStep close first (text ++ tail) = .ok (.item (written ++ (rest ++ tail))) := by
  obtain ⟨comma, quote⟩ := bracketOther bracket
  cases items with
  | first blank written more =>
    obtain ⟨inner, rfl⟩ := opens _ _ written
    refine ⟨_, _, written, more, fun tail => ?_⟩
    rw [List.append_assoc, stepAfter blank]
    simpa using stepFirst rfl quote
  | later blank space written more =>
    obtain ⟨inner, rfl⟩ := opens _ _ written
    refine ⟨_, _, written, more, fun tail => ?_⟩
    rw [List.append_assoc, stepAfter blank]
    simpa using stepLater space rfl comma quote

theorem readItemsStep {item : Reader α} {shortens : Shortens item} {first : Bool} {text : List Char} :
    readItems item shortens first text =
      match nextStep ']' first text with
      | .error fault => .error fault
      | .ok (.closed rest) => .ok ([], rest)
      | .ok (.item start) =>
        match item start with
        | .error fault => .error fault
        | .ok (value, rest) =>
          (readItems item shortens false rest).map fun taken => (value :: taken.1, taken.2) := by
  fun_cases readItems item shortens first text <;> simp_all [Except.map]

theorem itemsRead {read : Reader α} {shortens : Shortens read} (opens : Opens item)
    (each : ∀ value text, item value text → Reads read text value) {values : List α}
    (items : Items item ']' first values text) (tail : List Char) :
    readItems read shortens first (text ++ tail) = .ok (values, tail) := by
  induction values generalizing first text with
  | nil => rw [readItemsStep, itemsClosed (.inl rfl) items]
  | cons value values ih =>
    obtain ⟨written, rest, holds, more, next⟩ := itemsNext (.inl rfl) opens items
    rw [readItemsStep, next]
    simp only [each value written holds _ (itemsEnd (.inl rfl) more tail), ih more]
    rfl

end Items

section Typed

inductive StringsText (values : List String) : List Char → Prop where
  | mk {body : List Char} (items : Items StringText ']' true values body) : StringsText values ('[' :: body)

inductive MemberText {α : Type} (item : α → List Char → Prop) : String × α → List Char → Prop where
  | mk {key : String} {value : α} {name gap before text : List Char} (spelled : StringText key name)
      (blank : Spaces gap) (space : Spaces before) (written : item value text) :
      MemberText item (key, value) (name ++ (gap ++ ':' :: (before ++ text)))

inductive TableText (entries : List (String × List String)) : List Char → Prop where
  | mk {body : List Char} (items : Items (MemberText StringsText) '}' true entries body) :
      TableText entries ('{' :: body)

theorem stringOpens : Opens StringText := by
  rintro value _ ⟨inner⟩
  exact ⟨_, rfl⟩

theorem memberOpens {α : Type} {item : α → List Char → Prop} : Opens (MemberText item) := by
  rintro _ _ ⟨⟨inner⟩, _, _, _⟩
  exact ⟨_, rfl⟩

theorem stringsAfter {gap : List Char} (blank : Spaces gap) (text : List Char) :
    readStrings (gap ++ text) = readStrings text := by
  rw [readStrings, headAfter blank, ← readStrings]

theorem stringsRead {values : List String} {text : List Char} (written : StringsText values text) :
    Reads readStrings text values := by
  intro tail _
  cases written with
  | mk items =>
    rw [List.cons_append, readStrings, headSolid rfl]
    exact itemsRead stringOpens (fun _ _ => stringRead) items tail

theorem readMembersStep {σ : Type} {member : σ → String → Reader σ}
    {shortens : ∀ state key, Shortens (member state key)} {first : Bool} {state : σ} {text : List Char} :
    readMembers member shortens first state text =
      match nextStep '}' first text with
      | .error fault => .error fault
      | .ok (.closed rest) => .ok (state, rest)
      | .ok (.item start) =>
        match readKey start with
        | .error fault => .error fault
        | .ok (name, after) =>
          match member state name after with
          | .error fault => .error fault
          | .ok (state, rest) => readMembers member shortens false state rest := by
  fun_cases readMembers member shortens first state text <;> simp_all

theorem membersNext {σ α : Type} {member : σ → String → Reader σ}
    {shortens : ∀ state key, Shortens (member state key)} {item : α → List Char → Prop} (opens : Opens item)
    {first : Bool} {value : α} {values : List α} {text : List Char}
    (items : Items item '}' first (value :: values) text) :
    ∃ written rest, item value written ∧ Items item '}' false values rest ∧
      ∀ {key name after state next}, written = name ++ after → StringText key name →
        Reads (member state key) after next → ∀ tail,
          readMembers member shortens first state (text ++ tail) =
            readMembers member shortens false next (rest ++ tail) := by
  obtain ⟨written, rest, holds, more, step⟩ := itemsNext (.inr rfl) opens items
  refine ⟨written, rest, holds, more, ?_⟩
  rintro key name after state next rfl spelled reads tail
  rw [readMembersStep, step, List.append_assoc]
  simp only [keyRead spelled, reads _ (itemsEnd (.inr rfl) more tail)]

theorem membersClosed {σ α : Type} {member : σ → String → Reader σ}
    {shortens : ∀ state key, Shortens (member state key)} {item : α → List Char → Prop} {first : Bool}
    {text : List Char} (items : Items item '}' first [] text) (state : σ) (tail : List Char) :
    readMembers member shortens first state (text ++ tail) = .ok (state, tail) := by
  rw [readMembersStep, itemsClosed (.inr rfl) items]

theorem tableMemberRead {table : Table (List String)} {key : String} {values : List String}
    {gap before text : List Char} (blank : Spaces gap) (space : Spaces before) (written : StringsText values text) :
    Reads (tableMember table key) (gap ++ ':' :: (before ++ text)) (table.insert key values) := by
  intro tail ends
  rw [List.append_assoc, List.cons_append, List.append_assoc, tableMember, colonAfter blank, colonRead]
  simp only [stringsAfter space, stringsRead written tail ends]
  rfl

theorem tableMembersRead {first : Bool} {entries : List (String × List String)} {text : List Char}
    (items : Items (MemberText StringsText) '}' first entries text) (table : Table (List String)) (tail : List Char) :
    readMembers tableMember tableMemberShortens first table (text ++ tail) =
      .ok (entries.foldl (fun t entry => t.insert entry.1 entry.2) table, tail) := by
  induction entries generalizing first table text with
  | nil => exact membersClosed items table tail
  | cons entry entries ih =>
    obtain ⟨_, rest, ⟨spelled, blank, space, written⟩, more, step⟩ := membersNext memberOpens items
    rw [step rfl spelled (tableMemberRead blank space written), ih more]
    rfl

theorem tableRead {entries : List (String × List String)} {text : List Char} (written : TableText entries text) :
    Reads readTable text (Table.ofList entries) := by
  intro tail _
  cases written with
  | mk items =>
    rw [List.cons_append, readTable, headSolid rfl]
    exact tableMembersRead items Table.empty tail

theorem tableAfter {gap : List Char} (blank : Spaces gap) (text : List Char) :
    readTable (gap ++ text) = readTable text := by
  rw [readTable, headAfter blank, ← readTable]

end Typed

section Pretty
variable {α : Type} {item : α → List Char → Prop} {value : α → Value}

theorem newlineBlank (depth : Nat) : Spaces (newline depth) := by
  intro c member
  rcases List.mem_cons.mp member with rfl | blank
  · rfl
  · rw [List.eq_of_mem_replicate blank]
    rfl

theorem prettyFollowing (written : ∀ a depth, item a ((value a).pretty depth)) (items : List α) (outer depth : Nat) :
    Items item ']' false items (prettyItems depth (items.map value) ++ (newline outer ++ [']'])) := by
  induction items with
  | nil => exact .closed (newlineBlank outer)
  | cons a items ih =>
    have next := Items.later noSpaces (newlineBlank depth) (written a depth) ih
    simpa [prettyItems] using next

theorem prettyList (written : ∀ a depth, item a ((value a).pretty depth)) (items : List α) (depth : Nat) :
    ∃ body, (Value.list (items.map value)).pretty depth = '[' :: body ∧ Items item ']' true items body := by
  cases items with
  | nil => exact ⟨_, rfl, .closed noSpaces⟩
  | cons a items =>
    refine ⟨_, ?_, .first (newlineBlank (depth + 1)) (written a (depth + 1))
      (prettyFollowing written items depth (depth + 1))⟩
    simp [Value.pretty]

theorem prettyMembersFollowing {key : α → String}
    (written : ∀ a depth, item a (quoted (key a) ++ (": ".toList ++ (value a).pretty depth)))
    (members : List α) (outer depth : Nat) :
    Items item '}' false members
      (prettyMembers depth (members.map fun a => (key a, value a)) ++ (newline outer ++ ['}'])) := by
  induction members with
  | nil => exact .closed (newlineBlank outer)
  | cons a members ih =>
    have next := Items.later noSpaces (newlineBlank depth) (written a depth) ih
    simpa [prettyMembers] using next

theorem prettyObject {key : α → String}
    (written : ∀ a depth, item a (quoted (key a) ++ (": ".toList ++ (value a).pretty depth)))
    (members : List α) (depth : Nat) :
    ∃ body, (Value.object (members.map fun a => (key a, value a))).pretty depth = '{' :: body ∧
      Items item '}' true members body := by
  cases members with
  | nil => exact ⟨_, rfl, .closed noSpaces⟩
  | cons a members =>
    refine ⟨_, ?_, .first (newlineBlank (depth + 1)) (written a (depth + 1))
      (prettyMembersFollowing written members depth (depth + 1))⟩
    simp [Value.pretty]

theorem memberPretty {key : String} {a : α} {text : List Char} (written : item a text) :
    MemberText item (key, a) (quoted key ++ (": ".toList ++ text)) :=
  .mk (quotedText key) noSpaces (List.forall_mem_singleton.mpr rfl) written

theorem stringsPretty (values : List String) (depth : Nat) :
    StringsText values ((Value.texts values).pretty depth) := by
  have written (value : String) (depth : Nat) : StringText value ((Value.text value).pretty depth) := by
    rw [Value.pretty]
    exact quotedText value
  obtain ⟨body, same, items⟩ := prettyList written values depth
  rw [Value.texts, same]
  exact .mk items

theorem tablePretty (entries : List (String × List String)) (depth : Nat) :
    TableText entries ((Value.object (entries.map fun entry => (entry.1, .texts entry.2))).pretty depth) := by
  have written (entry : String × List String) (depth : Nat) :
      MemberText StringsText entry (quoted entry.1 ++ (": ".toList ++ (Value.texts entry.2).pretty depth)) :=
    memberPretty (stringsPretty entry.2 depth)
  obtain ⟨body, same, items⟩ := prettyObject written entries depth
  rw [same]
  exact .mk items

end Pretty
end ScriptBundle.Json
