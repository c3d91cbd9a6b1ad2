import ScriptBundle.Json.Skip
import ScriptBundle.Proofs.JsonText

/-! Skipping over any JSON value. The grammar is that of JSON itself: numbers of any size, quoted text with
any escapes, lone surrogates among them, and lists and objects of any depth. -/
namespace ScriptBundle.Json

section Numbers

def Digits (text : List Char) : Prop := text ≠ [] ∧ ∀ c ∈ text, c.isDigit = true

inductive FractionText : List Char → Prop where
  | none : FractionText []
  | some {digits : List Char} (known : Digits digits) : FractionText ('.' :: digits)

inductive ExponentText : List Char → Prop where
  | none : ExponentText []
  | some {mark : Char} {sign digits : List Char} (marked : mark = 'e' ∨ mark = 'E')
      (signed : sign = [] ∨ sign = ['+'] ∨ sign = ['-']) (known : Digits digits) :
      ExponentText (mark :: (sign ++ digits))

inductive NumeralText : List Char → Prop where
  | mk {whole fraction exponent : List Char} (known : Digits whole)
      (lone : ∀ c rest, whole ≠ '0' :: c :: rest) (point : FractionText fraction)
      (power : ExponentText exponent) : NumeralText (whole ++ (fraction ++ exponent))

variable {text digits fraction exponent tail : List Char} (fault : Fault)

def Digitless (tail : List Char) : Prop := ∀ c ∈ tail.head?, c.isDigit = false

theorem digitOther {c d : Char} (digit : c.isDigit = true) (other : d.isDigit = false) : c ≠ d := by
  rintro rfl
  cases digit.symm.trans other

theorem digitsRead (known : Digits digits) (stop : Digitless tail) :
    readDigits fault (digits ++ tail) = .ok (digits, tail) := by
  have taken : (digits ++ tail).takeWhile Char.isDigit = digits ∧ (digits ++ tail).dropWhile Char.isDigit = tail := by
    rw [List.takeWhile_append_of_pos known.2, List.dropWhile_append_of_pos known.2]
    cases tail with
    | nil => simp
    | cons c tail => simp [stop c rfl]
  obtain ⟨c, rest, rfl⟩ := List.exists_cons_of_ne_nil known.1
  rw [readDigits, taken.1, taken.2]

theorem exponentDigitless (power : ExponentText exponent) (ends : Ends tail) : Digitless (exponent ++ tail) := by
  cases power with
  | none => exact fun c found => (ends c found).1
  | some marked =>
    rintro c found
    cases found
    rcases marked with rfl | rfl <;> rfl

theorem fractionDigitless (point : FractionText fraction) (stop : Digitless tail) :
    Digitless (fraction ++ tail) := by
  cases point with
  | none => exact stop
  | some =>
    rintro c found
    cases found
    rfl

theorem exponentRead (power : ExponentText exponent) (ends : Ends tail) :
    ∃ value, readExponent fault (exponent ++ tail) = .ok (value, tail) := by
  have stop : Digitless tail := fun c found => (ends c found).1
  cases power with
  | none =>
    refine ⟨0, ?_⟩
    rw [List.nil_append]
    unfold readExponent
    split
    · exact absurd rfl (ends 'e' rfl).2.2.1
    · exact absurd rfl (ends 'E' rfl).2.2.2
    · rfl
  | @some mark sign digits marked signed known =>
    have signedRead : ∃ value, readExponentDigits fault (sign ++ digits ++ tail) = .ok (value, tail) := by
      rcases signed with rfl | rfl | rfl
      · obtain ⟨c, rest, rfl⟩ := List.exists_cons_of_ne_nil known.1
        have digit := known.2 c List.mem_cons_self
        simp only [List.nil_append, List.cons_append, readExponentDigits]
        split
        · exact absurd (List.cons.inj ‹_›).1 (digitOther digit rfl)
        · exact absurd (List.cons.inj ‹_›).1 (digitOther digit rfl)
        · rw [← List.cons_append, digitsRead fault known stop]
          exact ⟨_, rfl⟩
      · rw [List.append_assoc, List.singleton_append, readExponentDigits, digitsRead fault known stop]
        exact ⟨_, rfl⟩
      · rw [List.append_assoc, List.singleton_append, readExponentDigits, digitsRead fault known stop]
        exact ⟨_, rfl⟩
    obtain ⟨value, read⟩ := signedRead
    refine ⟨value, ?_⟩
    rcases marked with rfl | rfl <;> exact read

theorem fractionRead (point : FractionText fraction) (stop : Digitless tail)
    (pointless : ∀ rest, tail ≠ '.' :: rest) : ∃ value, readFraction fault (fraction ++ tail) = .ok (value, tail) := by
  cases point with
  | none =>
    refine ⟨[], ?_⟩
    rw [List.nil_append]
    unfold readFraction
    split
    · exact absurd rfl (pointless _)
    · rfl
  | some known => exact ⟨_, digitsRead fault known stop⟩

theorem exponentPointless (power : ExponentText exponent) (ends : Ends tail) (rest : List Char) :
    exponent ++ tail ≠ '.' :: rest := by
  cases power with
  | none =>
    rintro rfl
    exact (ends '.' rfl).2.1 rfl
  | some marked =>
    intro same
    rcases marked with rfl | rfl <;> cases same

theorem numeralRead (number : NumeralText text) (ends : Ends tail) :
    ∃ numeral, readNumeral fault (text ++ tail) = .ok (numeral, tail) := by
  cases number with
  | @mk whole fraction exponent known lone point power =>
    have stop := exponentDigitless power ends
    have wholeRead : readWhole fault (whole ++ (fraction ++ (exponent ++ tail))) =
        .ok (whole, fraction ++ (exponent ++ tail)) := by
      rw [readWhole, digitsRead fault known (fractionDigitless point stop)]
      split
      · cases ‹_ = _›
      · rename_i same
        cases same
        exact absurd rfl (lone _ _)
      · rename_i same
        cases same
        rfl
    obtain ⟨part, partRead⟩ := fractionRead fault point stop (exponentPointless power ends)
    obtain ⟨value, valueRead⟩ := exponentRead fault power ends
    refine ⟨⟨whole, part, value⟩, ?_⟩
    rw [List.append_assoc, List.append_assoc, readNumeral, wholeRead]
    simp only [partRead, valueRead]

end Numbers

section Scalars

/- Quoted text that nobody keeps: a unit may be half of a pair. -/
inductive QuotedText : List Char → Prop where
  | nil : QuotedText []
  | plain {c : Char} {rest : List Char} (quote : c ≠ '"') (escape : c ≠ '\\') (printed : isControl c = false)
      (more : QuotedText rest) : QuotedText (c :: rest)
  | letter {c letter : Char} {rest : List Char} (known : letterEscape? letter = some c) (more : QuotedText rest) :
      QuotedText ('\\' :: letter :: rest)
  | unit {n : Nat} {digits rest : List Char} (spelled : HexUnit n digits) (more : QuotedText rest) :
      QuotedText ('\\' :: 'u' :: (digits ++ rest))

inductive ScalarText : List Char → Prop where
  | null : ScalarText "null".toList
  | true : ScalarText "true".toList
  | false : ScalarText "false".toList
  | number {text : List Char} (number : NumeralText text) : ScalarText text
  | negative {text : List Char} (number : NumeralText text) : ScalarText ('-' :: text)
  | quoted {inner : List Char} (text : QuotedText inner) : ScalarText ('"' :: (inner ++ ['"']))

theorem skipQuotedStep (text : List Char) : skipQuoted text =
    match text with
    | [] => .error .ended
    | c :: rest =>
      if c = '"' then .ok ((), rest)
      else if c = '\\' then
        match skipEscape rest with
        | .error fault => .error fault
        | .ok ((), after) => skipQuoted after
      else if isControl c then .error .malformed
      else skipQuoted rest := by
  fun_cases skipQuoted text <;> simp_all

theorem quotedSkipped {inner : List Char} (text : QuotedText inner) (tail : List Char) :
    skipQuoted (inner ++ '"' :: tail) = .ok ((), tail) := by
  induction text with
  | nil =>
    rw [List.nil_append, skipQuotedStep]
    rfl
  | plain quote escape printed more ih =>
    rw [List.cons_append, skipQuotedStep]
    simpa [quote, escape, printed] using ih
  | letter known more ih =>
    rw [List.cons_append, skipQuotedStep]
    simpa [skipEscape, letterOther known, known] using ih
  | unit spelled more ih =>
    rw [List.cons_append, skipQuotedStep]
    simpa [skipEscape, unitRead spelled, Except.map] using ih

theorem numeralOpens {text : List Char} (number : NumeralText text) :
    ∃ c rest, text = c :: rest ∧ c.isDigit = true := by
  cases number with
  | mk known =>
    obtain ⟨c, rest, rfl⟩ := List.exists_cons_of_ne_nil known.1
    exact ⟨c, _, rfl, known.2 c List.mem_cons_self⟩

theorem scalarRead {text : List Char} (scalar : ScalarText text) : Reads skipScalar text () := by
  intro tail ends
  cases scalar with
  | null => rfl
  | true => rfl
  | false => rfl
  | number number =>
    obtain ⟨numeral, read⟩ := numeralRead .malformed number ends
    obtain ⟨c, rest, rfl, digit⟩ := numeralOpens number
    have other (d : Char) (letter : d.isDigit = false) := digitOther digit letter
    rw [List.cons_append] at read ⊢
    simp [skipScalar, other 'n' rfl, other 't' rfl, other 'f' rfl, other '"' rfl, other '-' rfl, digit, read,
      Except.map]
  | negative number =>
    obtain ⟨numeral, read⟩ := numeralRead .malformed number ends
    simp [skipScalar, read, Except.map]
  | quoted text => simp [skipScalar, quotedSkipped text]

theorem scalarOpens {text : List Char} (scalar : ScalarText text) :
    ∃ c rest, text = c :: rest ∧ isSpace c = false ∧ c ∉ ['[', '{', ']', '}'] := by
  cases scalar with
  | number number =>
    obtain ⟨c, rest, rfl, digit⟩ := numeralOpens number
    have other (d : Char) (letter : d.isDigit = false) := digitOther digit letter
    exact ⟨c, rest, rfl, by simp [isSpace, other], by simp [other]⟩
  | null | true | false | negative | quoted => exact ⟨_, _, rfl, by decide, by decide⟩

end Scalars

section Values

inductive Part where
  | value
  | items
  | members
  deriving DecidableEq, Repr

inductive WellFormed : Part → List Char → Prop where
  | scalar {text : List Char} (scalar : ScalarText text) : WellFormed .value text
  | emptyList {gap : List Char} (blank : Spaces gap) : WellFormed .value ('[' :: (gap ++ [']']))
  | emptyObject {gap : List Char} (blank : Spaces gap) : WellFormed .value ('{' :: (gap ++ ['}']))
  | list {before items : List Char} (blank : Spaces before) (formed : WellFormed .items items) :
      WellFormed .value ('[' :: (before ++ items))
  | object {before members : List Char} (blank : Spaces before) (formed : WellFormed .members members) :
      WellFormed .value ('{' :: (before ++ members))
  | lastItem {text after : List Char} (formed : WellFormed .value text) (blank : Spaces after) :
      WellFormed .items (text ++ (after ++ [']']))
  | nextItem {text after before items : List Char} (formed : WellFormed .value text) (blank : Spaces after)
      (space : Spaces before) (more : WellFormed .items items) :
      WellFormed .items (text ++ (after ++ ',' :: (before ++ items)))
  | lastMember {key gap before text after : List Char} (quoted : QuotedText key) (blank : Spaces gap)
      (space : Spaces before) (formed : WellFormed .value text) (room : Spaces after) :
      WellFormed .members ('"' :: (key ++ '"' :: (gap ++ ':' :: (before ++ (text ++ (after ++ ['}']))))))
  | nextMember {key gap before text after between members : List Char} (quoted : QuotedText key)
      (blank : Spaces gap) (space : Spaces before) (formed : WellFormed .value text) (room : Spaces after)
      (start : Spaces between) (more : WellFormed .members members) :
      WellFormed .members
        ('"' :: (key ++ '"' :: (gap ++ ':' :: (before ++ (text ++ (after ++ ',' :: (between ++ members)))))))

section Steps
variable {frames : List Frame} {text rest after : List Char} {c : Char}

theorem itemDue (found : readHead text = .ok (',', rest)) :
    skip .next (.list :: frames) text = skip .value (.list :: frames) rest := by
  conv => lhs; rw [skip]
  split <;> simp_all

theorem listDone (found : readHead text = .ok (']', rest)) :
    skip .next (.list :: frames) text = skip .next frames rest := by
  conv => lhs; rw [skip]
  split <;> simp_all

theorem memberDue (found : readHead text = .ok (',', rest)) :
    skip .next (.object :: frames) text = skip .member (.object :: frames) rest := by
  conv => lhs; rw [skip]
  split <;> simp_all

theorem objectDone (found : readHead text = .ok ('}', rest)) :
    skip .next (.object :: frames) text = skip .next frames rest := by
  conv => lhs; rw [skip]
  split <;> simp_all

theorem scalarDue (found : readHead text = .ok (c, rest)) (other : c ∉ ['[', '{', ']', '}'])
    (scalar : skipScalar (c :: rest) = .ok ((), after)) : skip .value frames text = skip .next frames after := by
  conv => lhs; rw [skip]
  split <;> simp_all
  split <;> simp_all

theorem listDue (found : readHead text = .ok ('[', rest)) (start : readHead rest = .ok (c, after)) :
    skip .value frames text =
      if c = ']' then skip .next frames after else skip .value (.list :: frames) (c :: after) := by
  conv => lhs; rw [skip]
  split <;> simp_all
  split <;> simp_all

theorem objectDue (found : readHead text = .ok ('{', rest)) (start : readHead rest = .ok (c, after)) :
    skip .value frames text =
      if c = '}' then skip .next frames after else skip .member (.object :: frames) (c :: after) := by
  conv => lhs; rw [skip]
  split <;> simp_all
  split <;> simp_all

theorem keyDue (found : readHead text = .ok ('"', rest)) (quoted : skipQuoted rest = .ok ((), after)) {last : List Char}
    (colon : readColon after = .ok ((), last)) : skip .member frames text = skip .value frames last := by
  conv => lhs; rw [skip]
  split <;> simp_all
  split <;> simp_all
  split <;> simp_all

end Steps

theorem formedOpens {part : Part} {text : List Char} (formed : WellFormed part text) :
    ∃ c rest, text = c :: rest ∧ isSpace c = false ∧ c ≠ ']' ∧ c ≠ '}' := by
  induction formed with
  | scalar scalar =>
    obtain ⟨c, rest, rfl, solid, other⟩ := scalarOpens scalar
    exact ⟨c, rest, rfl, solid, by rintro rfl; simp at other, by rintro rfl; simp at other⟩
  | emptyList | emptyObject | list | object | lastMember | nextMember =>
    exact ⟨_, _, rfl, by decide, by decide, by decide⟩
  | lastItem formed blank ih | nextItem formed blank space more ih =>
    obtain ⟨c, rest, rfl, other⟩ := ih
    exact ⟨c, _, rfl, other⟩

/- What skipping over a part comes to, whatever blanks are before it and whatever is open around it. -/
def Skipped : Part → List Char → Prop
  | .value, text => ∀ frames gap tail, Spaces gap → Ends tail →
      skip .value frames (gap ++ (text ++ tail)) = skip .next frames tail
  | .items, text => ∀ frames gap tail, Spaces gap →
      skip .value (.list :: frames) (gap ++ (text ++ tail)) = skip .next frames tail
  | .members, text => ∀ frames gap tail, Spaces gap →
      skip .member (.object :: frames) (gap ++ (text ++ tail)) = skip .next frames tail

theorem scalarSkipped {text : List Char} (scalar : ScalarText text) : Skipped .value text := by
  intro frames gap tail blank ends
  obtain ⟨c, rest, rfl, solid, other⟩ := scalarOpens scalar
  exact scalarDue (headFound blank solid) other (scalarRead scalar tail ends)

theorem listSkipped {before items : List Char} (blank : Spaces before) (formed : WellFormed .items items)
    (skipped : Skipped .items items) : Skipped .value ('[' :: (before ++ items)) := by
  intro frames gap tail room _
  obtain ⟨c, rest, rfl, solid, other, _⟩ := formedOpens formed
  simp only [List.cons_append, List.append_assoc]
  rw [listDue (headFound room rfl) (headFound blank solid), if_neg other]
  exact skipped frames [] tail noSpaces

theorem objectSkipped {before members : List Char} (blank : Spaces before) (formed : WellFormed .members members)
    (skipped : Skipped .members members) : Skipped .value ('{' :: (before ++ members)) := by
  intro frames gap tail room _
  obtain ⟨c, rest, rfl, solid, _, other⟩ := formedOpens formed
  simp only [List.cons_append, List.append_assoc]
  rw [objectDue (headFound room rfl) (headFound blank solid), if_neg other]
  exact skipped frames [] tail noSpaces

theorem keySkipped {key gap room rest : List Char} {frames : List Frame} (quoted : QuotedText key)
    (blank : Spaces gap) (space : Spaces room) :
    skip .member frames (room ++ '"' :: (key ++ '"' :: (gap ++ ':' :: rest))) = skip .value frames rest := by
  refine keyDue (headFound space rfl) (quotedSkipped quoted _) ?_
  rw [colonAfter blank, colonRead]

theorem formedSkipped {part : Part} {text : List Char} (formed : WellFormed part text) : Skipped part text := by
  induction formed with
  | scalar scalar => exact scalarSkipped scalar
  | emptyList blank =>
    intro frames gap tail room _
    simp only [List.cons_append, List.append_assoc]
    rw [listDue (headFound room rfl) (headFound blank rfl), if_pos rfl]
    rfl
  | emptyObject blank =>
    intro frames gap tail room _
    simp only [List.cons_append, List.append_assoc]
    rw [objectDue (headFound room rfl) (headFound blank rfl), if_pos rfl]
    rfl
  | list blank formed ih => exact listSkipped blank formed ih
  | object blank formed ih => exact objectSkipped blank formed ih
  | lastItem formed blank ih =>
    intro frames gap tail room
    simp only [List.cons_append, List.append_assoc]
    rw [ih _ _ _ room (endsAfter blank (.inr (.inl rfl)))]
    exact listDone (headFound blank rfl)
  | nextItem formed blank space more ih ihMore =>
    intro frames gap tail room
    simp only [List.cons_append, List.append_assoc]
    rw [ih _ _ _ room (endsAfter blank (.inl rfl)), itemDue (headFound blank rfl)]
    exact ihMore frames _ tail space
  | lastMember quoted blank space formed last ih =>
    intro frames gap tail room
    simp only [List.cons_append, List.append_assoc]
    rw [keySkipped quoted blank room, ih _ _ _ space (endsAfter last (.inr (.inr rfl)))]
    exact objectDone (headFound last rfl)
  | nextMember quoted blank space formed last start more ih ihMore =>
    intro frames gap tail room
    simp only [List.cons_append, List.append_assoc]
    rw [keySkipped quoted blank room, ih _ _ _ space (endsAfter last (.inl rfl)), memberDue (headFound last rfl)]
    exact ihMore frames _ tail start

theorem valueRead {before text : List Char} (blank : Spaces before) (formed : WellFormed .value text) :
    Reads skipValue (before ++ text) () := by
  intro tail ends
  have skipped := formedSkipped formed [] before tail blank ends
  rw [skipValue, List.append_assoc, skipped, skip]
  rfl

end Values
end ScriptBundle.Json
