import ScriptBundle.Text.Template

/-! Filling a template piece by piece: text without an opening brace stays as it is, and a placeholder
gives way to its argument. No placeholder reaches past an opening brace, so a template can be cut in front
of any of them, whatever braces were left open before. -/
namespace ScriptBundle.Template

theorem expandOther (args : List String) {c : Char} (other : c ≠ '{') (rest : List Char) :
    expand args (c :: rest) = c :: expand args rest := by
  rw [expand, if_neg other]

theorem expandPlain (args : List String) {text : List Char} (plain : '{' ∉ text) (rest : List Char) :
    expand args (text ++ rest) = text ++ expand args rest := by
  induction text with
  | nil => rfl
  | cons c text ih =>
    simp only [List.mem_cons, not_or] at plain
    rw [List.cons_append, expandOther args (Ne.symm plain.1), ih plain.2, List.cons_append]

theorem expandPlaceholder {args : List String} {text rest : List Char} {index : Nat} {arg : String}
    (found : placeholder? text = some (index, rest)) (given : args[index]? = some arg) :
    expand args ('{' :: text) = arg.toList ++ expand args rest := by
  conv => lhs; rw [expand, if_pos rfl]
  split
  · simp_all
  · rename_i index' rest' found'
    cases found.symm.trans found'
    rw [given]

theorem fillOnce (lead trail : String) (plainLead : '{' ∉ lead.toList) (plainTrail : '{' ∉ trail.toList)
    (arg : String) : fill (lead ++ "\x7b0\x7d" ++ trail) [arg] = lead ++ arg ++ trail := by
  have chars : (lead ++ "\x7b0\x7d" ++ trail).toList = lead.toList ++ '{' :: '0' :: '}' :: trail.toList := by
    simp
  have found : placeholder? ('0' :: '}' :: trail.toList) = some (0, trail.toList) := rfl
  have rest := expandPlain [arg] plainTrail []
  rw [expand, List.append_nil] at rest
  rw [fill, chars, expandPlain [arg] plainLead, expandPlaceholder found rfl, rest]
  simp [String.append_assoc]

inductive Placeholder (count : Nat) : List Char → Nat → Prop where
  | written {sign digits : List Char} (signed : sign = [] ∨ sign = ['+']) (nonempty : digits ≠ [])
      (decimal : ∀ c ∈ digits, c.isDigit = true) (fits : Decimal.value digits < UInt64.size)
      (given : Decimal.value digits < count) :
      Placeholder count ('{' :: (sign ++ digits ++ ['}'])) (Decimal.value digits)

section Placeholders
variable {count index : Nat} {text rest : List Char}

theorem unsignedSource (text : List Char) : ∃ sign, (sign = [] ∨ sign = ['+']) ∧ text = sign ++ unsigned text := by
  unfold unsigned
  split
  · exact ⟨['+'], .inr rfl, rfl⟩
  · exact ⟨[], .inl rfl, rfl⟩

theorem indexSource (found : index? text = some index) :
    unsigned text ≠ [] ∧ (∀ c ∈ unsigned text, c.isDigit = true) ∧ Decimal.value (unsigned text) < UInt64.size ∧
      Decimal.value (unsigned text) = index := by
  simp only [index?] at found
  split at found
  · rename_i number
    obtain ⟨nonempty, decimal, fits⟩ := number
    cases found
    exact ⟨nonempty, List.all_eq_true.mp decimal, fits, rfl⟩
  · cases found

theorem indexPlain {c : Char} (found : index? text = some index) (other : c ≠ '+') (letter : c.isDigit = false) :
    c ∉ text := by
  obtain ⟨sign, signed, whole⟩ := unsignedSource text
  obtain ⟨_, decimal, _⟩ := indexSource found
  rw [whole]
  refine List.not_mem_append ?_ fun member => Bool.false_ne_true (letter.symm.trans (decimal c member))
  rcases signed with rfl | rfl
  · exact List.not_mem_nil
  · exact fun member => other (List.mem_singleton.mp member)

theorem placeholderSource (found : placeholder? text = some (index, rest)) (given : index < count) :
    ∃ body, text = body ++ rest ∧ Placeholder count ('{' :: body) index := by
  obtain ⟨body, rfl, _, read⟩ := placeholderCut.mp found
  obtain ⟨sign, signed, whole⟩ := unsignedSource body
  obtain ⟨nonempty, decimal, fits, rfl⟩ := indexSource read
  have spelled := Placeholder.written signed nonempty decimal fits given
  rw [← whole] at spelled
  exact ⟨body ++ ['}'], by simp, spelled⟩

theorem Placeholder.known {part : List Char} (valid : Placeholder count part index) : index < count := by
  cases valid with
  | written signed nonempty decimal fits given => exact given

theorem placeholderFromSource {part : List Char} (valid : Placeholder count part index) :
    ∃ body, part = '{' :: body ∧ ∀ rest, placeholder? (body ++ rest) = some (index, rest) := by
  obtain @⟨sign, digits, signed, nonempty, decimal, fits, _⟩ := valid
  have number : unsigned (sign ++ digits) = digits := by
    rcases signed with rfl | rfl
    · cases digits with
      | nil => exact absurd rfl nonempty
      | cons c digits =>
        have notPlus : c ≠ '+' := by
          rintro rfl
          exact absurd (decimal _ (List.mem_cons_self ..)) (by decide)
        simp [unsigned, notPlus]
    · rfl
  have read : index? (sign ++ digits) = some (Decimal.value digits) := by
    simp only [index?, number]
    rw [if_pos ⟨nonempty, List.all_eq_true.mpr decimal, fits⟩]
  refine ⟨_, rfl, fun rest => placeholderCut.mpr ⟨sign ++ digits, by simp, ?_, read⟩⟩
  exact indexPlain read (by decide) (by decide)

/- An opening brace is neither a sign nor a digit, so what follows it cannot complete a placeholder. -/
theorem placeholderBrace (text tail : List Char) :
    placeholder? (text ++ '{' :: tail) = (placeholder? text).map fun found => (found.1, found.2 ++ '{' :: tail) := by
  refine Option.ext fun found => ?_
  obtain ⟨index, rest⟩ := found
  simp only [placeholderCut, Option.map_eq_some_iff, Prod.exists, Prod.mk.injEq]
  constructor
  · rintro ⟨body, source, plain, read⟩
    have braceless : '{' ∉ body := indexPlain read (by decide) (by decide)
    rcases List.append_eq_append_iff.mp source with ⟨middle, rfl, closed⟩ | ⟨middle, rfl, closed⟩
    · cases middle with
      | nil => cases closed
      | cons c middle =>
        cases closed
        exact absurd (List.mem_append_right text List.mem_cons_self) braceless
    · cases middle with
      | nil => cases closed
      | cons c middle =>
        cases closed
        exact ⟨index, middle, ⟨body, rfl, plain, read⟩, rfl, rfl⟩
  · rintro ⟨_, left, ⟨body, rfl, plain, read⟩, rfl, rfl⟩
    exact ⟨body, by simp, plain, read⟩

end Placeholders

theorem expandStray {args : List String} {rest : List Char}
    (stray : ∀ index after, placeholder? rest = some (index, after) → args[index]? = none) :
    expand args ('{' :: rest) = '{' :: expand args rest := by
  conv => lhs; rw [expand, if_pos rfl]
  split
  · rfl
  · rename_i index after found
    rw [stray index after found]

theorem expandBrace (args : List String) (before tail : List Char) :
    expand args (before ++ '{' :: tail) = expand args before ++ expand args ('{' :: tail) := by
  fun_induction expand args before with
  | case1 => rfl
  | case2 rest found ih =>
    rw [List.cons_append, expandStray (by simp [placeholderBrace, found]), ih, List.cons_append]
  | case3 rest index after found shorter absent ih =>
    have stray : ∀ number left, placeholder? (rest ++ '{' :: tail) = some (number, left) → args[number]? = none := by
      intro number left again
      rw [placeholderBrace, found] at again
      cases again
      exact absent
    rw [List.cons_append, expandStray stray, ih, List.cons_append]
  | case4 rest index after found shorter arg given ih =>
    have again : placeholder? (rest ++ '{' :: tail) = some (index, after ++ '{' :: tail) := by
      rw [placeholderBrace, found]
      rfl
    rw [List.cons_append, expandPlaceholder again given, ih, List.append_assoc]
  | case5 c rest other ih =>
    rw [List.cons_append, expandOther args other, ih, List.cons_append]

theorem expandFree {args : List String} {text : List Char}
    (free : ∀ part index, part <:+: text → ¬ Placeholder args.length part index) : expand args text = text := by
  fun_induction expand args text with
  | case1 => rfl
  | case2 rest found ih => rw [ih fun part index inside => free part index (List.infix_cons inside)]
  | case3 rest index after found shorter absent ih =>
    rw [ih fun part index inside => free part index (List.infix_cons inside)]
  | case4 rest index after found shorter arg given ih =>
    obtain ⟨known, _⟩ := List.getElem?_eq_some_iff.mp given
    obtain ⟨body, rfl, valid⟩ := placeholderSource found known
    exact absurd valid (free _ _ (List.prefix_append ('{' :: body) after).isInfix)
  | case5 c rest other ih => rw [ih fun part index inside => free part index (List.infix_cons inside)]

theorem fillsEveryPlaceholder (args : List String) :
    (∀ template : String, (∀ part index, part <:+: template.toList → ¬ Placeholder args.length part index) →
      fill template args = template) ∧
    ∀ (before part after : String) (index : Nat), Placeholder args.length part.toList index →
      ∃ arg, args[index]? = some arg ∧
        fill (before ++ part ++ after) args = fill before args ++ arg ++ fill after args := by
  refine ⟨fun template free => ?_, fun before part after index valid => ?_⟩
  · rw [fill, expandFree free, String.ofList_toList]
  · obtain ⟨body, spelled, found⟩ := placeholderFromSource valid
    obtain ⟨arg, given⟩ : ∃ arg, args[index]? = some arg := ⟨_, List.getElem?_eq_getElem valid.known⟩
    refine ⟨arg, given, ?_⟩
    have chars : (before ++ part ++ after).toList = before.toList ++ '{' :: (body ++ after.toList) := by
      simp [spelled]
    rw [fill, chars, expandBrace, expandPlaceholder (found after.toList) given]
    simp [fill, String.append_assoc]

end ScriptBundle.Template
