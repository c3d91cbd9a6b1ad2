import ScriptBundle.Proofs.Sweep

/-! Texts in which there is nothing to lower. Lowering ends in such a text: what a rule writes is no
header, and neither does it make one of what stands around it, since a header never goes on past a dot.
These are the texts that lowering leaves as they are, so to lower more than once changes nothing. -/
namespace ScriptBundle.Downlevel
open Text

section Rules
variable {listed : List Rule}

def Settled (listed : List Rule) (text : List Char) : Prop :=
  ∀ rest, rest <:+ text → firstOf listed rest = none

theorem settledNil : Settled listed [] := by
  intro rest suffix
  rw [List.suffix_nil.mp suffix]
  refine List.findSome?_eq_none_iff.mpr fun rule _ => ?_
  cases found : rule.at? [] with
  | none => rfl
  | some hit => exact absurd (rule.shorter found) (Nat.not_lt_zero _)

theorem settledCons {c : Char} {text : List Char} :
    Settled listed (c :: text) ↔ firstOf listed (c :: text) = none ∧ Settled listed text := by
  constructor
  · intro settled
    exact ⟨settled _ List.suffix_rfl, fun rest suffix => settled rest (suffix.trans (List.suffix_cons c text))⟩
  · rintro ⟨head, tail⟩ rest suffix
    rcases List.suffix_cons_iff.mp suffix with rfl | inner
    · exact head
    · exact tail rest inner

theorem settledPlain (each : ∀ rule ∈ listed, Local rule.at?) {plain text : List Char} (dotless : '.' ∉ plain)
    (settled : Settled listed text) : Settled listed (plain ++ text) := by
  induction plain with
  | nil => exact settled
  | cons c plain ih =>
    obtain ⟨other, dotless⟩ := not_or.mp (List.mem_cons.not.mp dotless)
    exact settledCons.mpr ⟨(Local.firstOf each).missesOther (Ne.symm other) _, ih dotless⟩

theorem frontRunAll (each : ∀ rule ∈ listed, Local rule.at?) (text : List Char) :
    front (runAll listed text).1 = front text := by
  induction listed generalizing text with
  | nil => rfl
  | cons rule others ih =>
    obtain ⟨first, each⟩ := List.forall_mem_cons.mp each
    rw [runAllCons]
    exact (ih each _).trans (Rule.frontRun first text)

theorem runAllSettled (each : ∀ rule ∈ listed, Local rule.at?) (apart : Apart listed) (text : List Char) :
    Settled listed (runAll listed text).1 := by
  have all := Local.firstOf each
  induction text using matchwise (firstOf listed) all.shorter with
  | nil =>
    rw [runAllNil]
    exact settledNil
  | hit text out rest found ih =>
    have quiet (behind : List Char) : firstOf listed (out ++ behind) = none := by
      obtain ⟨writer, member, wrote⟩ := List.exists_of_findSome?_eq_some found
      exact List.findSome?_eq_none_iff.mpr fun rule isRule => apart rule isRule writer member wrote behind
    obtain ⟨_, written, _, _, rfl, dotless⟩ := all.dotted found
    rw [runAllHit each apart found]
    exact settledCons.mpr ⟨quiet _, settledPlain each dotless ih⟩
  | miss c rest missed ih =>
    rw [runAllMiss each missed]
    refine settledCons.mpr ⟨?_, ih⟩
    by_cases dot : c = '.'
    · subst dot
      exact all.missesNear (frontRunAll each rest) missed
    · exact all.missesOther dot _

theorem settledRun (each : ∀ rule ∈ listed, Local rule.at?) {text : List Char} (settled : Settled listed text) :
    runAll listed text = (text, 0) := by
  induction text with
  | nil => exact runAllNil
  | cons c rest ih =>
    obtain ⟨missed, settled⟩ := settledCons.mp settled
    rw [runAllMiss each missed, ih settled]
    rfl

theorem uncountedSettled (each : ∀ rule ∈ listed, Local rule.at?) (apart : Apart listed) {text : List Char}
    (uncounted : (runAll listed text).2 = 0) : Settled listed text := by
  induction text with
  | nil => exact settledNil
  | cons c rest ih =>
    cases found : firstOf listed (c :: rest) with
    | none =>
      rw [runAllMiss each found, prepend, Nat.zero_add] at uncounted
      exact settledCons.mpr ⟨found, ih uncounted⟩
    | some hit =>
      rw [runAllHit each apart found] at uncounted
      exact absurd uncounted (Nat.ne_of_gt (Nat.add_pos_left Nat.one_pos _))

end Rules

/- What is looked for. A map that returns two names is found whether or not they are its own. -/
inductive Pattern where
  | filterSingle
  | mapReturn
  | mapPair
  | forEachPair
  deriving DecidableEq, Repr

inductive Pattern.Matches : Pattern → List Char → Prop where
  | filterSingle {name taken : List Char} (spelled : Header (.filter name) taken) : Matches .filterSingle taken
  | mapReturn {first second third fourth header body : List Char} (spelled : Header (.map first second) header)
      (returns : Returns third fourth body) : Matches .mapReturn (header ++ body)
  | mapPair {first second taken : List Char} (spelled : Header (.map first second) taken) :
      Matches .mapPair taken
  | forEachPair {first second taken : List Char} (spelled : Header (.forEach first second) taken) :
      Matches .forEachPair taken

theorem matchesHeaded {pattern : Pattern} {taken : List Char} (matched : pattern.Matches taken)
    (rest : List Char) : Headed (taken ++ rest) := by
  cases matched with
  | filterSingle spelled | mapPair spelled | forEachPair spelled => exact ⟨_, taken, rest, spelled, rfl⟩
  | mapReturn spelled => exact ⟨_, _, _, spelled, List.append_assoc ..⟩

theorem headerMatches {callback : Callback} {taken : List Char} (header : Header callback taken) :
    ∃ pattern : Pattern, pattern.Matches taken := by
  cases callback with
  | filter name => exact ⟨_, .filterSingle header⟩
  | map first second => exact ⟨_, .mapPair header⟩
  | forEach first second => exact ⟨_, .forEachPair header⟩

theorem rewritesMatch {taken out : List Char} (rewrites : Rewrites taken out) :
    ∃ pattern : Pattern, pattern.Matches taken := by
  cases rewrites with
  | header spelled => exact headerMatches spelled
  | identity spelled returns => exact ⟨_, .mapReturn spelled returns⟩

theorem settledMatchless {text : List Char} :
    Settled rules text ↔ ∀ (pattern : Pattern) taken, pattern.Matches taken → ¬ taken <:+: text := by
  constructor
  · rintro settled pattern taken matched ⟨before, behind, source⟩
    have missed := settled (taken ++ behind) ⟨before, by rw [← source, List.append_assoc]⟩
    have found := headedFirst.mp (matchesHeaded matched behind)
    rw [missed] at found
    cases found
  · rintro matchless rest ⟨before, source⟩
    refine Option.not_isSome_iff_eq_none.mp fun found => ?_
    obtain ⟨callback, taken, behind, header, rfl⟩ := headedFirst.mpr found
    obtain ⟨pattern, matched⟩ := headerMatches header
    exact matchless pattern taken matched ⟨before, behind, by rw [← source, List.append_assoc]⟩

theorem settledLower {text : String} : Settled rules text.toList ↔ lower text = ⟨text, 0⟩ := by
  constructor
  · intro settled
    have run := (lowerRuns text).symm.trans (settledRun rulesLocal settled)
    cases lowered : lower text with
    | mk out count =>
      rw [lowered] at run
      obtain ⟨same, rfl⟩ := Prod.mk.inj run
      cases String.toList_injective same
      rfl
  · intro unchanged
    refine uncountedSettled rulesLocal rulesApart ?_
    rw [lowerRuns, unchanged]

theorem lowerSettled (text : String) : Settled rules (lower text).text.toList := by
  have settled := runAllSettled rulesLocal rulesApart text.toList
  rwa [lowerRuns] at settled

theorem lowerTimesSettled {text : String} (settled : Settled rules text.toList) (n : Nat) :
    lowerTimes n text = ⟨text, 0⟩ := by
  induction n with
  | zero => rfl
  | succ n ih =>
    rw [lowerTimes] at ih ⊢
    simp only [List.replicate_succ, applyAllCons, settledLower.mp settled, ih]

theorem lowersOnceForAll (text : String) :
    (∀ (pattern : Pattern) taken, pattern.Matches taken → ¬ taken <:+: (lower text).text.toList) ∧
    lower (lower text).text = ⟨(lower text).text, 0⟩ ∧
    (∀ n, 1 ≤ n → lowerTimes n text = lower text) ∧
    (lower text = ⟨text, 0⟩ ↔
      ∀ (pattern : Pattern) taken, pattern.Matches taken → ¬ taken <:+: text.toList) := by
  have settled := lowerSettled text
  refine ⟨settledMatchless.mp settled, settledLower.mp settled, ?_, settledLower.symm.trans settledMatchless⟩
  intro n once
  obtain ⟨more, rfl⟩ := Nat.exists_eq_add_of_le' once
  have others : applyAll (List.replicate more lower) (lower text).text = ⟨(lower text).text, 0⟩ :=
    lowerTimesSettled settled more
  rw [lowerTimes, List.replicate_succ, applyAllCons, others]
  rfl

end ScriptBundle.Downlevel
