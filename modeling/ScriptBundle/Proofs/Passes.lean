import Mathlib.Data.List.Basic
import ScriptBundle.Downlevel

/-! Rules that go over a text one after another, against a single pass that tries them in their order
at every place. Both come to the same as long as every rule looks no further than to the next dot and
finds nothing in what the others write. -/
namespace ScriptBundle.Downlevel

def prepend (out : List Char) (count : Nat) (r : List Char × Nat) : List Char × Nat :=
  (out ++ r.1, count + r.2)

theorem prependTwice (first second : List Char) (m n : Nat) (r : List Char × Nat) :
    prepend first m (prepend second n r) = prepend (first ++ second) (m + n) r := by
  simp only [prepend, List.append_assoc, Nat.add_assoc]

theorem prependNothing (r : List Char × Nat) : prepend [] 0 r = r := by
  simp only [prepend, List.nil_append, Nat.zero_add]

abbrev Match := List Char → Option (List Char × List Char)

theorem matchwise (matched : Match)
    (shorter : ∀ {text out rest}, matched text = some (out, rest) → rest.length < text.length)
    {motive : List Char → Prop} (nil : motive [])
    (hit : ∀ text out rest, matched text = some (out, rest) → motive rest → motive text)
    (miss : ∀ c rest, matched (c :: rest) = none → motive rest → motive (c :: rest)) (text : List Char) :
    motive text := by
  induction size : text.length using Nat.strongRecOn generalizing text with
  | ind n ih =>
    cases text with
    | nil => exact nil
    | cons c rest =>
      cases found : matched (c :: rest) with
      | none => exact miss c rest found (ih _ (by rw [← size]; exact Nat.lt_succ_self _) rest rfl)
      | some taken => exact hit _ taken.1 taken.2 found (ih _ (by rw [← size]; exact shorter found) taken.2 rfl)

namespace Rule
variable {rule : Rule}

def at? (rule : Rule) : Match := fun text => do
  let (captured, rest) ← rule.pattern? text
  let out ← rule.rewrite captured
  some (out, rest)

theorem atSource {text out rest : List Char} : rule.at? text = some (out, rest) ↔
    ∃ captured, rule.pattern? text = some (captured, rest) ∧ rule.rewrite captured = some out := by
  simp only [at?, bind, Option.bind_eq_some_iff]
  constructor
  · rintro ⟨⟨captured, behind⟩, matched, written, rewritten, same⟩
    cases same
    exact ⟨captured, matched, rewritten⟩
  · rintro ⟨captured, matched, rewritten⟩
    exact ⟨(captured, rest), matched, out, rewritten, rfl⟩

theorem shorter (rule : Rule) {text out rest : List Char} (found : rule.at? text = some (out, rest)) :
    rest.length < text.length := by
  obtain ⟨_, matched, _⟩ := atSource.mp found
  exact rule.patternShorter matched

section Steps
variable {written : List Char} {count : Nat}

theorem passNext {c : Char} {rest : List Char} (missed : rule.pattern? (c :: rest) = none) :
    rule.pass written count (c :: rest) = rule.pass (c :: written) count rest := by
  rw [pass]
  split
  · rename_i some
    cases missed.symm.trans some
  · rfl

theorem passMatch {taken rest : List Char} {captured : rule.Captured}
    (matched : rule.pattern? (taken ++ rest) = some (captured, rest)) :
    rule.pass written count (taken ++ rest) =
      rule.pass ((rule.replacement captured taken).1.reverseAux written)
        (count + (rule.replacement captured taken).2) rest := by
  have whole : (taken ++ rest).take ((taken ++ rest).length - rest.length) = taken := by simp
  cases source : taken ++ rest with
  | nil =>
    rw [source] at matched
    exact absurd (rule.patternShorter matched) (Nat.not_lt_zero _)
  | cons c tail =>
    rw [source] at matched whole
    rw [pass]
    split
    · rename_i other after same
      cases matched.symm.trans same
      rw [whole]
    · rename_i none
      cases matched.symm.trans none

theorem passHit {text out rest : List Char} (found : rule.at? text = some (out, rest)) :
    rule.pass written count text = rule.pass (out.reverseAux written) (count + 1) rest := by
  obtain ⟨captured, matched, rewritten⟩ := atSource.mp found
  obtain ⟨taken, rfl, _⟩ := rule.dotted matched
  rw [passMatch matched, replacement, rewritten]

theorem passPlain {plain : List Char} (dotless : '.' ∉ plain) (rest : List Char) :
    rule.pass written count (plain ++ rest) = rule.pass (plain.reverseAux written) count rest := by
  induction plain generalizing written with
  | nil => rfl
  | cons c plain ih =>
    obtain ⟨other, dotless⟩ := not_or.mp (List.mem_cons.not.mp dotless)
    have missed : rule.pattern? (c :: (plain ++ rest)) = none := by
      refine Option.eq_none_iff_forall_ne_some.mpr fun found matched => ?_
      obtain ⟨_, source, _, rfl, _⟩ := rule.dotted matched
      exact other (List.cons.inj source).1.symm
    rw [List.cons_append, passNext missed, ih dotless]
    rfl

/- A match that is refused is copied as a whole. Behind its dot it could be copied character by character
as well, since no match starts there. -/
theorem passMiss {c : Char} {rest : List Char} (missed : rule.at? (c :: rest) = none) :
    rule.pass written count (c :: rest) = rule.pass (c :: written) count rest := by
  cases matched : rule.pattern? (c :: rest) with
  | none => exact passNext matched
  | some found =>
    obtain ⟨captured, after⟩ := found
    have refused : rule.rewrite captured = none := by
      refine Option.eq_none_iff_forall_ne_some.mpr fun out rewritten => ?_
      cases missed.symm.trans (atSource.mpr ⟨captured, matched, rewritten⟩)
    obtain ⟨_, source, tail, rfl, dotless⟩ := rule.dotted matched
    rw [source] at matched
    obtain ⟨rfl, rfl⟩ := List.cons.inj source
    calc rule.pass written count ('.' :: (tail ++ after))
        = rule.pass (('.' :: tail).reverseAux written) count after := by
          rw [← List.cons_append, passMatch matched, replacement, refused, Nat.add_zero]
      _ = rule.pass ('.' :: written) count (tail ++ after) := (passPlain dotless after).symm

end Steps

def run (rule : Rule) (text : List Char) : List Char × Nat := rule.pass [] 0 text

theorem passRun (written : List Char) (count : Nat) (text : List Char) :
    rule.pass written count text = prepend written.reverse count (rule.run text) := by
  induction text using matchwise rule.at? rule.shorter generalizing written count with
  | nil => simp [run, pass, prepend]
  | hit text out rest found ih =>
    rw [run, passHit found, passHit found, ih, ih, prependTwice]
    simp [List.reverseAux_eq]
  | miss c rest missed ih =>
    rw [run, passMiss missed, passMiss missed, ih, ih, prependTwice]
    simp

theorem runNil : rule.run [] = ([], 0) := by simp [run, pass]

theorem runHit {text out rest : List Char} (found : rule.at? text = some (out, rest)) :
    rule.run text = prepend out 1 (rule.run rest) := by
  rw [run, passHit found, passRun]
  simp [List.reverseAux_eq]

theorem runMiss {c : Char} {rest : List Char} (missed : rule.at? (c :: rest) = none) :
    rule.run (c :: rest) = prepend [c] 0 (rule.run rest) := by
  rw [run, passMiss missed, passRun]
  rfl

end Rule

def runAll (listed : List Rule) (text : List Char) : List Char × Nat :=
  listed.foldl (fun r rule => rule.pass [] r.2 r.1) (text, 0)

theorem foldlRunAll (listed : List Rule) (text : List Char) (count : Nat) :
    listed.foldl (fun r rule => rule.pass [] r.2 r.1) (text, count) =
      prepend [] count (runAll listed text) := by
  induction listed generalizing text count with
  | nil => rfl
  | cons rule others ih =>
    have step (n : Nat) : rule.pass [] n text = ((rule.run text).1, n + (rule.run text).2) := rule.passRun [] n text
    rw [runAll, List.foldl_cons, List.foldl_cons, step, step, ih, ih, prependTwice, Nat.zero_add,
      List.append_nil]

theorem runAllCons (rule : Rule) (others : List Rule) (text : List Char) :
    runAll (rule :: others) text = prepend [] (rule.run text).2 (runAll others (rule.run text).1) :=
  foldlRunAll others (rule.run text).1 (rule.run text).2

def firstOf (listed : List Rule) : Match := fun text => listed.findSome? (·.at? text)

theorem firstOfCons (rule : Rule) (others : List Rule) (text : List Char) :
    firstOf (rule :: others) text = (rule.at? text).or (firstOf others text) := by
  rw [firstOf, List.findSome?_cons]
  cases rule.at? text <;> rfl

section Front

def front (text : List Char) : List Char := text.takeWhile (· != '.')

theorem frontAppend {plain : List Char} (dotless : '.' ∉ plain) (rest : List Char) :
    front (plain ++ rest) = plain ++ front rest := by
  refine List.takeWhile_append_of_pos ?_
  rintro c member
  exact bne_iff_ne.mpr fun same => dotless (same ▸ member)

theorem frontOther {c : Char} (other : c ≠ '.') (rest : List Char) : front (c :: rest) = c :: front rest :=
  frontAppend (fun member => other (List.mem_singleton.mp member).symm) rest

theorem frontStop (text rest : List Char) : front (text ++ '.' :: rest) = front text := by
  induction text with
  | nil => rfl
  | cons c text ih =>
    by_cases dot : c = '.'
    · subst dot
      rfl
    · rw [List.cons_append, frontOther dot, frontOther dot, ih]

theorem frontSplit {plain rest other : List Char} (dotless : '.' ∉ plain)
    (same : front other = front (plain ++ rest)) :
    ∃ left, other = plain ++ left ∧ front left = front rest := by
  induction plain generalizing other with
  | nil => exact ⟨other, rfl, same⟩
  | cons c plain ih =>
    obtain ⟨notDot, dotlessTail⟩ := not_or.mp (List.mem_cons.not.mp dotless)
    rw [List.cons_append, frontOther (Ne.symm notDot)] at same
    cases other with
    | nil => cases same
    | cons d other =>
      by_cases dot : d = '.'
      · subst dot
        cases same
      · rw [frontOther dot] at same
        obtain ⟨rfl, tails⟩ := List.cons.inj same
        obtain ⟨left, rfl, fronts⟩ := ih dotlessTail tails
        exact ⟨left, rfl, fronts⟩

end Front

/- A match goes from a dot to some place before the next one, and so does what is written for it. What
stands behind that dot is not looked at. -/
structure Local (matched : Match) : Prop where
  dotted : ∀ {text out rest}, matched text = some (out, rest) →
    ∃ taken written, text = '.' :: (taken ++ rest) ∧ '.' ∉ taken ∧ out = '.' :: written ∧ '.' ∉ written
  near : ∀ {taken out rest other}, matched ('.' :: (taken ++ rest)) = some (out, rest) →
    front other = front rest → matched ('.' :: (taken ++ other)) = some (out, other)

namespace Local
variable {matched : Match}

theorem shorter (isLocal : Local matched) {text out rest : List Char} (found : matched text = some (out, rest)) :
    rest.length < text.length := by
  obtain ⟨taken, _, rfl, _⟩ := isLocal.dotted found
  simp only [List.length_cons, List.length_append]
  omega

theorem missesOther (isLocal : Local matched) {c : Char} (other : c ≠ '.') (rest : List Char) :
    matched (c :: rest) = none := by
  cases found : matched (c :: rest) with
  | none => rfl
  | some hit =>
    obtain ⟨out, left⟩ := hit
    obtain ⟨taken, written, source, _⟩ := isLocal.dotted found
    exact absurd (List.cons.inj source).1 other

theorem missesNear (isLocal : Local matched) {text other : List Char} (fronts : front other = front text)
    (missed : matched ('.' :: text) = none) : matched ('.' :: other) = none := by
  cases found : matched ('.' :: other) with
  | none => rfl
  | some hit =>
    obtain ⟨out, rest⟩ := hit
    obtain ⟨taken, written, source, dotless, _⟩ := isLocal.dotted found
    cases source
    obtain ⟨left, rfl, same⟩ := frontSplit dotless fronts.symm
    cases missed.symm.trans (isLocal.near found same)

theorem nothing : Local fun _ => none := by
  constructor
  · intro text out rest found
    cases found
  · intro taken out rest other found
    cases found

theorem or {first second : Match} (isFirst : Local first) (isSecond : Local second) :
    Local fun text => (first text).or (second text) := by
  constructor
  · intro text out rest found
    rcases Option.or_eq_some_iff.mp found with hit | ⟨_, hit⟩
    · exact isFirst.dotted hit
    · exact isSecond.dotted hit
  · intro taken out rest other found fronts
    rcases Option.or_eq_some_iff.mp found with hit | ⟨missed, hit⟩
    · exact Option.or_eq_some_iff.mpr (.inl (isFirst.near hit fronts))
    · obtain ⟨same, _, source, dotless, _⟩ := isSecond.dotted hit
      have inner : taken = same := List.append_cancel_right (List.cons.inj source).2
      subst inner
      have still : front (taken ++ other) = front (taken ++ rest) := by
        rw [frontAppend dotless, frontAppend dotless, fronts]
      exact Option.or_eq_some_iff.mpr (.inr ⟨isFirst.missesNear still missed, isSecond.near hit fronts⟩)

theorem firstOf {listed : List Rule} (each : ∀ rule ∈ listed, Local rule.at?) :
    Local (firstOf listed) := by
  induction listed with
  | nil => exact nothing
  | cons rule others ih =>
    obtain ⟨first, each⟩ := List.forall_mem_cons.mp each
    rw [funext (firstOfCons rule others)]
    exact first.or (ih each)

end Local

theorem Rule.frontRun {rule : Rule} (isLocal : Local rule.at?) (text : List Char) :
    front (rule.run text).1 = front text := by
  induction text with
  | nil => rw [runNil]
  | cons c rest ih =>
    cases found : rule.at? (c :: rest) with
    | none =>
      rw [runMiss found]
      by_cases dot : c = '.'
      · subst dot
        rfl
      · rw [frontOther dot, ← ih]
        exact frontOther dot _
    | some hit =>
      obtain ⟨out, left⟩ := hit
      obtain ⟨taken, written, source, _, rfl, _⟩ := isLocal.dotted found
      rw [runHit found, source]
      rfl

section Together
variable {listed : List Rule}

def Apart (listed : List Rule) : Prop :=
  ∀ rule ∈ listed, ∀ other ∈ listed, ∀ {text out rest}, other.at? text = some (out, rest) →
    ∀ behind, rule.at? (out ++ behind) = none

theorem runAllMiss (each : ∀ rule ∈ listed, Local rule.at?) {c : Char} {rest : List Char}
    (missed : firstOf listed (c :: rest) = none) :
    runAll listed (c :: rest) = prepend [c] 0 (runAll listed rest) := by
  induction listed generalizing rest with
  | nil => rfl
  | cons rule others ih =>
    obtain ⟨first, each⟩ := List.forall_mem_cons.mp each
    rw [firstOfCons, Option.or_eq_none_iff] at missed
    have still : firstOf others (c :: (rule.run rest).1) = none := by
      by_cases dot : c = '.'
      · subst dot
        exact (Local.firstOf each).missesNear (Rule.frontRun first rest) missed.2
      · exact (Local.firstOf each).missesOther dot _
    have step : runAll (rule :: others) (c :: rest) = prepend [] (0 + (rule.run rest).2)
        (runAll others (c :: (rule.run rest).1)) := by
      rw [runAllCons, Rule.runMiss missed.1]
      rfl
    rw [step, ih each still, runAllCons, prependTwice, prependTwice, Nat.zero_add]
    rfl

theorem runAllPlain (each : ∀ rule ∈ listed, Local rule.at?) {plain : List Char} (dotless : '.' ∉ plain)
    (rest : List Char) : runAll listed (plain ++ rest) = prepend plain 0 (runAll listed rest) := by
  induction plain with
  | nil => exact (prependNothing _).symm
  | cons c plain ih =>
    obtain ⟨other, dotless⟩ := not_or.mp (List.mem_cons.not.mp dotless)
    rw [List.cons_append, runAllMiss each ((Local.firstOf each).missesOther (Ne.symm other) _), ih dotless,
      prependTwice]
    rfl

theorem Rule.runPlain {rule : Rule} (isLocal : Local rule.at?) {plain : List Char} (dotless : '.' ∉ plain)
    (rest : List Char) : rule.run (plain ++ rest) = prepend plain 0 (rule.run rest) := by
  have alone : runAll [rule] = rule.run := rfl
  exact alone ▸ runAllPlain (List.forall_mem_singleton.mpr isLocal) dotless rest

theorem runAllHit (each : ∀ rule ∈ listed, Local rule.at?) (apart : Apart listed)
    {text out rest : List Char} (found : firstOf listed text = some (out, rest)) :
    runAll listed text = prepend out 1 (runAll listed rest) := by
  induction listed generalizing text rest with
  | nil => cases found
  | cons rule others ih =>
    obtain ⟨first, each⟩ := List.forall_mem_cons.mp each
    have apartOthers : Apart others := fun one isOne other isOther _ _ _ hit =>
      apart one (List.mem_cons_of_mem _ isOne) other (List.mem_cons_of_mem _ isOther) hit
    rw [firstOfCons, Option.or_eq_some_iff] at found
    rcases found with hit | ⟨missed, hit⟩
    · -- the others copy what this rule has written
      obtain ⟨_, written, _, _, rfl, dotless⟩ := first.dotted hit
      have quiet : firstOf others ('.' :: (written ++ (rule.run rest).1)) = none := by
        refine List.findSome?_eq_none_iff.mpr fun other member => ?_
        exact apart other (List.mem_cons_of_mem _ member) rule List.mem_cons_self hit _
      have copied : runAll others ('.' :: (written ++ (rule.run rest).1)) =
          prepend ('.' :: written) 0 (runAll others (rule.run rest).1) := by
        rw [runAllMiss each quiet, runAllPlain each dotless, prependTwice]
        rfl
      have step : runAll (rule :: others) text = prepend [] (1 + (rule.run rest).2)
          (runAll others ('.' :: (written ++ (rule.run rest).1))) := by
        rw [runAllCons, Rule.runHit hit]
        rfl
      rw [step, copied, runAllCons, prependTwice, prependTwice, List.append_nil]
      rfl
    · -- this rule copies what another one takes
      obtain ⟨taken, _, rfl, dotless, _⟩ := (Local.firstOf each).dotted hit
      have copied : rule.run ('.' :: (taken ++ rest)) = prepend ('.' :: taken) 0 (rule.run rest) := by
        rw [Rule.runMiss missed, Rule.runPlain first dotless, prependTwice]
        rfl
      have still : firstOf others ('.' :: (taken ++ (rule.run rest).1)) = some (out, (rule.run rest).1) :=
        (Local.firstOf each).near hit (Rule.frontRun first rest)
      have step : runAll (rule :: others) ('.' :: (taken ++ rest)) = prepend [] (0 + (rule.run rest).2)
          (runAll others ('.' :: (taken ++ (rule.run rest).1))) := by
        rw [runAllCons, copied]
        rfl
      rw [step, ih each apartOthers still, runAllCons, prependTwice, prependTwice]
      simp [Nat.add_comm]

theorem runAllNil : runAll listed [] = ([], 0) := by
  induction listed with
  | nil => rfl
  | cons rule others ih =>
    rw [runAllCons, Rule.runNil, ih]
    rfl

theorem runAllCut (each : ∀ rule ∈ listed, Local rule.at?) (apart : Apart listed)
    (before rest : List Char) :
    runAll listed (before ++ '.' :: rest) =
      prepend (runAll listed before).1 (runAll listed before).2 (runAll listed ('.' :: rest)) := by
  have all := Local.firstOf each
  induction before using matchwise (firstOf listed) all.shorter with
  | nil => rw [runAllNil, prependNothing, List.nil_append]
  | hit before out left found ih =>
    obtain ⟨taken, _, rfl, _⟩ := all.dotted found
    have still : firstOf listed ('.' :: (taken ++ (left ++ '.' :: rest))) = some (out, left ++ '.' :: rest) :=
      all.near found (frontStop left rest)
    rw [List.cons_append, List.append_assoc, runAllHit each apart still, runAllHit each apart found, ih, prependTwice]
    rfl
  | miss c before missed ih =>
    have still : firstOf listed (c :: (before ++ '.' :: rest)) = none := by
      by_cases dot : c = '.'
      · subst dot
        exact all.missesNear (frontStop before rest) missed
      · exact all.missesOther dot _
    rw [List.cons_append, runAllMiss each still, runAllMiss each missed, ih, prependTwice]
    rfl

end Together

end ScriptBundle.Downlevel
