import Mathlib.Algebra.GroupWithZero.Nat
import ScriptBundle.Artifact
import ScriptBundle.Proofs.Settled

/-! Lowering an artifact piece by piece. Every unit comes behind a banner, and a banner opens with a line
feed and a slash. A header holds no slash and does not end in a blank, so it never reaches into a banner,
whatever the text before it has left open. In every pass each piece is then lowered as if it stood alone. -/
namespace ScriptBundle
namespace Downlevel
open Text

section Walls

def Walled (text : List Char) : Prop := ∃ gap rest, IsGap gap ∧ text = gap ++ '/' :: rest

theorem walledAppend {text : List Char} (walled : Walled text) (more : List Char) : Walled (text ++ more) := by
  obtain ⟨gap, rest, blank, rfl⟩ := walled
  exact ⟨gap, rest ++ more, blank, List.append_assoc ..⟩

theorem walledReach {text more rest : List Char} (walled : Walled text) (source : text = more ++ rest)
    (slashless : '/' ∉ more) : IsGap more := by
  obtain ⟨gap, beyond, blank, rfl⟩ := walled
  rcases List.append_eq_append_iff.mp source with ⟨passed, rfl, wall⟩ | ⟨left, rfl, _⟩
  · cases passed with
    | nil => simpa using blank
    | cons c passed =>
      cases wall
      exact absurd (by simp) slashless
  · exact fun c member => blank c (List.mem_append_left left member)

theorem slashForeign : Foreign '/' := ⟨by decide, by decide, by decide⟩

theorem headerSlashless {callback : Callback} {taken : List Char} (header : Header callback taken) :
    '/' ∉ taken := by
  obtain ⟨tail, rfl, plain⟩ := spelledPlain slashForeign header
  have call : '/' ∉ filterCall ∧ '/' ∉ mapCall ∧ '/' ∉ forEachCall := by decide
  refine List.not_mem_append ?_ plain
  cases callback with
  | filter => exact call.1
  | map => exact call.2.1
  | forEach => exact call.2.2

theorem matchesSlashless {pattern : Pattern} {taken : List Char} (matched : pattern.Matches taken) :
    '/' ∉ taken := by
  cases matched with
  | filterSingle spelled | mapPair spelled | forEachPair spelled => exact headerSlashless spelled
  | mapReturn spelled returns =>
    exact List.not_mem_append (headerSlashless spelled) (returnsPlain slashForeign returns)

theorem headerLast {callback : Callback} {taken : List Char} (header : Header callback taken) :
    taken.getLast? = some '{' := by
  cases header with
  | mk => exact List.getLast?_concat

theorem matchesLast {pattern : Pattern} {taken : List Char} (matched : pattern.Matches taken) :
    ∃ last, taken.getLast? = some last ∧ isBlank last = false := by
  cases matched with
  | filterSingle spelled | mapPair spelled | forEachPair spelled => exact ⟨'{', headerLast spelled, by decide⟩
  | mapReturn spelled returns =>
    cases returns with
    | mk =>
      have closing : "\x7d)".toList.getLast? = some ')' := by decide
      exact ⟨')', by rw [List.getLast?_append, List.getLast?_append, closing]; rfl, by decide⟩

theorem matchStops {pattern : Pattern} {taken rest before behind : List Char} (matched : pattern.Matches taken)
    (walled : Walled behind) (same : before ++ behind = taken ++ rest) :
    ∃ left, before = taken ++ left ∧ rest = left ++ behind := by
  rcases List.append_eq_append_iff.mp same with ⟨more, source, reached⟩ | inside
  · have slashless : '/' ∉ more := fun member =>
      matchesSlashless matched (source ▸ List.mem_append_right before member)
    have blank : IsGap more := walledReach walled reached slashless
    obtain ⟨last, ends, solid⟩ := matchesLast matched
    cases final : more.getLast? with
    | none =>
      rw [List.getLast?_eq_none_iff.mp final, List.append_nil] at source
      rw [List.getLast?_eq_none_iff.mp final, List.nil_append] at reached
      exact ⟨[], by rw [source, List.append_nil], reached.symm⟩
    | some c =>
      rw [source, List.getLast?_append, final] at ends
      cases ends
      exact absurd (blank last (List.mem_of_getLast? final)) (by simp [solid])
  · exact inside

theorem matchAside {pattern : Pattern} {taken left right before behind : List Char}
    (matched : pattern.Matches taken) (walled : Walled behind) (same : before ++ behind = left ++ taken ++ right) :
    left.length + taken.length ≤ before.length ∨ before.length ≤ left.length := by
  rw [List.append_assoc] at same
  rcases List.append_eq_append_iff.mp same with ⟨more, rfl, _⟩ | ⟨middle, rfl, reached⟩
  · exact .inr (by simp)
  · obtain ⟨rest, rfl, _⟩ := matchStops matched walled reached.symm
    exact .inl (by simp)

end Walls

section Passes
variable {rule : Rule} {listed : List Rule}

theorem runSplits (member : rule ∈ rules) {behind : List Char} (walled : Walled behind) (before : List Char) :
    rule.run (before ++ behind) = prepend (rule.run before).1 (rule.run before).2 (rule.run behind) := by
  induction before using matchwise rule.at? rule.shorter with
  | nil => rw [Rule.runNil, prependNothing, List.nil_append]
  | hit before out left found ih =>
    obtain ⟨taken, _, source, still⟩ := rulesTake member found
    rw [Rule.runHit found, source, List.append_assoc, Rule.runHit (still _), ih, prependTwice]
    rfl
  | miss c before missed ih =>
    have again : rule.at? (c :: (before ++ behind)) = none := by
      refine Option.eq_none_iff_forall_ne_some.mpr fun hit found => ?_
      obtain ⟨out, rest⟩ := hit
      obtain ⟨taken, rewrites, source, still⟩ := rulesTake member found
      obtain ⟨pattern, matched⟩ := rewritesMatch rewrites
      rw [← List.cons_append] at source
      obtain ⟨left, whole, _⟩ := matchStops matched walled source
      cases missed.symm.trans (whole ▸ still left)
    rw [List.cons_append, Rule.runMiss again, Rule.runMiss missed, ih, prependTwice]
    rfl

theorem runWalled (member : rule ∈ rules) {text : List Char} (walled : Walled text) : Walled (rule.run text).1 := by
  obtain ⟨gap, rest, blank, rfl⟩ := walled
  have dotless : '.' ∉ gap ++ ['/'] := List.not_mem_append (gapPlain dotForeign blank) (by decide)
  have wall : gap ++ '/' :: rest = gap ++ ['/'] ++ rest := by simp
  rw [wall, Rule.runPlain (rulesLocal rule member) dotless]
  exact ⟨gap, (rule.run rest).1, blank, by simp [prepend]⟩

theorem runAllWalled (each : ∀ rule ∈ listed, rule ∈ rules) {text : List Char} (walled : Walled text) :
    Walled (runAll listed text).1 := by
  induction listed generalizing text with
  | nil => exact walled
  | cons rule others ih =>
    obtain ⟨first, each⟩ := List.forall_mem_cons.mp each
    rw [runAllCons]
    exact ih each (runWalled first walled)

theorem runAllSplits (each : ∀ rule ∈ listed, rule ∈ rules) (before : List Char) {behind : List Char}
    (walled : Walled behind) : runAll listed (before ++ behind) =
      prepend (runAll listed before).1 (runAll listed before).2 (runAll listed behind) := by
  induction listed generalizing before behind with
  | nil => rfl
  | cons rule others ih =>
    obtain ⟨first, each⟩ := List.forall_mem_cons.mp each
    have step : (rule.run (before ++ behind)).1 = (rule.run before).1 ++ (rule.run behind).1 ∧
        (rule.run (before ++ behind)).2 = (rule.run before).2 + (rule.run behind).2 := by
      rw [runSplits first walled]
      exact ⟨rfl, rfl⟩
    rw [runAllCons, runAllCons, runAllCons, step.1, step.2, ih each _ (runWalled first walled), prependTwice,
      prependTwice]
    simp only [prepend, List.nil_append, List.append_nil, Nat.add_assoc, Nat.add_left_comm]

end Passes

section Texts
variable {listed : List Rule}

def passes (listed : List Rule) (text : String) : Lowered :=
  ⟨String.ofList (runAll listed text.toList).1, (runAll listed text.toList).2⟩

def Lowered.followed (first second : Lowered) : Lowered :=
  ⟨first.text ++ second.text, first.count + second.count⟩

theorem passesSplit (each : ∀ rule ∈ listed, rule ∈ rules) (before : String) {behind : String}
    (walled : Walled behind.toList) :
    passes listed (before ++ behind) = (passes listed before).followed (passes listed behind) := by
  simp only [passes, String.toList_append, runAllSplits each _ walled, Lowered.followed, prepend, String.ofList_append]

theorem passesWalled (each : ∀ rule ∈ listed, rule ∈ rules) {text : String} (walled : Walled text.toList) :
    Walled (passes listed text).text.toList := by
  rw [passes, String.toList_ofList]
  exact runAllWalled each walled

theorem passesPieces (each : ∀ rule ∈ listed, rule ∈ rules) (first : String) {pieces : List String}
    (walled : ∀ piece ∈ pieces, Walled piece.toList) :
    passes listed (first ++ String.join pieces) = (passes listed first).followed
      ⟨String.join (pieces.map fun piece => (passes listed piece).text),
        (pieces.map fun piece => (passes listed piece).count).sum⟩ := by
  induction pieces generalizing first with
  | nil => simp [Lowered.followed]
  | cons piece pieces ih =>
    obtain ⟨wall, walls⟩ := List.forall_mem_cons.mp walled
    have opens : Walled (piece ++ String.join pieces).toList := by
      rw [String.toList_append]
      exact walledAppend wall _
    rw [String.join_cons, passesSplit each first opens, ih piece walls, List.map_cons, List.map_cons,
      String.join_cons, List.sum_cons]
    rfl

end Texts
end Downlevel

namespace SourceUnit
open Downlevel

theorem renderWalled (unit : SourceUnit) : Walled unit.render.toList := by
  refine ⟨['\n'], (unit.render.toList).drop 2, List.forall_mem_singleton.mpr rfl, ?_⟩
  simp [render, bannerLines, String.join_cons]

end SourceUnit

namespace Artifact
open Downlevel

theorem plainLowered (info : BuildInfo) (units : List SourceUnit) :
    applyAll [lower] (plainText info units) = (lower info.header).followed
      ⟨String.join (units.map fun unit => (lower unit.render).text),
        (units.map fun unit => (lower unit.render).count).sum⟩ := by
  have walled : ∀ piece ∈ units.map SourceUnit.render, Walled piece.toList :=
    List.forall_mem_map.mpr fun unit _ => unit.renderWalled
  have pieces := passesPieces (fun _ member => member) info.header walled
  rw [List.map_map, List.map_map] at pieces
  rw [applyAllOne]
  exact pieces

/- Besides the whole artifact: after any number of passes it is what these passes make of the part up to
some unit, followed by what they make of the rest, and no pattern is found across the place between. -/
theorem lowersPieceByPiece (output : String) (info : BuildInfo) :
    (∀ units, (compose output true info units).text = (lower info.header).text ++
        String.join (units.map fun unit => (lower unit.render).text) ∧
      (compose output true info units).lowered = (lower info.header).count +
        (units.map fun unit => (lower unit.render).count).sum) ∧
    ∀ done before unit after,
      let first := passes (rules.take done) (plainText info before)
      let second := passes (rules.take done) (String.join ((unit :: after).map SourceUnit.render))
      passes (rules.take done) (plainText info (before ++ unit :: after)) =
        ⟨first.text ++ second.text, first.count + second.count⟩ ∧
      ∀ (pattern : Pattern) left taken right, pattern.Matches taken →
        (first.text ++ second.text).toList = left ++ taken ++ right →
          left.length + taken.length ≤ first.text.toList.length ∨ first.text.toList.length ≤ left.length := by
  constructor
  · intro units
    exact ⟨congrArg Lowered.text (plainLowered info units), congrArg Lowered.count (plainLowered info units)⟩
  · intro done before unit after first second
    have each : ∀ rule ∈ rules.take done, rule ∈ rules := fun _ => List.mem_of_mem_take
    have walled : Walled (String.join ((unit :: after).map SourceUnit.render)).toList := by
      rw [List.map_cons, String.join_cons, String.toList_append]
      exact walledAppend unit.renderWalled _
    constructor
    · rw [plainText, List.map_append, String.join_append, ← String.append_assoc]
      exact passesSplit each (plainText info before) walled
    · intro pattern left taken right matched same
      rw [String.toList_append] at same
      exact matchAside matched (passesWalled each walled) same

end Artifact
end ScriptBundle
