import ScriptBundle.Proofs.Build
import ScriptBundle.Proofs.Template

/-! What the report of a build tells of the listed modules. The outcomes are told from the units that were found:
going through the list, the next unit is taken when its ordinal comes up. No unit is passed by and none is taken
in another's place, so every entry of the list has the outcome of its own reading. The outcomes of the modules that
were there are the units of the artifact, and every other outcome has one warning. Names may repeat, so entries are
told apart by their place alone. -/
namespace ScriptBundle

namespace Reading

def outcome : Reading → ModuleOutcome
  | .found unit => .included unit.name unit.size
  | .missing name | .unreadable name _ => .skipped name

def known (content : String → Option String) (entry : String × Nat) : Reading :=
  match content entry.1 with
  | some text => .found ⟨entry.1, entry.2, text⟩
  | none => .missing entry.1

end Reading

namespace ModuleOutcome

def name : ModuleOutcome → String
  | included name _ => name
  | skipped name => name

def expected (content : String → Option String) (name : String) : ModuleOutcome :=
  match content name with
  | some text => .included name text.utf8ByteSize
  | none => .skipped name

def unit? (ordinal : Nat) : ModuleOutcome → Option IncludedUnit
  | included name bytes => some ⟨name, ordinal, bytes⟩
  | skipped _ => none

theorem expectedName (content : String → Option String) (name : String) :
    (expected content name).name = name := by
  unfold expected
  cases content name <;> rfl

theorem outcomeKnown (content : String → Option String) (entry : String × Nat) :
    (Reading.known content entry).outcome = expected content entry.1 := by
  unfold Reading.known expected
  cases content entry.1 <;> rfl

theorem skippedKnown (content : String → Option String) (entry : String × Nat) :
    (Reading.known content entry).missing? = (expected content entry.1).skipped? := by
  unfold Reading.known expected
  cases content entry.1 <;> rfl

theorem unitKnown (content : String → Option String) (entry : String × Nat) :
    (Reading.known content entry).unit?.map (fun unit => ⟨unit.name, unit.ordinal, unit.size⟩) =
      (expected content entry.1).unit? entry.2 := by
  unfold Reading.known expected
  cases content entry.1 <;> rfl

section Waiting
variable {σ : Type} [Storage σ] (s : σ)

theorem takeLater {ordinal : Nat} {waiting : List SourceUnit} (later : ∀ unit ∈ waiting, ordinal < unit.ordinal) :
    takeUnit ordinal waiting = (none, waiting) := by
  cases waiting with
  | nil => rfl
  | cons unit waiting => exact if_neg (Nat.ne_of_gt (later unit List.mem_cons_self))

theorem takeNow (unit : SourceUnit) (waiting : List SourceUnit) :
    takeUnit unit.ordinal (unit :: waiting) = (some unit, waiting) := if_pos rfl

def unitsFrom (ordinal : Nat) (modules : List String) : List SourceUnit :=
  (modules.zipIdx ordinal).filterMap fun entry => (Reading.of s entry.1 entry.2).unit?

theorem readingCases (name : String) (ordinal : Nat) :
    (∃ text, Reading.of s name ordinal = .found ⟨name, ordinal, text⟩) ∨
      (Reading.of s name ordinal).unit? = none ∧ (Reading.of s name ordinal).outcome = .skipped name := by
  unfold Reading.of
  split
  · exact .inl ⟨_, rfl⟩
  · exact .inr ⟨rfl, rfl⟩
  · exact .inr ⟨rfl, rfl⟩

theorem unitsFromLater {ordinal : Nat} {modules : List String} {unit : SourceUnit}
    (member : unit ∈ unitsFrom s ordinal modules) : ordinal ≤ unit.ordinal := by
  obtain ⟨⟨name, place⟩, inside, read⟩ := List.mem_filterMap.mp member
  rcases readingCases s name place with ⟨text, found⟩ | ⟨absent, _⟩
  · rw [found] at read
    cases read
    exact List.le_snd_of_mem_zipIdx inside
  · cases absent.symm.trans read

theorem readFrom (modules : List String) (ordinal : Nat) :
    ofModulesFrom ordinal modules (unitsFrom s ordinal modules) =
      (modules.zipIdx ordinal).map fun entry => (Reading.of s entry.1 entry.2).outcome := by
  -- whatever waits behind an entry belongs to a later ordinal, so it is its turn only when that comes up
  induction modules generalizing ordinal with
  | nil => rfl
  | cons name names ih =>
    have later : ∀ unit ∈ unitsFrom s (ordinal + 1) names, ordinal < unit.ordinal := fun unit => unitsFromLater s
    have units : unitsFrom s ordinal (name :: names) =
        (Reading.of s name ordinal).unit?.toList ++ unitsFrom s (ordinal + 1) names := by
      rw [unitsFrom, List.zipIdx_cons, List.filterMap_cons]
      cases (Reading.of s name ordinal).unit? <;> rfl
    rw [units, List.zipIdx_cons, List.map_cons, ← ih, ofModulesFrom]
    rcases readingCases s name ordinal with ⟨text, found⟩ | ⟨absent, outcome⟩
    · have taken := takeNow ⟨name, ordinal, text⟩ (unitsFrom s (ordinal + 1) names)
      simp only [found, Reading.unit?, Option.toList_some, List.singleton_append, taken]
      rfl
    · simp only [absent, outcome, Option.toList_none, List.nil_append, takeLater later]
      rfl

theorem readOutcomes (modules : List String) :
    ofModules modules (Resolution.of s modules).units = (Resolution.of s modules).readings.map Reading.outcome := by
  rw [Resolution.units, Resolution.readingsOf, List.filterMap_map, List.map_map]
  exact readFrom s modules 0

end Waiting
end ModuleOutcome

namespace Diagnostic

def notFound (name : String) : Diagnostic :=
  ⟨some name, none, "Module '" ++ name ++ "' was not found and will be skipped.", 1001, .warning, []⟩

theorem moduleMissing (name : String) : inFile name .moduleMissing [name] = notFound name := by
  have text := Template.fillOnce "Module '" "' was not found and will be skipped." (by decide) (by decide) name
  simp only [inFile, of, notFound]
  exact congrArg (fun message => Diagnostic.mk (some name) none message 1001 .warning []) text

theorem notFoundKnown (content : String → Option String) (entry : String × Nat) :
    (Reading.known content entry).diagnostic? =
      (ModuleOutcome.expected content entry.1).skipped?.map notFound := by
  unfold Reading.known ModuleOutcome.expected
  cases content entry.1 with
  | some text => rfl
  | none => exact congrArg some (moduleMissing entry.1)

end Diagnostic

namespace Resolution
open ModuleOutcome (expected)

theorem readingsKnown {m : FileMap} {modules : List String}
    (readable : ∀ name ∈ modules, m.faults.read.find? name = none) :
    (Resolution.of m modules).readings = modules.zipIdx.map (Reading.known m.content) := by
  rw [readingsOf]
  refine List.map_congr_left fun entry member => ?_
  rw [readingOf, FileMap.noFault.mpr (readable entry.1 (List.fst_mem_of_mem_zipIdx member)), Reading.known]
  cases m.content entry.1 <;> rfl

theorem outcomesKnown {m : FileMap} {modules : List String}
    (readable : ∀ name ∈ modules, m.faults.read.find? name = none) :
    ModuleOutcome.ofModules modules (Resolution.of m modules).units = modules.map (expected m.content) := by
  have each : Reading.outcome ∘ Reading.known m.content = expected m.content ∘ Prod.fst :=
    funext (ModuleOutcome.outcomeKnown m.content)
  rw [ModuleOutcome.readOutcomes, readingsKnown readable, List.map_map, each, ← List.map_map, List.zipIdx_map_fst]

theorem missingKnown {m : FileMap} {modules : List String}
    (readable : ∀ name ∈ modules, m.faults.read.find? name = none) :
    (Resolution.of m modules).missing = (modules.map (expected m.content)).filterMap ModuleOutcome.skipped? := by
  have each : Reading.missing? ∘ Reading.known m.content =
      (ModuleOutcome.skipped? ∘ expected m.content) ∘ Prod.fst :=
    funext (ModuleOutcome.skippedKnown m.content)
  rw [missing, readingsKnown readable, List.filterMap_map, each, ← List.filterMap_map, List.zipIdx_map_fst,
    List.filterMap_map]

theorem includedKnown {m : FileMap} {modules : List String}
    (readable : ∀ name ∈ modules, m.faults.read.find? name = none) :
    (Resolution.of m modules).units.map (fun unit => IncludedUnit.mk unit.name unit.ordinal unit.size) =
      (modules.map (expected m.content)).zipIdx.filterMap fun entry => entry.1.unit? entry.2 := by
  rw [units, readingsKnown readable, List.map_filterMap, List.filterMap_map, List.zipIdx_map, List.filterMap_map]
  exact List.filterMap_congr fun entry _ => ModuleOutcome.unitKnown m.content entry

theorem diagnosticsKnown {m : FileMap} {modules : List String}
    (readable : ∀ name ∈ modules, m.faults.read.find? name = none) :
    (Resolution.of m modules).diagnostics = (Resolution.of m modules).missing.map Diagnostic.notFound := by
  rw [diagnostics, missing, readingsKnown readable, List.map_filterMap, List.filterMap_map, List.filterMap_map]
  refine List.filterMap_congr fun entry _ => ?_
  simp only [Function.comp_apply, ModuleOutcome.skippedKnown, Diagnostic.notFoundKnown]

theorem ordinalsIncrease (outcomes : List ModuleOutcome) :
    ((outcomes.zipIdx.filterMap fun entry => entry.1.unit? entry.2).map IncludedUnit.ordinal).Pairwise (· < ·) := by
  have places : outcomes.zipIdx.Pairwise fun first second => first.2 < second.2 := by
    rw [← List.pairwise_map, List.zipIdx_map_snd]
    exact List.pairwise_lt_range'
  have placed (entry : ModuleOutcome × Nat) (unit : IncludedUnit) (taken : entry.1.unit? entry.2 = some unit) :
      unit.ordinal = entry.2 := by
    obtain ⟨outcome, ordinal⟩ := entry
    cases outcome with
    | included => cases taken; rfl
    | skipped => cases taken
  rw [List.pairwise_map, List.pairwise_filterMap]
  refine places.imp fun earlier unit taken next takenNext => ?_
  rw [placed _ unit taken, placed _ next takenNext]
  exact earlier

end Resolution

namespace Project

theorem finishedAccounts {p : Project FileMap} {options : BuildOptions} (readable : p.readFaults options = [])
    (date : String) :
    let modules := p.manifest.modulesFor options.includeTests
    let resolution := Resolution.of (p.afterClean options).storage modules
    let report := p.finished options date
    report.modules = modules.map (ModuleOutcome.expected (p.baseline options)) ∧
    report.artifact.units = report.modules.zipIdx.filterMap (fun entry => entry.1.unit? entry.2) ∧
    report.skipped = resolution.missing ∧
    report.diagnostics = resolution.missing.map Diagnostic.notFound := by
  intro modules resolution report
  have free : ∀ name ∈ modules, (p.afterClean options).storage.faults.read.find? name = none := by
    rw [(afterCleanKeeps p options).2]
    exact Resolution.faultyEmpty.mp readable
  have outcomes : report.modules = modules.map (ModuleOutcome.expected (p.baseline options)) := by
    rw [← afterCleanContent, ← Resolution.outcomesKnown free, afterCleanUnits readable]
    rfl
  refine ⟨outcomes, ?_, ?_, Resolution.diagnosticsKnown free⟩
  · rw [outcomes, ← afterCleanContent, ← Resolution.includedKnown free, afterCleanUnits readable]
    rfl
  · rw [BuildReport.skipped, outcomes, ← afterCleanContent]
    exact (Resolution.missingKnown free).symm

/- A module was there when it was read if the baseline, which is what cleaning leaves, has a text for it. -/
theorem accountsForEveryModule (p : Project FileMap) (options : BuildOptions) (date : String) (report : BuildReport)
    (built : (p.build options date).1 = .ok report) :
    let modules := p.manifest.modulesFor options.includeTests
    report.modules.map ModuleOutcome.name = modules ∧
    report.modules = modules.map (fun name =>
      match p.baseline options name with
      | some text => .included name text.utf8ByteSize
      | none => .skipped name) ∧
    report.artifact.units = report.modules.zipIdx.filterMap (fun entry => entry.1.unit? entry.2) ∧
    (report.artifact.units.map IncludedUnit.ordinal).Pairwise (· < ·) ∧
    report.skipped = (Resolution.of (p.afterClean options).storage modules).missing ∧
    report.diagnostics = report.skipped.map Diagnostic.notFound ∧
    Diagnostics.hasErrors report.diagnostics = false := by
  intro modules
  have run := p.buildRun options date
  generalize p.build options date = outcome at run built
  cases run with
  | uncleaned | unreadable | duplicated | unwritten => cases built
  | written _ readable =>
    cases built
    obtain ⟨outcomes, units, skipped, diagnostics⟩ := finishedAccounts readable date
    refine ⟨?_, outcomes, units, ?_, skipped, skipped ▸ diagnostics, ?_⟩
    · rw [outcomes, List.map_map]
      exact (List.map_congr_left fun name _ => ModuleOutcome.expectedName _ name).trans (List.map_id _)
    · rw [units]
      exact Resolution.ordinalsIncrease _
    · rw [diagnostics, Diagnostics.hasErrors, List.any_map, List.any_eq_false]
      exact fun name _ => by simp [Diagnostic.notFound, Diagnostic.isError]

theorem ledgerAccountsForEveryModule :
    let p : Project FileMap :=
      ⟨⟨"Ledger", "1.2.0", "Bundle.gs", ["Limits.gs", "Bundle.gs", "Limits.gs"], ["Limits.test.gs"],
        Table.empty, ["LIMIT"], []⟩,
       { files := ⟨[("Limits.gs", "// 5 €"), ("Bundle.gs", "")]⟩ }⟩
    ∃ report, (p.build { clean := true } "2024-05-01").1 = .ok report ∧
      report.modules = [.included "Limits.gs" 8, .skipped "Bundle.gs", .included "Limits.gs" 8,
        .skipped "Limits.test.gs"] ∧
      report.artifact.units = [⟨"Limits.gs", 0, 8⟩, ⟨"Limits.gs", 2, 8⟩] ∧
      report.skipped = ["Bundle.gs", "Limits.test.gs"] ∧
      report.diagnostics = [Diagnostic.notFound "Bundle.gs", Diagnostic.notFound "Limits.test.gs"] := by
  intro p
  have succeeds : (p.build { clean := true } "2024-05-01").1.isOk = true := by decide +kernel
  cases built : (p.build { clean := true } "2024-05-01").1 with
  | error fault => simp [built, Except.isOk, Except.toBool] at succeeds
  | ok report =>
    obtain ⟨_, outcomes, units, _, _, diagnostics, _⟩ := accountsForEveryModule p _ _ report built
    have modules : report.modules = [.included "Limits.gs" 8, .skipped "Bundle.gs", .included "Limits.gs" 8,
        .skipped "Limits.test.gs"] := outcomes.trans (by decide)
    have skipped : report.skipped = ["Bundle.gs", "Limits.test.gs"] := by
      rw [BuildReport.skipped, modules]
      rfl
    refine ⟨report, rfl, modules, ?_, skipped, ?_⟩
    · rw [units, modules]
      rfl
    · rw [diagnostics, skipped]
      rfl

end Project
end ScriptBundle
