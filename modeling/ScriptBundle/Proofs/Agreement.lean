import ScriptBundle.Proofs.Build

/-! The duplicate check on its own, against the check that a build makes on its way. Both look at the same
declarations if the build takes all modules and removes nothing first. Any other build reads fewer of
them, since it leaves out the test modules or has removed a module under the name of its output, so what
passes the check passes every build. -/
namespace ScriptBundle.Project

section Units
variable (p : Project FileMap) (options : BuildOptions)

def allUnits : List SourceUnit := SourceUnit.present p.storage.content p.manifest.allModules

theorem baselineKeeps (name text : String) (found : p.baseline options name = some text) :
    p.storage.content name = some text := by
  unfold baseline at found
  split at found
  · rw [Function.update_apply] at found
    split at found
    · cases found
    · exact found
  · exact found

theorem baselineOther {name : String} (other : options.clean = true → name ≠ p.manifest.output) :
    p.baseline options name = p.storage.content name := by
  unfold baseline
  split
  · rename_i cleaning
    exact Function.update_of_ne (other cleaning) _ _
  · rfl

theorem buildUnitsFewer : (p.buildUnits options).Sublist p.allUnits := by
  obtain ⟨others, all⟩ := Manifest.modulesForBegin p.manifest options.includeTests
  rw [allUnits, ← all]
  exact (SourceUnit.presentFewer (p.baselineKeeps options) _).trans
    (SourceUnit.presentBegins _ _ others).sublist

theorem buildUnitsBegin
    (apart : options.clean = true → p.manifest.output ∉ p.manifest.modulesFor options.includeTests) :
    p.buildUnits options <+: p.allUnits := by
  obtain ⟨others, all⟩ := Manifest.modulesForBegin p.manifest options.includeTests
  have same : ∀ name ∈ p.manifest.modulesFor options.includeTests,
      p.baseline options name = p.storage.content name := fun name listed =>
    p.baselineOther options fun cleaning isOutput => apart cleaning (isOutput ▸ listed)
  rw [buildUnits, SourceUnit.presentAgrees same, allUnits, ← all]
  exact SourceUnit.presentBegins _ _ others

theorem buildUnitsAll (tests : options.includeTests = true) (keeps : options.clean = false) :
    p.buildUnits options = p.allUnits := by
  simp [buildUnits, allUnits, baseline, Manifest.modulesFor, tests, keeps]

end Units

section Check

theorem loadUnits {p : Project FileMap} {modules : List String} {resolution : Resolution}
    (loaded : p.load modules = .ok resolution) : resolution.units = SourceUnit.present p.storage.content modules := by
  rw [loadStage] at loaded
  split at loaded
  · rename_i readable
    cases loaded
    exact Resolution.unitsOf (Resolution.faultyEmpty.mp readable)
  · cases loaded

theorem checkStage (p : Project FileMap) :
    p.check = if Resolution.faulty p.storage p.manifest.allModules = [] then .ok (p.scan p.allUnits)
      else .error (.unreadable (Resolution.faulty p.storage p.manifest.allModules)) := by
  rw [check, loadStage]
  split
  · rename_i readable
    rw [Except.map, Resolution.unitsOf (Resolution.faultyEmpty.mp readable)]
    rfl
  · rfl

theorem checkUnreadable (p : Project FileMap) (modules : List (String × AccessError)) :
    p.check = .error (.unreadable modules) ↔
      Resolution.faulty p.storage p.manifest.allModules ≠ [] ∧
        modules = Resolution.faulty p.storage p.manifest.allModules := by
  rw [checkStage]
  split
  · rename_i readable
    simp [readable]
  · rename_i faults
    simp [faults, eq_comm]

theorem checkScans (p : Project FileMap) (scan : Scan) :
    p.check = .ok scan ↔
      Resolution.faulty p.storage p.manifest.allModules = [] ∧ scan = p.scan p.allUnits := by
  rw [checkStage]
  split
  · rename_i readable
    simp [readable, eq_comm]
  · rename_i faults
    simp [faults]

theorem allReadable {p : Project FileMap} (readable : Resolution.faulty p.storage p.manifest.allModules = [])
    (options : BuildOptions) : p.readFaults options = [] :=
  Resolution.faultyEmpty.mpr fun name listed =>
    Resolution.faultyEmpty.mp readable name ((Manifest.modulesForBegin p.manifest options.includeTests).subset listed)

end Check

def scanned? : Except BuildError BuildReport → Option Scan
  | .ok report => some report.scan
  | .error (.duplicates scan) => some scan
  | .error _ => none

namespace Run
variable {p : Project FileMap} {options : BuildOptions} {date : String}
  {outcome : Except BuildError BuildReport × Project FileMap}

theorem scansUnits (run : Run p options date outcome) {scan : Scan} (scanned : scanned? outcome.1 = some scan) :
    scan = p.scan (p.buildUnits options) := by
  cases run with
  | uncleaned | unreadable | unwritten => cases scanned
  | duplicated | written =>
    cases scanned
    rfl

theorem agrees (run : Run p options date outcome) (tests : options.includeTests = true)
    (keeps : options.clean = false) :
    (∀ modules, outcome.1 = .error (.unreadable modules) ↔ p.check = .error (.unreadable modules)) ∧
    (∀ scan, outcome.1 = .error (.duplicates scan) ↔ p.check = .ok scan ∧ scan.hasDuplicates = true) ∧
    ((∀ modules, outcome.1 ≠ .error (.unreadable modules)) →
      (∀ scan, outcome.1 ≠ .error (.duplicates scan)) →
      ∃ scan, p.check = .ok scan ∧ ((∃ fault, outcome.1 = .error (.write fault)) ∨
        ∃ report, outcome.1 = .ok report ∧ report.scan = scan)) := by
  have units := p.buildUnitsAll options tests keeps
  have faults : p.readFaults options = Resolution.faulty p.storage p.manifest.allModules := by
    simp [readFaults, Manifest.modulesFor, tests]
  have unclean : p.cleanFault? options = none := by simp [cleanFault?, keeps]
  refine ⟨fun modules => ?_, fun scan => ?_, fun unreadable once => ?_⟩
  · rw [run.readFails, checkUnreadable, faults]
    simp [unclean]
  · rw [run.checkFails, checkScans, faults, units]
    constructor
    · rintro ⟨_, readable, twice, rfl⟩
      exact ⟨⟨readable, rfl⟩, twice⟩
    · rintro ⟨⟨readable, rfl⟩, twice⟩
      exact ⟨unclean, readable, twice, rfl⟩
  · cases run with
    | uncleaned fault => cases unclean.symm.trans fault
    | unreadable => exact absurd rfl (unreadable _)
    | duplicated => exact absurd rfl (once _)
    | unwritten _ readable =>
      exact ⟨_, (p.checkScans _).mpr ⟨faults ▸ readable, rfl⟩, .inl ⟨_, rfl⟩⟩
    | written _ readable =>
      refine ⟨_, (p.checkScans _).mpr ⟨faults ▸ readable, rfl⟩, .inr ⟨_, rfl, ?_⟩⟩
      exact congrArg p.scan units

theorem passes (run : Run p options date outcome) {scan : Scan} (checked : p.check = .ok scan)
    (once : scan.hasDuplicates = false) :
    (∀ modules, outcome.1 ≠ .error (.unreadable modules)) ∧
      ∀ found, outcome.1 ≠ .error (.duplicates found) := by
  obtain ⟨readable, rfl⟩ := (p.checkScans scan).mp checked
  have still : (p.scan (p.buildUnits options)).hasDuplicates = false :=
    Scan.passesFewer (p.buildUnitsFewer options) once
  constructor
  · intro modules failed
    exact ((run.readFails modules).mp failed).2.1 (allReadable readable options)
  · intro found failed
    have twice := ((run.checkFails found).mp failed).2.2.1
    cases still.symm.trans twice

end Run

/- In the last two parts the core modules are scanned against all modules: over the same files, and then as
a build and the check tell of them. A build that has removed a core module, because its output has that
name, leaves a gap in the declarations, which are then no more than a part of the others in their order. -/
theorem checkAgreesWithBuild (p : Project FileMap) :
    (∀ options date, options.includeTests = true → options.clean = false →
      (∀ modules, (p.build options date).1 = .error (.unreadable modules) ↔
        p.check = .error (.unreadable modules)) ∧
      (∀ scan, (p.build options date).1 = .error (.duplicates scan) ↔
        p.check = .ok scan ∧ scan.hasDuplicates = true) ∧
      ((∀ modules, (p.build options date).1 ≠ .error (.unreadable modules)) →
        (∀ scan, (p.build options date).1 ≠ .error (.duplicates scan)) →
        ∃ scan, p.check = .ok scan ∧ ((∃ fault, (p.build options date).1 = .error (.write fault)) ∨
          ∃ report, (p.build options date).1 = .ok report ∧ report.scan = scan))) ∧
    (∀ scan, p.check = .ok scan → scan.hasDuplicates = false → ∀ options date,
      (∀ modules, (p.build options date).1 ≠ .error (.unreadable modules)) ∧
      ∀ found, (p.build options date).1 ≠ .error (.duplicates found)) ∧
    (∀ production full, p.load (p.manifest.modulesFor false) = .ok production →
      p.load (p.manifest.modulesFor true) = .ok full → ∀ symbol,
        (p.scan production.units).declarations symbol <+: (p.scan full.units).declarations symbol) ∧
    ∀ options date scan full, options.includeTests = false → scanned? (p.build options date).1 = some scan →
      p.check = .ok full → ∀ symbol,
        (scan.declarations symbol).Sublist (full.declarations symbol) ∧
        ((options.clean = true → p.manifest.output ∉ p.manifest.coreModules) →
          scan.declarations symbol <+: full.declarations symbol) := by
  refine ⟨fun options date => (p.buildRun options date).agrees,
    fun scan checked once options date => (p.buildRun options date).passes checked once, ?_, ?_⟩
  · intro production full loaded loadedAll symbol
    have begins : production.units <+: full.units := by
      rw [loadUnits loaded, loadUnits loadedAll]
      exact SourceUnit.presentBegins _ p.manifest.coreModules p.manifest.testModules
    simp only [scan, Scan.declarationsOfUnits]
    exact Occurrence.locationsBegin _ begins symbol
  · intro options date found full core scanned checked symbol
    obtain ⟨_, rfl⟩ := (p.checkScans full).mp checked
    cases (p.buildRun options date).scansUnits scanned
    simp only [scan, Scan.declarationsOfUnits]
    refine ⟨Occurrence.locationsFewer _ (p.buildUnitsFewer options) symbol, fun apart => ?_⟩
    refine Occurrence.locationsBegin _ (p.buildUnitsBegin options ?_) symbol
    simpa [Manifest.modulesFor, core] using apart

theorem testModuleStopsFullBuild :
    let p : Project FileMap :=
      ⟨⟨"Ledger", "1.2.0", "Bundle.gs", ["Limits.gs"], ["Limits.test.gs"], Table.empty, ["LIMIT"], []⟩,
       { files := ⟨[("Limits.gs", "const LIMIT = 5;"), ("Limits.test.gs", "\nvar LIMIT = 6;"),
          ("Bundle.gs", "")]⟩ }⟩
    ∃ full scan, p.check = .ok full ∧ full.hasDuplicates = true ∧
      (p.build {} "2024-05-01").1 = .error (.duplicates full) ∧
      scanned? (p.build { includeTests := false, clean := true } "2024-05-01").1 = some scan ∧
      scan.declarations "LIMIT" <+: full.declarations "LIMIT" := by
  intro p
  have agrees := checkAgreesWithBuild p
  have checked : p.check = .ok (p.scan p.allUnits) := by decide +kernel
  have twice : (p.scan p.allUnits).hasDuplicates = true := by decide +kernel
  have scanned : (scanned? (p.build { includeTests := false, clean := true } "2024-05-01").1).isSome = true := by
    decide +kernel
  obtain ⟨scan, found⟩ := Option.isSome_iff_exists.mp scanned
  refine ⟨p.scan p.allUnits, scan, checked, twice, ?_, found, ?_⟩
  · exact ((agrees.1 {} "2024-05-01" rfl rfl).2.1 _).mpr ⟨checked, twice⟩
  · exact (agrees.2.2.2 _ _ scan _ rfl found checked "LIMIT").2 fun _ => by decide

end ScriptBundle.Project
