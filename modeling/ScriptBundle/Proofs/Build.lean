import ScriptBundle.Project
import ScriptBundle.Proofs.Resolution
import ScriptBundle.Proofs.Scan

/-! A build over a map of files, stage by stage: the artifact is removed if asked for, the modules are
read, the declarations are checked, and the new artifact is written. The first stage that fails gives
the error, and only the first and the last stage change a file. -/
namespace ScriptBundle

theorem Manifest.modulesForBegin (m : Manifest) (includeTests : Bool) : m.modulesFor includeTests <+: m.allModules := by
  unfold modulesFor
  split
  · exact List.prefix_rfl
  · exact List.prefix_append _ _

theorem Scan.failsExactly (symbols : List String) (units : List SourceUnit) :
    (Scan.ofUnits symbols units).hasDuplicates = true ↔
      ∃ symbol ∈ symbols,
        2 ≤ Binding.lineCount symbols (units.flatMap fun unit => Lines.linesOf unit.text) symbol := by
  rw [Scan.hasDuplicatesOfUnits]
  simp only [Occurrence.locationsLength]
  constructor
  · rintro ⟨symbol, several⟩
    obtain ⟨line, _, bound⟩ := List.countP_pos_iff.mp (Nat.lt_of_lt_of_le Nat.two_pos several)
    exact ⟨symbol, Binding.trackedMember (by simpa using bound), several⟩
  · rintro ⟨symbol, _, several⟩
    exact ⟨symbol, several⟩

def BuildError.isCleaning : BuildError → Bool
  | clean _ => true
  | _ => false

namespace Project
open FileMap (fault? guardedOutcome)

section
variable (p : Project FileMap) (options : BuildOptions)

def cleanFault? : Option AccessError :=
  if options.clean then fault? .remove p.storage.faults.remove p.manifest.output else none

def readFaults : List (String × AccessError) :=
  Resolution.faulty p.storage (p.manifest.modulesFor options.includeTests)

def writeFault? : Option AccessError := fault? .write p.storage.faults.write p.manifest.output

def baseline : String → Option String :=
  if options.clean then Function.update p.storage.content p.manifest.output none else p.storage.content

def buildUnits : List SourceUnit :=
  SourceUnit.present (p.baseline options) (p.manifest.modulesFor options.includeTests)

def bindingLines (symbol : String) : Nat :=
  Binding.lineCount p.manifest.trackedSymbols
    ((p.buildUnits options).flatMap fun unit => Lines.linesOf unit.text) symbol

def afterClean : Project FileMap :=
  if options.clean then
    { p with storage := { p.storage with files := p.storage.files.erase p.manifest.output } }
  else p

def afterWrite (text : String) : Project FileMap :=
  { p with storage := { p.storage with files := p.storage.files.insert p.manifest.output text } }

def finished (date : String) : BuildReport :=
  let resolution := Resolution.of (p.afterClean options).storage (p.manifest.modulesFor options.includeTests)
  { artifact := .compose p.manifest.output options.downlevel (p.info options date) (p.buildUnits options)
    outputPath := p.outputPath
    modules := ModuleOutcome.ofModules (p.manifest.modulesFor options.includeTests) (p.buildUnits options)
    diagnostics := resolution.diagnostics
    scan := p.scan (p.buildUnits options)
    date
    cleaned := options.clean && p.storage.files.contains p.manifest.output
    buildType := options.buildType }
end

theorem afterCleanContent (p : Project FileMap) (options : BuildOptions) :
    (p.afterClean options).storage.content = p.baseline options := by
  unfold afterClean baseline
  split
  · exact Table.findErase p.storage.files p.manifest.output
  · rfl

theorem afterCleanKeeps (p : Project FileMap) (options : BuildOptions) :
    (p.afterClean options).manifest = p.manifest ∧
      (p.afterClean options).storage.faults = p.storage.faults := by
  unfold afterClean
  split <;> exact ⟨rfl, rfl⟩

theorem cleanStage (p : Project FileMap) (options : BuildOptions) :
    (if options.clean then p.clean else .ok (false, p)) =
      match p.cleanFault? options with
      | some error => .error (.clean error)
      | none => .ok (options.clean && p.storage.files.contains p.manifest.output, p.afterClean options) := by
  unfold cleanFault? afterClean
  by_cases cleaning : options.clean = true
  · have outcome := guardedOutcome .remove p.storage.faults.remove p.manifest.output
      (p.storage.files.contains p.manifest.output,
        { p.storage with files := p.storage.files.erase p.manifest.output })
    have removal : Storage.remove p.storage p.manifest.output = _ := outcome
    simp only [cleaning, if_true, clean, removal]
    cases fault? .remove p.storage.faults.remove p.manifest.output <;> rfl
  · simp [cleaning]

theorem loadStage (p : Project FileMap) (modules : List String) :
    p.load modules =
      if Resolution.faulty p.storage modules = [] then .ok (Resolution.of p.storage modules)
      else .error (.unreadable (Resolution.faulty p.storage modules)) := by
  simp [load, Resolution.unreadableOf]

theorem afterCleanFaults (p : Project FileMap) (options : BuildOptions) :
    Resolution.faulty (p.afterClean options).storage (p.manifest.modulesFor options.includeTests) =
      p.readFaults options := by
  simp only [readFaults, Resolution.faulty, (afterCleanKeeps p options).2]

theorem afterCleanUnits {p : Project FileMap} {options : BuildOptions}
    (readable : p.readFaults options = []) :
    (Resolution.of (p.afterClean options).storage
      (p.manifest.modulesFor options.includeTests)).units = p.buildUnits options := by
  rw [buildUnits, ← afterCleanContent]
  apply Resolution.unitsOf
  rw [(afterCleanKeeps p options).2]
  exact Resolution.faultyEmpty.mp readable

theorem assembleStage (p : Project FileMap) (options : BuildOptions) (date : String) :
    (p.afterClean options).assemble options date
        (options.clean && p.storage.files.contains p.manifest.output) =
      if p.readFaults options = [] then
        if (p.scan (p.buildUnits options)).hasDuplicates then
          .error (.duplicates (p.scan (p.buildUnits options)))
        else .ok (p.finished options date)
      else .error (.unreadable (p.readFaults options)) := by
  have manifest := (afterCleanKeeps p options).1
  have scan (units) : (p.afterClean options).scan units = p.scan units := by rw [Project.scan, manifest]; rfl
  have info : (p.afterClean options).info options date = p.info options date := by
    simp only [Project.info, manifest]
  have path : (p.afterClean options).outputPath = p.outputPath := by rw [outputPath, manifest]; rfl
  simp only [assemble, manifest, loadStage, afterCleanFaults]
  by_cases readable : p.readFaults options = []
  · simp only [readable, if_true, bind, Except.bind, afterCleanUnits readable, scan, info, path]
    rfl
  · simp only [readable, if_false, bind, Except.bind]

theorem publishStage (p : Project FileMap) (options : BuildOptions) (date : String) :
    (p.afterClean options).publish (p.finished options date) =
      match p.writeFault? with
      | some error => .error (.write error)
      | none => .ok ((p.afterClean options).afterWrite (p.finished options date).artifact.text) := by
  have outcome := guardedOutcome .write (p.afterClean options).storage.faults.write p.manifest.output
    { (p.afterClean options).storage with
      files := (p.afterClean options).storage.files.insert p.manifest.output
        (p.finished options date).artifact.text }
  have writing : Storage.write (p.afterClean options).storage (p.finished options date).artifact.name
    (p.finished options date).artifact.text = _ := outcome
  rw [publish, writing, (afterCleanKeeps p options).2, writeFault?]
  cases fault? .write p.storage.faults.write p.manifest.output with
  | some error => rfl
  | none => simp only [afterWrite, (afterCleanKeeps p options).1]

/- The five ways a build can end, each with all that was found out before. -/
inductive Run (p : Project FileMap) (options : BuildOptions) (date : String) :
    Except BuildError BuildReport × Project FileMap → Prop where
  | uncleaned {error} (fault : p.cleanFault? options = some error) :
      Run p options date (.error (.clean error), p)
  | unreadable (cleaned : p.cleanFault? options = none) (faults : p.readFaults options ≠ []) :
      Run p options date (.error (.unreadable (p.readFaults options)), p.afterClean options)
  | duplicated (cleaned : p.cleanFault? options = none) (readable : p.readFaults options = [])
      (twice : (p.scan (p.buildUnits options)).hasDuplicates = true) :
      Run p options date (.error (.duplicates (p.scan (p.buildUnits options))), p.afterClean options)
  | unwritten {error} (cleaned : p.cleanFault? options = none) (readable : p.readFaults options = [])
      (once : (p.scan (p.buildUnits options)).hasDuplicates = false)
      (fault : p.writeFault? = some error) :
      Run p options date (.error (.write error), p.afterClean options)
  | written (cleaned : p.cleanFault? options = none) (readable : p.readFaults options = [])
      (once : (p.scan (p.buildUnits options)).hasDuplicates = false) (writable : p.writeFault? = none) :
      Run p options date (.ok (p.finished options date),
        (p.afterClean options).afterWrite (p.finished options date).artifact.text)

theorem buildRun (p : Project FileMap) (options : BuildOptions) (date : String) :
    Run p options date (p.build options date) := by
  rw [build, cleanStage]
  cases cleaned : p.cleanFault? options with
  | some error => exact .uncleaned cleaned
  | none =>
    simp only [assembleStage]
    by_cases readable : p.readFaults options = []
    · cases gate : (p.scan (p.buildUnits options)).hasDuplicates with
      | true =>
        simp only [readable, if_true]
        exact .duplicated cleaned readable gate
      | false =>
        simp only [readable, if_true, Bool.false_eq_true, if_false, publishStage]
        cases writable : p.writeFault? with
        | some error => exact .unwritten cleaned readable gate writable
        | none => exact .written cleaned readable gate writable
    · simp only [readable, if_false]
      exact .unreadable cleaned readable

theorem gateFails (p : Project FileMap) (options : BuildOptions) :
    (p.scan (p.buildUnits options)).hasDuplicates = true ↔
      ∃ symbol ∈ p.manifest.trackedSymbols, 2 ≤ p.bindingLines options symbol :=
  Scan.failsExactly p.manifest.trackedSymbols (p.buildUnits options)

theorem gatePasses (p : Project FileMap) (options : BuildOptions) :
    (p.scan (p.buildUnits options)).hasDuplicates = false ↔
      ∀ symbol ∈ p.manifest.trackedSymbols, p.bindingLines options symbol < 2 := by
  rw [← Bool.not_eq_true, gateFails]
  simp only [not_exists, not_and, Nat.not_le]

theorem removable (p : Project FileMap) (options : BuildOptions) :
    p.cleanFault? options = none ↔
      (options.clean = true → p.storage.faults.remove.find? p.manifest.output = none) := by
  unfold cleanFault?
  by_cases cleaning : options.clean = true <;> simp [cleaning, FileMap.noFault]

theorem afterWriteContent (p : Project FileMap) (options : BuildOptions) (text : String) :
    ((p.afterClean options).afterWrite text).storage.content =
      Function.update (p.baseline options) p.manifest.output (some text) := by
  rw [← afterCleanContent, ← (afterCleanKeeps p options).1]
  exact Table.findInsert ..

theorem finishedText (p : Project FileMap) (options : BuildOptions) (date : String) :
    (p.finished options date).artifact.text =
      let plain := Artifact.plainText (p.info options date) (p.buildUnits options)
      if options.downlevel then (Downlevel.lower plain).text else plain := by
  simp only [finished, Artifact.compose]
  split <;> rfl

theorem buildSucceedsExactly (p : Project FileMap) (options : BuildOptions) (date : String) :
    ((∃ report, (p.build options date).1 = .ok report) ↔
      (options.clean = true → p.storage.faults.remove.find? p.manifest.output = none) ∧
      (∀ name ∈ p.manifest.modulesFor options.includeTests, p.storage.faults.read.find? name = none) ∧
      (∀ symbol ∈ p.manifest.trackedSymbols, p.bindingLines options symbol < 2) ∧
      p.storage.faults.write.find? p.manifest.output = none) ∧
    ∀ report, (p.build options date).1 = .ok report →
      (p.build options date).2.storage.content =
        Function.update (p.baseline options) p.manifest.output (some report.artifact.text) ∧
      report.artifact.text =
        let plain := (p.info options date).header ++
          String.join ((p.buildUnits options).map SourceUnit.render)
        if options.downlevel then (Downlevel.lower plain).text else plain := by
  have readable : p.readFaults options = [] ↔ _ := Resolution.faultyEmpty
  have writable : p.writeFault? = none ↔ _ := FileMap.noFault
  rw [← removable, ← readable, ← gatePasses, ← writable]
  have run := p.buildRun options date
  generalize p.build options date = outcome at run ⊢
  cases run with
  | uncleaned fault => simp [fault]
  | unreadable cleaned faults => simp [faults]
  | duplicated cleaned readable twice => simp [twice]
  | unwritten cleaned readable once fault => simp [fault]
  | written cleaned readable once writable =>
    refine ⟨by simp [cleaned, readable, once, writable], ?_⟩
    rintro report ok
    cases Except.ok.inj ok
    exact ⟨afterWriteContent p options _, finishedText p options date⟩

/- A storage that differs from another one in nothing but how it writes. A run that gives the same
outcome for every such change has not written at all: a single call could be made to fail. -/
@[reducible] def rewired {σ : Type} (s : Storage σ)
    (write : σ → String → String → Except AccessError σ) : Storage σ :=
  { s with write }

theorem unwrittenIgnoresWriting {σ : Type} [s : Storage σ]
    (write : σ → String → String → Except AccessError σ) (p : Project σ) (options : BuildOptions) (date : String) {error : BuildError}
    (failed : (p.build options date).1 = .error error) (early : ∀ fault, error ≠ .write fault) :
    @build σ (rewired s write) p options date = p.build options date := by
  have cleaning : @clean σ (rewired s write) p = p.clean := rfl
  unfold build at failed ⊢
  rw [cleaning]
  generalize (if options.clean then p.clean else .ok (false, p)) = cleaned at failed ⊢
  cases cleaned with
  | error fault => rfl
  | ok cleaned =>
    obtain ⟨flag, q⟩ := cleaned
    have assembling : @assemble σ (rewired s write) q options date flag = q.assemble options date flag := rfl
    dsimp only at failed ⊢
    rw [assembling]
    cases assembled : q.assemble options date flag with
    | error fault => rfl
    | ok report =>
      simp only [assembled, publish] at failed
      generalize Storage.write q.storage report.artifact.name report.artifact.text = written at failed
      cases written with
      | error fault => exact absurd (Except.error.inj failed).symm (early fault)
      | ok storage => cases failed

namespace Run
variable {p : Project FileMap} {options : BuildOptions} {date : String}
  {outcome : Except BuildError BuildReport × Project FileMap}

theorem failedContent (run : Run p options date outcome) {error : BuildError}
    (failed : outcome.1 = .error error) :
    outcome.2.storage.content =
      if options.clean && !error.isCleaning then
        Function.update p.storage.content p.manifest.output none
      else p.storage.content := by
  cases run with
  | uncleaned fault => cases failed; simp [BuildError.isCleaning]
  | written => cases failed
  | unreadable | duplicated | unwritten =>
    cases failed
    simpa [BuildError.isCleaning, baseline] using afterCleanContent p options

theorem cleanFails (run : Run p options date outcome) (fault : AccessError) :
    outcome.1 = .error (.clean fault) ↔ p.cleanFault? options = some fault := by
  cases run with
  | uncleaned found => simp [found]
  | unreadable cleaned | duplicated cleaned | unwritten cleaned | written cleaned => simp [cleaned]

theorem readFails (run : Run p options date outcome) (modules : List (String × AccessError)) :
    outcome.1 = .error (.unreadable modules) ↔
      p.cleanFault? options = none ∧ p.readFaults options ≠ [] ∧ modules = p.readFaults options := by
  cases run with
  | uncleaned found => simp [found]
  | unreadable cleaned faults => simp [cleaned, faults, eq_comm]
  | duplicated _ readable | unwritten _ readable | written _ readable => simp [readable]

theorem checkFails (run : Run p options date outcome) (scan : Scan) :
    outcome.1 = .error (.duplicates scan) ↔
      p.cleanFault? options = none ∧ p.readFaults options = [] ∧
      (p.scan (p.buildUnits options)).hasDuplicates = true ∧ scan = p.scan (p.buildUnits options) := by
  cases run with
  | uncleaned found => simp [found]
  | unreadable cleaned faults => simp [faults]
  | duplicated cleaned readable twice => simp [cleaned, readable, twice, eq_comm]
  | unwritten _ _ once | written _ _ once => simp [once]

theorem writeFails (run : Run p options date outcome) (fault : AccessError) :
    outcome.1 = .error (.write fault) ↔
      p.cleanFault? options = none ∧ p.readFaults options = [] ∧
      (p.scan (p.buildUnits options)).hasDuplicates = false ∧ p.writeFault? = some fault := by
  cases run with
  | uncleaned found => simp [found]
  | unreadable cleaned faults => simp [faults]
  | duplicated cleaned readable twice => simp [twice]
  | unwritten cleaned readable once found => simp [cleaned, readable, once, found]
  | written cleaned readable once writable => simp [writable]

end Run

theorem buildFailsExactly (p : Project FileMap) (options : BuildOptions) (date : String) :
    (∀ error, (p.build options date).1 = .error error →
      (p.build options date).2.storage.content =
        if options.clean && !error.isCleaning then
          Function.update p.storage.content p.manifest.output none
        else p.storage.content) ∧
    (∀ fault, (p.build options date).1 = .error (.clean fault) ↔ p.cleanFault? options = some fault) ∧
    (∀ modules, (p.build options date).1 = .error (.unreadable modules) ↔
      p.cleanFault? options = none ∧ p.readFaults options ≠ [] ∧ modules = p.readFaults options) ∧
    (∀ scan, (p.build options date).1 = .error (.duplicates scan) ↔
      p.cleanFault? options = none ∧ p.readFaults options = [] ∧
      (∃ symbol ∈ p.manifest.trackedSymbols, 2 ≤ p.bindingLines options symbol) ∧
      scan = p.scan (p.buildUnits options)) ∧
    (∀ fault, (p.build options date).1 = .error (.write fault) ↔
      p.cleanFault? options = none ∧ p.readFaults options = [] ∧
      (∀ symbol ∈ p.manifest.trackedSymbols, p.bindingLines options symbol < 2) ∧
      p.writeFault? = some fault) ∧
    (∀ write, ((∃ modules, (p.build options date).1 = .error (.unreadable modules)) ∨
        ∃ scan, (p.build options date).1 = .error (.duplicates scan)) →
      @build FileMap (rewired inferInstance write) p options date = p.build options date) := by
  have run := p.buildRun options date
  simp only [← gateFails, ← gatePasses]
  refine ⟨fun error failed => run.failedContent failed, run.cleanFails, run.readFails, run.checkFails,
    run.writeFails, ?_⟩
  rintro write (⟨modules, failed⟩ | ⟨scan, failed⟩)
  · exact unwrittenIgnoresWriting write p options date failed (by simp)
  · exact unwrittenIgnoresWriting write p options date failed (by simp)

end Project
end ScriptBundle
