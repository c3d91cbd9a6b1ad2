import ScriptBundle.Proofs.Agreement
import ScriptBundle.Proofs.Operations

/-! What the outcome of a build depends on. Without faults it is decided by the texts of the modules that
the build takes: not by other files, not by an earlier artifact, and not by whether that one is removed
first. Since nothing but the artifact is ever written, a build comes out the same whenever it is made. -/
namespace ScriptBundle.Project

/- Builds that end alike: stopped by the same scan, or with reports that tell of the same build, except
for whether there was an artifact to remove. -/
inductive Alike : Except BuildError BuildReport → Except BuildError BuildReport → Prop where
  | stopped (scan : Scan) : Alike (.error (.duplicates scan)) (.error (.duplicates scan))
  | built (report : BuildReport) (cleaned : Bool) : Alike (.ok report) (.ok { report with cleaned })

section Faultless

theorem faultlessStages {p : Project FileMap} (faultless : p.storage.faults = {}) (options : BuildOptions) :
    p.cleanFault? options = none ∧ p.readFaults options = [] ∧ p.writeFault? = none := by
  have nothing (name : String) : (Table.empty : Table String).find? name = none := rfl
  refine ⟨(p.removable options).mpr fun _ => ?_, Resolution.faultyEmpty.mpr fun name _ => ?_,
    FileMap.noFault.mpr ?_⟩
  all_goals
    rw [faultless]
    exact nothing _

theorem faultlessBuild {p : Project FileMap} (faultless : p.storage.faults = {}) (options : BuildOptions)
    (date : String) :
    (p.build options date).1 =
      if (p.scan (p.buildUnits options)).hasDuplicates then
        .error (.duplicates (p.scan (p.buildUnits options)))
      else .ok (p.finished options date) := by
  obtain ⟨cleaned, readable, writable⟩ := faultlessStages faultless options
  have run := p.buildRun options date
  generalize p.build options date = outcome at run ⊢
  cases run with
  | uncleaned fault => cases cleaned.symm.trans fault
  | unreadable _ faults => exact absurd readable faults
  | duplicated _ _ twice => rw [if_pos twice]
  | unwritten _ _ _ fault => cases writable.symm.trans fault
  | written _ _ once => rw [if_neg (Bool.not_eq_true _ ▸ once)]

end Faultless

section Agreeing
variable {m : Manifest} {files others : FileMap} {options alternative : BuildOptions}

structure SameBuild (m : Manifest) (files others : FileMap) (options alternative : BuildOptions) : Prop where
  tests : alternative.includeTests = options.includeTests
  downlevel : alternative.downlevel = options.downlevel
  agree : ∀ name ∈ m.modulesFor options.includeTests, others.content name = files.content name
  apart : m.output ∉ m.modulesFor options.includeTests

theorem baselinesAgree (same : SameBuild m files others options alternative) {name : String}
    (listed : name ∈ m.modulesFor options.includeTests) :
    baseline ⟨m, others⟩ alternative name = baseline ⟨m, files⟩ options name := by
  have other : name ≠ m.output := fun isOutput => same.apart (isOutput ▸ listed)
  rw [baselineOther ⟨m, others⟩ alternative fun _ => other, baselineOther ⟨m, files⟩ options fun _ => other]
  exact same.agree name listed

theorem unitsAgree (same : SameBuild m files others options alternative) :
    buildUnits ⟨m, others⟩ alternative = buildUnits ⟨m, files⟩ options := by
  rw [buildUnits, same.tests]
  exact SourceUnit.presentAgrees fun name listed => baselinesAgree same listed

theorem resolutionsAgree (same : SameBuild m files others options alternative)
    (faults : others.faults = files.faults) :
    Resolution.of (afterClean ⟨m, others⟩ alternative).storage (m.modulesFor alternative.includeTests) =
      Resolution.of (afterClean ⟨m, files⟩ options).storage (m.modulesFor options.includeTests) := by
  rw [same.tests]
  refine Resolution.resolutionAgrees ?_ fun name listed => ?_
  · rw [(afterCleanKeeps _ alternative).2, (afterCleanKeeps _ options).2]
    exact congrArg Faults.read faults
  · rw [afterCleanContent, afterCleanContent]
    exact baselinesAgree same listed

theorem finishedAgree (same : SameBuild m files others options alternative)
    (faults : others.faults = files.faults) (date : String) :
    finished ⟨m, others⟩ alternative date =
      { finished ⟨m, files⟩ options date with cleaned := (finished ⟨m, others⟩ alternative date).cleaned } := by
  have kind : alternative.buildType = options.buildType := by rw [BuildOptions.buildType, same.tests]; rfl
  have info : Project.info ⟨m, others⟩ alternative date = Project.info ⟨m, files⟩ options date := by
    rw [Project.info, Project.info, kind, same.tests]
  simp only [finished, unitsAgree same, resolutionsAgree same faults, info, kind, same.downlevel]
  rw [same.tests]
  rfl

theorem buildsAlike (same : SameBuild m files others options alternative) (faultless : files.faults = {})
    (faultlessOther : others.faults = {}) (date : String) :
    Alike (build ⟨m, files⟩ options date).1 (build ⟨m, others⟩ alternative date).1 := by
  rw [faultlessBuild faultless, faultlessBuild faultlessOther, unitsAgree same,
    finishedAgree same (faultlessOther.trans faultless.symm)]
  have scan (units : List SourceUnit) : Project.scan ⟨m, others⟩ units = Project.scan ⟨m, files⟩ units := rfl
  rw [scan]
  split
  · exact .stopped _
  · exact .built _ _

end Agreeing

section History

theorem builtFaults (p : Project FileMap) (options : BuildOptions) (date : String) :
    (p.build options date).2.storage.faults = p.storage.faults := by
  have run := p.buildRun options date
  generalize p.build options date = outcome at run ⊢
  cases run with
  | uncleaned => rfl
  | unreadable | duplicated | unwritten | written => exact (afterCleanKeeps p options).2

theorem performedFaults (p : Project FileMap) (operation : Operation) :
    (p.perform operation).2.storage.faults = p.storage.faults := by
  cases operation with
  | check | verify | orderWarnings => rfl
  | build options date => exact builtFaults p options date
  | clean =>
    have stage : p.clean = _ := p.cleanStage { clean := true }
    rw [perform, stage]
    cases p.cleanFault? { clean := true } with
    | some error => rfl
    | none => rfl

theorem afterFaults (p : Project FileMap) (operations : List Operation) :
    (p.after operations).storage.faults = p.storage.faults := by
  induction operations generalizing p with
  | nil => rfl
  | cons operation operations ih => exact (ih _).trans (performedFaults p operation)

theorem builtContent {p : Project FileMap} {options : BuildOptions} {date : String} {report : BuildReport}
    (built : (p.build options date).1 = .ok report) :
    (p.build options date).2.storage.content =
      Function.update p.storage.content p.manifest.output (some report.artifact.text) := by
  have run := p.buildRun options date
  generalize p.build options date = outcome at run built ⊢
  cases run with
  | uncleaned | unreadable | duplicated | unwritten => cases built
  | written =>
    cases built
    rw [afterWriteContent, baseline]
    split
    · exact Function.update_idem ..
    · rfl

theorem historyAlike {p : Project FileMap} (faultless : p.storage.faults = {}) {options alternative : BuildOptions}
    (tests : alternative.includeTests = options.includeTests)
    (downlevel : alternative.downlevel = options.downlevel)
    (apart : p.manifest.output ∉ p.manifest.modulesFor options.includeTests) (operations : List Operation)
    (date : String) : Alike (p.build options date).1 ((p.after operations).build alternative date).1 := by
  have only := OnlyOutput.performedAll p operations
  have faults := afterFaults p operations
  generalize p.after operations = later at only faults ⊢
  obtain ⟨m, files⟩ := p
  obtain ⟨_, others⟩ := later
  obtain ⟨manifest, kept⟩ := only
  cases manifest
  have agree : ∀ name ∈ m.modulesFor options.includeTests, others.content name = files.content name :=
    fun name listed => kept name fun isOutput => apart (isOutput ▸ listed)
  exact buildsAlike ⟨tests, downlevel, agree, apart⟩ faultless (faults.trans faultless) date

theorem alikeBuilt {report : BuildReport} {outcome : Except BuildError BuildReport}
    (alike : Alike (.ok report) outcome) : ∃ cleaned, outcome = .ok { report with cleaned } := by
  cases alike with
  | built _ cleaned => exact ⟨cleaned, rfl⟩

end History

theorem dependsOnBuildSetOnly (m : Manifest) (date : String) {options alternative : BuildOptions}
    (tests : alternative.includeTests = options.includeTests)
    (downlevel : alternative.downlevel = options.downlevel)
    (apart : m.output ∉ m.modulesFor options.includeTests) (files : Table String) :
    let p : Project FileMap := ⟨m, { files }⟩
    (∀ others : Table String,
      (∀ name ∈ m.modulesFor options.includeTests, others.find? name = files.find? name) →
      Alike (p.build options date).1 (build (⟨m, { files := others }⟩ : Project FileMap) alternative date).1) ∧
    (∀ operations, Alike (p.build options date).1 ((p.after operations).build alternative date).1) ∧
    ∀ report, (p.build options date).1 = .ok report →
      ∃ cleaned, ((p.build options date).2.build alternative date).1 = .ok { report with cleaned } ∧
        ((p.build options date).2.build alternative date).2.storage.content =
          (p.build options date).2.storage.content := by
  intro p
  have alike (operations : List Operation) := historyAlike (p := p) rfl tests downlevel apart operations date
  refine ⟨fun others agree => buildsAlike ⟨tests, downlevel, agree, apart⟩ rfl rfl date, alike, ?_⟩
  intro report built
  have again : Alike (.ok report) ((p.build options date).2.build alternative date).1 :=
    built ▸ alike [.build options date]
  obtain ⟨cleaned, rebuilt⟩ := alikeBuilt again
  refine ⟨cleaned, rebuilt, ?_⟩
  have manifest : (p.build options date).2.manifest = p.manifest := (OnlyOutput.built p options date).manifest
  rw [builtContent rebuilt, manifest, builtContent built, Function.update_idem]

theorem ledgerDependsOnBuildSetOnly :
    let m : Manifest :=
      ⟨"Ledger", "1.2.0", "Bundle.gs", ["Limits.gs", "Gone.gs"], ["Limits.test.gs"], Table.empty, ["LIMIT"], []⟩
    let options : BuildOptions := { includeTests := false, clean := true, downlevel := true }
    let alternative : BuildOptions := { includeTests := false, quiet := true, downlevel := true }
    let files : Table String := ⟨[("Limits.gs", "const LIMIT = 5;"), ("Bundle.gs", "LIMIT = [")]⟩
    let others : Table String :=
      ⟨[("Limits.test.gs", "var LIMIT = 6;"), ("Notes.gs", ""), ("Limits.gs", "const LIMIT = 5;")]⟩
    (m.output ∉ m.modulesFor options.includeTests ∧
      ∀ name ∈ m.modulesFor options.includeTests, others.find? name = files.find? name) ∧
    ∃ report, (build (⟨m, { files }⟩ : Project FileMap) options "2024-05-01").1 = .ok report ∧
      report.cleaned = true ∧
      (build (⟨m, { files := others }⟩ : Project FileMap) alternative "2024-05-01").1 =
        .ok { report with cleaned := false } := by
  intro m options alternative files others
  have apart : m.output ∉ m.modulesFor options.includeTests := by decide
  have agree : ∀ name ∈ m.modulesFor options.includeTests, others.find? name = files.find? name := by decide
  have alike := (@dependsOnBuildSetOnly m "2024-05-01" options alternative rfl rfl apart files).1 others agree
  have flags : (build (⟨m, { files }⟩ : Project FileMap) options "2024-05-01").1.toOption.map (·.cleaned) =
      some true ∧
      (build (⟨m, { files := others }⟩ : Project FileMap) alternative "2024-05-01").1.toOption.map (·.cleaned) =
        some false := by decide +kernel
  refine ⟨⟨apart, agree⟩, ?_⟩
  generalize (build (⟨m, { files }⟩ : Project FileMap) options "2024-05-01").1 = first at alike flags ⊢
  generalize (build (⟨m, { files := others }⟩ : Project FileMap) alternative "2024-05-01").1 = second
    at alike flags ⊢
  cases alike with
  | stopped => cases flags.1
  | built report cleaned =>
    obtain ⟨removed, none⟩ := flags
    cases none
    exact ⟨report, rfl, Option.some.inj removed, rfl⟩

end ScriptBundle.Project
