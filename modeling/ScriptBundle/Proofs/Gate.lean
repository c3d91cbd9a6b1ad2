import ScriptBundle.Project
import ScriptBundle.Proofs.Artifact
import ScriptBundle.Proofs.Lowering

/-! The duplicate check looks at the units of a build, but the artifact is what runs. Both bind the
same symbols: scanning the artifact finds what scanning its units finds, and lowering keeps it. So an
artifact that was built binds no tracked symbol on two lines. -/
namespace ScriptBundle
open Lines (linesOf lineFeeds OneLine)

namespace Artifact

theorem composeInText {info : BuildInfo} {units : List SourceUnit} (plain : info.Plain)
    (names : ∀ unit ∈ units, OneLine unit.name) (symbols : List String) (output : String)
    (downlevel : Bool) :
    Binding.inText symbols (compose output downlevel info units).text =
      (units.flatMap fun unit => linesOf unit.text).flatMap (Binding.tracked symbols) := by
  have lowered : Binding.inText symbols (compose output downlevel info units).text =
      Binding.inText symbols (plainText info units) := by
    cases downlevel with
    | false => rfl
    | true => exact Downlevel.lowerInText symbols (plainText info units)
  rw [lowered, ← Occurrence.declarationSymbols symbols ⟨output, 0, plainText info units⟩,
    Declaration.ofUnitText, plainDeclarations plain names, placedUnmoved _ _ _ _ fun _ _ => rfl,
    List.map_flatMap, funext (Occurrence.declarationSymbols symbols), List.flatMap_assoc]
  rfl

end Artifact

theorem Scan.bindsOnce {symbols : List String} {units : List SourceUnit}
    (passes : (ofUnits symbols units).hasDuplicates = false) (symbol : String) :
    Binding.lineCount symbols (units.flatMap fun unit => linesOf unit.text) symbol ≤ 1 := by
  have several := (hasDuplicatesOfUnits symbols units).not.mp (by simp [passes])
  rw [← Occurrence.locationsLength]
  exact Nat.not_lt.mp fun twice => several ⟨symbol, twice⟩

namespace Project
variable {σ : Type} [Storage σ]

theorem cleanManifest {p q : Project σ} {removed : Bool} (h : p.clean = .ok (removed, q)) :
    q.manifest = p.manifest := by
  unfold clean at h
  split at h
  · contradiction
  · cases h
    rfl

theorem assembleUnits {p : Project σ} {options : BuildOptions} {date : String} {cleaned : Bool}
    {report : BuildReport} (h : p.assemble options date cleaned = .ok report) :
    ∃ units, report.artifact = .compose p.manifest.output options.downlevel (p.info options date) units ∧
      (p.scan units).hasDuplicates = false := by
  unfold assemble at h
  cases loaded : p.load (p.manifest.modulesFor options.includeTests) with
  | error fault =>
    rw [loaded] at h
    cases h
  | ok resolution =>
    simp only [loaded, bind, Except.bind] at h
    split at h
    · contradiction
    · rename_i passes
      cases h
      exact ⟨resolution.units, rfl, Bool.not_eq_true _ ▸ passes⟩

theorem buildUnitsPass {p : Project σ} {options : BuildOptions} {date : String} {report : BuildReport}
    (built : (p.build options date).1 = .ok report) :
    ∃ units, report.artifact = .compose p.manifest.output options.downlevel (p.info options date) units ∧
      (p.scan units).hasDuplicates = false := by
  unfold build at built
  split at built
  · contradiction
  · rename_i cleaned q cleaning
    have manifest : q.manifest = p.manifest := by
      split at cleaning
      · exact cleanManifest cleaning
      · cases cleaning
        rfl
    split at built
    · contradiction
    · rename_i assembled assembling
      have same : assembled = report := by
        split at built
        · contradiction
        · exact Except.ok.inj built
      obtain ⟨units, artifact, passes⟩ := assembleUnits assembling
      simp only [info, scan, manifest] at artifact passes
      exact ⟨units, same ▸ artifact, passes⟩

theorem builtBindsOnce {p : Project σ} {options : BuildOptions} {date : String} {report : BuildReport}
    (built : (p.build options date).1 = .ok report) (plain : (p.info options date).Plain)
    (names : ∀ unit ∈ report.artifact.units, OneLine unit.name) (symbol : String) :
    Binding.lineCount p.manifest.trackedSymbols (linesOf report.artifact.text) symbol ≤ 1 := by
  obtain ⟨units, artifact, passes⟩ := buildUnitsPass built
  rw [artifact] at names ⊢
  have plainNames : ∀ unit ∈ units, OneLine unit.name :=
    fun unit member => names _ (List.mem_map_of_mem member)
  have same := Artifact.composeInText plain plainNames p.manifest.trackedSymbols p.manifest.output
    options.downlevel
  rw [Binding.lineCountEq, ← Binding.inText, same, ← Binding.lineCountEq]
  exact Scan.bindsOnce passes symbol

end Project

namespace Artifact

theorem scansLikeItsUnits {info : BuildInfo} {units : List SourceUnit} (plain : info.Plain)
    (names : ∀ unit ∈ units, OneLine unit.name) (symbols : List String) (output file : String)
    (ordinal : Nat) :
    let whole : SourceUnit := ⟨file, ordinal, (compose output false info units).text⟩
    Declaration.ofUnit symbols whole = placed symbols file info units ∧
    (Scan.ofUnits symbols [whole]).table = SymbolTable.recorded (placed symbols file info units) ∧
    (Scan.ofUnits symbols units).table =
      SymbolTable.recorded (units.flatMap (Declaration.ofUnit symbols)) ∧
    (placed symbols file info units).map (fun d => (d.symbol, d.kind)) =
      (units.flatMap (Declaration.ofUnit symbols)).map (fun d => (d.symbol, d.kind)) ∧
    (∀ entry ∈ units.zipIdx, whole.text = leading info (units.take entry.2) entry.1 ++ entry.1.text ++
      ("\n\n" ++ String.join ((units.drop (entry.2 + 1)).map SourceUnit.render))) ∧
    (lineFeeds whole.text + 1 < UInt32.size →
      ∀ entry ∈ units.zipIdx, ∀ d ∈ Declaration.ofUnit symbols entry.1,
        let above := lineFeeds (leading info (units.take entry.2) entry.1)
        (Declaration.moved file above d).line.toNat = d.line.toNat + above) ∧
    ∀ {σ : Type} [Storage σ] (p : Project σ) (options : BuildOptions) (date : String)
      (report : BuildReport),
      (p.build options date).1 = .ok report → (p.info options date).Plain →
      (∀ unit ∈ report.artifact.units, OneLine unit.name) →
      ∀ symbol, Binding.lineCount p.manifest.trackedSymbols (linesOf report.artifact.text) symbol ≤ 1 := by
  intro whole
  have declarations : Declaration.ofUnit symbols whole = placed symbols file info units :=
    plainDeclarations plain names symbols file
  refine ⟨declarations, ?_, Scan.tableOfUnits symbols units, placedUnmoved _ _ _ _ fun _ _ => rfl,
    fun entry member => plainTextAt info member, ?_, ?_⟩
  · rw [Scan.tableOfUnits, List.flatMap_singleton, declarations]
  · intro countable entry member d declared
    exact placedLine member countable declared file
  · intro σ _ p options date report built plain names symbol
    exact Project.builtBindsOnce built plain names symbol

theorem ledgerScansLikeItsUnits :
    let info : BuildInfo := ⟨"Ledger", "1.2.0", "2024-05-01", .development, 3, true⟩
    let units : List SourceUnit :=
      [⟨"Limits.gs", 0, "const LIMIT = 5;\n// LIMIT = [\nNAMES = ["⟩, ⟨"Empty.gs", 1, ""⟩,
       ⟨"Code.gs", 2, "\nlet LIMIT = 6;"⟩]
    let p : Project FileMap :=
      ⟨⟨"Ledger", "1.2.0", "Bundle.gs", ["Limits.gs"], [], Table.empty, ["LIMIT"], []⟩,
       ⟨⟨[("Limits.gs", "const LIMIT = a.map(function([b,\nLIMIT]) \x7b")]⟩, {}⟩⟩
    (info.Plain ∧ ∀ unit ∈ units, OneLine unit.name) ∧
    (Declaration.ofUnit ["LIMIT", "NAMES"]
        ⟨"Bundle.gs", 0, (compose "Bundle.gs" false info units).text⟩).map (fun d => (d.symbol, d.kind)) =
      [("LIMIT", .constant), ("NAMES", .bare), ("LIMIT", .blockScoped)] ∧
    ∃ report, (p.build { downlevel := true } "2024-05-01").1 = .ok report ∧
      ∀ symbol, Binding.lineCount ["LIMIT"] (linesOf report.artifact.text) symbol ≤ 1 := by
  intro info units p
  have plain : info.Plain := ⟨by decide, by decide, by decide⟩
  have names : ∀ unit ∈ units, OneLine unit.name := by decide
  have holds := scansLikeItsUnits plain names ["LIMIT", "NAMES"] "Bundle.gs" "Bundle.gs" 0
  have succeeds : (p.build { downlevel := true } "2024-05-01").1.isOk = true := by decide +kernel
  have included : (p.build { downlevel := true } "2024-05-01").1.toOption.all
      fun report => report.artifact.units.all fun unit => OneLine unit.name := by decide +kernel
  refine ⟨⟨plain, names⟩, ?_, ?_⟩
  · rw [holds.1, holds.2.2.2.1]
    decide +kernel
  cases built : (p.build { downlevel := true } "2024-05-01").1 with
  | error fault => simp [built, Except.isOk, Except.toBool] at succeeds
  | ok report =>
    have plainNames : ∀ unit ∈ report.artifact.units, OneLine unit.name := by
      simpa [built, Except.toOption] using included
    have plainInfo : (p.info { downlevel := true } "2024-05-01").Plain :=
      ⟨by decide, by decide, by decide⟩
    exact ⟨report, rfl, holds.2.2.2.2.2.2 p _ _ report built plainInfo plainNames⟩

end Artifact

namespace Downlevel

theorem lowerDeclared (symbols : List String) (file : String) (ordinal : Nat) (text : String) :
    (Declaration.ofUnit symbols ⟨file, ordinal, (lower text).text⟩).map (·.symbol) =
      (Declaration.ofUnit symbols ⟨file, ordinal, text⟩).map (·.symbol) := by
  rw [Occurrence.declarationSymbols, Occurrence.declarationSymbols, lowerInText]

theorem lowerRecordsTheSame (symbols : List String) (file : String) (ordinal : Nat) :
    (∀ text, (Declaration.ofUnit symbols ⟨file, ordinal, (lower text).text⟩).map (·.symbol) =
      (Declaration.ofUnit symbols ⟨file, ordinal, text⟩).map (·.symbol)) ∧
    (∀ (earlier : SymbolTable) text,
      (earlier.recordUnit symbols ⟨file, ordinal, (lower text).text⟩).census =
        (earlier.recordUnit symbols ⟨file, ordinal, text⟩).census) ∧
    ∀ output info units,
      (Declaration.ofUnit symbols ⟨file, ordinal, (Artifact.compose output true info units).text⟩).map
          (·.symbol) =
        (Declaration.ofUnit symbols ⟨file, ordinal, (Artifact.compose output false info units).text⟩).map
          (·.symbol) := by
  refine ⟨lowerDeclared symbols file ordinal, fun earlier text => ?_, fun output info units => ?_⟩
  · simp only [SymbolTable.recordUnit, SymbolTable.censusRecordAll, lowerDeclared]
  · exact lowerDeclared symbols file ordinal (Artifact.plainText info units)

end Downlevel
end ScriptBundle
