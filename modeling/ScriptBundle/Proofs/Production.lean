import ScriptBundle.Proofs.Independence
import ScriptBundle.Proofs.Pieces

/-! A production build beside a development build of the same files. The test modules come last, every unit is
lowered on its own, and a unit is rendered the same at any place of the list. So the two artifacts have the
same text between the header and the first test module, and production ends there. -/
namespace ScriptBundle
namespace Downlevel

def lowerIf (downlevel : Bool) (text : String) : Lowered :=
  if downlevel then lower text else ⟨text, 0⟩

def lowerEach (downlevel : Bool) (texts : List String) : Lowered :=
  ⟨String.join (texts.map fun text => (lowerIf downlevel text).text),
   (texts.map fun text => (lowerIf downlevel text).count).sum⟩

theorem lowerEachAppend (downlevel : Bool) (first second : List String) :
    lowerEach downlevel (first ++ second) =
      (lowerEach downlevel first).followed (lowerEach downlevel second) := by
  simp only [lowerEach, Lowered.followed, List.map_append, String.join_append, List.sum_append]

theorem lowerEachPlain (texts : List String) : lowerEach false texts = ⟨String.join texts, 0⟩ := by
  simp [lowerEach, lowerIf]

end Downlevel

namespace SourceUnit

theorem renderPresent (content : String → Option String) (modules : List String) :
    (present content modules).map render =
      modules.filterMap fun name => (content name).map fun text => render ⟨name, 0, text⟩ := by
  conv => rhs; rw [← List.zipIdx_map_fst 0 modules, List.filterMap_map]
  rw [present, List.map_filterMap]
  refine List.filterMap_congr fun entry _ => ?_
  rw [Option.map_map]
  rfl

theorem renderPresentAppend (content : String → Option String) (first second : List String) :
    (present content (first ++ second)).map render =
      (present content first).map render ++ (present content second).map render := by
  simp only [renderPresent, List.filterMap_append]

end SourceUnit

namespace Artifact
open Downlevel

theorem composePieces (output : String) (downlevel : Bool) (info : BuildInfo) (units : List SourceUnit) :
    let artifact := compose output downlevel info units
    (⟨artifact.text, artifact.lowered⟩ : Lowered) =
      (lowerIf downlevel info.header).followed (lowerEach downlevel (units.map SourceUnit.render)) := by
  cases downlevel with
  | false =>
    rw [lowerEachPlain]
    rfl
  | true =>
    rw [lowerEach, List.map_map, List.map_map]
    exact plainLowered info units

end Artifact

namespace Project
open Downlevel

theorem productionDropsTests (m : Manifest) (files : Table String) (date : String) (downlevel quiet still : Bool) :
    let p : Project FileMap := ⟨m, { files }⟩
    let development : BuildOptions := { includeTests := true, quiet, clean := false, downlevel }
    let production : BuildOptions := { includeTests := false, quiet := still, clean := false, downlevel }
    let header (options : BuildOptions) : Lowered := lowerIf downlevel (p.info options date).header
    let units (modules : List String) : Lowered :=
      lowerEach downlevel ((SourceUnit.present files.find? modules).map SourceUnit.render)
    ∀ full, (p.build development date).1 = .ok full →
      ∃ report, (p.build production date).1 = .ok report ∧
        report.artifact.text = (header production).text ++ (units m.coreModules).text ∧
        full.artifact.text =
          (header development).text ++ (units m.coreModules).text ++ (units m.testModules).text ∧
        report.artifact.lowered = (header production).count + (units m.coreModules).count ∧
        full.artifact.lowered =
          (header development).count + (units m.coreModules).count + (units m.testModules).count := by
  intro p development production header units full built
  have faultless : p.storage.faults = {} := rfl
  rw [faultlessBuild faultless] at built
  split at built
  · cases built
  · rename_i passes
    cases built
    have once : (p.scan (p.buildUnits production)).hasDuplicates = false :=
      Scan.passesFewer (p.buildUnitsFewer production) (Bool.not_eq_true _ ▸ passes)
    refine ⟨p.finished production date, ?_, ?_⟩
    · rw [faultlessBuild faultless, if_neg (by simp [once])]
    · have core := Artifact.composePieces m.output downlevel (p.info production date)
        (SourceUnit.present files.find? m.coreModules)
      have all := Artifact.composePieces m.output downlevel (p.info development date)
        (SourceUnit.present files.find? (m.coreModules ++ m.testModules))
      rw [SourceUnit.renderPresentAppend, lowerEachAppend] at all
      refine ⟨congrArg Lowered.text core, ?_, congrArg Lowered.count core, ?_⟩
      · rw [String.append_assoc]
        exact congrArg Lowered.text all
      · rw [Nat.add_assoc]
        exact congrArg Lowered.count all

theorem ledgerDropsTests :
    let m : Manifest :=
      ⟨"Ledger", "1.2.0", "Bundle.gs", ["Limits.gs", "Gone.gs"], ["Limits.test.gs"], Table.empty, ["LIMIT"], []⟩
    let limits : SourceUnit := ⟨"Limits.gs", 0, "const LIMIT = 5;"⟩
    let test : SourceUnit := ⟨"Limits.test.gs", 0, "rows.forEach(function([name, limit]) \x7b"⟩
    let p : Project FileMap := ⟨m, { files := ⟨[(test.name, test.text), (limits.name, limits.text)]⟩ }⟩
    let development : BuildOptions := { downlevel := true }
    let production : BuildOptions := { includeTests := false, downlevel := true }
    let header (options : BuildOptions) : Lowered := lowerIf true (p.info options "2024-05-01").header
    ∃ full report, (p.build development "2024-05-01").1 = .ok full ∧
      (p.build production "2024-05-01").1 = .ok report ∧
      report.artifact.text = (header production).text ++ (lowerEach true [limits.render]).text ∧
      full.artifact.text = (header development).text ++ (lowerEach true [limits.render]).text ++
        (lowerEach true [test.render]).text ∧
      report.artifact.lowered = (header production).count + (lowerEach true [limits.render]).count ∧
      full.artifact.lowered = (header development).count + (lowerEach true [limits.render]).count +
        (lowerEach true [test.render]).count := by
  intro m limits test p development production header
  have succeeds : (p.build development "2024-05-01").1.isOk = true := by decide +kernel
  have core : SourceUnit.present p.storage.files.find? m.coreModules = [limits] := by decide
  have tests : SourceUnit.present p.storage.files.find? m.testModules = [test] := by decide
  cases built : (p.build development "2024-05-01").1 with
  | error fault => simp [built, Except.isOk, Except.toBool] at succeeds
  | ok full =>
    have drops := productionDropsTests m p.storage.files "2024-05-01" true false false full built
    simp only [core, tests] at drops
    obtain ⟨report, published, texts⟩ := drops
    exact ⟨full, report, rfl, published, texts⟩

end Project
end ScriptBundle
