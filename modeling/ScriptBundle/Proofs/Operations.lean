import ScriptBundle.Manifest.Reader
import ScriptBundle.Proofs.Build

/-! Operations on a project one after another, whatever they are and however each of them ends. They
touch no file but the one that the manifest names as its output. Nothing keeps a manifest from listing
that file as a module too, and such a module is lost. -/
namespace ScriptBundle.Project

inductive Operation where
  | check
  | verify (includeTests : Bool)
  | orderWarnings
  | clean
  | build (options : BuildOptions) (date : String)

inductive Answer where
  | scanned (outcome : Except BuildError Scan)
  | verified (report : Verification) (unlisted : Diagnostics)
  | warned (warnings : List LoadOrder.Warning)
  | cleaned (outcome : Except BuildError Bool)
  | built (outcome : Except BuildError BuildReport)

def perform {σ : Type} [Storage σ] (p : Project σ) : Operation → Answer × Project σ
  | .check => (.scanned p.check, p)
  | .verify includeTests => (.verified (p.verify includeTests) p.unlisted, p)
  | .orderWarnings => (.warned p.orderWarnings, p)
  | .clean =>
    match p.clean with
    | .error error => (.cleaned (.error error), p)
    | .ok (removed, cleaned) => (.cleaned (.ok removed), cleaned)
  | .build options date => (.built (p.build options date).1, (p.build options date).2)

def after {σ : Type} [Storage σ] (p : Project σ) (operations : List Operation) : Project σ :=
  operations.foldl (fun p operation => (p.perform operation).2) p

structure OnlyOutput (p q : Project FileMap) : Prop where
  manifest : q.manifest = p.manifest
  others : ∀ name, name ≠ p.manifest.output → q.storage.content name = p.storage.content name

namespace OnlyOutput
variable {p q r : Project FileMap}

theorem unchanged (p : Project FileMap) : OnlyOutput p p := ⟨rfl, fun _ _ => rfl⟩

theorem followed (first : OnlyOutput p q) (second : OnlyOutput q r) : OnlyOutput p r := by
  refine ⟨second.manifest.trans first.manifest, fun name other => ?_⟩
  rw [second.others name (first.manifest ▸ other), first.others name other]

theorem cleaned (p : Project FileMap) (options : BuildOptions) : OnlyOutput p (p.afterClean options) := by
  refine ⟨(afterCleanKeeps p options).1, fun name other => ?_⟩
  rw [afterCleanContent, baseline]
  split
  · exact Function.update_of_ne other _ _
  · rfl

theorem written (p : Project FileMap) (text : String) : OnlyOutput p (p.afterWrite text) := by
  refine ⟨rfl, fun name other => ?_⟩
  have inserted : (p.afterWrite text).storage.content = _ := Table.findInsert p.storage.files p.manifest.output text
  rw [inserted]
  exact Function.update_of_ne other _ _

theorem built (p : Project FileMap) (options : BuildOptions) (date : String) :
    OnlyOutput p (p.build options date).2 := by
  have run := p.buildRun options date
  generalize p.build options date = outcome at run ⊢
  cases run with
  | uncleaned => exact unchanged p
  | unreadable | duplicated | unwritten => exact cleaned p options
  | written => exact (cleaned p options).followed (written _ _)

theorem performed (p : Project FileMap) (operation : Operation) :
    OnlyOutput p (p.perform operation).2 := by
  cases operation with
  | check | verify | orderWarnings => exact unchanged p
  | build options date => exact built p options date
  | clean =>
    have stage : p.clean = _ := p.cleanStage { clean := true }
    rw [perform, stage]
    cases p.cleanFault? { clean := true } with
    | some error => exact unchanged p
    | none => exact cleaned p { clean := true }

theorem performedAll (p : Project FileMap) (operations : List Operation) :
    OnlyOutput p (p.after operations) := by
  induction operations generalizing p with
  | nil => exact unchanged p
  | cons operation operations ih => exact (performed p operation).followed (ih _)

end OnlyOutput

theorem cleanLoses (m : Manifest) (files : Table String) :
    (after (⟨m, { files }⟩ : Project FileMap) [.clean]).storage.content m.output = none := by
  have removed := congrFun (Table.findErase files m.output) m.output
  rwa [Function.update_self] at removed

theorem modulesKeepTheirTexts (m : Manifest) :
    (∀ (files : FileMap) (operations : List Operation), ∀ name ∈ m.allModules, name ≠ m.output →
      (after ⟨m, files⟩ operations).storage.content name = files.content name) ∧
    ((∀ (files : FileMap) (operations : List Operation), ∀ name ∈ m.allModules,
      (after ⟨m, files⟩ operations).storage.content name = files.content name) ↔
        m.output ∉ m.allModules) := by
  have kept (files : FileMap) (operations : List Operation) (name : String) (other : name ≠ m.output) :
      (after ⟨m, files⟩ operations).storage.content name = files.content name :=
    (OnlyOutput.performedAll ⟨m, files⟩ operations).others name other
  refine ⟨fun files operations name _ => kept files operations name, ?_, ?_⟩
  · intro all listed
    have same := all { files := ⟨[(m.output, "")]⟩ } [.clean] m.output listed
    rw [cleanLoses] at same
    simp [FileMap.content, Table.find?] at same
  · intro unlisted files operations name listed
    exact kept files operations name fun same => unlisted (same ▸ listed)

theorem acceptedManifestLosesModule :
    ¬ ∀ (text : String) (m : Manifest), Manifest.parse text = .ok m →
      ∀ (files : FileMap) (operations : List Operation), ∀ name ∈ m.allModules,
        (after ⟨m, files⟩ operations).storage.content name = files.content name := by
  intro kept
  let m : Manifest := { Manifest.builtin with output := "A.gs", coreModules := ["A.gs"], testModules := [] }
  have accepted : Manifest.parse
      "\x7b\"output\":\"A.gs\",\"coreModules\":[\"A.gs\"],\"testModules\":[]\x7d" = .ok m := by
    decide +kernel
  have same := kept _ m accepted { files := ⟨[("A.gs", "var LIMIT = 5;\n")]⟩ } [.clean] "A.gs" (by decide)
  exact absurd same (by decide)

end ScriptBundle.Project
