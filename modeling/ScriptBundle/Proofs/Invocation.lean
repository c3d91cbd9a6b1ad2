import ScriptBundle.CommandLine.Run
import ScriptBundle.Proofs.Build
import ScriptBundle.Proofs.Foresight
import ScriptBundle.Proofs.Gate

/-! One run of the command line as a whole: which of its modes acts, what it may change, and how its exit code
comes about. Only a build changes anything, and then only the file that its manifest names as output. -/
namespace ScriptBundle

namespace Manifest

inductive Unusable (tree : FileTree) (path : String) : Prop where
  | unreadable (fault : FileFault) (failed : tree.read path = .error fault)
  | undecodable (bytes : Utf8.Bytes) (read : tree.read path = .ok bytes) (failed : Utf8.decode? bytes = none)
  | unparsable (bytes : Utf8.Bytes) (text : String) (fault : Json.Fault) (read : tree.read path = .ok bytes)
      (decoded : Utf8.decode? bytes = some text) (failed : ofJson text = .error fault)
  | flawed (bytes : Utf8.Bytes) (text : String) (m : Manifest) (flaw : Flaw) (read : tree.read path = .ok bytes)
      (decoded : Utf8.decode? bytes = some text) (parsed : ofJson text = .ok m) (failed : m.flaw? = some flaw)

structure Rejected (tree : FileTree) (root : String) (asked : Option String) : Prop where
  chosen : asked.isSome = true ∨ tree.isFile (pathFor root asked) = true
  unusable : Unusable tree (pathFor root asked)

theorem loadFails {tree : FileTree} {path : String} (unusable : Unusable tree path) :
    ∃ error, load tree path = .error error := by
  cases unusable with
  | unreadable fault failed => exact ⟨.unreadable path fault, by rw [load, failed]⟩
  | undecodable bytes read failed => exact ⟨.unreadable path .notUtf8, by simp only [load, read, failed]⟩
  | unparsable bytes text fault read decoded failed =>
    exact ⟨.unparsable fault, by simp only [load, read, decoded, parse, failed]⟩
  | flawed bytes text m flaw read decoded parsed failed =>
    exact ⟨.flawed flaw, by simp only [load, read, decoded, parse, parsed, failed]⟩

theorem loadSource {tree : FileTree} {path : String} {error : ManifestError}
    (failed : load tree path = .error error) : Unusable tree path := by
  unfold load at failed
  split at failed
  · rename_i fault read
    exact .unreadable fault read
  · rename_i bytes read
    split at failed
    · rename_i undecoded
      exact .undecodable bytes read undecoded
    · rename_i text decoded
      unfold parse at failed
      split at failed
      · rename_i fault unparsed
        exact .unparsable bytes text fault read decoded unparsed
      · rename_i m parsed
        split at failed
        · rename_i flaw found
          exact .flawed bytes text m flaw read decoded parsed found
        · cases failed

theorem lookupFails {tree : FileTree} {root : String} {asked : Option String} :
    (∃ error, lookup tree root asked = .error error) ↔ Rejected tree root asked := by
  constructor
  · rintro ⟨error, failed⟩
    unfold lookup at failed
    split at failed
    · rename_i chosen
      exact ⟨chosen, loadSource failed⟩
    · cases failed
  · intro rejected
    rw [lookup, if_pos rejected.chosen]
    exact loadFails rejected.unusable

end Manifest

namespace Resolution
variable {σ : Type} [Storage σ]

def text? (s : σ) (name : String) : Option String :=
  match Storage.read s name with
  | .ok text => text
  | .error _ => none

theorem textsOf (s : σ) (modules : List String) :
    (Resolution.of s modules).units.map SourceUnit.text = modules.filterMap (text? s) := by
  rw [units, List.map_filterMap]
  refine readingsTell (fun name ordinal => ?_) modules
  unfold Reading.of text?
  cases Storage.read s name with
  | error fault => rfl
  | ok text => cases text <;> rfl

theorem readableModules {s : σ} {modules : List String} :
    (Resolution.of s modules).unreadable = [] ↔ ∀ name ∈ modules, ∀ error, Storage.read s name ≠ .error error := by
  rw [readableOf]
  refine forall₂_congr fun name _ => ?_
  unfold refused
  split
  · rename_i error failed
    simp [failed]
  · rename_i told
    simpa using fun error failed => told error failed

end Resolution

namespace Folder
variable {f later : Folder} {name : String}

theorem removeSource {removed : Bool} (done : f.remove name = .ok (removed, later)) :
    later.root = f.root ∧ (later.tree = f.tree ∨ f.tree.remove (f.pathOf name) = .ok later.tree) := by
  unfold Folder.remove at done
  split at done
  · rename_i tree removal
    cases done
    exact ⟨rfl, .inr removal⟩
  · cases done
    exact ⟨rfl, .inl rfl⟩
  · cases done

theorem writeSource {text : String} (done : f.write name text = .ok later) :
    f.tree.write (f.pathOf name) (Utf8.encode text) = .ok later.tree := by
  unfold Folder.write at done
  split at done
  · rename_i tree writing
    cases done
    exact writing
  · cases done

end Folder

namespace Project

section Folders
variable {p q : Project Folder}

theorem cleanTree {removed : Bool} (cleaned : p.clean = .ok (removed, q)) :
    q.outputPath = p.outputPath ∧
      (q.storage.tree = p.storage.tree ∨ p.storage.tree.remove p.outputPath = .ok q.storage.tree) := by
  have manifest := cleanManifest cleaned
  unfold clean at cleaned
  split at cleaned
  · cases cleaned
  · rename_i taken storage done
    cases cleaned
    obtain ⟨root, removal⟩ := Folder.removeSource done
    have path : Path.join storage.root p.manifest.output = Path.join p.storage.root p.manifest.output := by rw [root]
    exact ⟨path, removal⟩

theorem publishTree {report : BuildReport} (published : p.publish report = .ok q)
    (name : report.artifact.name = p.manifest.output) :
    p.storage.tree.write p.outputPath (Utf8.encode report.artifact.text) = .ok q.storage.tree := by
  unfold publish at published
  split at published
  · cases published
  · rename_i storage done
    cases published
    rw [name] at done
    exact Folder.writeSource done

theorem buildKeeps (p : Project Folder) (options : BuildOptions) (date : String) :
    p.storage.tree.Keeps (p.build options date).2.storage.tree p.outputPath := by
  unfold build
  split
  · exact .unchanged _ _
  · rename_i cleaned q cleaning
    have stage : q.outputPath = p.outputPath ∧
        (q.storage.tree = p.storage.tree ∨ p.storage.tree.remove p.outputPath = .ok q.storage.tree) := by
      split at cleaning
      · exact cleanTree cleaning
      · cases cleaning
        exact ⟨rfl, .inl rfl⟩
    obtain ⟨path, before⟩ := stage
    have kept : p.storage.tree.Keeps q.storage.tree p.outputPath := by
      rcases before with same | removal
      · rw [same]
        exact .unchanged _ _
      · exact .removed removal
    split
    · exact kept
    · rename_i report assembling
      split
      · exact kept
      · rename_i published publishing
        have name : report.artifact.name = q.manifest.output := by
          obtain ⟨units, artifact, _⟩ := assembleUnits assembling
          rw [artifact]
          rfl
        have written := publishTree publishing name
        rw [path] at written
        rcases before with same | removal
        · exact .written (same ▸ written)
        · exact .replaced removal written

end Folders
end Project

namespace CommandLine
open Binding (lineCount)

section Modes
variable {σ : Type} [Storage σ]

theorem checkPasses (colours : Bool) (p : Project σ) :
    (runCheck colours p).exit = 0 ↔
      (Resolution.of p.storage p.manifest.allModules).unreadable = [] ∧
        (p.scan (Resolution.of p.storage p.manifest.allModules).units).hasDuplicates = false := by
  simp only [runCheck, Project.check, Project.load]
  by_cases readable : (Resolution.of p.storage p.manifest.allModules).unreadable = []
  · simp only [readable, List.isEmpty_nil, if_true, Except.map, true_and]
    split
    · rename_i twice
      simp [twice]
    · rename_i once
      simp [once]
  · simp [readable, Except.map]

theorem checkExit (colours : Bool) (p : Project σ) :
    (runCheck colours p).exit = 0 ↔
      (∀ name ∈ p.manifest.allModules, ∀ error, Storage.read p.storage name ≠ .error error) ∧
      ∀ symbol ∈ p.manifest.trackedSymbols, lineCount p.manifest.trackedSymbols
        ((p.manifest.allModules.filterMap (Resolution.text? p.storage)).flatMap Lines.linesOf) symbol < 2 := by
  rw [checkPasses, Resolution.readableModules, ← Bool.not_eq_true, Project.scan, Scan.failsExactly,
    ← Resolution.textsOf, List.flatMap_map]
  simp only [not_exists, not_and, Nat.not_le]

theorem buildExit (colours : Bool) (p : Project σ) (options : BuildOptions) (date : String) :
    (runBuild colours p options date).1.exit = (if (p.build options date).1.isOk then 0 else 1) ∧
      (runBuild colours p options date).2 = (p.build options date).2 := by
  unfold runBuild
  dsimp only
  split
  · rename_i report after built
    simp [built, Except.isOk, Except.toBool]
  · rename_i error after built
    simp [built, Except.isOk, Except.toBool]

theorem checkCode (colours : Bool) (p : Project σ) :
    (runCheck colours p).exit = 0 ∨ (runCheck colours p).exit = 1 := by
  unfold runCheck
  split
  · exact .inr rfl
  · split
    · exact .inr rfl
    · exact .inl rfl

theorem modeCode (colours : Bool) (request : Request) (date : String) (p : Project σ) :
    (runMode colours request date p).1.exit = 0 ∨ (runMode colours request date p).1.exit = 1 := by
  unfold runMode
  split
  · exact .inl rfl
  · exact checkCode colours p
  · exact .inl rfl
  · rw [(buildExit colours p request.options date).1]
    split
    · exact .inl rfl
    · exact .inr rfl

theorem modeReads {colours : Bool} {request : Request} {date : String} (mode : request.mode ≠ .build) (p : Project σ) :
    (runMode colours request date p).2 = p := by
  unfold runMode
  split
  · rfl
  · rfl
  · rfl
  · rename_i building
    exact absurd building mode

theorem modeQuiet (colours : Bool) (request : Request) (quiet : Bool) (date : String) (p : Project σ) :
    (runMode colours { request with quiet } date p).1.exit = (runMode colours request date p).1.exit ∧
      (runMode colours { request with quiet } date p).2 = (runMode colours request date p).2 := by
  have same : Request.mode { request with quiet } = request.mode := rfl
  unfold runMode
  rw [same]
  split
  · exact ⟨rfl, rfl⟩
  · exact ⟨rfl, rfl⟩
  · exact ⟨rfl, rfl⟩
  · have quieter := buildExit colours p (Request.options { request with quiet }) date
    have louder := buildExit colours p request.options date
    exact ⟨quieter.1.trans louder.1.symm, quieter.2.trans louder.2.symm⟩

end Modes

section Runs
variable (colours : Bool) (date : String) (tree : FileTree) (request : Request)

theorem runHelp (mode : request.mode = .help) : run colours date tree request = .of help tree := by
  rw [run, if_pos mode]

theorem runRejected {error : ManifestError} (mode : request.mode ≠ .help)
    (failed : Manifest.lookup tree request.root request.manifest = .error error) :
    run colours date tree request = .of ⟨1, [failure colours error.message]⟩ tree := by
  rw [run, if_neg mode, failed]

theorem runAccepted {m : Manifest} (mode : request.mode ≠ .help)
    (found : Manifest.lookup tree request.root request.manifest = .ok m) :
    run colours date tree request =
      let p : Project Folder := ⟨m, ⟨request.root, tree⟩⟩
      .of (runMode colours request date p).1 (runMode colours request date p).2.storage.tree := by
  rw [run, if_neg mode, found]

theorem runReads (mode : request.mode ≠ .build) : (run colours date tree request).tree = tree := by
  by_cases helping : request.mode = .help
  · rw [runHelp colours date tree request helping]
    rfl
  · cases found : Manifest.lookup tree request.root request.manifest with
    | error error =>
      rw [runRejected colours date tree request helping found]
      rfl
    | ok m =>
      rw [runAccepted colours date tree request helping found]
      dsimp only [Outcome.of]
      rw [modeReads mode]

theorem runCode : (run colours date tree request).exit = 0 ∨ (run colours date tree request).exit = 1 := by
  by_cases helping : request.mode = .help
  · rw [runHelp colours date tree request helping]
    exact .inl rfl
  · cases found : Manifest.lookup tree request.root request.manifest with
    | error error =>
      rw [runRejected colours date tree request helping found]
      exact .inr rfl
    | ok m =>
      rw [runAccepted colours date tree request helping found]
      exact modeCode colours request date _

theorem runQuiet (quiet : Bool) :
    (run colours date tree { request with quiet }).exit = (run colours date tree request).exit ∧
      (run colours date tree { request with quiet }).tree = (run colours date tree request).tree := by
  by_cases helping : request.mode = .help
  · rw [runHelp colours date tree request helping, runHelp colours date tree { request with quiet } helping]
    exact ⟨rfl, rfl⟩
  · cases found : Manifest.lookup tree request.root request.manifest with
    | error error =>
      rw [runRejected colours date tree request helping found,
        runRejected colours date tree { request with quiet } helping found]
      exact ⟨rfl, rfl⟩
    | ok m =>
      rw [runAccepted colours date tree request helping found,
        runAccepted colours date tree { request with quiet } helping found]
      obtain ⟨exit, after⟩ := modeQuiet colours request quiet date (⟨m, ⟨request.root, tree⟩⟩ : Project Folder)
      dsimp only [Outcome.of]
      exact ⟨exit, by rw [after]⟩

end Runs

/- A run changes at most the file that the output path names in the tree it starts from. -/
theorem runsOneMode (colours : Bool) (date : String) (tree : FileTree) (request : Request) :
    let outcome := run colours date tree request
    (request.mode ≠ .build → outcome.tree = tree) ∧
    (request.mode = .help → outcome.exit = 0 ∧
      ∀ other, run colours date other request = { outcome with tree := other }) ∧
    (request.mode ≠ .help → Manifest.Rejected tree request.root request.manifest →
      outcome.exit = 1 ∧ outcome.tree = tree) ∧
    (request.mode ≠ .help → ¬ Manifest.Rejected tree request.root request.manifest →
      ∃ m, Manifest.lookup tree request.root request.manifest = .ok m ∧
        let p : Project Folder := ⟨m, ⟨request.root, tree⟩⟩
        (request.mode = .checkDuplicates → (outcome.exit = 0 ↔
          (∀ name ∈ m.allModules, ∀ error, p.storage.read name ≠ .error error) ∧
          ∀ symbol ∈ m.trackedSymbols, lineCount m.trackedSymbols
            ((m.allModules.filterMap (Resolution.text? p.storage)).flatMap Lines.linesOf) symbol < 2)) ∧
        (request.mode = .verify → outcome.exit = 0) ∧
        (request.mode = .build →
          (outcome.exit = 0 ↔ ∃ report, (p.build request.options date).1 = .ok report) ∧
          tree.Keeps outcome.tree (Path.join request.root m.output))) ∧
    (outcome.exit = 0 ∨ outcome.exit = 1) ∧
    ∀ quiet,
      (run colours date tree { request with quiet }).exit = outcome.exit ∧
      (run colours date tree { request with quiet }).tree = outcome.tree := by
  intro outcome
  refine ⟨runReads colours date tree request, fun helping => ?_, fun acting rejected => ?_,
    fun acting accepted => ?_, runCode colours date tree request, runQuiet colours date tree request⟩
  · have ran : outcome = .of help tree := runHelp colours date tree request helping
    refine ⟨by rw [ran]; rfl, fun other => ?_⟩
    rw [runHelp colours date other request helping, ran]
    rfl
  · obtain ⟨error, failed⟩ := Manifest.lookupFails.mpr rejected
    have ran : outcome = _ := runRejected colours date tree request acting failed
    rw [ran]
    exact ⟨rfl, rfl⟩
  · cases found : Manifest.lookup tree request.root request.manifest with
    | error error => exact absurd (Manifest.lookupFails.mp ⟨error, found⟩) accepted
    | ok m =>
      have ran : outcome = _ := runAccepted colours date tree request acting found
      refine ⟨m, rfl, ?_⟩
      intro p
      rw [ran]
      dsimp only [Outcome.of]
      refine ⟨fun checking => ?_, fun verifying => ?_, fun building => ?_⟩
      · rw [runMode, checking]
        exact checkExit colours p
      · rw [runMode, verifying]
        rfl
      · rw [runMode, building]
        obtain ⟨exit, after⟩ := buildExit colours p request.options date
        rw [exit, after]
        refine ⟨?_, p.buildKeeps request.options date⟩
        cases (p.build request.options date).1 <;> simp [Except.isOk, Except.toBool]

end CommandLine
end ScriptBundle
