import ScriptBundle.Proofs.Accounting
import ScriptBundle.Proofs.Path

/-! What verification says of a module list, against what becomes of the list in a build. Verification asks
whether there is a file, a build whether the file can be read. Over a map without faults the two are the
same. In a folder a path can also lead to a folder, or through a file: verification then counts the module
among the missing ones, which a build would leave out, but the build takes it as unreadable and stops. -/
namespace ScriptBundle

namespace Resolution
variable {σ : Type} [Storage σ]

def absent (s : σ) (name : String) : Bool :=
  match Storage.read s name with
  | .ok none => true
  | _ => false

def refused (s : σ) (name : String) : Bool :=
  match Storage.read s name with
  | .error _ => true
  | _ => false

theorem missingReading (s : σ) (name : String) (ordinal : Nat) :
    (Reading.of s name ordinal).missing? = if absent s name = true then some name else none := by
  unfold Reading.of absent
  cases Storage.read s name with
  | error fault => rfl
  | ok text => cases text <;> rfl

theorem refusedReading (s : σ) (name : String) (ordinal : Nat) :
    (Reading.of s name ordinal).unreadable?.map Prod.fst = if refused s name = true then some name else none := by
  unfold Reading.of refused
  cases Storage.read s name with
  | error fault => rfl
  | ok text => cases text <;> rfl

theorem missingOf (s : σ) (modules : List String) :
    (Resolution.of s modules).missing = modules.filter (absent s) := by
  rw [missing, readingsTell (missingReading s), ← List.filterMap_eq_filter]
  rfl

theorem refusedOf (s : σ) (modules : List String) :
    (Resolution.of s modules).unreadable.map Prod.fst = modules.filter (refused s) := by
  rw [unreadable, List.map_filterMap, readingsTell (refusedReading s), ← List.filterMap_eq_filter]
  rfl

theorem absentNotRefused {s : σ} {name : String} (gone : absent s name = true) : refused s name = false := by
  unfold absent at gone
  split at gone
  · rename_i read
    rw [refused, read]
  · cases gone

theorem readableOf {s : σ} {modules : List String} :
    (Resolution.of s modules).unreadable = [] ↔ ∀ name ∈ modules, refused s name = false := by
  rw [← List.map_eq_nil_iff, refusedOf, List.filter_eq_nil_iff]
  simp

end Resolution

namespace Verification
open Resolution (absent refused)

def Candid {σ : Type} [Storage σ] (s : σ) : Prop :=
  ∀ name, Storage.isFile s name = !(absent s name || refused s name)

theorem candidMap (files : Table String) : Candid ({ files } : FileMap) := by
  intro name
  have read : Storage.read ({ files } : FileMap) name = .ok (files.find? name) := rfl
  have isFile : Storage.isFile ({ files } : FileMap) name = (files.find? name).isSome := rfl
  rw [isFile, absent, refused, read]
  cases files.find? name <;> rfl

theorem refusedMap (files : Table String) (name : String) : refused ({ files } : FileMap) name = false := rfl

theorem candidFolder (f : Folder) : Candid f := by
  intro name
  have isFile : Storage.isFile f name = (f.tree.read (f.pathOf name)).isOk := f.tree.isFileRead (f.pathOf name)
  have read : Storage.read f name = Folder.read f name := rfl
  rw [isFile, absent, refused, read]
  unfold Folder.read
  cases f.tree.read (f.pathOf name) with
  | ok bytes => rfl
  | error fault => cases fault <;> rfl

theorem refusedFolder {f : Folder} {name : String} :
    refused f name = true ↔ ∃ fault, f.tree.read (f.pathOf name) = .error fault ∧ fault ≠ .noEntry := by
  have read : Storage.read f name = Folder.read f name := rfl
  rw [refused, read]
  unfold Folder.read
  cases f.tree.read (f.pathOf name) with
  | ok bytes => simp
  | error fault => cases fault <;> simp

section Missing
variable {σ : Type} [Storage σ] {s : σ}

theorem missingOf (candid : Candid s) (modules : List String) :
    (Verification.of s modules).missing = modules.filter fun name => absent s name || refused s name :=
  List.filter_congr fun name _ => by rw [candid name, Bool.not_not]

theorem missingAgrees (candid : Candid s) (modules : List String) :
    (Verification.of s modules).missing = (Resolution.of s modules).missing ↔
      (Resolution.of s modules).unreadable = [] := by
  rw [missingOf candid, Resolution.missingOf, Resolution.readableOf]
  constructor
  · intro same name listed
    cases refusal : refused s name with
    | false => rfl
    | true =>
      have announced : name ∈ modules.filter fun name => absent s name || refused s name :=
        List.mem_filter.mpr ⟨listed, by simp [refusal]⟩
      rw [same] at announced
      have gone := (List.mem_filter.mp announced).2
      cases (Resolution.absentNotRefused gone).symm.trans refusal
  · intro readable
    exact List.filter_congr fun name listed => by rw [readable name listed, Bool.or_false]

end Missing
end Verification

theorem FileTree.readFolder {t : FileTree} {text : String} {location : Location}
    (located : t.locate text = .ok location) (inside : t.at? location = some .folder) :
    t.read text = .error .isFolder := by
  simp [FileTree.read, located, inside, bind, Except.bind]

namespace Folder

theorem fileNamed {f : Folder} {file : String} (isFile : f.tree.isFile (f.pathOf file) = true) : file ≠ "" := by
  rintro rfl
  obtain ⟨bytes, found⟩ := FileTree.isFileOk.mp isFile
  obtain ⟨location, located, entry⟩ := FileTree.readSource found
  obtain ⟨sound, _, slashed⟩ := FileTree.locateSource located
  have ends : (Path.spelled (f.pathOf "")).slashed = true := by
    have nonempty := sound.nonempty
    unfold pathOf Path.join at nonempty ⊢
    by_cases closed : f.root = "" ∨ f.root.toList.getLast? = some '/'
    · simp_all [Path.spelled]
    · simp [closed, Path.spelled]
  cases (slashed ends).symm.trans entry

theorem pathThrough {f : Folder} {file : String} (named : file ≠ "") (rest : String) :
    f.pathOf (file ++ "/" ++ rest) = f.pathOf file ++ "/" ++ rest := by
  have head : (file ++ "/" ++ rest).toList.head? = file.toList.head? := by
    cases chars : file.toList with
    | nil => exact absurd (by simpa using chars) named
    | cons c others => simp [chars]
  unfold pathOf Path.join
  rw [head]
  split
  · rfl
  · split <;> simp [String.append_assoc]

end Folder

theorem Reading.skippedOutcome {reading : Reading} (readable : reading.unreadable? = none) :
    reading.outcome.skipped? = reading.missing? := by
  cases reading with
  | found | missing => rfl
  | unreadable => cases readable

namespace Project
variable {σ : Type} [Storage σ]

theorem assembleRefused (p : Project σ) (options : BuildOptions) (date : String) (cleaned : Bool)
    (refusal : (Resolution.of p.storage (p.manifest.modulesFor options.includeTests)).unreadable ≠ []) :
    p.assemble options date cleaned =
      .error (.unreadable (Resolution.of p.storage (p.manifest.modulesFor options.includeTests)).unreadable) := by
  simp [assemble, load, refusal, bind, Except.bind]

theorem assembleReadable {p : Project σ} {options : BuildOptions} {date : String} {cleaned : Bool}
    (readable : (Resolution.of p.storage (p.manifest.modulesFor options.includeTests)).unreadable = []) :
    (∃ scan, p.assemble options date cleaned = .error (.duplicates scan)) ∨
    ∃ report, p.assemble options date cleaned = .ok report ∧
      report.skipped = (Resolution.of p.storage (p.manifest.modulesFor options.includeTests)).missing := by
  simp only [assemble, load, readable, List.isEmpty_nil, if_true, bind, Except.bind]
  split
  · exact .inl ⟨_, rfl⟩
  · refine .inr ⟨_, rfl, ?_⟩
    rw [BuildReport.skipped, ModuleOutcome.readOutcomes, List.filterMap_map]
    exact List.filterMap_congr fun reading member =>
      Reading.skippedOutcome (List.filterMap_eq_nil_iff.mp readable reading member)

theorem buildResolves (p : Project σ) {options : BuildOptions} (keeps : options.clean = false) (date : String) :
    let resolution := Resolution.of p.storage (p.manifest.modulesFor options.includeTests)
    (∀ modules, (p.build options date).1 = .error (.unreadable modules) ↔
      resolution.unreadable ≠ [] ∧ modules = resolution.unreadable) ∧
    ∀ report, (p.build options date).1 = .ok report →
      resolution.unreadable = [] ∧ report.skipped = resolution.missing := by
  intro resolution
  simp only [build, keeps, Bool.false_eq_true, if_false]
  by_cases refusal : resolution.unreadable = []
  · rcases assembleReadable refusal with ⟨scan, assembled⟩ | ⟨report, assembled, skipped⟩
    · rw [assembled]
      simp [refusal]
    · rw [assembled]
      simp only [publish]
      cases Storage.write p.storage report.artifact.name report.artifact.text with
      | error fault => simp [refusal]
      | ok storage =>
        refine ⟨fun modules => by simp [refusal], fun built ok => ?_⟩
        cases ok
        exact ⟨refusal, skipped⟩
  · rw [assembleRefused p options date false refusal]
    refine ⟨fun modules => ⟨fun failed => ?_, fun told => by rw [told.2]⟩, fun built ok => by cases ok⟩
    cases failed
    exact ⟨refusal, rfl⟩

theorem foreseen {p : Project σ} (candid : Verification.Candid p.storage) {options : BuildOptions}
    (keeps : options.clean = false) {date : String} {report : BuildReport}
    (built : (p.build options date).1 = .ok report) :
    report.skipped = (p.verify options.includeTests).missing := by
  obtain ⟨readable, skipped⟩ := (p.buildResolves keeps date).2 report built
  rw [skipped]
  exact ((Verification.missingAgrees candid _).mpr readable).symm

theorem foretellsUnlessUnreadable (m : Manifest) (includeTests : Bool) :
    (∀ files : Table String,
      let p : Project FileMap := ⟨m, { files }⟩
      (p.verify includeTests).missing = (Resolution.of p.storage (m.modulesFor includeTests)).missing ∧
      ∀ options date, options.includeTests = includeTests → options.clean = false →
        (∀ modules, (p.build options date).1 ≠ .error (.unreadable modules)) ∧
        ∀ report, (p.build options date).1 = .ok report → report.skipped = (p.verify includeTests).missing) ∧
    ∀ f : Folder,
      let p : Project Folder := ⟨m, f⟩
      let resolution := Resolution.of f (m.modulesFor includeTests)
      let unreadable := resolution.unreadable.map Prod.fst
      (p.verify includeTests).missing =
        (m.modulesFor includeTests).filter (fun name => name ∈ resolution.missing ∨ name ∈ unreadable) ∧
      ((p.verify includeTests).missing = resolution.missing ↔ resolution.unreadable = []) ∧
      (∀ name ∈ m.modulesFor includeTests, name ∈ unreadable ↔
        ∃ fault, f.tree.read (f.pathOf name) = .error fault ∧ fault ≠ .noEntry) ∧
      (∀ name ∈ m.modulesFor includeTests, ∀ location, f.tree.locate (f.pathOf name) = .ok location →
        f.tree.at? location = some .folder → name ∈ unreadable) ∧
      (∀ file rest, file ++ "/" ++ rest ∈ m.modulesFor includeTests → f.tree.isFile (f.pathOf file) = true →
        file ++ "/" ++ rest ∈ unreadable) ∧
      ∀ options date, options.includeTests = includeTests → options.clean = false →
        (∀ modules, (p.build options date).1 = .error (.unreadable modules) ↔
          resolution.unreadable ≠ [] ∧ modules = resolution.unreadable) ∧
        ∀ report, (p.build options date).1 = .ok report → report.skipped = (p.verify includeTests).missing := by
  refine ⟨fun files => ?_, fun f => ?_⟩
  · intro p
    have candid := Verification.candidMap files
    have readable : (Resolution.of p.storage (m.modulesFor includeTests)).unreadable = [] :=
      Resolution.readableOf.mpr fun name _ => Verification.refusedMap files name
    refine ⟨(Verification.missingAgrees candid _).mpr readable, fun options date tests keeps => ?_⟩
    subst tests
    refine ⟨fun modules failed => ?_, fun report built => foreseen candid keeps built⟩
    exact (((p.buildResolves keeps date).1 modules).mp failed).1 readable
  · intro p resolution unreadable
    have candid := Verification.candidFolder f
    have missing : resolution.missing = _ := Resolution.missingOf f (m.modulesFor includeTests)
    have refused : unreadable = _ := Resolution.refusedOf f (m.modulesFor includeTests)
    have told (name : String) (listed : name ∈ m.modulesFor includeTests) : name ∈ unreadable ↔
        ∃ fault, f.tree.read (f.pathOf name) = .error fault ∧ fault ≠ .noEntry := by
      rw [refused, List.mem_filter, ← Verification.refusedFolder]
      exact and_iff_right listed
    refine ⟨?_, Verification.missingAgrees candid _, told, ?_, ?_, ?_⟩
    · refine (Verification.missingOf candid _).trans (List.filter_congr fun name listed => ?_)
      have inSet : name ∈ m.modulesFor includeTests := listed
      rw [missing, refused]
      simp [List.mem_filter, inSet]
    · intro name listed location located inside
      exact (told name listed).mpr ⟨.isFolder, FileTree.readFolder located inside, by decide⟩
    · intro file rest listed isFile
      obtain ⟨bytes, found⟩ := FileTree.isFileOk.mp isFile
      rw [told _ listed, Folder.pathThrough (Folder.fileNamed isFile)]
      exact FileTree.readThroughFile found rest
    · intro options date tests keeps
      subst tests
      exact ⟨(p.buildResolves keeps date).1, fun report built => foreseen candid keeps built⟩

/- A module whose name is that of a folder and one below a file: both are announced as modules that will be
skipped, and both stop the build. -/
theorem folderAnnouncedAsSkipped :
    let m : Manifest :=
      ⟨"Ledger", "1.2.0", "Bundle.gs", ["Limits.gs", "Code.gs/Rates.gs"], [], Table.empty, ["LIMIT"], []⟩
    let p : Project Folder :=
      ⟨m, ⟨".", ⟨[(["work"], .folder), (["work", "Limits.gs"], .folder), (["work", "Code.gs"], .file [])], ["work"]⟩⟩⟩
    (p.verify true).missing = ["Limits.gs", "Code.gs/Rates.gs"] ∧
    (Resolution.of p.storage (m.modulesFor true)).missing = [] ∧
    (p.build {} "2024-05-01").1 = .error (.unreadable
      [("Limits.gs", ⟨.read, "./Limits.gs", .isFolder⟩),
       ("Code.gs/Rates.gs", ⟨.read, "./Code.gs/Rates.gs", .notFolder⟩)]) := by
  intro m p
  refine ⟨by decide +kernel, by decide +kernel, ((p.buildResolves rfl "2024-05-01").1 _).mpr ⟨?_, ?_⟩⟩
  · decide +kernel
  · decide +kernel

end Project
end ScriptBundle
