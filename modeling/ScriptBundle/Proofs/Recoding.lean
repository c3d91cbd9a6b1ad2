import ScriptBundle.Project
import ScriptBundle.Proofs.FileTree
import ScriptBundle.Proofs.Gate
import ScriptBundle.Proofs.Resolution

/-! The same files with other texts. A storage is recoded if every text in it goes through one function and all else
stays: the names, the folders, the faults. Then modules are found, missing and unreadable as before, and nothing that
a build decides changes, as long as its declarations do not. -/
namespace ScriptBundle
open Utf8 (Bytes)

namespace Table
variable {κ α β : Type} (f : α → β)

def mapEntries (entries : List (κ × α)) : List (κ × β) := entries.map fun entry => (entry.1, f entry.2)

theorem lookupMapped [BEq κ] [LawfulBEq κ] [DecidableEq κ] (entries : List (κ × α)) (key : κ) :
    (mapEntries f entries).lookup key = (entries.lookup key).map f := by
  induction entries with
  | nil => rfl
  | cons entry rest ih =>
    rw [mapEntries] at ih ⊢
    rw [List.map_cons, lookupCons, lookupCons, ih]
    split <;> rfl

theorem mappedOthers [DecidableEq κ] (entries : List (κ × α)) (key : κ) :
    (mapEntries f entries).filter (·.1 ≠ key) = mapEntries f (entries.filter (·.1 ≠ key)) :=
  List.filter_map

end Table

namespace Storage

/- The outcome of writing does not depend on what is written, nor on what was there. -/
structure Recoding {σ : Type} [Storage σ] (recode : σ → σ) (text : String → String) : Prop where
  read (s : σ) (name : String) : Storage.read (recode s) name = (Storage.read s name).map (Option.map text)
  remove (s : σ) (name : String) : Storage.remove (recode s) name = (Storage.remove s name).map (Prod.map id recode)
  write (s : σ) (name first second : String) :
    (Storage.write (recode s) name first).map (fun _ => ()) = (Storage.write s name second).map (fun _ => ())

end Storage

namespace FileMap

def recode (text : String → String) (m : FileMap) : FileMap :=
  { m with files := ⟨Table.mapEntries text m.files.entries⟩ }

theorem guardedMap {α β : Type} (access : Access) (path : String) (fault : Option String) (f : α → β) (value : α) :
    (guarded access path fault value).map f = guarded access path fault (f value) := by
  cases fault <;> rfl

theorem findRecoded (text : String → String) (m : FileMap) (name : String) :
    (recode text m).files.find? name = (m.files.find? name).map text :=
  Table.lookupMapped text m.files.entries name

theorem recoding (text : String → String) : Storage.Recoding (recode text) text where
  read m name := by
    show guarded .read name (m.faults.read.find? name) ((recode text m).files.find? name) =
      (guarded .read name (m.faults.read.find? name) (m.files.find? name)).map (Option.map text)
    rw [guardedMap, findRecoded]
  remove m name := by
    have known : (recode text m).files.contains name = m.files.contains name := by
      rw [Table.contains, Table.contains, findRecoded, Option.isSome_map]
    have rest : { recode text m with files := (recode text m).files.erase name } =
        recode text { m with files := m.files.erase name } :=
      congrArg (fun entries => FileMap.mk ⟨entries⟩ m.faults) (Table.mappedOthers text m.files.entries name)
    show guarded .remove name (m.faults.remove.find? name) ((recode text m).files.contains name,
        { recode text m with files := (recode text m).files.erase name }) =
      (guarded .remove name (m.faults.remove.find? name) (m.files.contains name,
        { m with files := m.files.erase name })).map (Prod.map id (recode text))
    rw [guardedMap, known, rest]
    rfl
  write m name first second := by
    show (guarded .write name (m.faults.write.find? name) _).map _ =
      (guarded .write name (m.faults.write.find? name) _).map _
    rw [guardedMap, guardedMap]

end FileMap

def Entry.recode (bytes : Bytes → Bytes) : Entry → Entry
  | .folder => .folder
  | .file content => .file (bytes content)

namespace FileTree

def recode (bytes : Bytes → Bytes) (t : FileTree) : FileTree :=
  { t with entries := Table.mapEntries (Entry.recode bytes) t.entries }

section Recoded
variable (bytes : Bytes → Bytes) (t : FileTree)

theorem entryRecoded (location : Location) :
    at? (recode bytes t) location = (t.at? location).map (Entry.recode bytes) := by
  rw [at?, at?]
  split
  · rfl
  · exact Table.lookupMapped _ t.entries location

theorem folderRecoded (location : Location) : (recode bytes t).folder location = t.folder location := by
  rw [folder, folder, entryRecoded]
  rcases t.at? location with _ | _ | _ <;> rfl

theorem stepRecoded (location : Location) (part : String) :
    (recode bytes t).step location part = t.step location part := by
  rw [step, step, folderRecoded]
  simp only [entryRecoded, Option.isSome_map]

theorem walkRecoded (location : Location) (parts : List String) :
    (recode bytes t).walk location parts = t.walk location parts := by
  have steps : (recode bytes t).step = t.step := funext fun location => funext (stepRecoded bytes t location)
  rw [walk, walk, steps]

theorem locateRecoded (path : String) : (recode bytes t).locate path = t.locate path := by
  rw [locate, locate]
  simp only [walkRecoded, folderRecoded]
  rfl

theorem targetRecoded (path : String) : (recode bytes t).target path = t.target path := by
  rw [target, target]
  simp only [walkRecoded, folderRecoded]
  rfl

theorem readRecoded (path : String) : (recode bytes t).read path = (t.read path).map bytes := by
  rw [read, read, locateRecoded]
  cases t.locate path with
  | error fault => rfl
  | ok location =>
    simp only [bind, Except.bind, entryRecoded]
    rcases t.at? location with _ | _ | _ <;> rfl

theorem eraseRecoded (location : Location) : (recode bytes t).erase location = recode bytes (t.erase location) :=
  congrArg (fun entries => FileTree.mk entries t.here) (Table.mappedOthers _ t.entries location)

theorem removeRecoded (path : String) : (recode bytes t).remove path = (t.remove path).map (recode bytes) := by
  rw [remove, remove, targetRecoded]
  cases t.target path with
  | error fault => rfl
  | ok target =>
    simp only [bind, Except.bind, entryRecoded, eraseRecoded]
    split
    · rcases t.at? target.location with _ | _ | _
      · rfl
      · rfl
      · show (if target.slashed then _ else _) = (if target.slashed then _ else _ : Except FileFault FileTree).map _
        split <;> rfl
    · rfl

theorem writeRecoded (path : String) (first second : Bytes) :
    ((recode bytes t).write path first).map (fun _ => ()) = (t.write path second).map (fun _ => ()) := by
  rw [write, write, targetRecoded]
  cases t.target path with
  | error fault => rfl
  | ok target =>
    simp only [bind, Except.bind, entryRecoded]
    split
    · rfl
    · split
      · rcases t.at? target.location with _ | _ | _ <;> rfl
      · rfl

end Recoded
end FileTree

namespace Folder

def recode (bytes : Bytes → Bytes) (f : Folder) : Folder := { f with tree := f.tree.recode bytes }

theorem writeOutcome (f : Folder) (name text : String) :
    (f.write name text).map (fun _ => ()) =
      ((f.tree.write (f.pathOf name) (Utf8.encode text)).map fun _ => ()).mapError
        fun fault => ⟨.write, f.pathOf name, fault⟩ := by
  unfold write
  cases f.tree.write (f.pathOf name) (Utf8.encode text) <;> rfl

theorem recoding {bytes : Bytes → Bytes} {text : String → String}
    (decoded : ∀ content, Utf8.decode (bytes content) = text (Utf8.decode content)) :
    Storage.Recoding (recode bytes) text where
  read f name := by
    show (recode bytes f).read name = (f.read name).map (Option.map text)
    have reads : (recode bytes f).tree.read ((recode bytes f).pathOf name) = (f.tree.read (f.pathOf name)).map bytes :=
      FileTree.readRecoded bytes f.tree _
    unfold read
    rw [reads]
    cases f.tree.read (f.pathOf name) with
    | ok content => exact congrArg (fun t => Except.ok (some t)) (decoded content)
    | error fault => cases fault <;> rfl
  remove f name := by
    show (recode bytes f).remove name = (f.remove name).map (Prod.map id (recode bytes))
    have removes : (recode bytes f).tree.remove ((recode bytes f).pathOf name) =
        (f.tree.remove (f.pathOf name)).map (FileTree.recode bytes) := FileTree.removeRecoded bytes f.tree _
    unfold remove
    rw [removes]
    cases f.tree.remove (f.pathOf name) with
    | ok tree => rfl
    | error fault => cases fault <;> rfl
  write f name first second := by
    show ((recode bytes f).write name first).map (fun _ => ()) = (f.write name second).map (fun _ => ())
    rw [writeOutcome, writeOutcome, ← FileTree.writeRecoded bytes f.tree _ (Utf8.encode first)]
    rfl

end Folder

def SourceUnit.recode (text : String → String) (unit : SourceUnit) : SourceUnit := { unit with text := text unit.text }

def Reading.recode (text : String → String) : Reading → Reading
  | .found unit => .found (unit.recode text)
  | .missing name => .missing name
  | .unreadable name error => .unreadable name error

namespace Resolution

def recode (text : String → String) (r : Resolution) : Resolution := ⟨r.readings.map (Reading.recode text)⟩

theorem unitsRecoded (text : String → String) (r : Resolution) :
    (r.recode text).units = r.units.map (SourceUnit.recode text) := by
  rw [units, units, recode, List.filterMap_map, List.map_filterMap]
  refine List.filterMap_congr fun reading _ => ?_
  cases reading <;> rfl

theorem unreadableRecoded (text : String → String) (r : Resolution) : (r.recode text).unreadable = r.unreadable := by
  rw [unreadable, unreadable, recode, List.filterMap_map]
  refine List.filterMap_congr fun reading _ => ?_
  cases reading <;> rfl

theorem ofRecoded {σ : Type} [Storage σ] {recode : σ → σ} {text : String → String}
    (recoding : Storage.Recoding recode text) (s : σ) (modules : List String) :
    Resolution.of (recode s) modules = (Resolution.of s modules).recode text := by
  have each (name : String) (ordinal : Nat) :
      Reading.of (recode s) name ordinal = (Reading.of s name ordinal).recode text := by
    rw [Reading.of, Reading.of, recoding.read]
    rcases Storage.read s name with _ | _ | _ <;> rfl
  have readings : (Resolution.of (recode s) modules).readings = ((Resolution.of s modules).recode text).readings := by
    rw [Resolution.recode, readingsOf, readingsOf, List.map_map]
    exact List.map_congr_left fun entry _ => each entry.1 entry.2
  exact congrArg Resolution.mk readings

end Resolution

namespace Project

def gate (scan : Scan) : Except BuildError Scan := if scan.hasDuplicates then .error (.duplicates scan) else .ok scan

section Outcomes
variable {σ : Type} [Storage σ] (p : Project σ)

def scanned (modules : List String) : Except BuildError Scan :=
  (p.load modules).map fun resolution => p.scan resolution.units

theorem assembleScan (options : BuildOptions) (date : String) (cleaned : Bool) :
    (p.assemble options date cleaned).map BuildReport.scan =
      p.scanned (p.manifest.modulesFor options.includeTests) >>= gate := by
  rw [assemble, scanned]
  cases p.load (p.manifest.modulesFor options.includeTests) with
  | error error => rfl
  | ok resolution =>
    simp only [bind, Except.bind, Except.map, gate]
    by_cases fails : (p.scan resolution.units).hasDuplicates = true
    · rw [if_pos fails, if_pos fails]
    · rw [if_neg fails, if_neg fails]

theorem publishOutcome {α : Type} (answer : α) (report : BuildReport) :
    (p.publish report).map (fun _ => answer) =
      (((Storage.write p.storage report.artifact.name report.artifact.text).map fun _ => ()).mapError .write).map
        fun _ => answer := by
  rw [publish]
  cases Storage.write p.storage report.artifact.name report.artifact.text <;> rfl

theorem buildStages (options : BuildOptions) (date : String) :
    (p.build options date).1.map BuildReport.scan =
      (if options.clean then p.clean else .ok (false, p)).bind fun start =>
        (start.2.assemble options date start.1).bind fun report =>
          (start.2.publish report).map fun _ => report.scan := by
  rw [build]
  cases (if options.clean then p.clean else .ok (false, p)) with
  | error error => rfl
  | ok start =>
    simp only [Except.bind]
    cases start.2.assemble options date start.1 with
    | error error => rfl
    | ok report =>
      simp only
      cases start.2.publish report <;> rfl

end Outcomes

section Recoded
variable {σ : Type} {recode : σ → σ} {text : String → String}

def recodeStorage (recode : σ → σ) (p : Project σ) : Project σ := { p with storage := recode p.storage }

variable [Storage σ] (recoding : Storage.Recoding recode text) (p : Project σ)
include recoding

theorem loadRecoded (modules : List String) :
    (p.recodeStorage recode).load modules = (p.load modules).map (Resolution.recode text) := by
  have resolved : Resolution.of (p.recodeStorage recode).storage modules =
      (Resolution.of p.storage modules).recode text := Resolution.ofRecoded recoding p.storage modules
  rw [load, load, resolved, Resolution.unreadableRecoded]
  split <;> rfl

theorem cleanRecoded : (p.recodeStorage recode).clean = p.clean.map (Prod.map id (recodeStorage recode)) := by
  have removes : Storage.remove (p.recodeStorage recode).storage (p.recodeStorage recode).manifest.output =
      (Storage.remove p.storage p.manifest.output).map (Prod.map id recode) := recoding.remove _ _
  rw [clean, clean, removes]
  cases Storage.remove p.storage p.manifest.output <;> rfl

theorem publishRecoded {α : Type} (answer : α) {first second : BuildReport}
    (named : first.artifact.name = second.artifact.name) :
    ((p.recodeStorage recode).publish first).map (fun _ => answer) = (p.publish second).map fun _ => answer := by
  have writes := recoding.write p.storage second.artifact.name first.artifact.text second.artifact.text
  rw [publishOutcome, publishOutcome, named, ← writes]
  rfl

variable (blind : ∀ symbols units,
  Scan.ofUnits symbols (units.map (SourceUnit.recode text)) = Scan.ofUnits symbols units)
include blind

theorem scannedRecoded (modules : List String) : (p.recodeStorage recode).scanned modules = p.scanned modules := by
  rw [scanned, scanned, loadRecoded recoding]
  cases p.load modules with
  | error error => rfl
  | ok resolution =>
    have scans : (p.recodeStorage recode).scan (resolution.recode text).units = p.scan resolution.units := by
      rw [Resolution.unitsRecoded]
      exact blind _ resolution.units
    exact congrArg Except.ok scans

theorem checkRecoded : (p.recodeStorage recode).check = p.check :=
  scannedRecoded recoding p blind p.manifest.allModules

theorem assembleRecoded (options : BuildOptions) (date : String) (cleaned : Bool) :
    ((p.recodeStorage recode).assemble options date cleaned).map BuildReport.scan =
      (p.assemble options date cleaned).map BuildReport.scan := by
  rw [assembleScan, assembleScan, scannedRecoded recoding p blind]
  rfl

theorem finishRecoded (options : BuildOptions) (date : String) (cleaned : Bool) :
    (((p.recodeStorage recode).assemble options date cleaned).bind fun report =>
        ((p.recodeStorage recode).publish report).map fun _ => report.scan) =
      (p.assemble options date cleaned).bind fun report => (p.publish report).map fun _ => report.scan := by
  have assembled := assembleRecoded recoding p blind options date cleaned
  cases left : (p.recodeStorage recode).assemble options date cleaned with
  | error error =>
    cases right : p.assemble options date cleaned with
    | error other =>
      rw [left, right] at assembled
      exact assembled
    | ok report =>
      rw [left, right] at assembled
      cases assembled
  | ok first =>
    cases right : p.assemble options date cleaned with
    | error error =>
      rw [left, right] at assembled
      cases assembled
    | ok second =>
      rw [left, right] at assembled
      have scans : first.scan = second.scan := Except.ok.inj assembled
      obtain ⟨_, composed, _⟩ := assembleUnits left
      obtain ⟨_, recomposed, _⟩ := assembleUnits right
      have named : first.artifact.name = second.artifact.name := by
        rw [composed, recomposed]
        rfl
      have published := publishRecoded recoding p second.scan named
      simp only [Except.bind, scans]
      exact published

theorem buildRecoded (options : BuildOptions) (date : String) :
    ((p.recodeStorage recode).build options date).1.map BuildReport.scan =
      (p.build options date).1.map BuildReport.scan := by
  have cleaned : (if options.clean then (p.recodeStorage recode).clean else .ok (false, p.recodeStorage recode)) =
      (if options.clean then p.clean else .ok (false, p)).map (Prod.map id (recodeStorage recode)) := by
    rw [cleanRecoded recoding]
    split <;> rfl
  rw [buildStages, buildStages, cleaned]
  cases (if options.clean then p.clean else .ok (false, p)) with
  | error error => rfl
  | ok start =>
    exact finishRecoded recoding start.2 blind options date start.1

end Recoded
end Project
end ScriptBundle
