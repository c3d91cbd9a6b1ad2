import ScriptBundle.Manifest.Reader
import ScriptBundle.Proofs.Invocation
import ScriptBundle.Proofs.Listing

/-! Which files verification flags as unlisted, against the files that the bundle uses. A file is flagged by its
name in the root folder, and that name is compared with the names as the manifest spells them. In a map of files a
name has no other spelling, so nothing that is used is flagged. In a folder another spelling of the path leads to the
same file, and a used file that the manifest only spells with a slash is flagged: a module, or the artifact itself
once it was built. -/
namespace ScriptBundle

theorem sortNamesFilter (keep : String → Bool) (names : List String) :
    (sortNames names).filter keep = sortNames (names.filter keep) :=
  sortNamesUnique ((List.mergeSort_perm names _).filter keep) ((sortNamesSorted names).filter keep)

namespace Table
variable {α : Type}

def keysBut (t : Table α) (key : String) : List String := t.keys.filter (· ≠ key)

theorem keysButErase (t : Table α) (key : String) : (t.erase key).keysBut key = t.keysBut key := by
  have keys : (t.erase key).keys = t.keys.filter (· ≠ key) := by
    rw [Table.keys, Table.keys, List.filter_map]
    rfl
  rw [keysBut, keysBut, keys, List.filter_filter]
  simp only [Bool.and_self]

theorem keysButInsert (t : Table α) (key : String) (value : α) : (t.insert key value).keysBut key = t.keysBut key := by
  have keys : (t.insert key value).keys = if key ∈ t.keys then t.keys else t.keys ++ [key] :=
    keysUpdateEntries key (fun _ => value) t.entries
  rw [keysBut, keysBut, keys]
  split <;> simp

end Table

def IsScript (file : String) : Prop := scriptExtension.toList <:+ file.toList

instance (file : String) : Decidable (IsScript file) := inferInstanceAs (Decidable (_ <:+ _))

namespace Manifest

def used (m : Manifest) : List String := m.output :: m.allModules

def spelled (m : Manifest) : List String := m.used ++ m.excludedFiles

def flags (m : Manifest) (file : String) : Bool :=
  scriptExtension.toList.isSuffixOf file.toList && !m.isListed file && !m.isExcluded file

theorem flagsExactly {m : Manifest} {file : String} : m.flags file = true ↔ IsScript file ∧ file ∉ m.spelled := by
  simp only [flags, isListed, isExcluded, IsScript, spelled, used, Bool.and_eq_true, Bool.not_eq_true', Bool.or_eq_false_iff,
    List.contains_eq_mem, decide_eq_false_iff_not, List.isSuffixOf_iff_suffix, List.mem_append, List.mem_cons, not_or]
  tauto

theorem flagsOthers (m : Manifest) (file : String) : (m.flags file && decide (file ≠ m.output)) = m.flags file := by
  cases flagged : m.flags file with
  | false => rfl
  | true =>
    have other : file ≠ m.output := fun same => (flagsExactly.mp flagged).2 (same ▸ List.mem_cons_self ..)
    simpa using other

end Manifest

theorem FileMap.unlistedKeys (s : FileMap) (m : Manifest) : unlistedFiles s m =
    match FileMap.guarded .list "." s.faults.list (sortNames s.files.keys) with
    | .error _ => []
    | .ok files => files.filter m.flags := rfl

theorem Folder.unlistedStands {f : Folder} (proper : f.tree.Proper) (m : Manifest) {file : String} :
    file ∈ unlistedFiles f m ↔ f.Stands file ∧ IsScript file ∧ file ∉ m.spelled := by
  rw [← standsListed proper, ← Manifest.flagsExactly]
  have unlisted : unlistedFiles f m = match f.list with
    | .error _ => []
    | .ok files => files.filter m.flags := rfl
  rw [unlisted]
  cases f.list <;> simp

namespace Project
variable {options : BuildOptions} {date : String}

def flagged {σ : Type} [Storage σ] (p : Project σ) : List String := p.unlisted.filterMap Diagnostic.file

theorem flaggedUnlisted {σ : Type} [Storage σ] (p : Project σ) : p.flagged = unlistedFiles p.storage p.manifest := by
  rw [flagged, unlisted, unlistedDiagnostics, List.filterMap_map]
  exact List.filterMap_some

section Folders
variable {p q : Project Folder} {report : BuildReport}

theorem cleanRoot {removed : Bool} (cleaned : p.clean = .ok (removed, q)) : q.storage.root = p.storage.root := by
  unfold clean at cleaned
  split at cleaned
  · cases cleaned
  · rename_i taken storage done
    cases cleaned
    exact (Folder.removeSource done).1

theorem publishKeeps (published : p.publish report = .ok q) :
    q.manifest = p.manifest ∧ q.storage.root = p.storage.root := by
  unfold publish at published
  split at published
  · cases published
  · rename_i storage done
    cases published
    have written : Folder.write p.storage report.artifact.name report.artifact.text = .ok storage := done
    unfold Folder.write at written
    split at written
    · cases written
      exact ⟨rfl, rfl⟩
    · cases written

theorem buildRewrites (built : (p.build options date).1 = .ok report) :
    (p.build options date).2.manifest = p.manifest ∧ (p.build options date).2.storage.root = p.storage.root ∧
    ∃ target bytes, p.storage.tree.target p.outputPath = .ok target ∧ target.slashed = false ∧
      p.storage.tree.Rewritten (p.build options date).2.storage.tree target bytes := by
  generalize run : p.build options date = outcome at built ⊢
  unfold build at run
  split at run
  · subst run
    cases built
  · rename_i cleaned q cleaning
    have stage : q.manifest = p.manifest ∧ q.storage.root = p.storage.root ∧ q.outputPath = p.outputPath ∧
        (q.storage.tree = p.storage.tree ∨ p.storage.tree.remove p.outputPath = .ok q.storage.tree) := by
      split at cleaning
      · exact ⟨cleanManifest cleaning, cleanRoot cleaning, cleanTree cleaning⟩
      · cases cleaning
        exact ⟨rfl, rfl, rfl, .inl rfl⟩
    obtain ⟨manifest, root, path, before⟩ := stage
    split at run
    · subst run
      cases built
    · rename_i assembled assembling
      split at run
      · subst run
        cases built
      · rename_i published publishing
        subst run
        obtain ⟨units, artifact, _⟩ := assembleUnits assembling
        have written := publishTree publishing (by rw [artifact]; rfl)
        obtain ⟨keptManifest, keptRoot⟩ := publishKeeps publishing
        refine ⟨keptManifest.trans manifest, keptRoot.trans root, ?_⟩
        rw [path] at written
        rcases before with same | removal
        · rw [same] at written
          obtain ⟨target, found, unslashed, rewritten⟩ := FileTree.writeRewrites written
          exact ⟨target, _, found, unslashed, rewritten⟩
        · obtain ⟨target, found, unslashed, rewritten⟩ := FileTree.replaceRewrites removal written
          exact ⟨target, _, found, unslashed, rewritten⟩

end Folders

section Maps
variable (p : Project FileMap)

theorem flaggedKnown (file : String) : file ∈ p.flagged ↔
    p.storage.faults.list = none ∧ file ∈ p.storage.files.keys ∧ IsScript file ∧ file ∉ p.manifest.spelled := by
  rw [flaggedUnlisted, FileMap.unlistedKeys, ← Manifest.flagsExactly]
  cases p.storage.faults.list with
  | some text => simp [FileMap.guarded]
  | none => simp [FileMap.guarded, sortNames]

theorem cleanedKeys (options : BuildOptions) :
    (p.afterClean options).storage.files.keysBut p.manifest.output = p.storage.files.keysBut p.manifest.output := by
  unfold afterClean
  split
  · exact Table.keysButErase ..
  · rfl

theorem flaggedKeys {p q : Project FileMap} (manifest : q.manifest = p.manifest)
    (faults : q.storage.faults = p.storage.faults)
    (keys : q.storage.files.keysBut p.manifest.output = p.storage.files.keysBut p.manifest.output) :
    q.flagged = p.flagged := by
  have told (files : Table String) : (sortNames files.keys).filter p.manifest.flags =
      sortNames ((files.keysBut p.manifest.output).filter p.manifest.flags) := by
    rw [sortNamesFilter, Table.keysBut, List.filter_filter, funext p.manifest.flagsOthers]
  rw [flaggedUnlisted, flaggedUnlisted, manifest, FileMap.unlistedKeys, FileMap.unlistedKeys, faults]
  cases p.storage.faults.list with
  | some text => rfl
  | none => simp only [FileMap.guarded, told, keys]

theorem writtenFlags (text : String) : (p.afterWrite text).flagged = p.flagged :=
  flaggedKeys rfl rfl (Table.keysButInsert ..)

theorem buildFlags (options : BuildOptions) (date : String) : (p.build options date).2.flagged = p.flagged := by
  obtain ⟨manifest, faults⟩ := afterCleanKeeps p options
  have cleaned := flaggedKeys manifest faults (p.cleanedKeys options)
  have run := p.buildRun options date
  generalize p.build options date = outcome at run ⊢
  cases run with
  | uncleaned => rfl
  | unreadable | duplicated | unwritten => exact cleaned
  | written => exact (writtenFlags _ _).trans cleaned

end Maps

section Flagged
variable {p : Project Folder}

theorem flaggedStands (proper : p.storage.tree.Proper) (file : String) :
    file ∈ p.flagged ↔ p.storage.Stands file ∧ IsScript file ∧ file ∉ p.manifest.spelled := by
  rw [flaggedUnlisted]
  exact Folder.unlistedStands proper p.manifest

theorem flaggedUndivided (proper : p.storage.tree.Proper) {name file : String} (used : name ∈ p.manifest.used)
    (undivided : '/' ∉ name.toList) (flagged : file ∈ p.flagged) : ¬ p.storage.Leads name file := by
  intro leads
  obtain ⟨stands, _, unspelled⟩ := (flaggedStands proper file).mp flagged
  obtain rfl := Folder.leadsUndivided proper stands undivided leads
  exact unspelled (List.mem_append_left _ used)

theorem builtFlags (proper : p.storage.tree.Proper) {report : BuildReport}
    (built : (p.build options date).1 = .ok report) :
    (p.build options date).2.storage.tree.Proper ∧
    ∀ file, file ∈ (p.build options date).2.flagged ↔ file ∈ p.flagged ∨
      ((p.build options date).2.storage.Leads p.manifest.output file ∧ (p.build options date).2.storage.Stands file ∧
        IsScript file ∧ file ∉ p.manifest.spelled) := by
  obtain ⟨manifest, root, target, bytes, found, unslashed, rewritten⟩ := buildRewrites built
  have properLater := rewritten.proper proper
  refine ⟨properLater, fun file => ?_⟩
  have stood := Folder.standsRewritten root rewritten found unslashed file
  rw [flaggedStands properLater, flaggedStands proper, manifest]
  constructor
  · rintro ⟨stands, rest⟩
    rcases stood.mp stands with before | ⟨leads, _⟩
    · exact .inl ⟨before, rest⟩
    · exact .inr ⟨leads, stands, rest⟩
  · rintro (⟨before, rest⟩ | ⟨_, facts⟩)
    · exact ⟨stood.mpr (.inl before), rest⟩
    · exact facts

end Flagged

theorem flagsOnlyRespelled (m : Manifest) :
    (∀ files : FileMap,
      let p : Project FileMap := ⟨m, files⟩
      (∀ file, file ∈ p.flagged ↔
        files.faults.list = none ∧ file ∈ files.files.keys ∧ IsScript file ∧ file ∉ m.spelled) ∧
      (∀ file ∈ p.flagged, file ∉ m.used) ∧
      ∀ options date, (p.build options date).2.flagged = p.flagged) ∧
    ∀ f : Folder, f.tree.Proper →
      let p : Project Folder := ⟨m, f⟩
      (∀ name file, (file ∈ p.flagged ∧ f.SameFile name file) ↔
        f.Leads name file ∧ f.Stands file ∧ IsScript file ∧ file ∉ m.spelled) ∧
      (∀ name ∈ m.used, '/' ∉ name.toList → ∀ file ∈ p.flagged, ¬ f.SameFile name file) ∧
      ∀ options date report, (p.build options date).1 = .ok report →
        let later := (p.build options date).2
        (∀ file, file ∈ later.flagged ↔ file ∈ p.flagged ∨
          (later.storage.Leads m.output file ∧ later.storage.Stands file ∧ IsScript file ∧ file ∉ m.spelled)) ∧
        ('/' ∉ m.output.toList → ∀ file, file ∈ later.flagged ↔ file ∈ p.flagged) := by
  refine ⟨fun files => ⟨flaggedKnown _, fun file flagged used => ?_, buildFlags _⟩, fun f proper => ?_⟩
  · obtain ⟨_, _, _, unspelled⟩ := (flaggedKnown _ file).mp flagged
    exact unspelled (List.mem_append_left _ used)
  · intro p
    have told : ∀ file, file ∈ p.flagged ↔ _ := flaggedStands proper
    refine ⟨fun name file => ?_, fun name used undivided file flagged same => ?_, fun options date report built => ?_⟩
    · constructor
      · rintro ⟨flagged, same⟩
        have facts := (told file).mp flagged
        exact ⟨(Folder.sameLeads proper facts.1).mp same, facts⟩
      · rintro ⟨leads, facts⟩
        exact ⟨(told file).mpr facts, (Folder.sameLeads proper facts.1).mpr leads⟩
    · have leads := (Folder.sameLeads proper ((told file).mp flagged).1).mp same
      exact flaggedUndivided proper used undivided flagged leads
    · obtain ⟨properLater, added⟩ := builtFlags proper built
      refine ⟨added, fun undivided file => (added file).trans (or_iff_left ?_)⟩
      rintro ⟨leads, stands, _, unspelled⟩
      obtain rfl := Folder.leadsUndivided properLater stands undivided leads
      exact unspelled (List.mem_append_left _ (List.mem_cons_self ..))

/- A module and the output that are spelled with a dot in front: the module is flagged from the start, and the artifact
as soon as it is there. -/
theorem respelledArtifactIsFlagged :
    let text := "\x7b\"output\":\"./Bundle.gs\",\"coreModules\":[\"./Rates.gs\"],\"testModules\":[]\x7d"
    let m : Manifest :=
      { Manifest.builtin with output := "./Bundle.gs", coreModules := ["./Rates.gs"], testModules := [] }
    let f : Folder := ⟨".", ⟨[(["work"], .folder), (["work", "Rates.gs"], .file [])], ["work"]⟩⟩
    let p : Project Folder := ⟨m, f⟩
    let later := (p.build {} "2024-05-01").2
    Manifest.parse text = .ok m ∧ f.tree.Proper ∧
      ("Rates.gs" ∈ p.flagged ∧ f.SameFile "./Rates.gs" "Rates.gs") ∧
      (p.build {} "2024-05-01").1.isOk = true ∧ "Bundle.gs" ∉ p.flagged ∧
      "Bundle.gs" ∈ later.flagged ∧ later.storage.SameFile m.output "Bundle.gs" := by
  intro text m f p later
  have proper : f.tree.Proper := FileTree.properOfEntries (by decide +kernel)
  have ok : (p.build {} "2024-05-01").1.isOk = true := by decide +kernel
  have flagged : p.flagged = ["Rates.gs"] := by
    rw [flaggedUnlisted]
    decide +kernel
  refine ⟨by decide +kernel, proper, ⟨by simp [flagged], ?_⟩, ok, by simp [flagged], ?_⟩
  · exact ⟨["work", "Rates.gs"], [], by decide +kernel, by decide +kernel, by decide +kernel⟩
  · obtain ⟨report, built⟩ : ∃ report, (p.build {} "2024-05-01").1 = .ok report := by
      cases outcome : (p.build {} "2024-05-01").1 with
      | error error => simp [outcome, Except.isOk, Except.toBool] at ok
      | ok report => exact ⟨report, rfl⟩
    obtain ⟨properLater, added⟩ := builtFlags proper built
    have root : later.storage.tree.locate later.storage.root = .ok ["work"] := by decide +kernel
    have located : later.storage.tree.locate (later.storage.pathOf "./Bundle.gs") = .ok ["work", "Bundle.gs"] := by
      decide +kernel
    have isFile : later.storage.tree.isFile (later.storage.pathOf "./Bundle.gs") = true := by decide +kernel
    obtain ⟨location, bytes, again, there⟩ := FileTree.isFileSource.mp isFile
    obtain rfl : ["work", "Bundle.gs"] = location := Except.ok.inj (located.symm.trans again)
    have leads : later.storage.Leads "./Bundle.gs" "Bundle.gs" := ⟨["work"], root, located⟩
    have stands : later.storage.Stands "Bundle.gs" :=
      ⟨["work"], bytes, root, by decide +kernel, there, by decide +kernel⟩
    refine ⟨(added "Bundle.gs").mpr (.inr ⟨leads, stands, ?_, by decide⟩), (Folder.sameLeads properLater stands).mpr leads⟩
    decide

end Project
end ScriptBundle
