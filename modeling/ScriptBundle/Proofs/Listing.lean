import ScriptBundle.Proofs.FlatFolder
import ScriptBundle.Proofs.Foresight

/-! The files that a folder lists, and the paths that lead to them. A listed file stands right in the folder under a
name without slashes, so its own path leads to it, and so may paths that are spelled otherwise. Writing a file adds
that file to the list and takes none away. -/
namespace ScriptBundle
open Utf8 (Bytes)

namespace FileTree

/- Everything stands in a folder, under a name that a path can spell as one part. -/
structure Proper (t : FileTree) : Prop where
  named : ∀ location name, (t.at? (location ++ [name])).isSome = true → Path.Plain name
  nested : ∀ location name, (t.at? (location ++ [name])).isSome = true → t.at? location = some .folder

theorem properOfEntries {t : FileTree}
    (each : ∀ location ∈ t.entries.map (·.1), t.at? location.dropLast = some .folder ∧
      ∀ name ∈ location.getLast?, Path.Plain name) : t.Proper := by
  have known (location : Location) (name : String) (there : (t.at? (location ++ [name])).isSome = true) :
      location ++ [name] ∈ t.entries.map (·.1) := by
    rw [at?, if_neg (by simp)] at there
    exact Table.lookupKnown.mp there
  refine ⟨fun location name there => ?_, fun location name there => ?_⟩
  · exact (each _ (known location name there)).2 name (by simp)
  · simpa using (each _ (known location name there)).1

theorem isFileSource {t : FileTree} {text : String} : t.isFile text = true ↔
    ∃ location bytes, t.locate text = .ok location ∧ t.at? location = some (.file bytes) := by
  rw [isFileOk]
  constructor
  · rintro ⟨bytes, found⟩
    obtain ⟨location, located, file⟩ := readSource found
    exact ⟨location, bytes, located, file⟩
  · rintro ⟨location, bytes, located, file⟩
    exact ⟨bytes, by simp only [FileTree.read, located, bind, Except.bind, file]⟩

theorem Proper.above {t : FileTree} (proper : t.Proper) {location : Location}
    (there : t.at? location = some .folder) : t.at? location.dropLast = some .folder := by
  rcases location.eq_nil_or_concat' with rfl | ⟨parent, name, rfl⟩
  · exact there
  · rw [List.dropLast_concat]
    exact proper.nested parent name (by rw [there]; rfl)

structure Rewritten (t later : FileTree) (target : Target) (bytes : Bytes) : Prop where
  here : later.here = t.here
  entries : ∀ location, later.at? location =
    if location = target.location then some (.file bytes) else t.at? location
  parent : t.at? target.parent = some .folder
  free : t.at? target.location ≠ some .folder
  plain : Path.Plain target.name

namespace Rewritten
variable {t later : FileTree} {target : Target} {bytes : Bytes} (rewritten : Rewritten t later target bytes)
include rewritten

theorem written : later.at? target.location = some (.file bytes) := by
  rw [rewritten.entries, if_pos rfl]

theorem folders {location : Location} : later.at? location = some .folder ↔ t.at? location = some .folder := by
  rw [rewritten.entries]
  split
  · rename_i same
    subst same
    simp [rewritten.free]
  · rfl

theorem proper (proper : t.Proper) : later.Proper := by
  have cases (location : Location) (name : String) (there : (later.at? (location ++ [name])).isSome = true) :
      (location = target.parent ∧ name = target.name) ∨ (t.at? (location ++ [name])).isSome = true := by
    rw [rewritten.entries] at there
    split at there
    · rename_i same
      have parts : location = target.parent ∧ name = target.name := by simpa [Target.location] using same
      exact .inl parts
    · exact .inr there
  refine ⟨fun location name there => ?_, fun location name there => rewritten.folders.mpr ?_⟩
  · rcases cases location name there with ⟨_, rfl⟩ | before
    · exact rewritten.plain
    · exact proper.named location name before
  · rcases cases location name there with ⟨rfl, _⟩ | before
    · exact rewritten.parent
    · exact proper.nested location name before

theorem locateFolder {text : String} {location : Location} :
    (later.locate text = .ok location ∧ later.at? location = some .folder) ↔
      t.locate text = .ok location ∧ t.at? location = some .folder := by
  constructor
  · rintro ⟨located, inside⟩
    exact ⟨locateStays rewritten.here.symm (fun _ => rewritten.folders.mp) located inside, rewritten.folders.mp inside⟩
  · rintro ⟨located, inside⟩
    exact ⟨locateStays rewritten.here (fun _ => rewritten.folders.mpr) located inside, rewritten.folders.mpr inside⟩

theorem locateTarget {text : String} (found : t.target text = .ok target) (unslashed : target.slashed = false) :
    later.locate text = .ok target.location := by
  obtain ⟨path, parsed, reaches⟩ := targetSource found
  obtain ⟨sound, rfl⟩ := Path.ofStringSource parsed
  have start : later.start (Path.spelled text) = t.start (Path.spelled text) := by
    rw [FileTree.start, FileTree.start, rewritten.here]
  have above : later.walk (later.start (Path.spelled text)) (Path.partsOf text).dropLast = .ok target.parent := by
    rw [start]
    exact walkStays (fun _ => rewritten.folders.mpr) reaches.parent reaches.inside
  have last : later.walk target.parent [target.name] = .ok target.location := by
    obtain ⟨dot, dots⟩ := not_or.mp rewritten.plain.proper
    refine walkConsOk.mpr ⟨target.location, stepOk.mpr ⟨rewritten.folders.mpr rewritten.parent, ?_⟩, walkNil ..⟩
    rw [if_neg dot, if_neg dots]
    have there : later.at? (target.parent ++ [target.name]) = some (.file bytes) := rewritten.written
    exact ⟨rewritten.plain.short, by rw [there]; rfl, rfl⟩
  have parts : (Path.partsOf text).dropLast ++ [target.name] = Path.partsOf text :=
    List.dropLast_append_getLast? _ reaches.name
  refine locateFromSource sound ?_ fun slashed => ?_
  · rw [← parts, walkOn above, last]
  · rw [← reaches.slashed, unslashed] at slashed
    cases slashed

end Rewritten

section Writing
variable {t mid later : FileTree} {text : String} {bytes : Bytes}

theorem writeRewrites (written : t.write text bytes = .ok later) :
    ∃ target, t.target text = .ok target ∧ target.slashed = false ∧ Rewritten t later target bytes := by
  obtain ⟨target, found, rfl, unslashed, fits, free⟩ := writeTarget written
  obtain ⟨path, parsed, reaches⟩ := targetSource found
  obtain ⟨sound, rfl⟩ := Path.ofStringSource parsed
  obtain ⟨nonempty, undivided, chars⟩ := Path.partOf (List.mem_of_getLast? reaches.name)
  refine ⟨target, found, unslashed, rfl, fun location => ?_, reaches.inside, free, nonempty, undivided, ?_,
    reaches.plain, of_decide_eq_true fits⟩
  · rw [entryPut]
    by_cases same : location = target.location
    · subst same
      simp [Target.location]
    · simp [same]
  · exact fun member => sound.named (chars _ member)

theorem replaceRewrites (removed : t.remove text = .ok mid) (written : mid.write text bytes = .ok later) :
    ∃ target, t.target text = .ok target ∧ target.slashed = false ∧ Rewritten t later target bytes := by
  obtain ⟨erased, place, rfl, free⟩ := removeTarget removed
  obtain ⟨target, found, unslashed, rewritten⟩ := writeRewrites written
  have within := Within.erased t erased.location
  obtain rfl : erased = target := by
    have again := within.target found
    rw [place] at again
    exact Except.ok.inj again
  refine ⟨erased, place, unslashed, rewritten.here, fun location => ?_, within.entries _ _ rewritten.parent, free,
    rewritten.plain⟩
  rw [rewritten.entries]
  split
  · rfl
  · rename_i other
    rw [entryErase, if_neg fun here => other here.1]

end Writing
end FileTree

namespace Folder
variable {f : Folder} {home location : Location} {name file : String}

def SameFile (f : Folder) (name other : String) : Prop :=
  ∃ location bytes, f.tree.locate (f.pathOf name) = .ok location ∧ f.tree.locate (f.pathOf other) = .ok location ∧
    f.tree.at? location = some (.file bytes)

def Stands (f : Folder) (file : String) : Prop :=
  ∃ home bytes, f.tree.locate f.root = .ok home ∧ f.tree.at? home = some .folder ∧
    f.tree.at? (home ++ [file]) = some (.file bytes) ∧ (f.pathOf file).utf8ByteSize < Path.byteLimit

def Leads (f : Folder) (name file : String) : Prop :=
  ∃ home, f.tree.locate f.root = .ok home ∧ f.tree.locate (f.pathOf name) = .ok (home ++ [file])

section Paths

theorem walkBelow (root : f.tree.locate f.root = .ok home) (relative : name.toList.head? ≠ some '/') :
    f.tree.walk (f.tree.start (Path.spelled (f.pathOf name))) (Path.partsOf (f.pathOf name)) =
      f.tree.walk home (Path.partsOf name) := by
  obtain ⟨sound, walked, _⟩ := FileTree.locateSource root
  obtain ⟨parts, top⟩ := Path.joinParts sound.nonempty relative
  have start : f.tree.start (Path.spelled (f.pathOf name)) = f.tree.start (Path.spelled f.root) := by
    rw [FileTree.start, FileTree.start, pathOf, top]
  rw [start, pathOf, parts, FileTree.walkOn walked]

theorem locatedUndivided (proper : f.tree.Proper) (root : f.tree.locate f.root = .ok home) (undivided : '/' ∉ name.toList)
    {bytes : Bytes} (located : f.tree.locate (f.pathOf name) = .ok location)
    (there : f.tree.at? location = some (.file bytes)) : location = home ++ [name] := by
  have relative : name.toList.head? ≠ some '/' := fun slash => undivided (List.mem_of_head? slash)
  have isFile : f.tree.isFile (f.pathOf name) = true := FileTree.isFileSource.mpr ⟨location, bytes, located, there⟩
  obtain ⟨_, walked, _⟩ := FileTree.locateSource located
  rw [walkBelow root relative, Path.partsPlain undivided (fileNamed isFile)] at walked
  obtain ⟨next, stepped, rest⟩ := FileTree.walkConsOk.mp walked
  rw [FileTree.walkNil] at rest
  cases rest
  obtain ⟨inside, taken⟩ := FileTree.stepOk.mp stepped
  split at taken
  · subst taken
    cases inside.symm.trans there
  · split at taken
    · subst taken
      cases (proper.above inside).symm.trans there
    · exact taken.2.2

theorem locatePlain (root : f.tree.locate f.root = .ok home) (inside : f.tree.at? home = some .folder)
    (plain : Path.Plain file) (short : (f.pathOf file).utf8ByteSize < Path.byteLimit)
    (there : (f.tree.at? (home ++ [file])).isSome = true) : f.tree.locate (f.pathOf file) = .ok (home ++ [file]) := by
  obtain ⟨sound, _, _⟩ := FileTree.locateSource root
  obtain ⟨dot, dots⟩ := not_or.mp plain.proper
  refine FileTree.locateFromSource (Path.joinResolvable sound plain.relative plain.named short) ?_ fun slashed => ?_
  · rw [walkBelow root plain.relative, Path.partsPlain plain.undivided plain.nonempty]
    refine FileTree.walkConsOk.mpr ⟨_, FileTree.stepOk.mpr ⟨inside, ?_⟩, FileTree.walkNil ..⟩
    rw [if_neg dot, if_neg dots]
    exact ⟨plain.short, there, rfl⟩
  · have unslashed : (Path.spelled (f.pathOf file)).slashed = false := by
      rw [pathOf, Path.joinSpelled sound.nonempty plain]
    cases unslashed.symm.trans slashed

end Paths

section Listing

theorem standsListed (proper : f.tree.Proper) :
    (∃ files, f.list = .ok files ∧ file ∈ files) ↔ f.Stands file := by
  constructor
  · rintro ⟨files, listed, member⟩
    unfold list at listed
    split at listed
    · rename_i names named
      cases listed
      obtain ⟨home, root, inside, rfl⟩ := namesOk.mp named
      obtain ⟨child, isFile⟩ := List.mem_filter.mp (List.mem_mergeSort.mp member)
      have plain := proper.named home file (childKnown.mp child)
      obtain ⟨location, bytes, located, there⟩ := FileTree.isFileSource.mp isFile
      obtain ⟨sound, _, _⟩ := FileTree.locateSource located
      obtain rfl := locatedUndivided proper root plain.undivided located there
      exact ⟨home, bytes, root, inside, there, sound.short⟩
    · cases listed
  · rintro ⟨home, bytes, root, inside, there, short⟩
    have known : (f.tree.at? (home ++ [file])).isSome = true := by rw [there]; rfl
    have located := locatePlain root inside (proper.named home file known) short known
    have isFile := FileTree.isFileSource.mpr ⟨_, bytes, located, there⟩
    have listed : f.list = .ok (sortNames ((f.children home).filter fun name => f.tree.isFile (f.pathOf name))) := by
      unfold list
      rw [namesOk.mpr ⟨home, root, inside, rfl⟩]
    exact ⟨_, listed, List.mem_mergeSort.mpr (List.mem_filter.mpr ⟨childKnown.mpr known, isFile⟩)⟩

theorem standsLocated (proper : f.tree.Proper) (root : f.tree.locate f.root = .ok home) (stands : f.Stands file) :
    f.tree.locate (f.pathOf file) = .ok (home ++ [file]) ∧ ∃ bytes, f.tree.at? (home ++ [file]) = some (.file bytes) := by
  obtain ⟨place, bytes, same, inside, there, short⟩ := stands
  obtain rfl : home = place := Except.ok.inj (root.symm.trans same)
  have known : (f.tree.at? (home ++ [file])).isSome = true := by rw [there]; rfl
  exact ⟨locatePlain root inside (proper.named home file known) short known, bytes, there⟩

theorem sameLeads (proper : f.tree.Proper) (stands : f.Stands file) : f.SameFile name file ↔ f.Leads name file := by
  have placed := stands
  obtain ⟨home, _, root, _⟩ := placed
  obtain ⟨located, bytes, there⟩ := standsLocated proper root stands
  constructor
  · rintro ⟨location, _, first, second, _⟩
    obtain rfl : home ++ [file] = location := Except.ok.inj (located.symm.trans second)
    exact ⟨home, root, first⟩
  · rintro ⟨place, same, leads⟩
    obtain rfl : home = place := Except.ok.inj (root.symm.trans same)
    exact ⟨_, bytes, leads, located, there⟩

theorem leadsUndivided (proper : f.tree.Proper) (stands : f.Stands file) (undivided : '/' ∉ name.toList)
    (leads : f.Leads name file) : name = file := by
  obtain ⟨home, root, located⟩ := leads
  obtain ⟨_, bytes, there⟩ := standsLocated proper root stands
  have place := locatedUndivided proper root undivided located there
  simpa using place.symm

end Listing

section Writing
variable {later : Folder} {target : FileTree.Target} {bytes : Bytes}

theorem standsRewritten (root : later.root = f.root) (rewritten : f.tree.Rewritten later.tree target bytes)
    (found : f.tree.target (f.pathOf name) = .ok target) (unslashed : target.slashed = false) (file : String) :
    later.Stands file ↔ f.Stands file ∨ (later.Leads name file ∧ later.Stands file) := by
  have path (other : String) : later.pathOf other = f.pathOf other := by rw [pathOf, pathOf, root]
  constructor
  · intro stands
    have placed := stands
    obtain ⟨home, _, leads, inside, there, short⟩ := placed
    by_cases here : home ++ [file] = target.location
    · refine .inr ⟨⟨home, leads, ?_⟩, stands⟩
      rw [path, here]
      exact rewritten.locateTarget found unslashed
    · rw [rewritten.entries, if_neg here] at there
      rw [root] at leads
      obtain ⟨before, folder⟩ := rewritten.locateFolder.mp ⟨leads, inside⟩
      exact .inl ⟨home, _, before, folder, there, path file ▸ short⟩
  · rintro (⟨home, _, leads, inside, there, short⟩ | ⟨_, stands⟩)
    · obtain ⟨after, folder⟩ := rewritten.locateFolder.mpr ⟨leads, inside⟩
      have kept : ∃ bytes, later.tree.at? (home ++ [file]) = some (.file bytes) := by
        rw [rewritten.entries]
        split
        · exact ⟨bytes, rfl⟩
        · exact ⟨_, there⟩
      obtain ⟨_, there⟩ := kept
      exact ⟨home, _, root ▸ after, folder, there, path file ▸ short⟩
    · exact stands

end Writing
end Folder
end ScriptBundle
