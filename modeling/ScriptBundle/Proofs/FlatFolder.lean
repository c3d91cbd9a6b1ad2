import ScriptBundle.Proofs.Decoding
import ScriptBundle.Proofs.Path
import ScriptBundle.Proofs.Simulation

/-! A map of files in place of a folder that holds nothing but files. Every access to such a folder comes down to
the entry of one name, so the folder and the map of its decoded texts answer alike, and they stay alike because
decoding gives back what was written. -/
namespace ScriptBundle
open Utf8 (Bytes)

theorem sortNamesSorted (names : List String) : (sortNames names).Pairwise fun a b => decide (a ≤ b) = true := by
  apply List.pairwise_mergeSort
  · intro a b c first second
    exact decide_eq_true (String.le_trans (of_decide_eq_true first) (of_decide_eq_true second))
  · intro a b
    simpa using String.le_total a b

theorem sortNamesUnique {names sorted : List String} (same : sorted.Perm names)
    (inOrder : sorted.Pairwise fun a b => decide (a ≤ b) = true) : sorted = sortNames names := by
  refine List.Perm.eq_of_pairwise (fun a b _ _ below above => ?_) inOrder (sortNamesSorted names)
    (same.trans (List.mergeSort_perm names _).symm)
  exact String.le_antisymm (of_decide_eq_true below) (of_decide_eq_true above)

theorem sortNamesPerm {names others : List String} (same : names.Perm others) : sortNames names = sortNames others :=
  sortNamesUnique ((List.mergeSort_perm names _).trans same) (sortNamesSorted names)

namespace FileTree

theorem entriesErase (t : FileTree) (location : Location) : (t.erase location).entries.Sublist t.entries :=
  List.filter_sublist

theorem eraseAbsent {t : FileTree} {location : Location} (gone : t.at? location = none) : t.erase location = t := by
  unfold at? at gone
  split at gone
  · cases gone
  · have others : ∀ entry ∈ t.entries, entry.1 ≠ location := fun entry member same => by
      simpa [same] using List.lookup_eq_none_iff.mp gone entry member
    rw [erase, List.filter_eq_self.mpr (by simpa using others)]

end FileTree

namespace Folder

def held (f : Folder) (home : Location) (name : String) : Option Bytes :=
  match f.tree.at? (home ++ [name]) with
  | some (.file bytes) => some bytes
  | _ => none

def childOf (home location : Location) : Option String :=
  if location ≠ [] ∧ location.dropLast = home then location.getLast? else none

theorem childOfSome {home location : Location} {name : String} :
    childOf home location = some name ↔ location = home ++ [name] := by
  unfold childOf
  constructor
  · intro child
    split at child
    · rename_i right
      rw [← right.2, List.dropLast_append_getLast? name child]
    · cases child
  · rintro rfl
    simp

def children (f : Folder) (home : Location) : List String := (f.tree.entries.map (·.1)).filterMap (childOf home)

theorem childKnown {f : Folder} {home : Location} {name : String} :
    name ∈ f.children home ↔ (f.tree.at? (home ++ [name])).isSome = true := by
  have looked : f.tree.at? (home ++ [name]) = f.tree.entries.lookup (home ++ [name]) := if_neg (by simp)
  rw [looked, Table.lookupKnown, children, List.mem_filterMap]
  simp only [childOfSome]
  exact exists_eq_right

theorem namesOk {f : Folder} {names : List String} : f.tree.names f.root = .ok names ↔
    ∃ home, f.tree.locate f.root = .ok home ∧ f.tree.at? home = some .folder ∧ f.children home = names := by
  rw [FileTree.names, FileTree.bindOk]
  refine exists_congr fun home => and_congr_right fun _ => ?_
  rw [FileTree.bindOk]
  simp only [FileTree.folderOk, and_assoc, exists_and_left, exists_eq_left, children, List.filterMap_map]
  refine and_congr_right fun _ => ?_
  rw [Except.ok.injEq]
  rfl

/- A folder that is there, and in it only files with plain names. Its own path leaves room for a name. -/
structure Flat (f : Folder) (home : Location) : Prop where
  leads : f.tree.locate f.root = .ok home
  inside : f.tree.at? home = some .folder
  roomy : f.root.utf8ByteSize + 1 + Path.partLimit < Path.byteLimit
  distinct : (f.tree.entries.map (·.1)).Nodup
  files : ∀ name, f.tree.at? (home ++ [name]) ≠ some .folder
  plain : ∀ name, (f.tree.at? (home ++ [name])).isSome = true → Path.Plain name

namespace Flat
variable {f : Folder} {home : Location} (flat : f.Flat home)
include flat

theorem entry (name : String) : f.tree.at? (home ++ [name]) = (f.held home name).map .file := by
  have file := flat.files name
  unfold held
  split
  · rename_i found
    rw [found, Option.map_some]
  · rename_i other
    cases found : f.tree.at? (home ++ [name]) with
    | none => rfl
    | some entry =>
      cases entry with
      | folder => exact absurd found file
      | file bytes => exact absurd found (other bytes)

theorem entered : f.tree.folder home = .ok home := FileTree.folderOk.mpr ⟨flat.inside, rfl⟩

section Accesses
variable {name : String} (plain : Path.Plain name)
include plain

theorem parsed : Path.ofString (f.pathOf name) =
    .ok ⟨(Path.spelled f.root).fromTop, Path.partsOf f.root ++ [name], false⟩ := by
  obtain ⟨sound, _, _⟩ := FileTree.locateSource flat.leads
  rw [pathOf, Path.ofStringFromSource (Path.joinSound sound plain flat.roomy), Path.joinSpelled sound.nonempty plain]

theorem stepped : f.tree.step home name =
    match f.held home name with
    | some _ => .ok (home ++ [name])
    | none => .error .noEntry := by
  obtain ⟨dot, dots⟩ := not_or.mp plain.proper
  simp only [FileTree.step, flat.entered, bind, Except.bind, if_neg dot, if_neg dots, if_neg (Nat.not_lt.mpr plain.short),
    flat.entry name]
  cases f.held home name <;> rfl

theorem located : f.tree.locate (f.pathOf name) =
    match f.held home name with
    | some _ => .ok (home ++ [name])
    | none => .error .noEntry := by
  obtain ⟨_, walked, _⟩ := FileTree.locateSource flat.leads
  have last : f.tree.walk home [name] = f.tree.step home name := by
    simp only [FileTree.walk, List.foldlM_cons, List.foldlM_nil, bind_pure]
  rw [FileTree.locate, flat.parsed plain]
  show (f.tree.walk (f.tree.start (Path.spelled f.root)) (Path.partsOf f.root ++ [name]) >>= .ok) = _
  rw [FileTree.walkOn walked, last, flat.stepped plain]
  cases f.held home name <;> rfl

theorem targeted : f.tree.target (f.pathOf name) = .ok ⟨home, name, false⟩ := by
  obtain ⟨_, walked, _⟩ := FileTree.locateSource flat.leads
  refine FileTree.targetFromSource (flat.parsed plain) ⟨?_, flat.inside, ?_, plain.proper, rfl⟩
  · rw [List.dropLast_concat]
    exact walked
  · exact List.getLast?_concat

theorem readBytes : f.tree.read (f.pathOf name) =
    match f.held home name with
    | some bytes => .ok bytes
    | none => .error .noEntry := by
  have entry := flat.entry name
  rw [FileTree.read, flat.located plain]
  cases held : f.held home name with
  | none => rfl
  | some bytes =>
    rw [held] at entry
    simp only [bind, Except.bind, entry, Option.map_some]

theorem read : Folder.read f name = .ok ((f.held home name).map Utf8.decode) := by
  unfold Folder.read
  rw [flat.readBytes plain]
  cases f.held home name <;> rfl

theorem isFile : f.tree.isFile (f.pathOf name) = (f.held home name).isSome := by
  rw [FileTree.isFileRead, flat.readBytes plain]
  cases f.held home name <;> rfl

theorem write (text : String) : Folder.write f name text =
    .ok { f with tree := f.tree.put (home ++ [name]) (.file (Utf8.encode text)) } := by
  have entry := flat.entry name
  have fits : name.utf8ByteSize ≤ Path.partLimit := plain.short
  unfold Folder.write
  simp only [FileTree.write, flat.targeted plain, bind, Except.bind, FileTree.Target.fits,
    FileTree.Target.location, fits]
  cases held : f.held home name with
  | none => simp [entry, held]
  | some bytes => simp [entry, held]

theorem remove : Folder.remove f name =
    .ok ((f.held home name).isSome, { f with tree := f.tree.erase (home ++ [name]) }) := by
  have entry := flat.entry name
  have fits : name.utf8ByteSize ≤ Path.partLimit := plain.short
  unfold Folder.remove
  simp only [FileTree.remove, flat.targeted plain, bind, Except.bind, FileTree.Target.fits,
    FileTree.Target.location, fits]
  cases held : f.held home name with
  | none =>
    rw [held] at entry
    simp [entry, FileTree.eraseAbsent entry]
  | some bytes => simp [entry, held]

end Accesses

section Listing

theorem named : f.tree.names f.root = .ok (f.children home) :=
  namesOk.mpr ⟨home, flat.leads, flat.inside, rfl⟩

theorem known (name : String) : name ∈ f.children home ↔ (f.held home name).isSome = true := by
  rw [childKnown, flat.entry, Option.isSome_map]

theorem list : Folder.list f = .ok (sortNames (f.children home)) := by
  rw [Folder.list, flat.named]
  refine congrArg Except.ok (congrArg sortNames (List.filter_eq_self.mpr fun name member => ?_))
  have there := (flat.known name).mp member
  have plain : Path.Plain name := flat.plain name (by rwa [flat.entry, Option.isSome_map])
  rw [flat.isFile plain, there]

theorem namesDistinct : (f.children home).Nodup := by
  refine flat.distinct.filterMap fun location other name first second => ?_
  rw [childOfSome.mp first, childOfSome.mp second]

end Listing

section Changes
variable {name : String} (plain : Path.Plain name)
include plain

theorem changed {tree : FileTree} (here : tree.here = f.tree.here) (distinct : (tree.entries.map (·.1)).Nodup)
    (others : ∀ l, l ≠ home ++ [name] → tree.at? l = f.tree.at? l)
    (file : tree.at? (home ++ [name]) ≠ some .folder) : Flat { f with tree } home := by
  have kept (l : Location) (folder : f.tree.at? l = some .folder) : tree.at? l = some .folder := by
    rw [others l fun same => flat.files name (same ▸ folder), folder]
  refine ⟨FileTree.locateStays here kept flat.leads flat.inside, kept home flat.inside, flat.roomy, distinct, ?_, ?_⟩
  · intro other
    by_cases same : other = name
    · rwa [same]
    · rw [others _ (by simpa using same)]
      exact flat.files other
  · intro other there
    by_cases same : other = name
    · rwa [same]
    · rw [others _ (by simpa using same)] at there
      exact flat.plain other there

theorem put (bytes : Bytes) : Flat { f with tree := f.tree.put (home ++ [name]) (.file bytes) } home := by
  refine flat.changed plain rfl ?_ (fun l other => ?_) ?_
  · have fresh : home ++ [name] ∉ (f.tree.erase (home ++ [name])).entries.map (·.1) := by simp [FileTree.erase]
    have rest := flat.distinct.sublist ((f.tree.entriesErase (home ++ [name])).map _)
    have keys : ((f.tree.put (home ++ [name]) (.file bytes)).entries.map (·.1)) =
        (f.tree.erase (home ++ [name])).entries.map (·.1) ++ [home ++ [name]] := List.map_append
    rw [keys]
    exact (List.perm_append_singleton _ _).nodup_iff.mpr (List.nodup_cons.mpr ⟨fresh, rest⟩)
  · rw [FileTree.entryPut, if_neg fun here => other here.1]
  · rw [FileTree.entryPut, if_pos ⟨rfl, by simp⟩]
    simp

theorem erase : Flat { f with tree := f.tree.erase (home ++ [name]) } home := by
  refine flat.changed plain rfl (flat.distinct.sublist ((f.tree.entriesErase _).map _)) (fun l other => ?_) ?_
  · rw [FileTree.entryErase, if_neg fun here => other here.1]
  · rw [FileTree.entryErase, if_pos ⟨rfl, by simp⟩]
    simp

end Changes

end Flat

theorem heldPut (f : Folder) (home : Location) (name : String) (bytes : Bytes) :
    held { f with tree := f.tree.put (home ++ [name]) (.file bytes) } home =
      Function.update (f.held home) name (some bytes) := by
  funext other
  rw [Function.update_apply, held, FileTree.entryPut]
  by_cases same : other = name
  · simp [same]
  · simp [same, held]

theorem heldErase (f : Folder) (home : Location) (name : String) :
    held { f with tree := f.tree.erase (home ++ [name]) } home = Function.update (f.held home) name none := by
  funext other
  rw [Function.update_apply, held, FileTree.entryErase]
  by_cases same : other = name
  · simp [same]
  · simp [same, held]

end Folder

namespace FileMap

structure Mirrors (m : FileMap) (f : Folder) (home : Location) : Prop where
  faultless : m.faults = {}
  distinct : m.files.keys.Nodup
  texts : m.content = Option.map Utf8.decode ∘ f.held home

def copyOf (f : Folder) (home : Location) : FileMap :=
  { files := ⟨(f.children home).map fun name => (name, Utf8.decode ((f.held home name).getD []))⟩ }

theorem copyMirrors {f : Folder} {home : Location} (flat : f.Flat home) : Mirrors (copyOf f home) f home := by
  refine ⟨rfl, ?_, funext fun name => ?_⟩
  · have keys : (copyOf f home).files.keys = f.children home := by simp [copyOf, Table.keys, Function.comp_def]
    rw [keys]
    exact flat.namesDistinct
  · have found : (copyOf f home).content name =
        if name ∈ f.children home then some (Utf8.decode ((f.held home name).getD [])) else none :=
      Table.lookupTabulated (f.children home) _ name
    simp only [found, flat.known, Function.comp_apply]
    cases f.held home name <;> rfl

namespace Mirrors
variable {m : FileMap} {f : Folder} {home : Location} (mirrors : m.Mirrors f home)
include mirrors

theorem text (name : String) : m.content name = (f.held home name).map Utf8.decode :=
  congrFun mirrors.texts name

theorem read (name : String) : Storage.read m name = .ok ((f.held home name).map Utf8.decode) := by
  rw [← mirrors.text]
  show guarded .read name (m.faults.read.find? name) (m.content name) = _
  rw [mirrors.faultless]
  rfl

theorem isFile (name : String) : Storage.isFile m name = (f.held home name).isSome := by
  rw [← Option.isSome_map, ← mirrors.text]
  rfl

theorem list (flat : f.Flat home) : Storage.list m = .ok (sortNames (f.children home)) := by
  have same : m.files.keys.Perm (f.children home) := by
    refine (List.perm_ext_iff_of_nodup mirrors.distinct flat.namesDistinct).mpr fun name => ?_
    rw [flat.known, ← mirrors.isFile name]
    exact Table.lookupKnown.symm
  show guarded .list "." m.faults.list (sortNames m.files.keys) = _
  rw [mirrors.faultless, sortNamesPerm same]
  rfl

theorem write (name text : String) :
    ∃ later, Storage.write m name text = .ok later ∧
      later.Mirrors { f with tree := f.tree.put (home ++ [name]) (.file (Utf8.encode text)) } home := by
  refine ⟨{ m with files := m.files.insert name text }, ?_, mirrors.faultless,
    Table.distinctInsert mirrors.distinct name text, ?_⟩
  · show guarded .write name (m.faults.write.find? name) _ = _
    rw [mirrors.faultless]
    rfl
  · calc (m.files.insert name text).find?
      _ = Function.update m.content name (some text) := Table.findInsert m.files name text
      _ = Function.update (Option.map Utf8.decode ∘ f.held home) name ((some (Utf8.encode text)).map Utf8.decode) := by
        rw [mirrors.texts, Option.map_some, Utf8.decodeEncode]
      _ = Option.map Utf8.decode ∘ Function.update (f.held home) name (some (Utf8.encode text)) :=
        (Function.comp_update _ _ _ _).symm
      _ = _ := by rw [Folder.heldPut]

theorem remove (name : String) :
    ∃ later, Storage.remove m name = .ok ((f.held home name).isSome, later) ∧
      later.Mirrors { f with tree := f.tree.erase (home ++ [name]) } home := by
  refine ⟨{ m with files := m.files.erase name }, ?_, mirrors.faultless,
    Table.distinctErase mirrors.distinct name, ?_⟩
  · show guarded .remove name (m.faults.remove.find? name) (Storage.isFile m name, _) = _
    rw [mirrors.faultless, mirrors.isFile]
    rfl
  · calc (m.files.erase name).find?
      _ = Function.update m.content name none := Table.findErase m.files name
      _ = Function.update (Option.map Utf8.decode ∘ f.held home) name (Option.map Utf8.decode none) := by
        rw [mirrors.texts, Option.map_none]
      _ = Option.map Utf8.decode ∘ Function.update (f.held home) name none := (Function.comp_update _ _ _ _).symm
      _ = _ := by rw [Folder.heldErase]

end Mirrors

theorem simulation (home : Location) :
    Storage.Simulation (fun (f : Folder) (m : FileMap) => f.Flat home ∧ m.Mirrors f home) Path.Plain where
  read related _ plain := (related.1.read plain).trans (related.2.read _).symm
  isFile related _ plain := (related.1.isFile plain).trans (related.2.isFile _).symm
  list related := related.1.list.trans (related.2.list related.1).symm
  write related name text plain := by
    obtain ⟨flat, mirrors⟩ := related
    obtain ⟨later, written, mirrored⟩ := mirrors.write name text
    exact ⟨_, later, flat.write plain text, written, flat.put plain _, mirrored⟩
  remove related name plain := by
    obtain ⟨flat, mirrors⟩ := related
    obtain ⟨later, removed, mirrored⟩ := mirrors.remove name
    exact ⟨_, _, later, flat.remove plain, removed, flat.erase plain, mirrored⟩

theorem standsInForFolder {f : Folder} {home : Location} (flat : f.Flat home) :
    Mirrors (copyOf f home) f home ∧
    ∀ m : FileMap, m.Mirrors f home → ∀ calls : List Storage.Call, (∀ call ∈ calls, call.Over Path.Plain) →
      Storage.replies f calls = Storage.replies m calls ∧
      ∀ manifest : Manifest, Path.Plain manifest.output → (∀ name ∈ manifest.allModules, Path.Plain name) →
        ∀ operations : List Project.Operation,
          let p : Project Folder := ⟨manifest, Storage.served f calls⟩
          let q : Project FileMap := ⟨manifest, Storage.served m calls⟩
          (p.answers operations).map Project.Answer.pathless = (q.answers operations).map Project.Answer.pathless ∧
          (q.after operations).storage.Mirrors (p.after operations).storage home := by
  refine ⟨copyMirrors flat, fun m mirrors calls permitted => ?_⟩
  obtain ⟨answered, related⟩ := (simulation home).serveAll ⟨flat, mirrors⟩ permitted
  refine ⟨answered, ?_⟩
  intro manifest output modules operations p q
  have twins : Project.Twins (fun (f : Folder) (m : FileMap) => f.Flat home ∧ m.Mirrors f home) Path.Plain p q :=
    ⟨rfl, related, output, modules⟩
  obtain ⟨same, last⟩ := twins.performAll (simulation home) operations
  exact ⟨same, last.storage.2⟩

theorem latinFolderHasStandIn :
    let f : Folder :=
      ⟨".", ⟨[(["work"], .folder), (["work", "Limits.gs"], .file [0x2F, 0x2F, 0xE9, 0x0A])], ["work"]⟩⟩
    let m : FileMap := { files := ⟨[("Limits.gs", "//�\n")]⟩ }
    let calls : List Storage.Call :=
      [.read "Limits.gs", .write "Totals.gs" "var TOTAL = 1;\n", .remove "Taxes.gs", .list]
    let manifest : Manifest :=
      { Manifest.builtin with
        output := "Bundle.gs", coreModules := ["Limits.gs", "Totals.gs", "Taxes.gs"], testModules := [] }
    let operations : List Project.Operation := [.verify true, .build {} "2024-01-01", .check, .clean]
    f.Flat ["work"] ∧ m.Mirrors f ["work"] ∧ Storage.replies f calls = Storage.replies m calls ∧
      (Project.answers ⟨manifest, Storage.served f calls⟩ operations).map Project.Answer.pathless =
        (Project.answers ⟨manifest, Storage.served m calls⟩ operations).map Project.Answer.pathless := by
  intro f m calls manifest operations
  have entry (name : String) : f.tree.at? (["work"] ++ [name]) =
      if name = "Limits.gs" then some (.file [0x2F, 0x2F, 0xE9, 0x0A]) else none := by
    simp [f, FileTree.at?, Table.lookupCons]
  have flat : f.Flat ["work"] := by
    refine ⟨by decide, by decide, by decide, by decide, fun name => ?_, fun name there => ?_⟩
    · rw [entry]
      split <;> simp
    · rw [entry] at there
      split at there
      · rename_i same
        rw [same]
        decide
      · cases there
  have mirrors : m.Mirrors f ["work"] := by
    refine ⟨rfl, by decide, funext fun name => ?_⟩
    rw [Function.comp_apply, Folder.held, entry]
    by_cases same : name = "Limits.gs"
    · subst same
      decide
    · simp [m, content, Table.find?, Table.lookupCons, same]
  obtain ⟨replied, performed⟩ := (standsInForFolder flat).2 m mirrors calls (by decide)
  exact ⟨flat, mirrors, replied, (performed manifest (by decide) (by decide) operations).1⟩

end FileMap
end ScriptBundle
