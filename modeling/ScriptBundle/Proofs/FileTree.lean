import ScriptBundle.Proofs.Table
import ScriptBundle.Storage.FileTree

/-! Paths and changes in a file tree. A path that leads somewhere leads to the same place in any tree that
holds more. Writing and removing touch the one place that their path names, and no folder ever comes or
goes. -/
namespace ScriptBundle.FileTree
open Utf8 (Bytes)

theorem bindOk {ε α β : Type} {x : Except ε α} {f : α → Except ε β} {b : β} :
    (x >>= f) = .ok b ↔ ∃ a, x = .ok a ∧ f a = .ok b := by
  cases x <;> simp [bind, Except.bind]

section Entries

theorem entryErase (t : FileTree) (location other : Location) :
    at? (t.erase location) other = if other = location ∧ other ≠ [] then none else t.at? other := by
  unfold at? erase
  rw [Table.lookupOthers]
  by_cases top : other = [] <;> simp [top]

theorem entryPut (t : FileTree) (location other : Location) (entry : Entry) :
    at? (t.put location entry) other =
      if other = location ∧ other ≠ [] then some entry else t.at? other := by
  unfold at? put erase
  rw [List.lookup_append, Table.lookupOthers, Table.lookupCons]
  by_cases top : other = []
  · simp [top]
  · by_cases same : other = location
    · subst same
      simp [top]
    · simp [top, same]

end Entries

section Walking
variable {t : FileTree} {location reached : Location}

theorem folderOk : t.folder location = .ok reached ↔ t.at? location = some .folder ∧ reached = location := by
  unfold folder
  split
  · rename_i found
    simp [found, eq_comm]
  · rename_i found
    simp [found]
  · rename_i found
    simp [found]

theorem stepOk {part : String} :
    t.step location part = .ok reached ↔ t.at? location = some .folder ∧
      if part = "." then reached = location
      else if part = ".." then reached = location.dropLast
      else part.utf8ByteSize ≤ Path.partLimit ∧ (t.at? (location ++ [part])).isSome ∧
        reached = location ++ [part] := by
  rw [step, bindOk]
  simp only [folderOk, and_assoc, exists_and_left, exists_eq_left]
  refine and_congr_right fun _ => ?_
  split
  · simp [eq_comm]
  split
  · simp [eq_comm]
  split
  · rename_i long
    simp [Nat.not_le.mpr long]
  · rename_i short
    split
    · rename_i there
      simp [Nat.not_lt.mp short, there, eq_comm]
    · rename_i gone
      simp [gone]

theorem stepAgain {later : FileTree} {part : String} (stepped : t.step location part = .ok reached)
    (inside : later.at? location = some .folder)
    (there : (t.at? reached).isSome = true → (later.at? reached).isSome = true) :
    later.step location part = .ok reached := by
  obtain ⟨_, taken⟩ := stepOk.mp stepped
  refine stepOk.mpr ⟨inside, ?_⟩
  split
  · rename_i dot
    rwa [if_pos dot] at taken
  · rename_i dot
    rw [if_neg dot] at taken
    split
    · rename_i dots
      rwa [if_pos dots] at taken
    · rename_i dots
      rw [if_neg dots] at taken
      obtain ⟨short, known, rfl⟩ := taken
      exact ⟨short, there known, rfl⟩

theorem walkNil (t : FileTree) (location : Location) : t.walk location [] = .ok location := rfl

theorem walkConsOk {part : String} {parts : List String} :
    t.walk location (part :: parts) = .ok reached ↔
      ∃ next, t.step location part = .ok next ∧ t.walk next parts = .ok reached := by
  rw [walk, List.foldlM_cons, bindOk]
  rfl

theorem walkOn {first : List String} (walked : t.walk location first = .ok reached) (second : List String) :
    t.walk location (first ++ second) = t.walk reached second := by
  rw [walk] at walked
  rw [walk, List.foldlM_append, walked]
  rfl

end Walking

structure Reaches (t : FileTree) (path : Path) (target : Target) : Prop where
  parent : t.walk (t.start path) path.parts.dropLast = .ok target.parent
  inside : t.at? target.parent = some .folder
  name : path.parts.getLast? = some target.name
  plain : ¬ (target.name = "." ∨ target.name = "..")
  slashed : target.slashed = path.slashed

section Targets
variable {t : FileTree} {text : String} {target : Target}

theorem targetSource (found : t.target text = .ok target) :
    ∃ path, Path.ofString text = .ok path ∧ t.Reaches path target := by
  obtain ⟨path, parsed, named⟩ := bindOk.mp found
  refine ⟨path, parsed, ?_⟩
  split at named
  · cases named
  · rename_i name last
    obtain ⟨parent, walked, below⟩ := bindOk.mp named
    obtain ⟨reached, entered, placed⟩ := bindOk.mp below
    obtain ⟨inside, rfl⟩ := folderOk.mp entered
    split at placed
    · cases placed
    · rename_i plain
      cases placed
      exact ⟨walked, inside, last, plain, rfl⟩

theorem targetFromSource {path : Path} (parsed : Path.ofString text = .ok path) (reaches : t.Reaches path target) :
    t.target text = .ok target := by
  have entered : t.folder target.parent = .ok target.parent := folderOk.mpr ⟨reaches.inside, rfl⟩
  simp only [FileTree.target, parsed, bind, Except.bind, reaches.name, reaches.parent, entered]
  rw [if_neg reaches.plain, ← reaches.slashed]

end Targets

section Changes
variable {t later : FileTree} {path : String}

theorem writeTarget {bytes : Bytes} (written : t.write path bytes = .ok later) :
    ∃ target, t.target path = .ok target ∧ later = t.put target.location (.file bytes) ∧
      target.slashed = false ∧ target.fits = true ∧ t.at? target.location ≠ some .folder := by
  obtain ⟨target, found, written⟩ := bindOk.mp written
  refine ⟨target, found, ?_⟩
  split at written
  · cases written
  · rename_i unslashed
    split at written
    · rename_i fits
      split at written
      · cases written
      · rename_i free
        cases written
        exact ⟨rfl, Bool.not_eq_true _ ▸ unslashed, fits, free⟩
    · cases written

theorem removeTarget (removed : t.remove path = .ok later) :
    ∃ target, t.target path = .ok target ∧ later = t.erase target.location ∧
      t.at? target.location ≠ some .folder := by
  obtain ⟨target, found, removed⟩ := bindOk.mp removed
  refine ⟨target, found, ?_⟩
  split at removed
  · split at removed
    · cases removed
    · cases removed
    · rename_i file
      split at removed
      · cases removed
      · cases removed
        exact ⟨rfl, by simp [file]⟩
  · cases removed

end Changes

structure Within (t larger : FileTree) : Prop where
  here : t.here = larger.here
  entries : ∀ location entry, t.at? location = some entry → larger.at? location = some entry

namespace Within
variable {t larger : FileTree}

theorem erased (t : FileTree) (location : Location) : Within (t.erase location) t := by
  refine ⟨rfl, fun other entry found => ?_⟩
  rw [entryErase] at found
  split at found
  · cases found
  · exact found

theorem step (within : Within t larger) {location reached : Location} {part : String}
    (stepped : t.step location part = .ok reached) : larger.step location part = .ok reached := by
  refine stepAgain stepped (within.entries _ _ (stepOk.mp stepped).1) fun there => ?_
  obtain ⟨entry, found⟩ := Option.isSome_iff_exists.mp there
  simp [within.entries _ _ found]

theorem walk (within : Within t larger) {location reached : Location} {parts : List String}
    (walked : t.walk location parts = .ok reached) : larger.walk location parts = .ok reached := by
  induction parts generalizing location with
  | nil => exact walked
  | cons part parts ih =>
    obtain ⟨next, stepped, walked⟩ := walkConsOk.mp walked
    exact walkConsOk.mpr ⟨next, within.step stepped, ih walked⟩

theorem target (within : Within t larger) {text : String} {target : Target}
    (found : t.target text = .ok target) : larger.target text = .ok target := by
  obtain ⟨path, parsed, reaches⟩ := targetSource found
  have start : larger.start path = t.start path := by simp only [start, within.here]
  have parent := within.walk reaches.parent
  rw [← start] at parent
  exact targetFromSource parsed ⟨parent, within.entries _ _ reaches.inside, reaches.name, reaches.plain, reaches.slashed⟩

end Within

def Keeps (t later : FileTree) (path : String) : Prop :=
  ∀ location, (∀ target, t.target path = .ok target → target.location ≠ location) →
    later.at? location = t.at? location

namespace Keeps
variable {t later : FileTree} {path : String}

theorem unchanged (t : FileTree) (path : String) : Keeps t t path := fun _ _ => rfl

theorem written {bytes : Bytes} (h : t.write path bytes = .ok later) : Keeps t later path := by
  obtain ⟨target, found, rfl, _⟩ := writeTarget h
  intro location apart
  rw [entryPut, if_neg fun here => apart target found here.1.symm]

theorem removed (h : t.remove path = .ok later) : Keeps t later path := by
  obtain ⟨target, found, rfl, _⟩ := removeTarget h
  intro location apart
  rw [entryErase, if_neg fun here => apart target found here.1.symm]

theorem replaced {rest : FileTree} {bytes : Bytes} (gone : t.remove path = .ok rest)
    (h : rest.write path bytes = .ok later) : Keeps t later path := by
  have within : Within rest t := by
    obtain ⟨target, _, rfl, _⟩ := removeTarget gone
    exact .erased t target.location
  intro location apart
  rw [written h location fun target found => apart target (within.target found), removed gone location apart]

end Keeps
end ScriptBundle.FileTree
