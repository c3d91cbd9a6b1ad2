import Mathlib.Data.List.Basic
import ScriptBundle.Proofs.Table
import ScriptBundle.Resolution

/-! Reading a module list from a map of files. What is read depends only on the texts that the map
gives to the listed names and on which of these names cannot be read. -/
namespace ScriptBundle
namespace FileMap

def content (m : FileMap) : String → Option String := m.files.find?

def fault? (access : Access) (faults : Table String) (name : String) : Option AccessError :=
  (faults.find? name).map fun text => ⟨access, name, .other text⟩

theorem noFault {access : Access} {faults : Table String} {name : String} :
    fault? access faults name = none ↔ faults.find? name = none :=
  Option.map_eq_none_iff

theorem guardedOutcome {α : Type} (access : Access) (faults : Table String) (name : String) (value : α) :
    guarded access name (faults.find? name) value =
      match fault? access faults name with
      | some error => .error error
      | none => .ok value := by
  unfold guarded fault?
  cases faults.find? name <;> rfl

end FileMap

namespace SourceUnit

def present (content : String → Option String) (modules : List String) : List SourceUnit :=
  modules.zipIdx.filterMap fun entry => (content entry.1).map (SourceUnit.mk entry.1 entry.2)

theorem presentBegins (content : String → Option String) (first second : List String) :
    present content first <+: present content (first ++ second) := by
  rw [present, present, List.zipIdx_append]
  exact (List.prefix_append _ _).filterMap _

theorem presentAgrees {content other : String → Option String} {modules : List String}
    (agree : ∀ name ∈ modules, content name = other name) : present content modules = present other modules := by
  refine List.filterMap_congr fun entry member => ?_
  rw [agree entry.1 (List.fst_mem_of_mem_zipIdx member)]

theorem presentFewer {content fewer : String → Option String}
    (kept : ∀ name text, fewer name = some text → content name = some text) (modules : List String) :
    (present fewer modules).Sublist (present content modules) := by
  rw [present, present]
  induction modules.zipIdx with
  | nil => exact .slnil
  | cons entry entries ih =>
    rw [List.filterMap_cons, List.filterMap_cons]
    cases found : fewer entry.1 with
    | none =>
      cases content entry.1 with
      | none => exact ih
      | some text => exact ih.cons _
    | some text =>
      rw [kept entry.1 text found]
      exact ih.cons_cons _

end SourceUnit

namespace Resolution
open FileMap (content fault?)

def faulty (m : FileMap) (modules : List String) : List (String × AccessError) :=
  modules.filterMap fun name => (fault? .read m.faults.read name).map (Prod.mk name)

theorem faultyEmpty {m : FileMap} {modules : List String} :
    faulty m modules = [] ↔ ∀ name ∈ modules, m.faults.read.find? name = none := by
  simp [faulty, List.filterMap_eq_nil_iff, fault?]

theorem readingOf (m : FileMap) (name : String) (ordinal : Nat) :
    Reading.of m name ordinal =
      match fault? .read m.faults.read name, m.content name with
      | some error, _ => .unreadable name error
      | none, some text => .found ⟨name, ordinal, text⟩
      | none, none => .missing name := by
  have outcome : Storage.read m name =
      match fault? .read m.faults.read name with
      | some error => .error error
      | none => .ok (m.content name) := FileMap.guardedOutcome .read m.faults.read name _
  rw [Reading.of, outcome]
  cases fault? .read m.faults.read name with
  | some error => rfl
  | none => cases m.content name <;> rfl

theorem readingsOf {σ : Type} [Storage σ] (s : σ) (modules : List String) :
    (Resolution.of s modules).readings =
      modules.zipIdx.map fun entry => Reading.of s entry.1 entry.2 :=
  List.mapIdx_eq_zipIdx_map

theorem readingsTell {σ α : Type} [Storage σ] {s : σ} {tell : Reading → Option α} {told : String → Option α}
    (each : ∀ name ordinal, tell (Reading.of s name ordinal) = told name) (modules : List String) :
    (Resolution.of s modules).readings.filterMap tell = modules.filterMap told := by
  rw [readingsOf, List.filterMap_map]
  simp only [Function.comp_def, each]
  conv => rhs; rw [← List.zipIdx_map_fst 0 modules, List.filterMap_map]
  rfl

theorem unreadableOf (m : FileMap) (modules : List String) :
    (Resolution.of m modules).unreadable = faulty m modules := by
  refine readingsTell (fun name ordinal => ?_) modules
  rw [readingOf]
  cases fault? .read m.faults.read name with
  | some error => rfl
  | none => cases m.content name <;> rfl

theorem unitsOf {m : FileMap} {modules : List String}
    (readable : ∀ name ∈ modules, m.faults.read.find? name = none) :
    (Resolution.of m modules).units = SourceUnit.present m.content modules := by
  rw [units, readingsOf, List.filterMap_map, SourceUnit.present]
  refine List.filterMap_congr fun entry member => ?_
  have listed : entry.1 ∈ modules := List.fst_mem_of_mem_zipIdx member
  rw [Function.comp_apply, readingOf, FileMap.noFault.mpr (readable entry.1 listed)]
  cases m.content entry.1 <;> rfl

theorem ofAlike {σ τ : Type} [Storage σ] [Storage τ] {s : σ} {t : τ} {modules : List String}
    (alike : ∀ name ∈ modules, Storage.read s name = Storage.read t name) :
    Resolution.of s modules = Resolution.of t modules := by
  have readings : (Resolution.of s modules).readings = (Resolution.of t modules).readings := by
    rw [readingsOf, readingsOf]
    refine List.map_congr_left fun entry member => ?_
    rw [Reading.of, Reading.of, alike entry.1 (List.fst_mem_of_mem_zipIdx member)]
  exact congrArg Resolution.mk readings

theorem resolutionAgrees {m other : FileMap} {modules : List String} (faults : m.faults.read = other.faults.read)
    (agree : ∀ name ∈ modules, m.content name = other.content name) :
    Resolution.of m modules = Resolution.of other modules := by
  refine ofAlike fun name listed => ?_
  show FileMap.guarded .read name (m.faults.read.find? name) (m.content name) =
    FileMap.guarded .read name (other.faults.read.find? name) (other.content name)
  rw [faults, agree name listed]

end Resolution
end ScriptBundle
