import ScriptBundle.Diagnostic
import ScriptBundle.Manifest
import ScriptBundle.Storage
/-! The modules of a list. Their names are resolved against a storage: those that can be read become
source units, one that is not there is only reported, and one that is there and cannot be read is kept
apart. Every dependency of a module must be listed before it; violations are warnings, in the order of
the list and then of the declared dependencies. -/
namespace ScriptBundle

/-- The ordinal is the place in the module list, not the place among the units. -/
structure SourceUnit where
  name : String
  ordinal : Nat
  text : String
  deriving DecidableEq, Repr

namespace SourceUnit

def size (unit : SourceUnit) : Nat := unit.text.utf8ByteSize

def isEmpty (unit : SourceUnit) : Bool := unit.size = 0

end SourceUnit

inductive Reading where
  | found (unit : SourceUnit)
  | missing (name : String)
  | unreadable (name : String) (error : AccessError)
  deriving DecidableEq, Repr

namespace Reading

def of {σ : Type} [Storage σ] (s : σ) (name : String) (ordinal : Nat) : Reading :=
  match Storage.read s name with
  | .ok (some text) => found ⟨name, ordinal, text⟩
  | .ok none => missing name
  | .error error => unreadable name error

def unit? : Reading → Option SourceUnit
  | found unit => some unit
  | _ => none

def missing? : Reading → Option String
  | missing name => some name
  | _ => none

def unreadable? : Reading → Option (String × AccessError)
  | unreadable name error => some (name, error)
  | _ => none

def diagnostic? : Reading → Option Diagnostic
  | found _ => none
  | missing name => some (.inFile name .moduleMissing [name])
  | unreadable name error => some (.inFile name .moduleUnreadable [name, error.message])

end Reading

structure Resolution where
  readings : List Reading
  deriving DecidableEq, Repr

namespace Resolution

def of {σ : Type} [Storage σ] (s : σ) (modules : List String) : Resolution :=
  ⟨modules.mapIdx fun ordinal name => Reading.of s name ordinal⟩

def units (r : Resolution) : List SourceUnit := r.readings.filterMap Reading.unit?

def missing (r : Resolution) : List String := r.readings.filterMap Reading.missing?

def unreadable (r : Resolution) : List (String × AccessError) := r.readings.filterMap Reading.unreadable?

def diagnostics (r : Resolution) : Diagnostics := r.readings.filterMap Reading.diagnostic?

end Resolution

structure Verification where
  total : Nat
  missing : List String
  deriving DecidableEq, Repr

namespace Verification

def of {σ : Type} [Storage σ] (s : σ) (modules : List String) : Verification :=
  ⟨modules.length, modules.filter fun name => !Storage.isFile s name⟩

def found (v : Verification) : Nat := v.total - v.missing.length

def isComplete (v : Verification) : Bool := v.missing.isEmpty

end Verification

def scriptExtension : String := ".gs"

def unlistedFiles {σ : Type} [Storage σ] (s : σ) (m : Manifest) : List String :=
  match Storage.list s with
  | .error _ => []
  | .ok files => files.filter fun file =>
      scriptExtension.toList.isSuffixOf file.toList && !m.isListed file && !m.isExcluded file

def unlistedDiagnostics {σ : Type} [Storage σ] (s : σ) (m : Manifest) : Diagnostics :=
  (unlistedFiles s m).map fun file => .inFile file .fileUnlisted [file]

namespace LoadOrder

inductive Warning where
  | notListed (unit dependency : String)
  | loadedLater (unit : String) (unitIndex : Nat) (dependency : String) (dependencyIndex : Nat)
  deriving DecidableEq, Repr

namespace Warning

def diagnostic : Warning → Diagnostic
  | notListed unit dependency => .inFile unit .notInBuildList [unit, dependency]
  | loadedLater unit unitIndex dependency dependencyIndex =>
    .inFile unit .loadedLater [unit, Nat.repr unitIndex, dependency, Nat.repr dependencyIndex]

def text (w : Warning) : String := w.diagnostic.message

end Warning

def edge? (modules : List String) (unit : String) (index : Nat) (dependency : String) : Option Warning :=
  match modules.findIdx? (· = dependency) with
  | none => some (.notListed unit dependency)
  | some found =>
    if index ≤ found then some (.loadedLater unit index dependency found) else none

def warnings (modules : List String) (dependencies : Table (List String)) : List Warning :=
  modules.zipIdx.flatMap fun entry =>
    ((dependencies.find? entry.1).getD []).filterMap (edge? modules entry.1 entry.2)

end LoadOrder
end ScriptBundle
