import ScriptBundle.Json.Skip
import ScriptBundle.Json.Typed
import ScriptBundle.Json.Value
import ScriptBundle.Manifest
import ScriptBundle.Storage.FileTree
/-! Reading a manifest. Its text is a JSON object whose known members are the fields, each given at
most once, and whose other members are skipped; or a JSON list of the fields in their order. Every
field that is not given comes from the built-in manifest. A project without a manifest file gets the
built-in one. -/
namespace ScriptBundle
namespace Manifest
open Json (Reader Fault Shortens readHead readColon)

inductive Field where
  | title
  | version
  | output
  | coreModules
  | testModules
  | dependencies
  | trackedSymbols
  | excludedFiles
  deriving DecidableEq, Repr

namespace Field

def all : List Field :=
  [title, version, output, coreModules, testModules, dependencies, trackedSymbols, excludedFiles]

def key : Field → String
  | title => "title"
  | version => "version"
  | output => "output"
  | coreModules => "coreModules"
  | testModules => "testModules"
  | dependencies => "dependencies"
  | trackedSymbols => "trackedSymbols"
  | excludedFiles => "excludedFiles"

def ofKey? (name : String) : Option Field := all.find? (·.key = name)

def value (m : Manifest) : Field → Json.Value
  | title => .text m.title
  | version => .text m.version
  | output => .text m.output
  | coreModules => .texts m.coreModules
  | testModules => .texts m.testModules
  | dependencies => .object (m.dependencies.entries.map fun entry => (entry.1, .texts entry.2))
  | trackedSymbols => .texts m.trackedSymbols
  | excludedFiles => .texts m.excludedFiles

end Field

def toJson (m : Manifest) : Json.Value := .object (Field.all.map fun field => (field.key, field.value m))

def set {α : Type} (read : Reader α) (assign : α → Manifest) : Reader Manifest := fun text =>
  (read text).map fun taken => (assign taken.1, taken.2)

theorem setShortens {α : Type} {read : Reader α} (shortens : Shortens read) (assign : α → Manifest) :
    Shortens (set read assign) := by
  intro text value rest h
  unfold set at h
  cases found : read text with
  | error fault => rw [found] at h; cases h
  | ok taken =>
    rw [found] at h
    cases h
    exact shortens found

def Field.read (m : Manifest) : Field → Reader Manifest
  | title => set Json.readString fun value => { m with title := value }
  | version => set Json.readString fun value => { m with version := value }
  | output => set Json.readString fun value => { m with output := value }
  | coreModules => set Json.readStrings fun value => { m with coreModules := value }
  | testModules => set Json.readStrings fun value => { m with testModules := value }
  | dependencies => set Json.readTable fun value => { m with dependencies := value }
  | trackedSymbols => set Json.readStrings fun value => { m with trackedSymbols := value }
  | excludedFiles => set Json.readStrings fun value => { m with excludedFiles := value }

theorem Field.readShortens (m : Manifest) (f : Field) : Shortens (f.read m) := by
  cases f <;> unfold Field.read
  case title | version | output => exact setShortens Json.readStringShortens _
  case dependencies => exact setShortens Json.readTableShortens _
  all_goals exact setShortens Json.readStringsShortens _

structure Draft where
  manifest : Manifest
  given : List Field

/-- A field given before is refused before its second value is looked at. -/
def Draft.member (draft : Draft) (key : String) : Reader Draft := fun text =>
  match Field.ofKey? key with
  | some field =>
    if draft.given.contains field then .error .mistyped
    else
      match readColon text with
      | .error fault => .error fault
      | .ok ((), rest) =>
        (field.read draft.manifest rest).map fun taken => (⟨taken.1, field :: draft.given⟩, taken.2)
  | none =>
    match readColon text with
    | .error fault => .error fault
    | .ok ((), rest) => (Json.skipValue rest).map fun taken => (draft, taken.2)

theorem Draft.memberShortens (draft : Draft) (key : String) : Shortens (draft.member key) := by
  intro text value rest h
  unfold member at h
  split at h
  · rename_i field _
    split at h
    · cases h
    · split at h
      · cases h
      · rename_i tail found
        have outer := Json.readColonShortens found
        cases inner : field.read draft.manifest tail with
        | error fault => rw [inner] at h; cases h
        | ok taken =>
          rw [inner] at h
          cases h
          exact Nat.lt_trans (field.readShortens draft.manifest inner) outer
  · split at h
    · cases h
    · rename_i tail found
      have outer := Json.readColonShortens found
      cases inner : Json.skipValue tail with
      | error fault => rw [inner] at h; cases h
      | ok taken =>
        rw [inner] at h
        cases h
        exact Nat.lt_trans (Json.skipValueShortens inner) outer

/-- The fields of a list in their order. Behind the last of them only the closing bracket may stand,
and a list may stop before it. -/
def readPositional (m : Manifest) (first : Bool) : List Field → Reader Manifest
  | [], text =>
    match readHead text with
    | .error fault => .error fault
    | .ok (c, rest) => if c = ']' then .ok (m, rest) else .error .malformed
  | field :: fields, text =>
    match Json.nextStep ']' first text with
    | .error fault => .error fault
    | .ok (.closed rest) => .ok (m, rest)
    | .ok (.item start) =>
      match field.read m start with
      | .error fault => .error fault
      | .ok (m, rest) => readPositional m false fields rest

def readValue : Reader Manifest := fun text =>
  match readHead text with
  | .error fault => .error fault
  | .ok (c, rest) =>
    if c = '[' then readPositional builtin true Field.all rest
    else if c = '{' then
      (Json.readMembers Draft.member Draft.memberShortens true ⟨builtin, []⟩ rest).map
        fun taken => (taken.1.manifest, taken.2)
    else .error (Json.wrongType (c :: rest))

def ofJson (text : String) : Except Fault Manifest :=
  match readValue text.toList with
  | .error fault => .error fault
  | .ok (m, rest) => if Json.skipSpace rest = [] then .ok m else .error .malformed

end Manifest

inductive ManifestError where
  | unreadable (path : String) (fault : FileFault)
  | unparsable (fault : Json.Fault)
  | flawed (flaw : Manifest.Flaw)
  deriving DecidableEq, Repr

def ManifestError.message : ManifestError → String
  | unreadable path fault => "failed to read manifest '" ++ path ++ "': " ++ fault.message
  | unparsable fault => "failed to parse manifest: " ++ fault.message
  | flawed flaw => flaw.message

def Manifest.parse (text : String) : Except ManifestError Manifest :=
  match Manifest.ofJson text with
  | .error fault => .error (.unparsable fault)
  | .ok m =>
    match m.flaw? with
    | some flaw => .error (.flawed flaw)
    | none => .ok m

namespace Manifest

def fileName : String := "gsbundle.json"

def load (tree : FileTree) (path : String) : Except ManifestError Manifest :=
  match tree.read path with
  | .error fault => .error (.unreadable path fault)
  | .ok bytes =>
    match Utf8.decode? bytes with
    | none => .error (.unreadable path .notUtf8)
    | some text => parse text

def pathFor (root : String) (asked : Option String) : String := asked.getD (Path.join root fileName)

def lookup (tree : FileTree) (root : String) (asked : Option String) : Except ManifestError Manifest :=
  if asked.isSome ∨ tree.isFile (pathFor root asked) then load tree (pathFor root asked)
  else .ok builtin

end Manifest
end ScriptBundle
