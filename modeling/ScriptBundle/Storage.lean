import ScriptBundle.Table
/-! Where modules come from and where the artifact goes: named files that can be read, written,
removed and listed, what can go wrong with them, and files that are held in a map. -/
namespace ScriptBundle

inductive FileFault where
  | noEntry
  | notFolder
  | isFolder
  | nameTooLong
  | nulInName
  | notUtf8
  | other (text : String)
  deriving DecidableEq, Repr

def FileFault.message : FileFault → String
  | noEntry => "No such file or directory (os error 2)"
  | notFolder => "Not a directory (os error 20)"
  | isFolder => "Is a directory (os error 21)"
  | nameTooLong => "File name too long (os error 36)"
  | nulInName => "file name contained an unexpected NUL byte"
  | notUtf8 => "stream did not contain valid UTF-8"
  | other text => text

inductive Access where
  | read
  | write
  | remove
  | list
  deriving DecidableEq, Repr

def Access.verb : Access → String
  | read => "read"
  | write => "write"
  | remove => "remove"
  | list => "list"

structure AccessError where
  access : Access
  path : String
  fault : FileFault
  deriving DecidableEq, Repr

def AccessError.message (e : AccessError) : String :=
  "failed to " ++ e.access.verb ++ " '" ++ e.path ++ "': " ++ e.fault.message

class Storage (σ : Type) where
  display : σ → String → String
  read : σ → String → Except AccessError (Option String)
  isFile : σ → String → Bool
  write : σ → String → String → Except AccessError σ
  /-- Whether there was a file to remove. -/
  remove : σ → String → Except AccessError (Bool × σ)
  list : σ → Except AccessError (List String)

def sortNames (names : List String) : List String := names.mergeSort fun a b => decide (a ≤ b)

structure Faults where
  read : Table String := Table.empty
  write : Table String := Table.empty
  remove : Table String := Table.empty
  list : Option String := none
  deriving DecidableEq, Repr

structure FileMap where
  files : Table String
  faults : Faults := {}
  deriving DecidableEq, Repr

namespace FileMap

def guarded {α : Type} (access : Access) (path : String) (fault : Option String) (value : α) :
    Except AccessError α :=
  match fault with
  | some text => .error ⟨access, path, .other text⟩
  | none => .ok value

instance : Storage FileMap where
  display _ name := name
  read m name := guarded .read name (m.faults.read.find? name) (m.files.find? name)
  isFile m name := m.files.contains name
  write m name text :=
    guarded .write name (m.faults.write.find? name) { m with files := m.files.insert name text }
  remove m name :=
    guarded .remove name (m.faults.remove.find? name)
      (m.files.contains name, { m with files := m.files.erase name })
  list m := guarded .list "." m.faults.list (sortNames m.files.keys)

end FileMap

end ScriptBundle
