import ScriptBundle.Storage
import ScriptBundle.Text.Cut
import ScriptBundle.Text.Utf8
/-! A tree of folders and files with a working folder, and a folder of it as a storage. Paths are parts
divided by slashes, from the top of the tree or from the working folder. They are resolved part by part
from the left, each step from a folder. -/
namespace ScriptBundle
open Utf8 (Bytes)

structure Path where
  fromTop : Bool
  parts : List String
  /-- A path that ends in a slash has to name a folder. -/
  slashed : Bool
  deriving DecidableEq, Repr

namespace Path

def byteLimit : Nat := 4096

def partLimit : Nat := 255

def ofString (path : String) : Except FileFault Path :=
  if path.toList.contains '\x00' then .error .nulInName
  else if path = "" then .error .noEntry
  else if byteLimit ≤ path.utf8ByteSize then .error .nameTooLong
  else
    let pieces := (Text.splitOn '/' path.toList).map String.ofList
    .ok ⟨path.toList.head? = some '/', pieces.filter (· ≠ ""), path.toList.getLast? = some '/'⟩

def join (root name : String) : String :=
  if name.toList.head? = some '/' then name
  else if root = "" ∨ root.toList.getLast? = some '/' then root ++ name
  else root ++ "/" ++ name

end Path

inductive Entry where
  | folder
  | file (bytes : Bytes)
  deriving DecidableEq, Repr

def Entry.isFile : Entry → Bool
  | folder => false
  | file _ => true

/-- The names of the folders from the top of the tree down to an entry, and its own name last. -/
abbrev Location := List String

structure FileTree where
  entries : List (Location × Entry)
  here : Location
  deriving DecidableEq, Repr

namespace FileTree

def at? (t : FileTree) (location : Location) : Option Entry :=
  if location = [] then some .folder else t.entries.lookup location

def erase (t : FileTree) (location : Location) : FileTree :=
  { t with entries := t.entries.filter (·.1 ≠ location) }

def put (t : FileTree) (location : Location) (entry : Entry) : FileTree :=
  { t with entries := (t.erase location).entries ++ [(location, entry)] }

def folder (t : FileTree) (location : Location) : Except FileFault Location :=
  match t.at? location with
  | some .folder => .ok location
  | some (.file _) => .error .notFolder
  | none => .error .noEntry

def step (t : FileTree) (location : Location) (part : String) : Except FileFault Location := do
  let location ← t.folder location
  if part = "." then .ok location
  else if part = ".." then .ok location.dropLast
  else if Path.partLimit < part.utf8ByteSize then .error .nameTooLong
  else if (t.at? (location ++ [part])).isSome then .ok (location ++ [part])
  else .error .noEntry

def start (t : FileTree) (path : Path) : Location := if path.fromTop then [] else t.here

def walk (t : FileTree) (location : Location) (parts : List String) : Except FileFault Location :=
  parts.foldlM t.step location

def locate (t : FileTree) (text : String) : Except FileFault Location := do
  let path ← Path.ofString text
  let location ← t.walk (t.start path) path.parts
  if path.slashed then t.folder location else .ok location

structure Target where
  parent : Location
  name : String
  slashed : Bool
  deriving DecidableEq, Repr

def target (t : FileTree) (text : String) : Except FileFault Target := do
  let path ← Path.ofString text
  match path.parts.getLast? with
  | none => .error .isFolder
  | some name =>
    let parent ← t.walk (t.start path) path.parts.dropLast
    let parent ← t.folder parent
    if name = "." ∨ name = ".." then .error .isFolder
    else .ok ⟨parent, name, path.slashed⟩

def Target.location (target : Target) : Location := target.parent ++ [target.name]

def Target.fits (target : Target) : Bool := target.name.utf8ByteSize ≤ Path.partLimit

def read (t : FileTree) (path : String) : Except FileFault Bytes := do
  let location ← t.locate path
  match t.at? location with
  | some (.file bytes) => .ok bytes
  | _ => .error .isFolder

def isFile (t : FileTree) (path : String) : Bool :=
  match t.locate path with
  | .ok location => (t.at? location).any Entry.isFile
  | .error _ => false

def write (t : FileTree) (path : String) (bytes : Bytes) : Except FileFault FileTree := do
  let target ← t.target path
  if target.slashed then .error .isFolder
  else if target.fits then
    match t.at? target.location with
    | some .folder => .error .isFolder
    | _ => .ok (t.put target.location (.file bytes))
  else .error .nameTooLong

def remove (t : FileTree) (path : String) : Except FileFault FileTree := do
  let target ← t.target path
  if target.fits then
    match t.at? target.location with
    | none => .error .noEntry
    | some .folder => .error .isFolder
    | some (.file _) =>
      if target.slashed then .error .notFolder else .ok (t.erase target.location)
  else .error .nameTooLong

def names (t : FileTree) (path : String) : Except FileFault (List String) := do
  let location ← t.locate path
  let location ← t.folder location
  .ok (t.entries.filterMap fun entry =>
    if entry.1 ≠ [] ∧ entry.1.dropLast = location then entry.1.getLast? else none)

def makeFolder (t : FileTree) (location : Location) : FileTree :=
  (List.range location.length).foldl (fun t n =>
    let above := location.take (n + 1)
    if (t.at? above).isSome then t else t.put above .folder) t

def blank (here : Location) : FileTree := makeFolder ⟨[], here⟩ here

def onward (location : Location) (part : String) : Location :=
  if part = "" ∨ part = "." then location
  else if part = ".." then location.dropLast
  else location ++ [part]

def trail (location : Location) : List String → List Location
  | [] => []
  | part :: parts => onward location part :: trail (onward location part) parts

def below (t : FileTree) (path : String) : Location :=
  ((Text.splitOn '/' path.toList).map String.ofList).foldl onward t.here

def changes (before after : FileTree) : List (Location × Option Bytes) :=
  (after.entries.filterMap fun entry =>
    match entry.2 with
    | .folder => none
    | .file bytes => if before.at? entry.1 = some entry.2 then none else some (entry.1, some bytes)) ++
  before.entries.filterMap fun entry =>
    if (after.at? entry.1).isSome then none else some (entry.1, none)

end FileTree

structure Folder where
  root : String
  tree : FileTree
  deriving DecidableEq, Repr

namespace Folder

def pathOf (f : Folder) (name : String) : String := Path.join f.root name

def read (f : Folder) (name : String) : Except AccessError (Option String) :=
  match f.tree.read (f.pathOf name) with
  | .ok bytes => .ok (some (Utf8.decode bytes))
  | .error .noEntry => .ok none
  | .error fault => .error ⟨.read, f.pathOf name, fault⟩

def write (f : Folder) (name text : String) : Except AccessError Folder :=
  match f.tree.write (f.pathOf name) (Utf8.encode text) with
  | .ok tree => .ok { f with tree }
  | .error fault => .error ⟨.write, f.pathOf name, fault⟩

def remove (f : Folder) (name : String) : Except AccessError (Bool × Folder) :=
  match f.tree.remove (f.pathOf name) with
  | .ok tree => .ok (true, { f with tree })
  | .error .noEntry => .ok (false, f)
  | .error fault => .error ⟨.remove, f.pathOf name, fault⟩

def list (f : Folder) : Except AccessError (List String) :=
  match f.tree.names f.root with
  | .ok names => .ok (sortNames (names.filter fun name => f.tree.isFile (f.pathOf name)))
  | .error fault => .error ⟨.list, f.root, fault⟩

instance : Storage Folder where
  display := pathOf
  read := read
  isFile f name := f.tree.isFile (f.pathOf name)
  write := write
  remove := remove
  list := list

end Folder

end ScriptBundle
