import ScriptBundle.CommandLine.Run
import Std.Time.DateTime
/-! The command line program. It records the part of the disk that the arguments can reach, runs
them on that record and carries the changes back to the disk. -/
namespace ScriptBundle.Disk

def pathOf (location : Location) : String := "/" ++ "/".intercalate location

def entryAt (location : Location) : IO (Option Entry) := do
  let path := (← IO.currentDir) / pathOf location
  if ← path.isDir then return some .folder
  if ← path.pathExists then return some (.file (← IO.FS.readBinFile path).toList)
  return none

def record (tree : FileTree) (text : String) : IO FileTree := do
  let .ok path := Path.ofString text | return tree
  (FileTree.trail (tree.start path) path.parts).foldlM (fun tree location => do
    if (tree.at? location).isSome then return tree
    return ((← entryAt location).map (tree.put location)).getD tree) tree

/-- The names of the regular files in a folder. The bytes of those not recorded yet play no part. -/
def recordNames (tree : FileTree) (root : String) : IO FileTree := do
  let .ok location := tree.locate root | return tree
  let folder := (← IO.currentDir) / pathOf location
  if !(← folder.isDir) then return tree
  (← folder.readDir).foldlM (fun tree found => do
    let file := location ++ [found.fileName]
    if (tree.at? file).isSome || (← found.path.isDir) then return tree
    return tree.put file (.file [])) tree

/-- What a request can read or change: its manifest, the modules and the artifact that the manifest
names, and the root folder. -/
def snapshot (request : CommandLine.Request) : IO FileTree := do
  let bare := FileTree.blank (FileTree.below ⟨[], []⟩ (← IO.currentDir).toString)
  if request.mode = .help then return bare
  let tree ← record bare (Manifest.pathFor request.root request.manifest)
  let .ok manifest := Manifest.lookup tree request.root request.manifest | return tree
  let names := manifest.output :: manifest.allModules
  let tree ← (names.map (Path.join request.root)).foldlM record (← record tree request.root)
  recordNames tree request.root

def commit (before after : FileTree) : IO Unit :=
  (FileTree.changes before after).forM fun
    | (location, some bytes) => IO.FS.writeBinFile (pathOf location) ⟨bytes.toArray⟩
    | (location, none) => IO.FS.removeFile (pathOf location)

def stamp (moment : Std.Time.PlainDateTime) : String :=
  let digits (width : Nat) (n : Int) : String := Decimal.padded width n.toNat
  digits 4 moment.year ++ "-" ++ digits 2 moment.month.val ++ "-" ++ digits 2 moment.day.val ++ "T" ++
  digits 2 moment.hour.val ++ ":" ++ digits 2 moment.minute.val ++ ":" ++ digits 2 moment.second.val ++
  "." ++ digits 3 (moment.nanosecond.val / 1000000) ++ "Z"

def now : IO String := do
  let moment ← Std.Time.Timestamp.now
  return stamp (.ofWallTime (.ofNanoseconds moment.toNanosecondsSinceUnixEpoch))

end ScriptBundle.Disk

open ScriptBundle in
def main (arguments : List String) : IO UInt32 := do
  let colours ← (← IO.getStderr).isTty
  try
    let before ← match CommandLine.parse arguments with
      | .ok request => Disk.snapshot request
      | .error _ => pure (FileTree.blank [])
    let outcome := CommandLine.runArguments colours (← Disk.now) before arguments
    Disk.commit before outcome.tree
    (← IO.getStdout).putStr outcome.output
    (← IO.getStderr).putStr outcome.errors
    return UInt32.ofNat outcome.exit
  catch error =>
    (← IO.getStderr).putStrLn (CommandLine.failure colours error.toString).text
    return 1
