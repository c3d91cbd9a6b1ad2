import ScriptBundle.CommandLine.Arguments
import ScriptBundle.CommandLine.Transcript
import ScriptBundle.Manifest.Reader
import ScriptBundle.Number
import ScriptBundle.Project
import ScriptBundle.Storage.FileTree
/-! One run of the command line on a file tree: its exit code, what it prints, and the tree it
leaves behind. -/
namespace ScriptBundle.CommandLine

structure Result where
  exit : Nat
  transcript : Transcript
  deriving DecidableEq, Repr

def help : Result := ⟨0, usage.map say⟩

def duplicateLines (colours : Bool) (scan : Scan) : Transcript :=
  [complain "", complain "The following constants are declared in multiple modules:", complain ""] ++
  scan.duplicates.flatMap fun duplicate =>
    [complain ("  " ++ styled colours Style.bold duplicate.symbol ++ ":")] ++
    duplicate.locations.map (fun place => complain ("    - " ++ place.text)) ++ [complain ""]

section
variable {σ : Type} [Storage σ]

def runCheck (colours : Bool) (p : Project σ) : Result :=
  let opening := [say "Checking for duplicate declarations across all modules...", say ""]
  match p.check with
  | .error error => ⟨1, opening ++ [failure colours error.message]⟩
  | .ok scan =>
    if scan.hasDuplicates then ⟨1, opening ++ duplicateLines colours scan⟩
    else ⟨0, opening ++
      [success colours "No duplicate declarations found!", say "",
       say "Constant declarations (single source of truth):"] ++
      (SymbolTable.singles scan.table).map (fun d =>
        say ("   " ++ d.symbol ++ ": " ++ d.file ++ ":" ++ Nat.repr d.line.toNat)) ++ [say ""]⟩

def missingLines (colours : Bool) (v : Verification) : Transcript :=
  if v.isComplete then []
  else [warning colours ("Missing modules (" ++ Nat.repr v.missing.length ++ "):")] ++
    v.missing.map (fun name => say ("   - " ++ name)) ++
    [say "", say "   These modules will be skipped in the build.", say ""]

def runVerify (colours : Bool) (p : Project σ) (options : BuildOptions) : Result :=
  let v := p.verify options.includeTests
  let unlisted := p.unlisted
  ⟨0, [say "Verifying modules...", say ""] ++ missingLines colours v ++
    [success colours ("Found " ++ Nat.repr v.found ++ "/" ++ Nat.repr v.total ++ " modules")] ++
    (if unlisted.isEmpty then [] else say "" :: unlisted.map (diagnosticLine colours)) ++ [say ""]⟩

def orderLines (colours : Bool) (p : Project σ) (quiet : Bool) : Transcript :=
  let warnings := p.orderWarnings
  if warnings.isEmpty then
    if quiet then [] else [say "   All module dependencies are correctly ordered", say ""]
  else [warning colours "Dependency warnings:"] ++
    warnings.map (fun w => say ("   " ++ w.text)) ++ [say ""]

def outcomeLine (colours : Bool) (total index : Nat) (outcome : ModuleOutcome) : Line :=
  let counter := "[" ++ Nat.repr (index + 1) ++ "/" ++ Nat.repr total ++ "] "
  match outcome with
  | .included name bytes => say (counter ++ name ++ " (" ++ Kilobytes.text bytes 1 ++ " KB)")
  | .skipped name => warning colours (counter ++ "SKIPPED: " ++ name ++ " (file not found)")

def reportLines (colours quiet : Bool) (r : BuildReport) : Transcript :=
  if quiet then r.diagnostics.map (diagnosticLine colours) ++ [say r.outputPath]
  else
    [say "   No duplicate declarations found", say ""] ++
    (if r.cleaned then [say "Cleaned previous output", say ""] else []) ++
    r.modules.mapIdx (outcomeLine colours r.modules.length) ++
    [say "",
     success colours "BUILD SUCCESSFUL",
     say ("   Output: " ++ r.outputPath),
     say ("   Size: " ++ Kilobytes.text r.artifact.size 2 ++ " KB"),
     say ("   Modules: " ++ Nat.repr r.includedCount ++ " included, " ++
       Nat.repr r.skipped.length ++ " skipped")] ++
    (if 0 < r.artifact.lowered then
      [say ("   Downleveled: " ++ Nat.repr r.artifact.lowered ++ " callbacks")] else []) ++
    [say ("   Build date: " ++ r.date), say ("   Build type: " ++ r.buildType.label), say ""]

def buildErrorLines (colours : Bool) (error : BuildError) : Transcript :=
  match error with
  | .duplicates scan =>
    [failure colours "BUILD FAILED: duplicate declarations detected"] ++ duplicateLines colours scan ++
    [complain "Keep each constant in only one module (config constants belong in Constants.gs)."]
  | error => [failure colours ("BUILD FAILED: " ++ error.message)]

def runBuild (colours : Bool) (p : Project σ) (options : BuildOptions) (date : String) :
    Result × Project σ :=
  let unlessQuiet (lines : Transcript) : Transcript := if options.quiet then [] else lines
  let opening :=
    unlessQuiet [say ("Building " ++ p.manifest.title ++ " (" ++ options.buildType.label ++ ")..."),
      say "", say "Validating module dependencies..."] ++
    orderLines colours p options.quiet ++
    unlessQuiet [say "Checking for duplicate declarations..."]
  match p.build options date with
  | (.ok report, after) => (⟨0, opening ++ reportLines colours options.quiet report⟩, after)
  | (.error error, after) => (⟨1, opening ++ buildErrorLines colours error⟩, after)

def runMode (colours : Bool) (request : Request) (date : String) (p : Project σ) : Result × Project σ :=
  match request.mode with
  | .help => (help, p)
  | .checkDuplicates => (runCheck colours p, p)
  | .verify => (runVerify colours p request.options, p)
  | .build => runBuild colours p request.options date

end

structure Outcome where
  exit : Nat
  output : String
  errors : String
  tree : FileTree
  deriving DecidableEq, Repr

def Outcome.of (result : Result) (tree : FileTree) : Outcome :=
  ⟨result.exit, result.transcript.on .output, result.transcript.on .errors, tree⟩

def run (colours : Bool) (date : String) (tree : FileTree) (request : Request) : Outcome :=
  if request.mode = .help then .of help tree
  else match Manifest.lookup tree request.root request.manifest with
    | .error error => .of ⟨1, [failure colours error.message]⟩ tree
    | .ok manifest =>
      let project : Project Folder := ⟨manifest, ⟨request.root, tree⟩⟩
      let (result, after) := runMode colours request date project
      .of result after.storage.tree

def runArguments (colours : Bool) (date : String) (tree : FileTree) (arguments : List String) : Outcome :=
  match parse arguments with
  | .error error => .of ⟨2, [failure false error.message]⟩ tree
  | .ok request => run colours date tree request

end ScriptBundle.CommandLine
