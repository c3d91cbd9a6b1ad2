import ScriptBundle.Artifact
import ScriptBundle.Declaration
import ScriptBundle.Resolution
/-! A project, its manifest and its files, and what can be done with it: checking for duplicate
declarations, verifying the module list, removing the artifact, and building it. -/
namespace ScriptBundle

inductive BuildError where
  | duplicates (scan : Scan)
  | unreadable (modules : List (String × AccessError))
  | clean (error : AccessError)
  | write (error : AccessError)
  deriving DecidableEq, Repr

def unreadableText (entry : String × AccessError) : String :=
  entry.1 ++ " (" ++ entry.2.message ++ ")"

def BuildError.message : BuildError → String
  | duplicates scan => Nat.repr scan.duplicates.length ++ " symbol(s) declared in multiple places"
  | unreadable modules => "could not read " ++ ", ".intercalate (modules.map unreadableText)
  | clean error => "failed to remove previous output: " ++ error.message
  | write error => "error writing output file: " ++ error.message

inductive ModuleOutcome where
  | included (name : String) (bytes : Nat)
  | skipped (name : String)
  deriving DecidableEq, Repr

namespace ModuleOutcome

/-- The first of the units that wait, if its turn has come, and those that go on waiting. -/
def takeUnit (ordinal : Nat) : List SourceUnit → Option SourceUnit × List SourceUnit
  | [] => (none, [])
  | unit :: waiting => if unit.ordinal = ordinal then (some unit, waiting) else (none, unit :: waiting)

def of (name : String) : Option SourceUnit → ModuleOutcome
  | some unit => included unit.name unit.size
  | none => skipped name

def ofModulesFrom (ordinal : Nat) : List String → List SourceUnit → List ModuleOutcome
  | [], _ => []
  | name :: names, waiting =>
    let taken := takeUnit ordinal waiting
    of name taken.1 :: ofModulesFrom (ordinal + 1) names taken.2

def ofModules (modules : List String) (units : List SourceUnit) : List ModuleOutcome :=
  ofModulesFrom 0 modules units

def isIncluded : ModuleOutcome → Bool
  | included _ _ => true
  | skipped _ => false

def skipped? : ModuleOutcome → Option String
  | included _ _ => none
  | skipped name => some name

end ModuleOutcome

structure BuildReport where
  artifact : Artifact
  outputPath : String
  modules : List ModuleOutcome
  diagnostics : Diagnostics
  scan : Scan
  date : String
  buildType : BuildType
  cleaned : Bool
  deriving Repr

namespace BuildReport

def includedCount (r : BuildReport) : Nat := r.modules.countP ModuleOutcome.isIncluded

def skipped (r : BuildReport) : List String := r.modules.filterMap ModuleOutcome.skipped?

end BuildReport

structure Project (σ : Type) where
  manifest : Manifest
  storage : σ

namespace Project
variable {σ : Type} [Storage σ]

def outputPath (p : Project σ) : String := Storage.display p.storage p.manifest.output

def orderWarnings (p : Project σ) : List LoadOrder.Warning :=
  LoadOrder.warnings p.manifest.allModules p.manifest.dependencies

/-- A module that is there but cannot be read would get past the duplicate check, so it stops a run. -/
def load (p : Project σ) (modules : List String) : Except BuildError Resolution :=
  let resolution := Resolution.of p.storage modules
  if resolution.unreadable.isEmpty then .ok resolution else .error (.unreadable resolution.unreadable)

def scan (p : Project σ) (units : List SourceUnit) : Scan := .ofUnits p.manifest.trackedSymbols units

def check (p : Project σ) : Except BuildError Scan :=
  (p.load p.manifest.allModules).map fun resolution => p.scan resolution.units

def verify (p : Project σ) (includeTests : Bool) : Verification :=
  .of p.storage (p.manifest.modulesFor includeTests)

def unlisted (p : Project σ) : Diagnostics := unlistedDiagnostics p.storage p.manifest

def clean (p : Project σ) : Except BuildError (Bool × Project σ) :=
  match Storage.remove p.storage p.manifest.output with
  | .error error => .error (.clean error)
  | .ok (removed, storage) => .ok (removed, { p with storage })

def info (p : Project σ) (options : BuildOptions) (date : String) : BuildInfo :=
  ⟨p.manifest.title, p.manifest.version, date, options.buildType,
   (p.manifest.modulesFor options.includeTests).length, options.includeTests⟩

def assemble (p : Project σ) (options : BuildOptions) (date : String) (cleaned : Bool) :
    Except BuildError BuildReport := do
  let resolution ← p.load (p.manifest.modulesFor options.includeTests)
  let scan := p.scan resolution.units
  if scan.hasDuplicates then .error (.duplicates scan)
  else .ok {
    artifact := .compose p.manifest.output options.downlevel (p.info options date) resolution.units
    outputPath := p.outputPath
    modules := ModuleOutcome.ofModules (p.manifest.modulesFor options.includeTests) resolution.units
    diagnostics := resolution.diagnostics
    scan, date, cleaned
    buildType := options.buildType }

def publish (p : Project σ) (report : BuildReport) : Except BuildError (Project σ) :=
  match Storage.write p.storage report.artifact.name report.artifact.text with
  | .error error => .error (.write error)
  | .ok storage => .ok { p with storage }

/-- Cleans if asked to, assembles the artifact and writes it. A build that fails leaves the project
as it was after cleaning. -/
def build (p : Project σ) (options : BuildOptions) (date : String) :
    Except BuildError BuildReport × Project σ :=
  match if options.clean then p.clean else .ok (false, p) with
  | .error error => (.error error, p)
  | .ok (cleaned, p) =>
    match p.assemble options date cleaned with
    | .error error => (.error error, p)
    | .ok report =>
      match p.publish report with
      | .error error => (.error error, p)
      | .ok published => (.ok report, published)

end Project
end ScriptBundle
