/-! What a run is asked to do: its mode, and the options of a build. -/
namespace ScriptBundle

inductive Mode where
  | help
  | checkDuplicates
  | verify
  | build
  deriving DecidableEq, Repr

def Mode.choose (help checkDuplicates verify : Bool) : Mode :=
  if help then .help
  else if checkDuplicates then .checkDuplicates
  else if verify then .verify
  else .build

inductive BuildType where
  | development
  | production
  deriving DecidableEq, Repr

def BuildType.label : BuildType → String
  | development => "DEVELOPMENT"
  | production => "PRODUCTION"

structure BuildOptions where
  includeTests : Bool := true
  quiet : Bool := false
  clean : Bool := false
  downlevel : Bool := false
  deriving DecidableEq, Repr

def BuildOptions.buildType (options : BuildOptions) : BuildType :=
  if options.includeTests then .development else .production

end ScriptBundle
