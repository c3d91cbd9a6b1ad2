import ScriptBundle.BuildOptions
import ScriptBundle.Text.Visible
/-! Arguments of the command line. They are read from left to right and the first fault counts.
Flags take no value, may repeat and may stand together behind one dash; settings take a value, and
the last one given counts. Nothing else is accepted. -/
namespace ScriptBundle.CommandLine

inductive Flag where
  | help
  | checkDuplicates
  | verify
  | clean
  | production
  | quiet
  | downlevel
  deriving DecidableEq, Repr

inductive Setting where
  | root
  | manifest
  deriving DecidableEq, Repr

inductive Switch where
  | flag (flag : Flag)
  | setting (setting : Setting)
  deriving DecidableEq, Repr

def Flag.name : Flag → String
  | help => "--help"
  | checkDuplicates => "--check-duplicates"
  | verify => "--verify"
  | clean => "--clean"
  | production => "--production"
  | quiet => "--quiet"
  | downlevel => "--downlevel"

def Flag.ofLetter? (letter : Char) : Option Flag :=
  match letter with
  | 'h' => some help
  | 'v' => some verify
  | 'c' => some clean
  | 'p' => some production
  | 'q' => some quiet
  | _ => none

def Setting.usage : Setting → String
  | root => "--root <DIR>"
  | manifest => "--manifest <FILE>"

def Switch.ofName? (name : String) : Option Switch :=
  match name with
  | "help" => some (.flag .help)
  | "check-duplicates" => some (.flag .checkDuplicates)
  | "verify" => some (.flag .verify)
  | "clean" => some (.flag .clean)
  | "production" => some (.flag .production)
  | "no-tests" => some (.flag .production)
  | "quiet" => some (.flag .quiet)
  | "downlevel" => some (.flag .downlevel)
  | "root" => some (.setting .root)
  | "manifest" => some (.setting .manifest)
  | _ => none

inductive ArgumentError where
  | unexpected (argument : String)
  | valueRequired (setting : Setting)
  | valueRefused (flag : Flag) (value : String)
  deriving DecidableEq, Repr

def ArgumentError.message : ArgumentError → String
  | unexpected argument => "unexpected argument '" ++ Visible.of argument ++ "' found"
  | valueRequired setting => "a value is required for '" ++ setting.usage ++ "' but none was supplied"
  | valueRefused flag value =>
    "unexpected value '" ++ Visible.of value ++ "' for '" ++ flag.name ++ "' found; no more were expected"

structure Request where
  help : Bool := false
  checkDuplicates : Bool := false
  verify : Bool := false
  clean : Bool := false
  production : Bool := false
  quiet : Bool := false
  downlevel : Bool := false
  root : String := "."
  manifest : Option String := none
  deriving DecidableEq, Repr

namespace Request

def raise (r : Request) : Flag → Request
  | .help => { r with help := true }
  | .checkDuplicates => { r with checkDuplicates := true }
  | .verify => { r with verify := true }
  | .clean => { r with clean := true }
  | .production => { r with production := true }
  | .quiet => { r with quiet := true }
  | .downlevel => { r with downlevel := true }

def assign (r : Request) (value : String) : Setting → Request
  | .root => { r with root := value }
  | .manifest => { r with manifest := some value }

def mode (r : Request) : Mode := .choose r.help r.checkDuplicates r.verify

def options (r : Request) : BuildOptions :=
  { includeTests := !r.production, quiet := r.quiet, clean := r.clean, downlevel := r.downlevel }

end Request

structure Progress where
  request : Request := {}
  pending : Option (Setting × Option String) := none
  closed : Bool := false
  deriving DecidableEq, Repr

namespace Progress

def supply (p : Progress) (setting : Setting) (value : String) : Except ArgumentError Progress :=
  if value = "" then .error (.valueRequired setting)
  else .ok { p with request := p.request.assign value setting }

/-- A pending setting is looked at only when the next switch has been recognised, or at the end. -/
def settle (p : Progress) : Except ArgumentError Progress :=
  match p.pending with
  | none => .ok p
  | some (setting, none) => .error (.valueRequired setting)
  | some (setting, some value) => supply { p with pending := none } setting value

def raise (p : Progress) (flag : Flag) : Except ArgumentError Progress := do
  let p ← p.settle
  .ok { p with request := p.request.raise flag }

def letter (p : Progress) (c : Char) : Except ArgumentError Progress :=
  match Flag.ofLetter? c with
  | some flag => p.raise flag
  | none => .error (.unexpected (String.ofList ['-', c]))

def named (p : Progress) (name : String) (value : Option String) : Except ArgumentError Progress :=
  match Switch.ofName? name, value with
  | none, _ => .error (.unexpected ("--" ++ name))
  | some (.flag flag), some value => .error (.valueRefused flag value)
  | some (.flag flag), none => p.raise flag
  | some (.setting setting), some value => do
    let p ← p.settle
    p.supply setting value
  | some (.setting setting), none => do
    let p ← p.settle
    .ok { p with pending := some (setting, none) }

def plain (p : Progress) (argument : String) : Except ArgumentError Progress :=
  match p.pending with
  | some (setting, none) => .ok { p with pending := some (setting, some argument) }
  | _ => .error (.unexpected argument)

def joinedValue : List Char → Option String
  | '=' :: value => some (String.ofList value)
  | _ => none

def step (p : Progress) (argument : String) : Except ArgumentError Progress :=
  if p.closed then .error (.unexpected argument)
  else match argument.toList with
    | ['-', '-'] => .ok { p with closed := true }
    | '-' :: '-' :: rest =>
      p.named (String.ofList (rest.takeWhile (· ≠ '='))) (joinedValue (rest.dropWhile (· ≠ '=')))
    | '-' :: c :: letters => (c :: letters).foldlM letter p
    | _ => p.plain argument

end Progress

def parse (arguments : List String) : Except ArgumentError Request := do
  let p ← arguments.foldlM Progress.step {}
  let p ← p.settle
  .ok p.request

end ScriptBundle.CommandLine
