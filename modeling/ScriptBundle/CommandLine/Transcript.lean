import ScriptBundle.Diagnostic
/-! What a run prints: lines on two streams. On a terminal some of them are coloured. -/
namespace ScriptBundle.CommandLine

inductive Stream where
  | output
  | errors
  deriving DecidableEq, Repr

structure Line where
  stream : Stream
  text : String
  deriving DecidableEq, Repr

abbrev Transcript := List Line

def Transcript.on (stream : Stream) (t : Transcript) : String :=
  String.join ((t.filter (·.stream = stream)).map (·.text ++ "\n"))

def say (text : String) : Line := ⟨.output, text⟩

def complain (text : String) : Line := ⟨.errors, text⟩

namespace Style

def red : String := "\x1b[31m"
def green : String := "\x1b[32m"
def yellow : String := "\x1b[33m"
def cyan : String := "\x1b[36m"
def gray : String := "\x1b[90m"
def bold : String := "\x1b[1m"
def reset : String := "\x1b[0m"

end Style

def styled (colours : Bool) (style text : String) : String :=
  if colours then style ++ text ++ Style.reset else text

def success (colours : Bool) (text : String) : Line :=
  say (styled colours (Style.bold ++ Style.green) text)

def warning (colours : Bool) (text : String) : Line := say (styled colours Style.yellow text)

def failure (colours : Bool) (text : String) : Line :=
  complain (styled colours (Style.bold ++ Style.red) "error" ++ ": " ++ text)

def colouredPlace (d : Diagnostic) : String :=
  match d.file, d.line with
  | none, _ => ""
  | some file, none => styled true Style.cyan file ++ ": "
  | some file, some line => styled true Style.cyan file ++ ":" ++ Nat.repr line.toNat ++ ": "

def diagnosticLine (colours : Bool) (d : Diagnostic) : Line :=
  if colours then
    let colour := if d.isError then Style.red else Style.yellow
    complain (colouredPlace d ++ styled true (Style.bold ++ colour) d.category.word ++ " " ++
      styled true Style.gray ("GS" ++ Nat.repr d.code) ++ ": " ++ d.message)
  else complain d.text

def usage : List String :=
  ["Concatenate Apps Script modules into one consolidated file",
   "",
   "Usage: gsbundle [OPTIONS]",
   "",
   "Options:",
   "  -h, --help              Print usage",
   "      --check-duplicates  Only check for duplicate declarations across all modules",
   "  -v, --verify            Only verify that every listed module exists",
   "  -c, --clean             Remove the previous output before building",
   "  -p, --production        Leave test modules out of the build [alias: --no-tests]",
   "  -q, --quiet             Suppress progress output",
   "      --root <DIR>        Directory holding the modules and the output file [default: .]",
   "      --manifest <FILE>   Path to a gsbundle.json manifest",
   "      --downlevel         Rewrite destructured callback parameters to ES5",
   ""]

end ScriptBundle.CommandLine
