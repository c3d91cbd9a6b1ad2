import ScriptBundle.Text.Cut
import ScriptBundle.Text.Template
/-! Diagnostics: findings with a code, a category and a place, and the messages from which all of
them are made. -/
namespace ScriptBundle
open Lines (LineNumber)

inductive Category where
  | warning
  | error
  | message
  deriving DecidableEq, Inhabited, Repr

def Category.word : Category → String
  | .warning => "warning"
  | .error => "error"
  | .message => "message"

structure Message where
  code : Nat
  category : Category
  template : String
  deriving DecidableEq, Repr

namespace Message

def moduleMissing : Message :=
  ⟨1001, .warning, "Module '{0}' was not found and will be skipped."⟩
def notInBuildList : Message :=
  ⟨1002, .warning, "{0} depends on {1}, but {1} is not in build list"⟩
def loadedLater : Message :=
  ⟨1003, .warning, "{0} (index {1}) depends on {2} (index {3}), but {2} is loaded later"⟩
def moduleUnreadable : Message :=
  ⟨1004, .warning, "Failed to read module '{0}': {1}"⟩
def fileUnlisted : Message :=
  ⟨1005, .warning, "File '{0}' is not in the module list and is not excluded."⟩
def declaredTwice : Message :=
  ⟨2001, .error, "'{0}' is declared in multiple places."⟩
def declaredHere : Message :=
  ⟨2002, .message, "'{0}' declared here ({1})."⟩

end Message

structure Diagnostic where
  file : Option String
  line : Option LineNumber
  message : String
  code : Nat
  category : Category
  related : List Diagnostic
  deriving Inhabited, Repr

namespace Diagnostic

def of (m : Message) (args : List String) : Diagnostic :=
  ⟨none, none, Template.fill m.template args, m.code, m.category, []⟩

def inFile (file : String) (m : Message) (args : List String) : Diagnostic :=
  { of m args with file := some file }

def onLine (file : String) (line : LineNumber) (m : Message) (args : List String) : Diagnostic :=
  { of m args with file := some file, line := some line }

def withRelated (d : Diagnostic) (related : List Diagnostic) : Diagnostic :=
  { d with related := d.related ++ related }

def isError (d : Diagnostic) : Bool := d.category = .error

def isWarning (d : Diagnostic) : Bool := d.category = .warning

def place (d : Diagnostic) : String :=
  match d.file, d.line with
  | none, _ => ""
  | some file, none => file ++ ": "
  | some file, some line => file ++ ":" ++ Nat.repr line.toNat ++ ": "

def text (d : Diagnostic) : String :=
  d.place ++ d.category.word ++ " GS" ++ Nat.repr d.code ++ ": " ++ d.message

end Diagnostic

abbrev Diagnostics := List Diagnostic

namespace Diagnostics

def errorCount (ds : Diagnostics) : Nat := ds.countP Diagnostic.isError

def warningCount (ds : Diagnostics) : Nat := ds.countP Diagnostic.isWarning

def hasErrors (ds : Diagnostics) : Bool := ds.any Diagnostic.isError

def withCode (ds : Diagnostics) (code : Nat) : Diagnostics := ds.filter (·.code = code)

end Diagnostics
end ScriptBundle
