import ScriptBundle.Text.Cut
/-! Bindings of upper-case names at the head of a line: a keyword, a name and an equals sign, or a
name that is given an object, a list or a quoted text without any keyword. -/
namespace ScriptBundle.Binding
open Text (isBlank skipBlanks literal? occurs)

inductive Kind where
  | constant
  | blockScoped
  | mutable
  | bare
  deriving DecidableEq, Repr

namespace Kind

def keyword : Kind → String
  | constant => "const"
  | blockScoped => "let"
  | mutable => "var"
  | bare => "global"

def description : Kind → String
  | constant => "immutable binding"
  | blockScoped => "block-scoped binding"
  | mutable => "mutable binding"
  | bare => "bare assignment"

def ofLine (line : String) : Kind :=
  if occurs "const ".toList line.toList then constant
  else if occurs "let ".toList line.toList then blockScoped
  else if occurs "var ".toList line.toList then mutable
  else bare

end Kind

def isNameChar (c : Char) : Bool := c.isUpper || c.isDigit || c == '_'

def name? : List Char → Option (List Char × List Char)
  | [] => none
  | c :: rest =>
    if c.isUpper then some (c :: rest.takeWhile isNameChar, rest.dropWhile isNameChar) else none

def keywords : List String := ["const", "let", "var"]

def declared? (line : List Char) : Option (List Char) := do
  let rest ← keywords.findSome? fun word => literal? word.toList line
  let rest ← if (rest.head?.map isBlank).getD false then some (skipBlanks rest) else none
  let (name, rest) ← name? rest
  let _ ← literal? ['='] (skipBlanks rest)
  some name

def opensValue (c : Char) : Bool := c == '{' || c == '[' || c == '\'' || c == '"'

def assigned? (line : List Char) : Option (List Char) := do
  let (name, rest) ← name? line
  let rest ← literal? ['='] (skipBlanks rest)
  let opening ← (skipBlanks rest).head?
  if opensValue opening then some name else none

/-- A comment line, or the inside of a block comment. -/
def isComment (line : List Char) : Bool :=
  "//".toList.isPrefixOf (skipBlanks line) || "*".toList.isPrefixOf (skipBlanks line)

def tracked (symbols : List String) (line : String) : List String :=
  if isComment line.toList then []
  else
    let names := [declared?, assigned?].filterMap fun shape => shape line.toList
    (names.map String.ofList).filter (symbols.contains ·)

end ScriptBundle.Binding
