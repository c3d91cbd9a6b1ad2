/-! What can be seen of a text once its control sequences are taken out: printable characters, and
of the control characters only tab, line feed, form feed and carriage return. A sequence opens with
an escape character, which also breaks off any other; cancel and substitute end every sequence. -/
namespace ScriptBundle.Visible

inductive Phase where
  | plain
  | escape
  | escapeDetail
  | sequence
  | deviceStart
  | deviceParameters
  | deviceDetail
  /-- A string that only a string terminator closes. -/
  | string
  /-- A command string, which a bell closes. -/
  | command
  deriving DecidableEq, Repr

def between (low high c : Char) : Bool := low ≤ c && c ≤ high

/-- The string terminator is a byte, so that a longer character which holds it closes a string too. -/
def holdsTerminator (c : Char) : Bool := (String.utf8EncodeChar c).contains 0x9C

def opened (c : Char) : Phase :=
  if c = '[' then .sequence
  else if c = ']' then .command
  else if c = 'P' then .deviceStart
  else if c = 'X' ∨ c = '^' ∨ c = '_' then .string
  else if between ' ' '/' c then .escapeDetail
  else if between '0' '~' c then .plain
  else .escape

def Phase.next (phase : Phase) (c : Char) : Phase :=
  if c = '\x18' ∨ c = '\x1a' then plain
  else if c = '\x1b' then escape
  else match phase with
    | plain => plain
    | escape => opened c
    | escapeDetail => if between '0' '~' c then plain else escapeDetail
    | sequence => if between '@' '~' c then plain else sequence
    | deviceStart =>
      if between ' ' '/' c then deviceDetail
      else if between '0' '?' c then deviceParameters
      else if between '@' '~' c then string
      else deviceStart
    | deviceParameters =>
      if between ' ' '/' c then deviceDetail
      else if between '<' '~' c then string
      else deviceParameters
    | deviceDetail => if between '0' '~' c then string else deviceDetail
    | string => if holdsTerminator c then plain else string
    | command => if c = '\x07' then plain else command

def isLayout (c : Char) : Bool := c == '\t' || c == '\n' || c == '\x0c' || c == '\r'

def Phase.shows (phase : Phase) (c : Char) : Bool :=
  match phase with
  | plain => isLayout c || (' ' ≤ c && c ≠ '\x7f')
  | escape | escapeDetail | sequence => isLayout c
  | _ => false

/-- Layout inside a sequence clears the view: what follows is read as plain text, up to the next
character that is not shown. That one goes on with the sequence, unless a character beyond ASCII
has ended it. -/
structure View where
  phase : Phase := .plain
  clear : Bool := false
  deriving DecidableEq, Repr

namespace View

def shows (v : View) (c : Char) : Bool := (if v.clear then Phase.plain else v.phase).shows c

def after (v : View) (c : Char) : View :=
  if v.shows c then ⟨if '\x7f' < c then .plain else v.phase, true⟩ else ⟨v.phase.next c, false⟩

def visible (v : View) : List Char → List Char
  | [] => []
  | c :: rest =>
    if v.shows c then c :: (v.after c).visible rest else (v.after c).visible rest

end View

def of (text : String) : String := String.ofList (View.visible {} text.toList)

end ScriptBundle.Visible
