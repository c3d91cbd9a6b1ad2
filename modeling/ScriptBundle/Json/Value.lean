import ScriptBundle.Json.Numeral
/-! JSON values and how they are written: two blanks of indentation for each level, one item a line,
and no line break inside an empty list or object. -/
namespace ScriptBundle.Json

inductive Value where
  | null
  | bool (value : Bool)
  | number (negative : Bool) (numeral : Numeral)
  | text (value : String)
  | list (items : List Value)
  | object (members : List (String × Value))
  deriving Repr

def hexLetter (n : Nat) : Char := Nat.digitChar n

def escape (c : Char) : List Char :=
  match c with
  | '"' => ['\\', '"']
  | '\\' => ['\\', '\\']
  | '\x08' => ['\\', 'b']
  | '\x0c' => ['\\', 'f']
  | '\n' => ['\\', 'n']
  | '\r' => ['\\', 'r']
  | '\t' => ['\\', 't']
  | c =>
    if c.toNat < 0x20 then ['\\', 'u', '0', '0', hexLetter (c.toNat / 16), hexLetter (c.toNat % 16)]
    else [c]

def quoted (text : String) : List Char := '"' :: text.toList.flatMap escape ++ ['"']

def Numeral.render (n : Numeral) : List Char :=
  let fraction := if n.fraction.isEmpty then [] else '.' :: n.fraction
  let exponent :=
    if n.exponent = 0 then []
    else if n.exponent < 0 then 'e' :: '-' :: (Nat.repr n.exponent.natAbs).toList
    else 'e' :: (Nat.repr n.exponent.natAbs).toList
  n.whole ++ fraction ++ exponent

def newline (depth : Nat) : List Char := '\n' :: List.replicate (2 * depth) ' '

mutual

def Value.pretty (depth : Nat) : Value → List Char
  | .null => "null".toList
  | .bool true => "true".toList
  | .bool false => "false".toList
  | .number negative numeral => (if negative then ['-'] else []) ++ numeral.render
  | .text value => quoted value
  | .list [] => "[]".toList
  | .list (item :: items) =>
    '[' :: newline (depth + 1) ++ item.pretty (depth + 1) ++ prettyItems (depth + 1) items ++
      newline depth ++ [']']
  | .object [] => ['{', '}']
  | .object ((key, value) :: members) =>
    '{' :: newline (depth + 1) ++ quoted key ++ ": ".toList ++ value.pretty (depth + 1) ++
      prettyMembers (depth + 1) members ++ newline depth ++ ['}']

def prettyItems (depth : Nat) : List Value → List Char
  | [] => []
  | item :: items => ',' :: newline depth ++ item.pretty depth ++ prettyItems depth items

def prettyMembers (depth : Nat) : List (String × Value) → List Char
  | [] => []
  | (key, value) :: members =>
    ',' :: newline depth ++ quoted key ++ ": ".toList ++ value.pretty depth ++
      prettyMembers depth members

end

def Value.render (value : Value) : String := String.ofList (value.pretty 0)

def Value.texts (values : List String) : Value := .list (values.map .text)

end ScriptBundle.Json
