/-! Tables from names to values that keep their keys in order of arrival. Giving a known key a new
value leaves the key in its place. -/
namespace ScriptBundle

structure Table (α : Type) where
  entries : List (String × α)
  deriving DecidableEq, Repr

namespace Table
variable {α : Type}

def empty : Table α := ⟨[]⟩

def keys (t : Table α) : List String := t.entries.map (·.1)

def find? (t : Table α) (key : String) : Option α := t.entries.lookup key

def contains (t : Table α) (key : String) : Bool := (t.find? key).isSome

def updateEntries (key : String) (f : Option α → α) : List (String × α) → List (String × α)
  | [] => [(key, f none)]
  | entry :: rest =>
    if entry.1 = key then (entry.1, f (some entry.2)) :: rest
    else entry :: updateEntries key f rest

def update (t : Table α) (key : String) (f : Option α → α) : Table α :=
  ⟨updateEntries key f t.entries⟩

def insert (t : Table α) (key : String) (value : α) : Table α := t.update key fun _ => value

def erase (t : Table α) (key : String) : Table α := ⟨t.entries.filter (·.1 ≠ key)⟩

def ofList (entries : List (String × α)) : Table α :=
  entries.foldl (fun t entry => t.insert entry.1 entry.2) empty

end Table
end ScriptBundle
