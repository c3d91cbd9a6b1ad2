import Mathlib.Logic.Function.Basic
import ScriptBundle.Table

/-! What a table holds after a change, key by key, and in which order its keys stand. Nothing here
needs the keys to be distinct: a lookup, an update and an insertion all go to the first entry of a
key, and an erasure takes all of them. -/
namespace ScriptBundle.Table
variable {α : Type}

section Lookup
variable {κ : Type} [BEq κ] [LawfulBEq κ]

theorem lookupKnown {entries : List (κ × α)} {key : κ} :
    (entries.lookup key).isSome = true ↔ key ∈ entries.map (·.1) := by
  rw [List.lookup_isSome_iff, List.mem_map]
  simp only [beq_iff_eq, eq_comm (a := key)]

variable [DecidableEq κ]

theorem lookupCons (entry : κ × α) (rest : List (κ × α)) (key : κ) :
    (entry :: rest).lookup key = if key = entry.1 then some entry.2 else rest.lookup key := by
  rw [List.lookup_cons]
  by_cases same : key = entry.1
  · simp [same]
  · rw [beq_eq_false_iff_ne.mpr same, if_neg same]

theorem lookupOthers (entries : List (κ × α)) (key other : κ) :
    (entries.filter (·.1 ≠ key)).lookup other = if other = key then none else entries.lookup other := by
  induction entries with
  | nil => simp
  | cons entry rest ih =>
    by_cases here : entry.1 = key
    · rw [List.filter_cons_of_neg (by simpa using here), ih, lookupCons, here]
      by_cases same : other = key <;> simp [same]
    · rw [List.filter_cons_of_pos (by simpa using here), lookupCons, lookupCons, ih]
      by_cases same : other = key
      · simp [same, Ne.symm here]
      · simp [same]

end Lookup

theorem lookupUpdateEntries (key other : String) (f : Option α → α) (entries : List (String × α)) :
    (updateEntries key f entries).lookup other =
      if other = key then some (f (entries.lookup key)) else entries.lookup other := by
  induction entries with
  | nil => by_cases same : other = key <;> simp [updateEntries, same]
  | cons entry rest ih =>
    by_cases here : entry.1 = key
    · subst here
      by_cases same : other = entry.1 <;> simp [updateEntries, lookupCons, same]
    · by_cases same : other = key
      · subst same
        simp [updateEntries, here, lookupCons, Ne.symm here, ih]
      · simp only [updateEntries, if_neg here, lookupCons, ih, if_neg same]

theorem findUpdate (t : Table α) (key other : String) (f : Option α → α) :
    (t.update key f).find? other = if other = key then some (f (t.find? key)) else t.find? other :=
  lookupUpdateEntries key other f t.entries

theorem findInsert (t : Table α) (key : String) (value : α) :
    (t.insert key value).find? = Function.update t.find? key (some value) := by
  funext other
  rw [insert, findUpdate, Function.update_apply]

theorem findErase (t : Table α) (key : String) :
    (t.erase key).find? = Function.update t.find? key none := by
  funext other
  rw [Function.update_apply]
  exact lookupOthers t.entries key other

section Keys

theorem keysUpdateEntries (key : String) (f : Option α → α) (entries : List (String × α)) :
    (updateEntries key f entries).map (·.1) =
      if key ∈ entries.map (·.1) then entries.map (·.1) else entries.map (·.1) ++ [key] := by
  induction entries with
  | nil => rfl
  | cons entry rest ih =>
    by_cases here : entry.1 = key
    · simp [updateEntries, here]
    · rw [updateEntries, if_neg here, List.map_cons, ih]
      by_cases later : key ∈ rest.map (·.1) <;> simp [later, Ne.symm here]

theorem distinctInsert {t : Table α} (distinct : t.keys.Nodup) (key : String) (value : α) :
    (t.insert key value).keys.Nodup := by
  have keys : (t.insert key value).keys = if key ∈ t.keys then t.keys else t.keys ++ [key] :=
    keysUpdateEntries key (fun _ => value) t.entries
  rw [keys]
  split
  · exact distinct
  · rename_i fresh
    exact (List.perm_append_singleton key t.keys).nodup_iff.mpr (List.nodup_cons.mpr ⟨fresh, distinct⟩)

theorem distinctErase {t : Table α} (distinct : t.keys.Nodup) (key : String) : (t.erase key).keys.Nodup :=
  distinct.sublist (List.filter_sublist.map _)

end Keys

theorem lookupTabulated (keys : List String) (value : String → α) (key : String) :
    (keys.map fun k => (k, value k)).lookup key = if key ∈ keys then some (value key) else none := by
  induction keys with
  | nil => rfl
  | cons head rest ih =>
    by_cases same : key = head
    · simp [same]
    · simp [lookupCons, same, ih]

theorem updateTabulated {keys : List String} (distinct : keys.Nodup) (value : String → α)
    (key : String) (f : Option α → α) :
    updateEntries key f (keys.map fun k => (k, value k)) =
      (if key ∈ keys then keys else keys ++ [key]).map fun k =>
        (k, if k = key then f (if key ∈ keys then some (value key) else none) else value k) := by
  induction keys with
  | nil => simp [updateEntries]
  | cons head rest ih =>
    obtain ⟨fresh, distinct⟩ := List.nodup_cons.mp distinct
    by_cases same : head = key
    · subst same
      have others : ∀ k ∈ rest, k ≠ head := fun k member equal => fresh (equal ▸ member)
      simp only [List.map_cons, updateEntries, if_true, List.mem_cons_self]
      exact congrArg _ (List.map_congr_left fun k member => by rw [if_neg (others k member)])
    · have differs : key ≠ head := Ne.symm same
      rw [List.map_cons, updateEntries, if_neg same, ih distinct]
      by_cases member : key ∈ rest <;> simp [member, same, differs]

end ScriptBundle.Table
