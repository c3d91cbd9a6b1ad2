import Mathlib.Data.List.Flatten
import Mathlib.Data.List.Induction
import Mathlib.Data.List.Infix
import ScriptBundle.Declaration
import ScriptBundle.Proofs.Binding
import ScriptBundle.Proofs.Table

/-! A scan told by its records alone. Recording declarations one after another leaves a table with
one entry for every symbol, in the order in which the symbols first came up, and each entry holds
all declarations of its symbol in the order in which they were made. -/
namespace ScriptBundle

def firstSeen (names : List String) : List String := names.eraseDups

theorem firstSeenAppend (names : List String) (name : String) :
    firstSeen (names ++ [name]) =
      if name ∈ firstSeen names then firstSeen names else firstSeen names ++ [name] := by
  by_cases seen : name ∈ names <;>
    simp [firstSeen, List.eraseDups_append, List.removeAll, List.eraseDups_cons, seen]

theorem memFirstSeen {names : List String} {name : String} : name ∈ firstSeen names ↔ name ∈ names :=
  List.mem_eraseDups

theorem firstSeenDistinct (names : List String) : (firstSeen names).Nodup := by
  induction names using List.reverseRecOn with
  | nil => exact List.nodup_nil
  | append_singleton names name ih =>
    rw [firstSeenAppend]
    split
    · exact ih
    · rename_i fresh
      refine List.nodup_append.mpr ⟨ih, by simp, ?_⟩
      intro earlier member last isLast same
      exact fresh (List.mem_singleton.mp isLast ▸ same ▸ member)

namespace Declaration

def ofSymbol (symbol : String) (ds : List Declaration) : List Declaration :=
  ds.filter (·.symbol = symbol)

theorem ofSymbolAppend (symbol : String) (ds : List Declaration) (d : Declaration) :
    ofSymbol symbol (ds ++ [d]) = ofSymbol symbol ds ++ if symbol = d.symbol then [d] else [] := by
  by_cases same : d.symbol = symbol
  · simp [ofSymbol, same]
  · simp [ofSymbol, same, Ne.symm same]

theorem ofSymbolEmpty {symbol : String} {ds : List Declaration} :
    ofSymbol symbol ds = [] ↔ symbol ∉ firstSeen (ds.map (·.symbol)) := by
  simp only [ofSymbol, List.filter_eq_nil_iff, memFirstSeen, List.mem_map, decide_eq_true_eq,
    not_exists, not_and]

end Declaration

namespace SymbolTable
open Declaration (ofSymbol ofSymbolAppend ofSymbolEmpty)

def recorded (ds : List Declaration) : SymbolTable := ds.foldl record Table.empty

theorem recordedAppend (ds : List Declaration) (d : Declaration) :
    recorded (ds ++ [d]) = (recorded ds).record d := by
  simp [recorded]

theorem recordedEntries (ds : List Declaration) :
    (recorded ds).entries =
      (firstSeen (ds.map (·.symbol))).map fun symbol => (symbol, ofSymbol symbol ds) := by
  induction ds using List.reverseRecOn with
  | nil => rfl
  | append_singleton ds d ih =>
    rw [recordedAppend, record, Table.update, ih,
      Table.updateTabulated (firstSeenDistinct _) (fun symbol => ofSymbol symbol ds),
      List.map_append, List.map_cons, List.map_nil, firstSeenAppend]
    refine List.map_congr_left fun symbol _ => ?_
    rw [ofSymbolAppend]
    by_cases same : symbol = d.symbol
    · subst same
      by_cases seen : d.symbol ∈ firstSeen (ds.map (·.symbol))
      · simp [seen]
      · simp [seen, ofSymbolEmpty.mpr seen]
    · simp [same]

theorem recordedKeys (ds : List Declaration) :
    (recorded ds).keys = firstSeen (ds.map (·.symbol)) := by
  simp [Table.keys, recordedEntries, Function.comp_def]

theorem recordedFind (ds : List Declaration) (symbol : String) :
    (recorded ds).find? symbol =
      if ofSymbol symbol ds = [] then none else some (ofSymbol symbol ds) := by
  rw [Table.find?, recordedEntries, Table.lookupTabulated _ (fun symbol => ofSymbol symbol ds)]
  by_cases seen : symbol ∈ firstSeen (ds.map (·.symbol))
  · rw [if_pos seen, if_neg (fun empty => ofSymbolEmpty.mp empty seen)]
  · rw [if_neg seen, if_pos (ofSymbolEmpty.mpr seen)]

theorem recordedDuplicates (ds : List Declaration) :
    (recorded ds).duplicates =
      ((firstSeen (ds.map (·.symbol))).filter fun symbol => 2 ≤ (ofSymbol symbol ds).length).map
        fun symbol => ⟨symbol, ofSymbol symbol ds⟩ := by
  rw [duplicates, recordedEntries, List.filter_map, List.map_map]
  rfl

theorem recordedSingles (ds : List Declaration) :
    (recorded ds).singles =
      ((firstSeen (ds.map (·.symbol))).filter fun symbol => (ofSymbol symbol ds).length = 1).flatMap
        fun symbol => ofSymbol symbol ds := by
  rw [singles, recordedEntries]
  induction firstSeen (ds.map (·.symbol)) with
  | nil => rfl
  | cons symbol rest ih =>
    rw [List.map_cons, List.filterMap_cons, ih, List.filter_cons]
    match found : ofSymbol symbol ds with
    | [] => simp
    | [sole] => simp [found]
    | first :: second :: others => simp

theorem recordedHasDuplicates (ds : List Declaration) :
    (recorded ds).duplicates ≠ [] ↔ ∃ symbol, 2 ≤ (ofSymbol symbol ds).length := by
  rw [recordedDuplicates, Ne, List.map_eq_nil_iff, List.filter_eq_nil_iff]
  simp only [decide_eq_true_eq, not_forall, not_not]
  constructor
  · rintro ⟨symbol, _, several⟩
    exact ⟨symbol, several⟩
  · rintro ⟨symbol, several⟩
    have occurs : ofSymbol symbol ds ≠ [] := fun none => by simp [none] at several
    exact ⟨symbol, not_not.mp fun unseen => occurs (ofSymbolEmpty.mpr unseen), several⟩

def census (t : SymbolTable) : List (String × Nat) := t.entries.map fun entry => (entry.1, entry.2.length)

def counted (counts : List (String × Nat)) (symbol : String) : List (String × Nat) :=
  Table.updateEntries symbol (fun earlier => earlier.getD 0 + 1) counts

theorem censusRecord (t : SymbolTable) (d : Declaration) :
    census (t.record d) = counted (census t) d.symbol := by
  obtain ⟨entries⟩ := t
  simp only [census, record, Table.update, counted]
  induction entries with
  | nil => rfl
  | cons entry entries ih =>
    by_cases same : entry.1 = d.symbol
    · simp [Table.updateEntries, same]
    · simp [Table.updateEntries, same, ih]

theorem censusRecordAll (t : SymbolTable) (ds : List Declaration) :
    census (ds.foldl record t) = (ds.map (·.symbol)).foldl counted (census t) := by
  induction ds generalizing t with
  | nil => rfl
  | cons d ds ih => rw [List.foldl_cons, ih, censusRecord, List.map_cons, List.foldl_cons]

end SymbolTable

/- The side of a scan that does not mention tables: every line that binds a tracked symbol, with its
unit and its number, in the order of the units and of their lines. -/
structure Occurrence where
  unit : SourceUnit
  number : Nat
  line : String
  symbol : String
  deriving DecidableEq, Repr

namespace Occurrence

def declaration (o : Occurrence) : Declaration :=
  ⟨o.symbol, o.unit.name, UInt32.ofNat o.number, .ofLine o.line⟩

def onLine (symbols : List String) (unit : SourceUnit) (entry : String × Nat) : List Occurrence :=
  (Binding.tracked symbols entry.1).map fun symbol => ⟨unit, entry.2, entry.1, symbol⟩

def inUnit (symbols : List String) (unit : SourceUnit) : List Occurrence :=
  ((Lines.linesOf unit.text).zipIdx 1).flatMap (onLine symbols unit)

def all (symbols : List String) (units : List SourceUnit) : List Occurrence :=
  units.flatMap (inUnit symbols)

def locations (symbols : List String) (units : List SourceUnit) (symbol : String) : List Declaration :=
  ((all symbols units).filter (·.symbol = symbol)).map declaration

def symbolsInOrder (symbols : List String) (units : List SourceUnit) : List String :=
  firstSeen ((all symbols units).map Occurrence.symbol)

theorem unitDeclarations (symbols : List String) (unit : SourceUnit) :
    Declaration.ofUnit symbols unit = (inUnit symbols unit).map declaration := by
  rw [Declaration.ofUnit, inUnit, Lines.numberedLines, List.zipIdx_succ, List.flatMap_map,
    List.map_flatMap, List.flatMap_map]
  congr
  funext entry
  simp [Declaration.ofLine, onLine, declaration, Lines.number]

theorem allDeclarations (symbols : List String) (units : List SourceUnit) :
    units.flatMap (Declaration.ofUnit symbols) = (all symbols units).map declaration := by
  rw [all, List.map_flatMap, funext (unitDeclarations symbols)]

theorem locationsOfSymbol (symbols : List String) (units : List SourceUnit) (symbol : String) :
    Declaration.ofSymbol symbol (units.flatMap (Declaration.ofUnit symbols)) =
      locations symbols units symbol := by
  rw [allDeclarations, Declaration.ofSymbol, List.filter_map]
  rfl

theorem symbolsOfDeclarations (symbols : List String) (units : List SourceUnit) :
    firstSeen ((units.flatMap (Declaration.ofUnit symbols)).map (·.symbol)) =
      symbolsInOrder symbols units := by
  rw [allDeclarations, List.map_map]
  rfl

theorem trackedSymbol {symbols : List String} {units : List SourceUnit} {o : Occurrence}
    (member : o ∈ all symbols units) : o.symbol ∈ symbols := by
  obtain ⟨unit, _, inside⟩ := List.mem_flatMap.mp member
  obtain ⟨entry, _, line⟩ := List.mem_flatMap.mp inside
  obtain ⟨symbol, bound, rfl⟩ := List.mem_map.mp line
  exact Binding.trackedMember bound

theorem unitSymbols (symbols : List String) (unit : SourceUnit) :
    (inUnit symbols unit).map Occurrence.symbol = Binding.inText symbols unit.text := by
  rw [inUnit, Binding.inText, List.map_flatMap]
  calc (((Lines.linesOf unit.text).zipIdx 1).flatMap fun entry => (onLine symbols unit entry).map symbol)
    _ = ((Lines.linesOf unit.text).zipIdx 1).flatMap fun entry => Binding.tracked symbols entry.1 := by
      simp [onLine, Function.comp_def]
    _ = (((Lines.linesOf unit.text).zipIdx 1).map Prod.fst).flatMap (Binding.tracked symbols) :=
      (List.flatMap_map ..).symm
    _ = (Lines.linesOf unit.text).flatMap (Binding.tracked symbols) := by rw [List.zipIdx_map_fst]

theorem declarationSymbols (symbols : List String) (unit : SourceUnit) :
    (Declaration.ofUnit symbols unit).map (·.symbol) = Binding.inText symbols unit.text := by
  rw [unitDeclarations, List.map_map, ← unitSymbols]
  rfl

theorem locationsBegin (symbols : List String) {units others : List SourceUnit} (begins : units <+: others)
    (symbol : String) : locations symbols units symbol <+: locations symbols others symbol :=
  ((begins.flatMap (inUnit symbols)).filter _).map _

theorem locationsFewer (symbols : List String) {units others : List SourceUnit} (fewer : units.Sublist others)
    (symbol : String) : (locations symbols units symbol).Sublist (locations symbols others symbol) :=
  ((fewer.flatMap (inUnit symbols)).filter _).map _

theorem locationsLength (symbols : List String) (units : List SourceUnit) (symbol : String) :
    (locations symbols units symbol).length =
      Binding.lineCount symbols (units.flatMap fun unit => Lines.linesOf unit.text) symbol := by
  have symbolsOf : (all symbols units).map Occurrence.symbol =
      (units.flatMap fun unit => Lines.linesOf unit.text).flatMap (Binding.tracked symbols) := by
    rw [all, List.map_flatMap, funext (unitSymbols symbols), List.flatMap_assoc]
    rfl
  rw [Binding.lineCountEq, ← symbolsOf, locations, List.length_map, ← List.countP_eq_length_filter,
    List.count, List.countP_map]
  simp only [Function.comp_def, beq_eq_decide]

end Occurrence

namespace Scan
open Occurrence (locations symbolsInOrder)

theorem tableOfUnits (symbols : List String) (units : List SourceUnit) :
    (ofUnits symbols units).table =
      SymbolTable.recorded (units.flatMap (Declaration.ofUnit symbols)) := by
  simp only [ofUnits, SymbolTable.recordUnit, SymbolTable.recorded, List.foldl_flatMap]

theorem duplicatesOfUnits (symbols : List String) (units : List SourceUnit) :
    (ofUnits symbols units).duplicates =
      ((symbolsInOrder symbols units).filter fun symbol =>
        2 ≤ (locations symbols units symbol).length).map
          fun symbol => ⟨symbol, locations symbols units symbol⟩ := by
  have table : (ofUnits symbols units).duplicates = (ofUnits symbols units).table.duplicates := rfl
  simp only [table, tableOfUnits, SymbolTable.recordedDuplicates, Occurrence.locationsOfSymbol,
    Occurrence.symbolsOfDeclarations]

theorem hasDuplicatesOfUnits (symbols : List String) (units : List SourceUnit) :
    (ofUnits symbols units).hasDuplicates = true ↔
      ∃ symbol, 2 ≤ (locations symbols units symbol).length := by
  have several := SymbolTable.recordedHasDuplicates (units.flatMap (Declaration.ofUnit symbols))
  simp only [Occurrence.locationsOfSymbol, ← tableOfUnits] at several
  rw [← several, hasDuplicates, Bool.not_eq_true', List.isEmpty_eq_false_iff]
  rfl

def declarations (s : Scan) (symbol : String) : List Declaration := (s.table.find? symbol).getD []

theorem declarationsOfUnits (symbols : List String) (units : List SourceUnit) (symbol : String) :
    (ofUnits symbols units).declarations symbol = locations symbols units symbol := by
  rw [declarations, tableOfUnits, SymbolTable.recordedFind, Occurrence.locationsOfSymbol]
  split
  · rename_i none
    exact none.symm
  · rfl

theorem passesFewer {symbols : List String} {units others : List SourceUnit} (fewer : units.Sublist others)
    (passes : (ofUnits symbols others).hasDuplicates = false) :
    (ofUnits symbols units).hasDuplicates = false := by
  rw [← Bool.not_eq_true, hasDuplicatesOfUnits] at passes ⊢
  rintro ⟨symbol, several⟩
  exact passes ⟨symbol, Nat.le_trans several (Occurrence.locationsFewer symbols fewer symbol).length_le⟩

theorem scanExact (symbols : List String) (units : List SourceUnit) :
    (∀ symbol, (ofUnits symbols units).table.find? symbol =
      if locations symbols units symbol = [] then none else some (locations symbols units symbol)) ∧
    (ofUnits symbols units).table.keys = symbolsInOrder symbols units ∧
    (ofUnits symbols units).table.keys.Nodup ∧
    (∀ key ∈ (ofUnits symbols units).table.keys, key ∈ symbols) ∧
    (ofUnits symbols units).duplicates =
      ((symbolsInOrder symbols units).filter fun symbol =>
        2 ≤ (locations symbols units symbol).length).map
          (fun symbol => ⟨symbol, locations symbols units symbol⟩) ∧
    SymbolTable.singles (ofUnits symbols units).table =
      ((symbolsInOrder symbols units).filter fun symbol =>
        (locations symbols units symbol).length = 1).flatMap (locations symbols units) ∧
    ((ofUnits symbols units).hasDuplicates = true ↔
      ∃ symbol, 2 ≤ (locations symbols units symbol).length) := by
  have keys : (ofUnits symbols units).table.keys = symbolsInOrder symbols units := by
    rw [tableOfUnits, SymbolTable.recordedKeys, Occurrence.symbolsOfDeclarations]
  refine ⟨?_, keys, keys ▸ firstSeenDistinct _, ?_, duplicatesOfUnits symbols units, ?_,
    hasDuplicatesOfUnits symbols units⟩
  · intro symbol
    rw [tableOfUnits, SymbolTable.recordedFind, Occurrence.locationsOfSymbol]
  · intro key member
    rw [keys] at member
    obtain ⟨o, inside, rfl⟩ := List.mem_map.mp (memFirstSeen.mp member)
    exact Occurrence.trackedSymbol inside
  · simp only [tableOfUnits, SymbolTable.recordedSingles, Occurrence.locationsOfSymbol,
      Occurrence.symbolsOfDeclarations]

end Scan
end ScriptBundle
