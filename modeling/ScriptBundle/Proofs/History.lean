import Mathlib.Data.Finset.Card
import ScriptBundle.Proofs.Scan

/-! A symbol table after any history of single records and scanned units. Whatever came in which order, the table
holds just what was recorded: its keys in the order of their first record, under each of them all of its records,
and every key either among the duplicates or among the singles. -/
namespace ScriptBundle

theorem firstSeenOrder (names : List String) :
    (firstSeen names).Pairwise fun a b => names.idxOf a < names.idxOf b := by
  induction names using List.reverseRecOn with
  | nil => exact .nil
  | append_singleton names name ih =>
    have kept : (firstSeen names).Pairwise fun a b => (names ++ [name]).idxOf a < (names ++ [name]).idxOf b := by
      refine ih.imp_of_mem fun {a b} first second earlier => ?_
      rwa [List.idxOf_append_of_mem (memFirstSeen.mp first), List.idxOf_append_of_mem (memFirstSeen.mp second)]
    rw [firstSeenAppend]
    split
    · exact kept
    · rename_i fresh
      refine List.pairwise_append.mpr ⟨kept, List.pairwise_singleton .., fun a seen b last => ?_⟩
      obtain rfl := List.mem_singleton.mp last
      have known := memFirstSeen.mp seen
      rw [List.idxOf_append_of_mem known, List.idxOf_append_of_notMem fun again => fresh (memFirstSeen.mpr again)]
      exact Nat.lt_of_lt_of_le (List.idxOf_lt_length_of_mem known) (Nat.le_add_right ..)

namespace SymbolTable
open Declaration (ofSymbol ofSymbolEmpty)

inductive Operation where
  | record (d : Declaration)
  | scan (symbols : List String) (unit : SourceUnit)

def apply (t : SymbolTable) : Operation → SymbolTable
  | .record d => t.record d
  | .scan symbols unit => t.recordUnit symbols unit

def after (history : List Operation) : SymbolTable := history.foldl apply Table.empty

def Operation.records : Operation → List Declaration
  | .record d => [d]
  | .scan symbols unit => (Occurrence.inUnit symbols unit).map Occurrence.declaration

def recordsOf (history : List Operation) : List Declaration := history.flatMap Operation.records

theorem applyRecords (ds : List Declaration) (operation : Operation) :
    (recorded ds).apply operation = recorded (ds ++ operation.records) := by
  cases operation with
  | record d => exact (recordedAppend ds d).symm
  | scan symbols unit =>
    rw [apply, recordUnit, Occurrence.unitDeclarations, Operation.records, recorded, recorded, List.foldl_append]

theorem afterRecorded (history : List Operation) : after history = recorded (recordsOf history) := by
  induction history using List.reverseRecOn with
  | nil => rfl
  | append_singleton history operation ih =>
    have last : after (history ++ [operation]) = (after history).apply operation := by simp [after]
    have records : recordsOf (history ++ [operation]) = recordsOf history ++ operation.records := by simp [recordsOf]
    rw [last, ih, applyRecords, records]

structure Holds (t : SymbolTable) (ds : List Declaration) : Prop where
  distinct : t.keys.Nodup
  known : ∀ symbol, symbol ∈ t.keys ↔ ∃ d ∈ ds, d.symbol = symbol
  order : t.keys.Pairwise fun a b => (ds.map (·.symbol)).idxOf a < (ds.map (·.symbol)).idxOf b
  own : ∀ entry ∈ t.entries, entry.2 ≠ [] ∧ ∀ d ∈ entry.2, d.symbol = entry.1
  absent : ∀ symbol, t.find? symbol = none ↔ ∀ d ∈ ds, d.symbol ≠ symbol
  found : ∀ symbol declarations, t.find? symbol = some declarations → declarations = ds.filter (·.symbol = symbol)
  size : t.entries.length = (ds.map (·.symbol)).toFinset.card
  duplicates : ∀ d ∈ t.duplicates, t.find? d.symbol = some d.locations
  singles : ∀ d ∈ t.singles, t.find? d.symbol = some [d]
  divided : ∀ key ∈ t.keys, key ∈ t.duplicates.map (·.symbol) ↔ key ∉ t.singles.map (·.symbol)
  duplicateOrder : (t.duplicates.map (·.symbol)).Sublist t.keys
  singleOrder : (t.singles.map (·.symbol)).Sublist t.keys

section Recorded
variable (ds : List Declaration)

theorem recordedSize : (recorded ds).entries.length = (ds.map (·.symbol)).toFinset.card := by
  have keys : (recorded ds).entries.length = (firstSeen (ds.map (·.symbol))).length := by simp [recordedEntries]
  rw [keys, ← List.toFinset_card_of_nodup (firstSeenDistinct _)]
  congr 1
  ext symbol
  simp only [List.mem_toFinset, memFirstSeen]

theorem duplicateSymbols : (recorded ds).duplicates.map (·.symbol) =
    (recorded ds).keys.filter fun symbol => 2 ≤ (ofSymbol symbol ds).length := by
  rw [recordedDuplicates, recordedKeys, List.map_map]
  exact List.map_id _

theorem soleDeclaration {ds : List Declaration} {symbol : String} (one : (ofSymbol symbol ds).length = 1) :
    ∃ d, ofSymbol symbol ds = [d] ∧ d.symbol = symbol := by
  obtain ⟨d, sole⟩ := List.length_eq_one_iff.mp one
  have member : d ∈ ofSymbol symbol ds := by simp [sole]
  exact ⟨d, sole, by simpa using (List.mem_filter.mp member).2⟩

theorem singleSymbols : (recorded ds).singles.map (·.symbol) =
    (recorded ds).keys.filter fun symbol => (ofSymbol symbol ds).length = 1 := by
  rw [recordedSingles, recordedKeys, List.map_flatMap]
  have each : ∀ symbol ∈ (firstSeen (ds.map (·.symbol))).filter fun symbol => (ofSymbol symbol ds).length = 1,
      (ofSymbol symbol ds).map (·.symbol) = [symbol] := by
    intro symbol member
    obtain ⟨d, sole, own⟩ := soleDeclaration (of_decide_eq_true (List.mem_filter.mp member).2)
    rw [sole, List.map_singleton, own]
  rw [List.flatMap_congr each, List.flatMap_singleton']

theorem recordedOwn : ∀ entry ∈ (recorded ds).entries, entry.2 ≠ [] ∧ ∀ d ∈ entry.2, d.symbol = entry.1 := by
  intro entry member
  rw [recordedEntries] at member
  obtain ⟨symbol, seen, rfl⟩ := List.mem_map.mp member
  refine ⟨fun empty => ofSymbolEmpty.mp empty seen, fun d inside => ?_⟩
  simpa using (List.mem_filter.mp inside).2

theorem recordedAbsent (symbol : String) :
    (recorded ds).find? symbol = none ↔ ∀ d ∈ ds, d.symbol ≠ symbol := by
  have empty : ofSymbol symbol ds = [] ↔ ∀ d ∈ ds, d.symbol ≠ symbol := by simp [ofSymbol, List.filter_eq_nil_iff]
  rw [recordedFind, ← empty]
  split <;> simp_all

theorem recordedFound {ds : List Declaration} {symbol : String} (nonempty : ofSymbol symbol ds ≠ []) :
    (recorded ds).find? symbol = some (ofSymbol symbol ds) := by
  rw [recordedFind, if_neg nonempty]

theorem duplicateFound {ds : List Declaration} {d : Duplicate} (member : d ∈ (recorded ds).duplicates) :
    (recorded ds).find? d.symbol = some d.locations := by
  rw [recordedDuplicates] at member
  obtain ⟨symbol, several, rfl⟩ := List.mem_map.mp member
  have length := of_decide_eq_true (List.mem_filter.mp several).2
  exact recordedFound fun empty => by simp [empty] at length

theorem singleFound {ds : List Declaration} {d : Declaration} (member : d ∈ (recorded ds).singles) :
    (recorded ds).find? d.symbol = some [d] := by
  rw [recordedSingles] at member
  obtain ⟨symbol, one, inside⟩ := List.mem_flatMap.mp member
  obtain ⟨sole, only, own⟩ := soleDeclaration (of_decide_eq_true (List.mem_filter.mp one).2)
  obtain rfl : d = sole := List.mem_singleton.mp (only ▸ inside)
  rw [own, ← only]
  exact recordedFound (by simp [only])

theorem recordedDivided {ds : List Declaration} {key : String} (known : key ∈ (recorded ds).keys) :
    key ∈ (recorded ds).duplicates.map (·.symbol) ↔ key ∉ (recorded ds).singles.map (·.symbol) := by
  have nonempty : ofSymbol key ds ≠ [] := fun empty => ofSymbolEmpty.mp empty (recordedKeys ds ▸ known)
  have length := List.length_pos_iff.mpr nonempty
  rw [duplicateSymbols, singleSymbols]
  simp only [List.mem_filter, known, true_and, decide_eq_true_eq]
  omega

theorem recordedHolds : Holds (recorded ds) ds where
  distinct := recordedKeys ds ▸ firstSeenDistinct _
  known symbol := by simp [recordedKeys, memFirstSeen]
  order := recordedKeys ds ▸ firstSeenOrder _
  own := recordedOwn ds
  absent := recordedAbsent ds
  found symbol declarations there := by
    rw [recordedFind] at there
    split at there
    · cases there
    · exact (Option.some.inj there).symm
  size := recordedSize ds
  duplicates _ := duplicateFound
  singles _ := singleFound
  divided _ := recordedDivided
  duplicateOrder := duplicateSymbols ds ▸ List.filter_sublist
  singleOrder := singleSymbols ds ▸ List.filter_sublist

end Recorded

theorem holdsItsHistory (history : List Operation) : Holds (after history) (recordsOf history) := by
  rw [afterRecorded]
  exact recordedHolds _

end SymbolTable
end ScriptBundle
