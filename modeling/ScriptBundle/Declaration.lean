import ScriptBundle.Binding
import ScriptBundle.Diagnostic
import ScriptBundle.Resolution
import ScriptBundle.Table
/-! Declarations of tracked symbols: where each symbol is bound, and the scan that collects the
declarations of a list of units. A symbol with several declarations is a duplicate. -/
namespace ScriptBundle
open Lines (LineNumber)

structure Declaration where
  symbol : String
  file : String
  line : LineNumber
  kind : Binding.Kind
  deriving DecidableEq, Repr

def Declaration.text (d : Declaration) : String :=
  d.file ++ ":" ++ Nat.repr d.line.toNat ++ " (" ++ d.kind.keyword ++ ")"

structure Duplicate where
  symbol : String
  locations : List Declaration
  deriving DecidableEq, Repr

abbrev SymbolTable := Table (List Declaration)

namespace SymbolTable

def record (t : SymbolTable) (d : Declaration) : SymbolTable :=
  t.update d.symbol fun earlier => earlier.getD [] ++ [d]

def duplicates (t : SymbolTable) : List Duplicate :=
  (t.entries.filter (1 < ·.2.length)).map fun entry => ⟨entry.1, entry.2⟩

def singles (t : SymbolTable) : List Declaration :=
  t.entries.filterMap fun entry =>
    match entry.2 with
    | [sole] => some sole
    | _ => none

end SymbolTable

namespace Declaration

def ofLine (symbols : List String) (file : String) (line : LineNumber × String) : List Declaration :=
  (Binding.tracked symbols line.2).map fun symbol => ⟨symbol, file, line.1, .ofLine line.2⟩

def ofUnit (symbols : List String) (unit : SourceUnit) : List Declaration :=
  (Lines.numbered unit.text).flatMap (ofLine symbols unit.name)

end Declaration

def SymbolTable.recordUnit (t : SymbolTable) (symbols : List String) (unit : SourceUnit) : SymbolTable :=
  (Declaration.ofUnit symbols unit).foldl record t

structure Scan where
  table : SymbolTable
  duplicates : List Duplicate
  deriving DecidableEq, Repr

namespace Scan

def ofUnits (symbols : List String) (units : List SourceUnit) : Scan :=
  let table := units.foldl (fun t unit => SymbolTable.recordUnit t symbols unit) Table.empty
  ⟨table, SymbolTable.duplicates table⟩

def hasDuplicates (s : Scan) : Bool := !s.duplicates.isEmpty

def duplicateDiagnostic (d : Duplicate) : Diagnostic :=
  (Diagnostic.of .declaredTwice [d.symbol]).withRelated (d.locations.map fun place =>
    .onLine place.file place.line .declaredHere [place.symbol, place.kind.keyword])

def diagnostics (s : Scan) : Diagnostics := s.duplicates.map duplicateDiagnostic

end Scan
end ScriptBundle
