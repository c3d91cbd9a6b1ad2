import ScriptBundle.Proofs.BrokenBytes
import ScriptBundle.Proofs.Grammar
import ScriptBundle.Proofs.Recoding

/-! Carriage returns before line feeds. Each is the last character of its line, and it neither completes nor breaks
a shape there, since both end in a sign that is not blank. So whatever decides about a build by its declarations
decides the same for both kinds of line endings. -/
namespace ScriptBundle

namespace Text

def precede {α : Type} [DecidableEq α] (mark stop : α) (text : List α) : List α :=
  text.flatMap fun c => if c = stop then [mark, stop] else [c]

section Precede
variable {α : Type} [DecidableEq α] (mark stop : α)

theorem precedeAppend (first second : List α) :
    precede mark stop (first ++ second) = precede mark stop first ++ precede mark stop second :=
  List.flatMap_append

theorem precedeStop (rest : List α) : precede mark stop (stop :: rest) = mark :: stop :: precede mark stop rest := by
  simp [precede]

theorem precedePlain {text : List α} (plain : stop ∉ text) : precede mark stop text = text := by
  induction text with
  | nil => rfl
  | cons c rest ih =>
    have other : c ≠ stop := (List.ne_of_not_mem_cons plain).symm
    have later := ih (List.not_mem_of_not_mem_cons plain)
    rw [precede] at later ⊢
    rw [List.flatMap_cons, if_neg other, later, List.singleton_append]

end Precede
end Text

namespace Lines
open Text (precede precedeAppend precedeStop precedePlain)

def withReturns (text : String) : String := String.ofList (precede '\r' '\n' text.toList)

theorem returnsAppend (first second : String) :
    withReturns (first ++ second) = withReturns first ++ withReturns second := by
  rw [withReturns, String.toList_append, precedeAppend, String.ofList_append]
  rfl

theorem returnsPlain {text : String} (plain : OneLine text) : withReturns text = text := by
  rw [withReturns, precedePlain _ _ plain, String.ofList_toList]

theorem splitReturns {β : Type} {view : List Char → β} (blind : ∀ line, view (line ++ ['\r']) = view line)
    (text : List Char) : (split (precede '\r' '\n' text)).map view = (split text).map view := by
  induction text using Text.piecewise '\n' with
  | plain piece plain => rw [precedePlain _ _ plain]
  | cut piece rest plain ih =>
    have returned : '\n' ∉ piece ++ ['\r'] := by simp [plain]
    have parts : precede '\r' '\n' (piece ++ '\n' :: rest) = piece ++ ['\r'] ++ '\n' :: precede '\r' '\n' rest := by
      rw [precedeAppend, precedePlain _ _ plain, precedeStop, List.append_assoc, List.singleton_append]
    rw [parts, splitAppend, splitAppend, splitPlain returned, splitPlain plain, List.map_append, List.map_append, ih,
      List.map_singleton, List.map_singleton, blind]

end Lines

namespace Binding
open Text (occurs)

section Ends
variable {text rest line name : List Char} {sign last : Char}

theorem signBefore (other : sign ≠ last) (same : line ++ [last] = text ++ sign :: rest) :
    ∃ shorter, rest = shorter ++ [last] ∧ line = text ++ sign :: shorter := by
  rcases List.eq_nil_or_concat' rest with rfl | ⟨shorter, d, rfl⟩
  · exact absurd (List.singleton_inj.mp (List.append_inj_right' same rfl)).symm other
  · have split : line ++ [last] = text ++ sign :: shorter ++ [d] := by
      rw [same, List.append_assoc, List.cons_append]
    obtain ⟨before, ends⟩ := List.append_inj' split rfl
    exact ⟨shorter, by rw [List.singleton_inj.mp ends], before⟩

theorem declaresEnd (other : '=' ≠ last) : Declares name (line ++ [last]) ↔ Declares name line := by
  constructor
  · intro declares
    generalize whole : line ++ [last] = text at declares
    obtain @⟨word, blanks, gap, keyword, apart, blank, named, around, rest⟩ := declares
    obtain ⟨shorter, _, rfl⟩ := signBefore other whole
    exact .mk keyword apart blank named around shorter
  · intro declares
    obtain @⟨word, blanks, gap, keyword, apart, blank, named, around, rest⟩ := declares
    have longer := Declares.mk keyword apart blank named around (rest ++ [last])
    rw [← List.cons_append, ← List.append_assoc] at longer
    exact longer

theorem assignsEnd (closed : opensValue last = false) : Assigns name (line ++ [last]) ↔ Assigns name line := by
  constructor
  · intro assigns
    generalize whole : line ++ [last] = text at assigns
    obtain @⟨before, behind, opening, named, gap, blank, opens, rest⟩ := assigns
    have other : opening ≠ last := by
      rintro rfl
      rcases opens with rfl | rfl | rfl | rfl <;> cases closed
    have reached : name ++ before ++ '=' :: (behind ++ opening :: rest) =
        name ++ before ++ '=' :: behind ++ opening :: rest := by
      rw [List.append_assoc _ ('=' :: behind), List.cons_append]
    obtain ⟨shorter, _, rfl⟩ := signBefore other (whole.trans reached)
    have assigns := Assigns.mk named gap blank opens shorter
    rw [List.append_assoc _ ('=' :: behind), List.cons_append]
    exact assigns
  · intro assigns
    obtain @⟨before, behind, opening, named, gap, blank, opens, rest⟩ := assigns
    have longer := Assigns.mk named gap blank opens (rest ++ [last])
    rw [List.append_assoc, List.cons_append, List.append_assoc behind, List.cons_append]
    exact longer

theorem occursEnd {needle : List Char} (filled : needle ≠ []) (plain : last ∉ needle) (line : List Char) :
    occurs needle (line ++ [last]) = occurs needle line := by
  induction line with
  | nil =>
    have missed : needle.isPrefixOf ([] ++ [last]) = needle.isPrefixOf [] := isPrefixOfBefore plain [] []
    have unmatched : needle.isPrefixOf [] = false := by cases needle <;> trivial
    rw [List.nil_append, occurs, occurs, ← List.nil_append [last], missed, unmatched, Bool.false_or, occurs]
  | cons c line ih =>
    rw [List.cons_append, occurs, occurs, ih, ← List.cons_append, isPrefixOfBefore plain]

end Ends

theorem trackedReturn (symbols : List String) (line : String) :
    tracked symbols (line ++ "\r") = tracked symbols line := by
  refine trackedAlike (fun name => ?_) symbols
  rw [String.toList_append]
  exact or_congr (declaresEnd (by decide)) (assignsEnd rfl)

theorem kindReturn (line : String) : Kind.ofLine (line ++ "\r") = Kind.ofLine line := by
  have same {needle : List Char} (filled : needle ≠ []) (plain : '\r' ∉ needle) :
      occurs needle (line ++ "\r").toList = occurs needle line.toList := by
    rw [String.toList_append]
    exact occursEnd filled plain line.toList
  have constant : occurs "const ".toList (line ++ "\r").toList = _ := same (by decide) (by decide)
  have blockScoped : occurs "let ".toList (line ++ "\r").toList = _ := same (by decide) (by decide)
  have mutable : occurs "var ".toList (line ++ "\r").toList = _ := same (by decide) (by decide)
  rw [Kind.ofLine, constant, blockScoped, mutable, Kind.ofLine]

end Binding

namespace Utf8
open Text (precede precedeAppend precedeStop precedePlain)

def withReturns (bytes : Bytes) : Bytes := precede 0x0D 0x0A bytes

theorem decodeReturns (bytes : Bytes) : decode (withReturns bytes) = Lines.withReturns (decode bytes) := by
  induction bytes using Text.piecewise (0x0A : UInt8) with
  | plain piece plain => rw [withReturns, precedePlain _ _ plain, Lines.returnsPlain (decodeOneLine plain)]
  | cut piece rest plain ih =>
    have nothing : decode [] = "" := rfl
    have parts : withReturns (piece ++ 0x0A :: rest) = piece ++ 0x0D :: ([] ++ 0x0A :: withReturns rest) := by
      rw [withReturns, precedeAppend, precedePlain _ _ plain, precedeStop, List.nil_append]
      rfl
    have signs : Lines.withReturns (String.singleton (Char.ofNat (0x0A : UInt8).toNat)) =
        String.singleton (Char.ofNat (0x0D : UInt8).toNat) ++ String.singleton (Char.ofNat (0x0A : UInt8).toNat) := by
      decide
    rw [parts, decodeAround (by decide), decodeAround (by decide), decodeAround (by decide), Lines.returnsAppend,
      Lines.returnsAppend, Lines.returnsPlain (decodeOneLine plain), signs, ih]
    simp only [nothing, String.empty_append, String.append_assoc]

end Utf8

namespace Declaration
open Lines (LineNumber)

def onLine (symbols : List String) (file : String) (line : List Char) : LineNumber → List Declaration :=
  fun number => ofLine symbols file (number, String.ofList line)

theorem onLineReturn (symbols : List String) (file : String) (line : List Char) :
    onLine symbols file (line ++ ['\r']) = onLine symbols file line := by
  funext number
  have returned : String.ofList (line ++ ['\r']) = String.ofList line ++ "\r" := String.ofList_append
  rw [onLine, onLine, ofLine, ofLine, returned, Binding.trackedReturn, Binding.kindReturn]

theorem ofUnitLines (symbols : List String) (unit : SourceUnit) :
    ofUnit symbols unit =
      (((Lines.split unit.text.toList).map (onLine symbols unit.name)).mapIdx fun index found =>
        found (Lines.number index)).flatten := by
  rw [ofUnit, Lines.numbered, List.flatMap_def, List.mapIdx_eq_zipIdx_map, List.mapIdx_eq_zipIdx_map, List.zipIdx_map,
    List.map_map, List.map_map]
  rfl

theorem ofUnitReturns (symbols : List String) (unit : SourceUnit) :
    ofUnit symbols (unit.recode Lines.withReturns) = ofUnit symbols unit := by
  rw [ofUnitLines, ofUnitLines, SourceUnit.recode, Lines.withReturns, String.toList_ofList,
    Lines.splitReturns (onLineReturn symbols unit.name)]

end Declaration

theorem SymbolTable.recordReturns (t : SymbolTable) (symbols : List String) (unit : SourceUnit) :
    SymbolTable.recordUnit t symbols (unit.recode Lines.withReturns) = SymbolTable.recordUnit t symbols unit := by
  rw [recordUnit, recordUnit, Declaration.ofUnitReturns]

theorem Scan.ofUnitsReturns (symbols : List String) (units : List SourceUnit) :
    Scan.ofUnits symbols (units.map (SourceUnit.recode Lines.withReturns)) = Scan.ofUnits symbols units := by
  rw [ofUnits, ofUnits, List.foldl_map]
  simp only [SymbolTable.recordReturns]

namespace Project

theorem gateIgnoresLineEndings (symbols : List String) (m : Manifest) :
    (∀ unit : SourceUnit,
      Declaration.ofUnit symbols (unit.recode Lines.withReturns) = Declaration.ofUnit symbols unit) ∧
    (∀ table unit, SymbolTable.recordUnit table symbols (unit.recode Lines.withReturns) =
      SymbolTable.recordUnit table symbols unit) ∧
    (∀ units, Scan.ofUnits symbols (units.map (SourceUnit.recode Lines.withReturns)) = Scan.ofUnits symbols units) ∧
    (∀ files : FileMap, check ⟨m, files.recode Lines.withReturns⟩ = check ⟨m, files⟩ ∧
      ∀ options date, (build ⟨m, files.recode Lines.withReturns⟩ options date).1.map BuildReport.scan =
        (build ⟨m, files⟩ options date).1.map BuildReport.scan) ∧
    ∀ f : Folder, check ⟨m, f.recode Utf8.withReturns⟩ = check ⟨m, f⟩ ∧
      ∀ options date, (build ⟨m, f.recode Utf8.withReturns⟩ options date).1.map BuildReport.scan =
        (build ⟨m, f⟩ options date).1.map BuildReport.scan := by
  have texts : Storage.Recoding (FileMap.recode Lines.withReturns) Lines.withReturns := FileMap.recoding _
  have bytes : Storage.Recoding (Folder.recode Utf8.withReturns) Lines.withReturns := Folder.recoding Utf8.decodeReturns
  refine ⟨Declaration.ofUnitReturns symbols, fun table => SymbolTable.recordReturns table symbols,
    Scan.ofUnitsReturns symbols, fun files => ?_, fun f => ?_⟩
  · exact ⟨checkRecoded texts ⟨m, files⟩ Scan.ofUnitsReturns, buildRecoded texts ⟨m, files⟩ Scan.ofUnitsReturns⟩
  · exact ⟨checkRecoded bytes ⟨m, f⟩ Scan.ofUnitsReturns, buildRecoded bytes ⟨m, f⟩ Scan.ofUnitsReturns⟩

end Project
end ScriptBundle
