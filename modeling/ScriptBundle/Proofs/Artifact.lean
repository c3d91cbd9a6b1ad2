import ScriptBundle.Artifact
import ScriptBundle.Proofs.Scan

/-! Scanning the artifact as one unit. Its header and its banners bind nothing, and every text in it
stands on lines of its own, so the scan finds the declarations of the units again, each as many lines
further down as there are line feeds before the text of its unit. -/
namespace ScriptBundle
open Lines (linesOf linesAppend linesLength numberedLines OneLine oneLineAppend oneLineRepr oneLineChars linesPlain
  lineFeeds lineFeedsAppend lineFeedsPlain)

namespace Declaration

def moved (file : String) (lines : Nat) (d : Declaration) : Declaration :=
  ⟨d.symbol, file, UInt32.ofNat (d.line.toNat + lines), d.kind⟩

def ofText (symbols : List String) (file text : String) : List Declaration :=
  (Lines.numbered text).flatMap (ofLine symbols file)

theorem movedMoved (file other : String) (first second : Nat) (d : Declaration) :
    moved file second (moved other first d) = moved file (first + second) d := by
  simp only [moved, UInt32.ofNat_add, UInt32.ofNat_toNat, UInt32.add_assoc]

theorem mapMoved (file other : String) (first second : Nat) (ds : List Declaration) :
    (ds.map (moved other first)).map (moved file second) = ds.map (moved file (first + second)) := by
  simp [Function.comp_def, movedMoved]

theorem ofUnitText (symbols : List String) (unit : SourceUnit) :
    ofUnit symbols unit = ofText symbols unit.name unit.text := rfl

theorem ofUnitLine {symbols : List String} {unit : SourceUnit} {d : Declaration}
    (declared : d ∈ ofUnit symbols unit) : d.line.toNat ≤ lineFeeds unit.text + 1 := by
  rw [ofUnit, numberedLines, List.flatMap_map] at declared
  obtain ⟨⟨line, index⟩, member, onLine⟩ := List.mem_flatMap.mp declared
  obtain ⟨symbol, _, rfl⟩ := List.mem_map.mp onLine
  obtain ⟨inside, _⟩ := List.getElem?_eq_some_iff.mp (List.mem_zipIdx_iff_getElem?.mp member)
  rw [linesLength] at inside
  exact Nat.le_trans (Nat.mod_le ..) inside

theorem ofLineMoved (symbols : List String) (file other line : String) (index lines : Nat) :
    ofLine symbols file (Lines.number (lines + index), line) =
      (ofLine symbols other (Lines.number index, line)).map (moved file lines) := by
  have number : UInt32.ofNat (lines + index + 1) =
      UInt32.ofNat ((UInt32.ofNat (index + 1)).toNat + lines) := by
    rw [UInt32.ofNat_add ((UInt32.ofNat (index + 1)).toNat), UInt32.ofNat_toNat, ← UInt32.ofNat_add]
    congr 1
    omega
  simp [ofLine, moved, Lines.number, number]

theorem ofTextMoved (symbols : List String) (file other text : String) :
    ofText symbols file text = (ofText symbols other text).map (moved file 0) := by
  rw [ofText, ofText, numberedLines, List.flatMap_map, List.flatMap_map, List.map_flatMap]
  congr
  funext entry
  simpa using ofLineMoved symbols file other entry.1 entry.2 0

theorem ofTextAppend (symbols : List String) (file first second : String) :
    ofText symbols file (first ++ "\n" ++ second) =
      ofText symbols file first ++
        (ofText symbols file second).map (moved file (lineFeeds first + 1)) := by
  simp only [ofText, numberedLines, linesAppend, List.zipIdx_append, List.map_append,
    List.flatMap_append, List.flatMap_map, List.map_flatMap, linesLength]
  congr 1
  rw [Nat.zero_add, List.zipIdx_eq_map_add, List.flatMap_map]
  congr
  funext entry
  exact ofLineMoved symbols file file entry.1 entry.2 _

theorem ofTextSilent {symbols : List String} {line : String} (plain : OneLine line)
    (silent : Binding.tracked symbols line = []) (file : String) : ofText symbols file line = [] := by
  simp [ofText, numberedLines, linesPlain plain, ofLine, silent]

theorem ofTextBlock {symbols lines : List String} (plain : ∀ line ∈ lines, OneLine line)
    (silent : ∀ line ∈ lines, Binding.tracked symbols line = []) (file rest : String) :
    ofText symbols file (String.join (lines.map (· ++ "\n")) ++ rest) =
      (ofText symbols file rest).map (moved file (lineFeeds (String.join (lines.map (· ++ "\n"))))) := by
  induction lines with
  | nil => simpa [lineFeeds] using ofTextMoved symbols file file rest
  | cons line lines ih =>
    obtain ⟨plainLine, plainLines⟩ := List.forall_mem_cons.mp plain
    obtain ⟨silentLine, silentLines⟩ := List.forall_mem_cons.mp silent
    have feeds : lineFeeds (line ++ "\n") = 1 := by
      rw [lineFeedsAppend, lineFeedsPlain plainLine]; rfl
    rw [List.map_cons, String.join_cons, String.append_assoc, ofTextAppend,
      ofTextSilent plainLine silentLine, ih plainLines silentLines, mapMoved, List.nil_append,
      lineFeedsAppend, feeds, lineFeedsPlain plainLine, Nat.add_comm]

end Declaration

def Comment (line : String) : Prop := Binding.isComment line.toList = true

instance (line : String) : Decidable (Comment line) := inferInstanceAs (Decidable (_ = _))

theorem commentAppend {first : String} (comment : Comment first) (second : String) :
    Comment (first ++ second) := by
  simp only [Comment, Binding.isComment, Bool.or_eq_true, List.isPrefixOf_iff_prefix,
    String.toList_append] at comment ⊢
  have opened : Text.skipBlanks first.toList ≠ [] := by
    rintro blank
    simp [blank] at comment
  have skipped : Text.skipBlanks (first.toList ++ second.toList) =
      Text.skipBlanks first.toList ++ second.toList := by
    rw [Text.skipBlanks, List.dropWhile_append, if_neg (by simpa [Text.skipBlanks] using opened)]
    rfl
  rw [skipped]
  exact comment.imp (·.trans (List.prefix_append _ _)) (·.trans (List.prefix_append _ _))

theorem commentChars {chars : List Char} (comment : Binding.isComment chars = true) :
    Comment (String.ofList chars) := by
  rwa [Comment, String.toList_ofList]

theorem commentSilent {line : String} (comment : Comment line) (symbols : List String) :
    Binding.tracked symbols line = [] := if_pos comment

namespace BuildInfo

structure Plain (info : BuildInfo) : Prop where
  title : OneLine info.title
  version : OneLine info.version
  date : OneLine info.date

theorem headerPlain {info : BuildInfo} (plain : info.Plain) : ∀ line ∈ info.headerLines, OneLine line := by
  obtain ⟨title, version, date⟩ := plain
  have label : OneLine info.buildType.label := by cases info.buildType <;> exact oneLineChars rfl
  have tests : OneLine (if info.includeTests then "Yes" else "No") := by split <;> exact oneLineChars rfl
  simp only [headerLines, List.forall_mem_cons, List.not_mem_nil, false_implies, implies_true, oneLineAppend, title,
    version, date, label, tests, oneLineRepr, and_true]
  and_intros <;> exact oneLineChars rfl

theorem headerSilent (info : BuildInfo) (symbols : List String) :
    ∀ line ∈ info.headerLines, Binding.tracked symbols line = [] := by
  have lines : ∀ line ∈ info.headerLines, line = "/**" ∨ line = "" ∨ Comment line := by
    simp (disch := exact commentChars rfl) only [headerLines, List.forall_mem_cons, List.not_mem_nil, false_implies,
      implies_true, String.append_assoc, commentAppend, or_true, true_or, and_true, true_and]
    and_intros <;> exact .inr (.inr (commentChars rfl))
  intro line member
  rcases lines line member with rfl | rfl | comment
  · rfl
  · rfl
  · exact commentSilent comment symbols

end BuildInfo

namespace SourceUnit

def banner (name : String) : String := String.join ((bannerLines name).map (· ++ "\n"))

theorem renderParts (unit : SourceUnit) : unit.render = banner unit.name ++ unit.text ++ "\n\n" := rfl

theorem bannerPlain {name : String} (plain : OneLine name) : ∀ line ∈ bannerLines name, OneLine line := by
  simp only [bannerLines, List.forall_mem_cons, List.not_mem_nil, false_implies, implies_true, oneLineAppend, plain,
    and_true]
  and_intros <;> exact oneLineChars rfl

theorem bannerSilent (name : String) (symbols : List String) :
    ∀ line ∈ bannerLines name, Binding.tracked symbols line = [] := by
  have lines : ∀ line ∈ bannerLines name, line = "" ∨ Comment line := by
    simp (disch := exact commentChars rfl) only [bannerLines, List.forall_mem_cons, List.not_mem_nil, false_implies,
      implies_true, commentAppend, or_true, true_or, and_true]
  intro line member
  rcases lines line member with rfl | comment
  · rfl
  · exact commentSilent comment symbols

end SourceUnit

namespace Declaration
open SourceUnit (banner bannerPlain bannerSilent render renderParts)

theorem ofTextRender {unit : SourceUnit} (plain : OneLine unit.name) (symbols : List String)
    (file rest : String) :
    ofText symbols file (unit.render ++ rest) =
      (ofUnit symbols unit).map (moved file (lineFeeds (banner unit.name))) ++
        (ofText symbols file rest).map (moved file (lineFeeds unit.render)) := by
  have parts : unit.render ++ rest =
      banner unit.name ++ (unit.text ++ "\n" ++ ("" ++ "\n" ++ rest)) := by
    have ending : "\n\n" = "\n" ++ "\n" := rfl
    simp only [renderParts, ending, String.append_assoc, String.empty_append]
  have feeds : lineFeeds unit.render = lineFeeds unit.text + 1 + (lineFeeds "" + 1) +
      lineFeeds (banner unit.name) := by
    have ending : lineFeeds "\n\n" = 2 ∧ lineFeeds "" = 0 := by decide
    rw [renderParts, lineFeedsAppend, lineFeedsAppend, ending.1, ending.2]
    omega
  have own : ofText symbols file unit.text = (ofUnit symbols unit).map (moved file 0) :=
    ofTextMoved symbols file unit.name unit.text
  have blank : ofText symbols file "" = [] := ofTextSilent (by decide) rfl file
  rw [parts, banner, ofTextBlock (bannerPlain plain) (bannerSilent unit.name symbols), ofTextAppend,
    ofTextAppend, blank, List.nil_append, own, feeds, ← banner]
  simp only [List.map_append, mapMoved, Nat.zero_add]
  rw [Nat.add_comm (lineFeeds "" + 1)]

theorem ofTextUnits {units : List SourceUnit} (plain : ∀ unit ∈ units, OneLine unit.name)
    (symbols : List String) (file : String) :
    ofText symbols file (String.join (units.map render)) =
      units.zipIdx.flatMap fun entry => (ofUnit symbols entry.1).map
        (moved file (lineFeeds (String.join ((units.take entry.2).map render) ++ banner entry.1.name))) := by
  induction units with
  | nil => exact ofTextSilent (by decide) rfl file
  | cons unit units ih =>
    obtain ⟨plainUnit, plainUnits⟩ := List.forall_mem_cons.mp plain
    rw [List.map_cons, String.join_cons, ofTextRender plainUnit, ih plainUnits, List.zipIdx_cons,
      List.zipIdx_succ, List.flatMap_cons, List.flatMap_map, List.map_flatMap]
    refine congrArg₂ (· ++ ·) ?_ (congrArg (List.flatMap · _) (funext fun entry => ?_))
    · rw [List.take_zero, List.map_nil, String.join_nil, String.empty_append]
    · rw [mapMoved, List.take_succ_cons, List.map_cons, String.join_cons, String.append_assoc,
        lineFeedsAppend unit.render, Nat.add_comm]

end Declaration

namespace Artifact
open SourceUnit (banner render)

def leading (info : BuildInfo) (before : List SourceUnit) (unit : SourceUnit) : String :=
  plainText info before ++ banner unit.name

theorem plainTextAt (info : BuildInfo) {units : List SourceUnit} {entry : SourceUnit × Nat}
    (member : entry ∈ units.zipIdx) :
    plainText info units = leading info (units.take entry.2) entry.1 ++ entry.1.text ++
      ("\n\n" ++ String.join ((units.drop (entry.2 + 1)).map render)) := by
  obtain ⟨unit, index⟩ := entry
  have found : units[index]? = some unit := List.mem_zipIdx_iff_getElem?.mp member
  obtain ⟨inside, same⟩ := List.getElem?_eq_some_iff.mp found
  have parts : units = units.take index ++ unit :: units.drop (index + 1) := by
    rw [← same, ← List.drop_eq_getElem_cons inside, List.take_append_drop]
  calc plainText info units
    _ = plainText info (units.take index ++ unit :: units.drop (index + 1)) := by rw [← parts]
    _ = _ := by
      simp only [plainText, leading, List.map_append, List.map_cons, String.join_append,
        String.join_cons, SourceUnit.renderParts, String.append_assoc]

def placed (symbols : List String) (file : String) (info : BuildInfo) (units : List SourceUnit) :
    List Declaration :=
  units.zipIdx.flatMap fun entry => (Declaration.ofUnit symbols entry.1).map
    (Declaration.moved file (lineFeeds (leading info (units.take entry.2) entry.1)))

theorem plainDeclarations {info : BuildInfo} {units : List SourceUnit} (plain : info.Plain)
    (names : ∀ unit ∈ units, OneLine unit.name) (symbols : List String) (file : String) :
    Declaration.ofText symbols file (plainText info units) = placed symbols file info units := by
  rw [plainText, BuildInfo.header, Declaration.ofTextBlock (BuildInfo.headerPlain plain)
    (BuildInfo.headerSilent info symbols), Declaration.ofTextUnits names, List.map_flatMap]
  refine congrArg (List.flatMap · _) (funext fun entry => ?_)
  rw [Declaration.mapMoved, ← BuildInfo.header, leading, plainText, String.append_assoc,
    lineFeedsAppend info.header, Nat.add_comm]

theorem placedUnmoved (symbols : List String) (file : String) (info : BuildInfo)
    (units : List SourceUnit) {β : Type} {view : Declaration → β}
    (unmoved : ∀ lines d, view (Declaration.moved file lines d) = view d) :
    (placed symbols file info units).map view = (units.flatMap (Declaration.ofUnit symbols)).map view := by
  have inner (entry : SourceUnit × Nat) : ((Declaration.ofUnit symbols entry.1).map
      (Declaration.moved file (lineFeeds (leading info (units.take entry.2) entry.1)))).map view =
      (Declaration.ofUnit symbols entry.1).map view := by
    rw [List.map_map]
    exact List.map_congr_left fun d _ => unmoved _ d
  rw [placed, List.map_flatMap, funext inner, List.map_flatMap]
  calc (units.zipIdx.flatMap fun entry => (Declaration.ofUnit symbols entry.1).map view)
    _ = (units.zipIdx.map Prod.fst).flatMap fun unit => (Declaration.ofUnit symbols unit).map view := by
      rw [List.flatMap_map]
    _ = units.flatMap fun unit => (Declaration.ofUnit symbols unit).map view := by
      rw [List.zipIdx_map_fst]

/- As long as the lines of the artifact can be counted, moving a declaration never wraps around. -/
theorem placedLine {info : BuildInfo} {units : List SourceUnit} {entry : SourceUnit × Nat}
    (member : entry ∈ units.zipIdx) (countable : lineFeeds (plainText info units) + 1 < UInt32.size)
    {symbols : List String} {d : Declaration} (declared : d ∈ Declaration.ofUnit symbols entry.1)
    (file : String) :
    (Declaration.moved file (lineFeeds (leading info (units.take entry.2) entry.1)) d).line.toNat =
      d.line.toNat + lineFeeds (leading info (units.take entry.2) entry.1) := by
  have inside := Declaration.ofUnitLine declared
  rw [plainTextAt info member, lineFeedsAppend, lineFeedsAppend, UInt32.size] at countable
  rw [Declaration.moved, UInt32.toNat_ofNat', Nat.mod_eq_of_lt (by omega)]

end Artifact
end ScriptBundle
