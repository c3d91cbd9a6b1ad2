import ScriptBundle.Proofs.Lines

/-! The lines of a text and their numbers. Cutting at line feeds undoes joining with line feeds, so a text is
made up of its own lines and of no others. A number is the place of its line counted from one in a 32-bit
word, and a text behind a line feed keeps its lines with all their numbers moved by the same amount. -/
namespace ScriptBundle.Lines

structure MakeUp (lines : List String) (text : String) : Prop where
  nonempty : lines ≠ []
  plain : ∀ line ∈ lines, OneLine line
  joined : "\n".intercalate lines = text

section Joining
variable {lines : List String} {text : String}

theorem charsOfLines : (linesOf text).map String.toList = text.toList.splitOn '\n' := by
  simp [linesOf, split, Text.splitOnStandard, Function.comp_def]

theorem linesMakeUp (text : String) : MakeUp (linesOf text) text where
  nonempty := List.ne_nil_of_length_pos (by simp [linesLength])
  plain line member := by
    obtain ⟨piece, inside, rfl⟩ := List.mem_map.mp member
    simpa [OneLine] using (Text.splitOnPiece inside).1
  joined := by
    apply String.toList_injective
    rw [String.toList_intercalate, charsOfLines]
    exact List.intercalate_splitOn '\n'

theorem MakeUp.unique (made : MakeUp lines text) : lines = linesOf text := by
  have chars : text.toList = ['\n'].intercalate (lines.map String.toList) := by
    rw [← made.joined, String.toList_intercalate]
    rfl
  have plain : ∀ piece ∈ lines.map String.toList, '\n' ∉ piece := by
    intro piece member
    obtain ⟨line, inside, rfl⟩ := List.mem_map.mp member
    exact made.plain line inside
  have pieces : text.toList.splitOn '\n' = lines.map String.toList := by
    rw [chars]
    exact List.splitOn_intercalate '\n' plain (mt List.map_eq_nil_iff.mp made.nonempty)
  rw [← charsOfLines] at pieces
  exact (List.map_inj_right fun _ _ => String.toList_injective).mp pieces.symm

theorem makeUpExactly : MakeUp lines text ↔ lines = linesOf text :=
  ⟨MakeUp.unique, fun same => same ▸ linesMakeUp text⟩

theorem plainKept {piece : List Char} (fresh : '\n' ∉ piece) : piece.filter (· ≠ '\n') = piece := by
  refine List.filter_eq_self.mpr fun c member => ?_
  simpa using fun feed : c = '\n' => fresh (feed ▸ member)

theorem charsKept (text : String) :
    (linesOf text).flatMap String.toList = text.toList.filter (· ≠ '\n') := by
  rw [List.flatMap_def, charsOfLines]
  induction text.toList using Text.piecewise '\n' with
  | plain piece fresh =>
    rw [List.splitOn_eq_singleton fresh, List.flatten_singleton, plainKept fresh]
  | cut piece rest fresh ih =>
    rw [List.splitOn_append_cons_self, List.splitOn_eq_singleton fresh, List.singleton_append, List.flatten_cons, ih,
      List.filter_append, plainKept fresh, List.filter_cons_of_neg (by simp)]

end Joining

section Numbers

theorem numberMoved (index lines : Nat) : number (lines + index) = number index + UInt32.ofNat lines := by
  rw [number, number, ← UInt32.ofNat_add]
  congr 1
  omega

theorem linesNumbered (text : String) : (numbered text).map Prod.snd = linesOf text := by
  rw [numberedLines, List.map_map]
  exact List.zipIdx_map_fst ..

theorem numberedLength (text : String) : (numbered text).length = lineFeeds text + 1 := by
  rw [numberedLines, List.length_map, List.length_zipIdx, linesLength]

def shifted (lines : Nat) (entry : LineNumber × String) : LineNumber × String :=
  (entry.1 + UInt32.ofNat lines, entry.2)

theorem numberedAppend (first second : String) :
    numbered (first ++ "\n" ++ second) =
      numbered first ++ (numbered second).map (shifted (numbered first).length) := by
  have later : (linesOf second).zipIdx (linesOf first).length =
      (linesOf second).zipIdx.map fun entry => (entry.1, (linesOf first).length + entry.2) := List.zipIdx_eq_map_add
  rw [numberedLength, ← linesLength]
  simp only [numberedLines, linesAppend, List.zipIdx_append, List.map_append, Nat.zero_add, later, List.map_map]
  congr 1
  apply List.map_congr_left
  rintro ⟨line, index⟩ _
  simp only [Function.comp_apply, shifted, numberMoved]

end Numbers

theorem numberAt {text : String} {index : Nat} (inside : index < (numbered text).length) :
    ((numbered text).get ⟨index, inside⟩).1.toNat = (index + 1) % UInt32.size := by
  simp [numbered, number, UInt32.size]

theorem numberedEnded (text : String) :
    numbered (text ++ "\n") = numbered text ++ [(number (numbered text).length, "")] := by
  have final : numbered "" = [(number 0, "")] := rfl
  have appended := numberedAppend text ""
  rwa [String.append_empty, final, List.map_singleton, shifted, ← numberMoved, Nat.add_zero] at appended

theorem numbersEveryLine (text : String) :
    (∀ lines, MakeUp lines text ↔ lines = (numbered text).map Prod.snd) ∧
    (∀ index (inside : index < (numbered text).length),
      ((numbered text).get ⟨index, inside⟩).1.toNat = (index + 1) % UInt32.size) ∧
    (∀ rest, numbered (text ++ "\n" ++ rest) =
      numbered text ++ (numbered rest).map (shifted (numbered text).length)) ∧
    numbered (text ++ "\n") = numbered text ++ [(number (numbered text).length, "")] ∧
    (numbered text).flatMap (·.2.toList) = text.toList.filter (· ≠ '\n') ∧
    (numbered text).length = text.toList.count '\n' + 1 := by
  refine ⟨fun lines => ?_, fun index inside => numberAt inside, numberedAppend text, numberedEnded text, ?_,
    numberedLength text⟩
  · rw [linesNumbered]
    exact makeUpExactly
  · rw [← charsKept, ← linesNumbered, List.flatMap_map]

end ScriptBundle.Lines
