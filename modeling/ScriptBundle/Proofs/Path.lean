import ScriptBundle.Proofs.FileTree
import ScriptBundle.Proofs.Lines

/-! Paths that are put together from shorter ones, and where they lead. A slash between two texts keeps their
parts apart, so a path leads on from where its beginning leads, and nothing lies beyond a file. -/
namespace ScriptBundle
open Utf8 (Bytes)

namespace Path

def partsOf (text : String) : List String :=
  ((Text.splitOn '/' text.toList).map String.ofList).filter (· ≠ "")

def spelled (text : String) : Path :=
  ⟨text.toList.head? = some '/', partsOf text, text.toList.getLast? = some '/'⟩

structure Sound (text : String) : Prop where
  named : '\x00' ∉ text.toList
  nonempty : text ≠ ""
  short : text.utf8ByteSize < byteLimit

theorem ofStringSource {text : String} {path : Path} (read : ofString text = .ok path) :
    Sound text ∧ path = spelled text := by
  unfold ofString at read
  split at read
  · cases read
  · rename_i named
    split at read
    · cases read
    · rename_i nonempty
      split at read
      · cases read
      · rename_i short
        cases read
        exact ⟨⟨by simpa using named, nonempty, Nat.not_le.mp short⟩, rfl⟩

theorem ofStringFromSource {text : String} (sound : Sound text) : ofString text = .ok (spelled text) := by
  have named : ¬ text.toList.contains '\x00' = true := by simpa using sound.named
  rw [ofString, if_neg named, if_neg sound.nonempty, if_neg (Nat.not_le.mpr sound.short)]
  rfl

theorem ofStringFault {text : String} {fault : FileFault} (nonempty : text ≠ "")
    (failed : ofString text = .error fault) : fault ≠ .noEntry := by
  unfold ofString at failed
  rw [if_neg nonempty] at failed
  split at failed
  · cases failed
    decide
  · split at failed <;> cases failed
    decide

theorem partsAppend (first second : String) :
    partsOf (first ++ "/" ++ second) = partsOf first ++ partsOf second := by
  simp [partsOf, Text.splitOnStandard, List.splitOn_append_cons_self]

theorem partsPlain {name : String} (plain : '/' ∉ name.toList) (nonempty : name ≠ "") : partsOf name = [name] := by
  simp [partsOf, Text.splitOnStandard, List.splitOn_eq_singleton plain, nonempty]

theorem partOf {text part : String} (member : part ∈ partsOf text) :
    part ≠ "" ∧ '/' ∉ part.toList ∧ ∀ c ∈ part.toList, c ∈ text.toList := by
  obtain ⟨split, nonempty⟩ := List.mem_filter.mp member
  obtain ⟨piece, inside, rfl⟩ := List.mem_map.mp split
  obtain ⟨undivided, chars⟩ := Text.splitOnPiece inside
  rw [String.toList_ofList]
  exact ⟨of_decide_eq_true nonempty, undivided, chars⟩

theorem slashesOnly {text : List Char} (none : ∀ piece ∈ Text.splitOn '/' text, piece = []) :
    ∀ c ∈ text, c = '/' := by
  induction text with
  | nil => simp
  | cons c rest ih =>
    by_cases slash : c = '/'
    · subst slash
      rw [Text.splitOnSeparator] at none
      simpa using ih fun piece member => none piece (List.mem_cons_of_mem _ member)
    · rw [Text.splitOnOther slash] at none
      cases pieces : Text.splitOn '/' rest with
      | nil => simp [Text.splitOnStandard] at pieces
      | cons first others =>
        rw [pieces] at none
        cases none _ (List.mem_cons_self ..)

theorem partlessSlashed {text : String} (none : partsOf text = []) (first : String) :
    (spelled (first ++ "/" ++ text)).slashed = true := by
  have slashes : ∀ c ∈ text.toList, c = '/' := slashesOnly fun piece member => by
    have empty := List.filter_eq_nil_iff.mp none (String.ofList piece) (List.mem_map_of_mem member)
    simpa using empty
  have last : text.toList.getLast?.getD '/' = '/' := by
    cases found : text.toList.getLast? with
    | none => rfl
    | some c => exact slashes c (List.mem_of_getLast? found)
  simp [spelled, List.getLast?_cons, last]

theorem fromTopAppend {first : String} (nonempty : first ≠ "") (second : String) :
    (spelled (first ++ second)).fromTop = (spelled first).fromTop := by
  simp [spelled, nonempty]

structure Plain (name : String) : Prop where
  nonempty : name ≠ ""
  undivided : '/' ∉ name.toList
  named : '\x00' ∉ name.toList
  proper : ¬ (name = "." ∨ name = "..")
  short : name.utf8ByteSize ≤ partLimit

instance (name : String) : Decidable (Plain name) :=
  decidable_of_iff (name ≠ "" ∧ '/' ∉ name.toList ∧ '\x00' ∉ name.toList ∧ ¬ (name = "." ∨ name = "..") ∧
      name.utf8ByteSize ≤ partLimit)
    ⟨fun ⟨nonempty, undivided, named, proper, short⟩ => ⟨nonempty, undivided, named, proper, short⟩,
     fun plain => ⟨plain.nonempty, plain.undivided, plain.named, plain.proper, plain.short⟩⟩

theorem partsSlashed (text : String) : partsOf (text ++ "/") = partsOf text := by
  have parts := partsAppend text ""
  rwa [String.append_empty, show partsOf "" = [] from rfl, List.append_nil] at parts

section Joining
variable {root name : String}

theorem Plain.relative (plain : Plain name) : name.toList.head? ≠ some '/' :=
  fun slash => plain.undivided (List.mem_of_head? slash)

theorem Plain.unslashed (plain : Plain name) : name.toList.getLast? ≠ some '/' :=
  fun slash => plain.undivided (List.mem_of_getLast? slash)

theorem joinRelative (nonempty : root ≠ "") (relative : name.toList.head? ≠ some '/') :
    ∃ before, join root name = before ++ "/" ++ name ∧ (root = before ∨ root = before ++ "/") := by
  rw [join, if_neg relative]
  by_cases slashed : root.toList.getLast? = some '/'
  · obtain ⟨before, split⟩ := List.getLast?_eq_some_iff.mp slashed
    have same : root = String.ofList before ++ "/" := String.toList_inj.mp (by simpa using split)
    exact ⟨String.ofList before, by rw [if_pos (.inr slashed), same], .inr same⟩
  · exact ⟨root, by rw [if_neg (not_or.mpr ⟨nonempty, slashed⟩)], .inl rfl⟩

theorem joinParts (nonempty : root ≠ "") (relative : name.toList.head? ≠ some '/') :
    partsOf (join root name) = partsOf root ++ partsOf name ∧
      (spelled (join root name)).fromTop = (spelled root).fromTop := by
  obtain ⟨before, joined, same⟩ := joinRelative nonempty relative
  rw [joined, partsAppend]
  rcases same with rfl | rfl
  · exact ⟨rfl, by rw [String.append_assoc, fromTopAppend nonempty]⟩
  · exact ⟨by rw [partsSlashed], fromTopAppend nonempty _⟩

theorem joinSpelled (nonempty : root ≠ "") (plain : Plain name) :
    spelled (join root name) = ⟨(spelled root).fromTop, partsOf root ++ [name], false⟩ := by
  obtain ⟨parts, top⟩ := joinParts nonempty plain.relative
  have open_ : (spelled (join root name)).slashed = false := by
    obtain ⟨before, joined, _⟩ := joinRelative nonempty plain.relative
    have last : (before ++ "/" ++ name).toList.getLast? = name.toList.getLast? := by
      have chars : name.toList ≠ [] := by simpa using plain.nonempty
      obtain ⟨c, ends⟩ := Option.isSome_iff_exists.mp (List.getLast?_isSome.mpr chars)
      rw [String.toList_append, List.getLast?_append, ends, Option.some_or]
    rw [joined, spelled, last]
    exact decide_eq_false plain.unslashed
  rw [← partsPlain plain.undivided plain.nonempty, ← parts, ← top, ← open_]
  rfl

theorem joinResolvable (sound : Sound root) (relative : name.toList.head? ≠ some '/') (named : '\x00' ∉ name.toList)
    (short : (join root name).utf8ByteSize < byteLimit) : Sound (join root name) := by
  obtain ⟨before, joined, same⟩ := joinRelative sound.nonempty relative
  have above : '\x00' ∉ before.toList := fun member => sound.named (by rcases same with rfl | rfl <;> simp [member])
  refine ⟨?_, ?_, short⟩
  · simp [joined, above, named]
  · simp [joined]

theorem joinSound (sound : Sound root) (plain : Plain name) (roomy : root.utf8ByteSize + 1 + partLimit < byteLimit) :
    Sound (join root name) := by
  obtain ⟨before, joined, same⟩ := joinRelative sound.nonempty plain.relative
  have size : before.utf8ByteSize ≤ root.utf8ByteSize := by
    rcases same with rfl | rfl
    · exact Nat.le_refl _
    · simp
  have short := plain.short
  refine joinResolvable sound plain.relative plain.named ?_
  rw [joined, String.utf8ByteSize_append, String.utf8ByteSize_append]
  have slash : "/".utf8ByteSize = 1 := rfl
  omega

end Joining
end Path

namespace FileTree
variable {t : FileTree} {location : Location} {bytes : Bytes}

theorem folderFile (file : t.at? location = some (.file bytes)) : t.folder location = .error .notFolder := by
  simp [folder, file]

theorem walkFile (file : t.at? location = some (.file bytes)) (part : String) (parts : List String) :
    t.walk location (part :: parts) = .error .notFolder := by
  simp [walk, step, folderFile file, bind, Except.bind]

theorem locateSource {text : String} (located : t.locate text = .ok location) :
    Path.Sound text ∧ t.walk (t.start (Path.spelled text)) (Path.partsOf text) = .ok location ∧
      ((Path.spelled text).slashed = true → t.at? location = some .folder) := by
  obtain ⟨path, parsed, rest⟩ := bindOk.mp located
  obtain ⟨reached, walked, ended⟩ := bindOk.mp rest
  obtain ⟨sound, rfl⟩ := Path.ofStringSource parsed
  split at ended
  · obtain ⟨inside, rfl⟩ := folderOk.mp ended
    exact ⟨sound, walked, fun _ => inside⟩
  · rename_i open_
    cases ended
    exact ⟨sound, walked, fun slashed => absurd slashed open_⟩

theorem locateFromSource {text : String} (sound : Path.Sound text)
    (walked : t.walk (t.start (Path.spelled text)) (Path.partsOf text) = .ok location)
    (folder : (Path.spelled text).slashed = true → t.at? location = some .folder) :
    t.locate text = .ok location := by
  refine bindOk.mpr ⟨_, Path.ofStringFromSource sound, bindOk.mpr ⟨location, walked, ?_⟩⟩
  split
  · rename_i slashed
    exact folderOk.mpr ⟨folder slashed, rfl⟩
  · rfl

section Standing
variable {later : FileTree} {reached : Location}

theorem walkFolder {parts : List String} (walked : t.walk location parts = .ok reached)
    (ends : t.at? reached = some .folder) : t.at? location = some .folder := by
  cases parts with
  | nil =>
    rw [walkNil] at walked
    cases walked
    exact ends
  | cons part parts =>
    obtain ⟨next, stepped, _⟩ := walkConsOk.mp walked
    exact (stepOk.mp stepped).1

theorem walkStays (kept : ∀ l, t.at? l = some .folder → later.at? l = some .folder) {parts : List String}
    (walked : t.walk location parts = .ok reached) (ends : t.at? reached = some .folder) :
    later.walk location parts = .ok reached := by
  induction parts generalizing location with
  | nil => exact walked
  | cons part parts ih =>
    obtain ⟨next, stepped, rest⟩ := walkConsOk.mp walked
    have stands := kept _ (walkFolder rest ends)
    exact walkConsOk.mpr ⟨next, stepAgain stepped (kept _ (stepOk.mp stepped).1) fun _ => by rw [stands]; rfl, ih rest⟩

theorem locateStays (here : later.here = t.here)
    (kept : ∀ l, t.at? l = some .folder → later.at? l = some .folder) {text : String}
    (located : t.locate text = .ok location) (inside : t.at? location = some .folder) :
    later.locate text = .ok location := by
  obtain ⟨sound, walked, _⟩ := locateSource located
  have again : later.walk (later.start (Path.spelled text)) (Path.partsOf text) = .ok location := by
    rw [FileTree.start, here]
    exact walkStays kept walked inside
  exact locateFromSource sound again fun _ => kept _ inside

end Standing

theorem readSource {text : String} (read : t.read text = .ok bytes) :
    ∃ location, t.locate text = .ok location ∧ t.at? location = some (.file bytes) := by
  obtain ⟨location, located, found⟩ := bindOk.mp read
  refine ⟨location, located, ?_⟩
  split at found
  · rename_i file
    cases found
    exact file
  · cases found

theorem isFileRead (t : FileTree) (text : String) : t.isFile text = (t.read text).isOk := by
  rw [FileTree.isFile, FileTree.read]
  cases t.locate text with
  | error fault => rfl
  | ok location =>
    simp only [bind, Except.bind]
    cases t.at? location with
    | none => rfl
    | some entry => cases entry <;> rfl

theorem isFileOk {text : String} : t.isFile text = true ↔ ∃ bytes, t.read text = .ok bytes := by
  rw [isFileRead]
  cases t.read text with
  | error fault => simp [Except.isOk, Except.toBool]
  | ok bytes => simp [Except.isOk, Except.toBool]

theorem readThroughFile {text : String} (read : t.read text = .ok bytes) (rest : String) :
    ∃ fault, t.read (text ++ "/" ++ rest) = .error fault ∧ fault ≠ .noEntry := by
  obtain ⟨location, located, file⟩ := readSource read
  obtain ⟨sound, walked, _⟩ := locateSource located
  cases parsed : Path.ofString (text ++ "/" ++ rest) with
  | error fault =>
    refine ⟨fault, ?_, Path.ofStringFault (by simp) parsed⟩
    simp [FileTree.read, locate, parsed, bind, Except.bind]
  | ok path =>
    obtain ⟨_, rfl⟩ := Path.ofStringSource parsed
    have start : t.start (Path.spelled (text ++ "/" ++ rest)) = t.start (Path.spelled text) := by
      rw [FileTree.start, String.append_assoc, Path.fromTopAppend sound.nonempty]
      rfl
    have beyond : t.walk (t.start (Path.spelled (text ++ "/" ++ rest))) (Path.spelled (text ++ "/" ++ rest)).parts =
        t.walk location (Path.partsOf rest) := by
      rw [start, ← walkOn walked, ← Path.partsAppend]
      rfl
    refine ⟨.notFolder, ?_, by decide⟩
    cases parts : Path.partsOf rest with
    | nil =>
      rw [parts, walkNil] at beyond
      simp [FileTree.read, locate, parsed, beyond, Path.partlessSlashed parts, folderFile file, bind, Except.bind]
    | cons part parts' =>
      rw [parts, walkFile file] at beyond
      simp [FileTree.read, locate, parsed, beyond, bind, Except.bind]

end FileTree
end ScriptBundle
