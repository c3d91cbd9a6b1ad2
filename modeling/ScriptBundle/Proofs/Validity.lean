import Mathlib.Data.List.Nodup
import Mathlib.Order.Bounds.Basic
import ScriptBundle.Manifest.Reader

/-! When a manifest is fit for use, and what that gives. The check for repeated modules goes through the core
modules and the test modules as one list and stops at the first position that repeats an earlier one, so what
passes it lists every module once, and no module is both a core module and a test. -/
namespace ScriptBundle

namespace Text

def whiteSpace : List Nat :=
  [0x9, 0xA, 0xB, 0xC, 0xD, 0x20, 0x85, 0xA0, 0x1680, 0x2000, 0x2001, 0x2002, 0x2003, 0x2004, 0x2005, 0x2006,
   0x2007, 0x2008, 0x2009, 0x200A, 0x2028, 0x2029, 0x202F, 0x205F, 0x3000]

theorem blankListed {c : Char} : isBlank c = true ↔ c.toNat ∈ whiteSpace := by
  have spread : whiteSpace = blankRanges.flatMap fun range => List.range' range.1 (range.2 + 1 - range.1) := by decide
  simp only [isBlank, inRanges, List.any_eq_true, spread, List.mem_flatMap, List.mem_range'_1, Bool.and_eq_true,
    decide_eq_true_eq]
  refine exists_congr fun range => and_congr_right fun _ => ?_
  omega

theorem allBlankListed {text : String} : allBlank text = true ↔ ∀ c ∈ text.toList, c.toNat ∈ whiteSpace := by
  simp only [allBlank, List.all_eq_true, blankListed]

end Text

namespace Manifest

def Repeats (names : List String) (position : Nat) : Prop :=
  ∃ name ∈ names.take position, names[position]? = some name

section Repeated
variable {names seen rest : List String} {name : String}

theorem distinctBefore (names : List String) (stop : Nat) :
    (names.take stop).Nodup ↔ ∀ position < stop, ¬ Repeats names position := by
  induction stop with
  | zero => simp
  | succ stop ih =>
    rw [Nat.forall_lt_succ_right, ← ih, List.take_add_one]
    cases found : names[stop]? with
    | none => simp [Repeats, found]
    | some last =>
      have again : Repeats names stop ↔ last ∈ names.take stop := by simp [Repeats, found]
      rw [again, Option.toList_some, (List.perm_append_singleton last _).nodup_iff, List.nodup_cons]
      exact and_comm

theorem distinctPositions : names.Nodup ↔ ∀ position, ¬ Repeats names position := by
  have whole := distinctBefore names names.length
  rw [List.take_length] at whole
  refine whole.trans ⟨fun before position again => ?_, fun never position _ => never position⟩
  have inside : position < names.length := by
    obtain ⟨name, _, here⟩ := again
    exact (List.getElem?_eq_some_iff.mp here).1
  exact before position inside again

def repeatsFrom (names : List String) (start : Nat) : Set Nat := {position | start ≤ position ∧ Repeats names position}

theorem repeatsHere (split : names = seen.reverse ++ name :: rest) : Repeats names seen.length ↔ name ∈ seen := by
  simp [Repeats, split]

theorem firstRepeatLeast (split : names = seen.reverse ++ rest) :
    (firstRepeat? seen rest = none → ∀ position, position ∉ repeatsFrom names seen.length) ∧
    ∀ name, firstRepeat? seen rest = some name →
      ∃ position, IsLeast (repeatsFrom names seen.length) position ∧ names[position]? = some name := by
  -- what was seen stands before the rest, so a name that was not seen leaves all repetitions to what follows it
  induction rest generalizing seen with
  | nil =>
    refine ⟨?_, nofun⟩
    rintro - position ⟨behind, name, _, here⟩
    obtain ⟨inside, _⟩ := List.getElem?_eq_some_iff.mp here
    simp [split] at inside
    omega
  | cons head rest ih =>
    have here := repeatsHere split
    rw [firstRepeat?]
    by_cases known : head ∈ seen
    · rw [if_pos (List.contains_iff_mem.mpr known)]
      refine ⟨nofun, fun name found => ?_⟩
      cases found
      refine ⟨seen.length, ⟨⟨Nat.le_refl _, here.mpr known⟩, fun position later => later.1⟩, ?_⟩
      simp [split]
    · rw [if_neg (by simpa using known)]
      have same : repeatsFrom names seen.length = repeatsFrom names (head :: seen).length := by
        ext position
        refine and_congr_left fun again => ⟨fun reached => Nat.lt_of_le_of_ne reached ?_, Nat.le_of_succ_le⟩
        rintro rfl
        exact known (here.mp again)
      rw [same]
      exact ih (by simp [split])

theorem repeatsFromStart (names : List String) : repeatsFrom names 0 = {position | Repeats names position} := by
  ext position
  exact and_iff_right (Nat.zero_le position)

theorem firstRepeatNone : firstRepeat? [] names = none ↔ names.Nodup := by
  have whole : names = [].reverse ++ names := rfl
  obtain ⟨passed, stopped⟩ := firstRepeatLeast whole
  rw [distinctPositions]
  constructor
  · intro none position again
    exact passed none position ⟨Nat.zero_le _, again⟩
  · intro never
    cases found : firstRepeat? [] names with
    | none => rfl
    | some name =>
      obtain ⟨position, least, _⟩ := stopped name found
      exact absurd least.1.2 (never position)

theorem firstRepeatSome : firstRepeat? [] names = some name ↔
    ∃ position, IsLeast {position | Repeats names position} position ∧ names[position]? = some name := by
  have whole : names = [].reverse ++ names := rfl
  obtain ⟨_, stopped⟩ := firstRepeatLeast whole
  rw [List.length_nil, repeatsFromStart] at stopped
  refine ⟨stopped name, ?_⟩
  rintro ⟨position, least, here⟩
  cases found : firstRepeat? [] names with
  | none => exact absurd least.1 (distinctPositions.mp (firstRepeatNone.mp found) position)
  | some other =>
    obtain ⟨first, leastToo, there⟩ := stopped other found
    rw [leastToo.unique least, here] at there
    exact there.symm

end Repeated

def Unnamed (m : Manifest) : Prop := ∀ c ∈ m.output.toList, c.toNat ∈ Text.whiteSpace

section Flaws
variable {m : Manifest} {name : String}

theorem flawEmpty : m.flaw? = some .emptyOutput ↔ m.Unnamed := by
  rw [Unnamed, ← Text.allBlankListed]
  unfold flaw?
  split <;> simp_all

theorem flawRepeated : m.flaw? = some (.repeatedModule name) ↔
    ¬ m.Unnamed ∧ firstRepeat? [] m.allModules = some name := by
  rw [Unnamed, ← Text.allBlankListed]
  unfold flaw?
  split <;> simp_all

theorem flawNone : m.flaw? = none ↔ ¬ m.Unnamed ∧ m.allModules.Nodup := by
  rw [Unnamed, ← Text.allBlankListed, ← firstRepeatNone]
  unfold flaw?
  split <;> simp_all

end Flaws

inductive Obtained (m : Manifest) : Prop where
  | parsed {text : String} (found : parse text = .ok m)
  | loaded {tree : FileTree} {path : String} (found : load tree path = .ok m)
  | resolved {tree : FileTree} {root : String} {asked : Option String} (found : lookup tree root asked = .ok m)

example : Obtained builtin :=
  .resolved (show lookup (FileTree.blank ["work"]) "." none = .ok builtin from if_neg (by decide +kernel))

section Accepted
variable {m : Manifest}

theorem parseFlawless {text : String} (found : parse text = .ok m) : m.flaw? = none := by
  unfold parse at found
  split at found
  · cases found
  · split at found
    · cases found
    · cases found
      assumption

theorem loadFlawless {tree : FileTree} {path : String} (found : load tree path = .ok m) : m.flaw? = none := by
  unfold load at found
  split at found
  · cases found
  · split at found
    · cases found
    · exact parseFlawless found

theorem builtinFlawless : builtin.flaw? = none := by decide +kernel

theorem Obtained.flawless (obtained : Obtained m) : m.flaw? = none := by
  cases obtained with
  | parsed found => exact parseFlawless found
  | loaded found => exact loadFlawless found
  | resolved found =>
    unfold lookup at found
    split at found
    · exact loadFlawless found
    · cases found
      exact builtinFlawless

theorem coreNotTest (distinct : m.allModules.Nodup) {name : String} (core : name ∈ m.coreModules) :
    m.isTest name = false := by
  have other : name ∉ m.testModules := List.disjoint_of_nodup_append distinct core
  simpa [isTest] using other

theorem testsLast (distinct : m.allModules.Nodup) : m.allModules.filter m.isTest = m.testModules := by
  have core : m.coreModules.filter m.isTest = [] :=
    List.filter_eq_nil_iff.mpr fun name listed => by simp [coreNotTest distinct listed]
  have tests : m.testModules.filter m.isTest = m.testModules :=
    List.filter_eq_self.mpr fun name listed => by simpa [isTest] using listed
  rw [allModules, List.filter_append, core, tests, List.nil_append]

end Accepted

theorem validExactly (m : Manifest) :
    (m.flaw? = some .emptyOutput ↔ m.Unnamed) ∧
    (∀ name, m.flaw? = some (.repeatedModule name) ↔ ¬ m.Unnamed ∧
      ∃ position, IsLeast {position | Repeats m.allModules position} position ∧
        m.allModules[position]? = some name) ∧
    ((∃ name, m.flaw? = some (.repeatedModule name)) ↔ ¬ m.Unnamed ∧ ∃ name, 2 ≤ m.allModules.count name) ∧
    (m.flaw? = none ↔ ¬ m.Unnamed ∧ ∀ name, m.allModules.count name ≤ 1) ∧
    (Obtained m → m.flaw? = none ∧ m.allModules.Nodup ∧
      (∀ name ∈ m.modulesFor false, m.isTest name = false) ∧
      m.modulesFor true = m.modulesFor false ++ (m.modulesFor true).filter m.isTest ∧
      ∀ name, m.isTest name = true → name ∈ m.modulesFor true) := by
  have once : m.allModules.Nodup ↔ ∀ name, m.allModules.count name ≤ 1 := List.nodup_iff_count_le_one
  refine ⟨flawEmpty, fun name => ?_, ?_, ?_, fun obtained => ?_⟩
  · rw [flawRepeated, firstRepeatSome]
  · simp only [flawRepeated, exists_and_left]
    refine and_congr_right fun _ => ?_
    rw [← Option.isSome_iff_exists, Option.isSome_iff_ne_none, Ne, firstRepeatNone, once]
    simp only [not_forall, Nat.not_le]
    rfl
  · rw [flawNone, once]
  · have distinct := (flawNone.mp obtained.flawless).2
    have whole : m.modulesFor true = m.allModules := rfl
    refine ⟨obtained.flawless, distinct, fun name => coreNotTest distinct, ?_, fun name test => ?_⟩
    · rw [whole, testsLast distinct]
      rfl
    · exact List.mem_append_right _ (List.contains_iff_mem.mp test)

end Manifest
end ScriptBundle
