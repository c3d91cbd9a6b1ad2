import Mathlib.Data.List.Basic
import Mathlib.Logic.Relation
import ScriptBundle.Project

/-! What a load order without warnings is good for. A warning is about one declared dependency at one place
of the list, but what holds of single dependencies holds along chains of them: the first place of a unit
goes down with every step, so a chain never leaves the list, never comes back, and never gets from a core
module to a test module. -/
namespace ScriptBundle
namespace LoadOrder
open Relation

def Warning.unit : Warning → String
  | notListed unit _ => unit
  | loadedLater unit _ _ _ => unit

def Needs (dependencies : Table (List String)) (unit dependency : String) : Prop :=
  ∃ needed, dependencies.find? unit = some needed ∧ dependency ∈ needed

section Edges
variable {modules : List String} {unit dependency : String} {place : Nat}

theorem firstPlace (modules : List String) (name : String) :
    modules.findIdx? (· = name) = if name ∈ modules then some (modules.idxOf name) else none := by
  induction modules with
  | nil => rfl
  | cons head rest ih =>
    by_cases same : head = name
    · simp [List.findIdx?_cons, same]
    · have other : name ≠ head := Ne.symm same
      rw [List.findIdx?_cons, ih, List.idxOf_cons_ne _ same]
      by_cases member : name ∈ rest <;> simp [same, other, member]

theorem edgePasses : edge? modules unit place dependency = none ↔
    dependency ∈ modules ∧ modules.idxOf dependency < place := by
  rw [edge?, firstPlace]
  by_cases member : dependency ∈ modules
  · by_cases later : place ≤ modules.idxOf dependency
    · simp [member, later]
    · simp [member, later, Nat.lt_of_not_le later]
  · simp [member]

theorem edgeUnit {warning : Warning} (found : edge? modules unit place dependency = some warning) :
    warning.unit = unit := by
  unfold edge? at found
  split at found
  · cases found
    rfl
  · split at found
    · cases found
      rfl
    · cases found

end Edges

section Warnings
variable {modules : List String} {dependencies : Table (List String)} {unit dependency : String} {place : Nat}

theorem warningsMember {warning : Warning} : warning ∈ warnings modules dependencies ↔
    ∃ place unit dependency, modules[place]? = some unit ∧ Needs dependencies unit dependency ∧
      edge? modules unit place dependency = some warning := by
  unfold warnings Needs
  simp only [List.mem_flatMap, List.mem_filterMap, Prod.exists, List.mk_mem_zipIdx_iff_getElem?]
  constructor
  · rintro ⟨unit, place, listed, dependency, declared, found⟩
    cases table : dependencies.find? unit with
    | none => simp [table] at declared
    | some needed => exact ⟨place, unit, dependency, listed, ⟨needed, table, by simpa [table] using declared⟩, found⟩
  · rintro ⟨place, unit, dependency, listed, ⟨needed, table, declared⟩, found⟩
    exact ⟨unit, place, listed, dependency, by simpa [table] using declared, found⟩

theorem quietNeeds (quiet : ∀ warning ∈ warnings modules dependencies, warning.unit ≠ unit)
    (listed : modules[place]? = some unit) (needs : Needs dependencies unit dependency) :
    dependency ∈ modules ∧ modules.idxOf dependency < place := by
  cases found : edge? modules unit place dependency with
  | none => exact edgePasses.mp found
  | some warning =>
    have warned := warningsMember.mpr ⟨place, unit, dependency, listed, needs, found⟩
    exact absurd (edgeUnit found) (quiet warning warned)

theorem quietReaches {start stop : String}
    (quiet : ∀ warning ∈ warnings modules dependencies,
      ReflTransGen (Needs dependencies) start warning.unit →
        ¬ ReflTransGen (Needs dependencies) warning.unit stop)
    (listed : modules[place]? = some start) (chain : TransGen (Needs dependencies) start dependency)
    (onward : ReflTransGen (Needs dependencies) dependency stop) :
    dependency ∈ modules ∧ modules.idxOf dependency < place := by
  have still (unit : String) (reached : ReflTransGen (Needs dependencies) start unit)
      (leads : ReflTransGen (Needs dependencies) unit stop) :
      ∀ warning ∈ warnings modules dependencies, warning.unit ≠ unit := by
    rintro warning member rfl
    exact quiet warning member reached leads
  -- nothing is said about the units on the way; the induction carries the first place of the one reached so far
  induction chain with
  | single needs => exact quietNeeds (still start .refl (.head needs onward)) listed needs
  | @tail unit _ chain needs ih =>
    obtain ⟨member, before⟩ := ih (.head needs onward)
    have first : modules[modules.idxOf unit]? = some unit := List.getElem?_idxOf member
    obtain ⟨found, lower⟩ := quietNeeds (still unit chain.to_reflTransGen (.head needs onward)) first needs
    exact ⟨found, Nat.lt_trans lower before⟩

theorem cycleWarned (listed : unit ∈ modules) (cycle : TransGen (Needs dependencies) unit unit) :
    ∃ warning ∈ warnings modules dependencies, ReflTransGen (Needs dependencies) unit warning.unit ∧
      ReflTransGen (Needs dependencies) warning.unit unit := by
  by_contra silent
  have quiet : ∀ warning ∈ warnings modules dependencies,
      ReflTransGen (Needs dependencies) unit warning.unit → ¬ ReflTransGen (Needs dependencies) warning.unit unit :=
    fun warning member reached leads => silent ⟨warning, member, reached, leads⟩
  exact Nat.lt_irrefl _ (quietReaches quiet (List.getElem?_idxOf listed) cycle .refl).2

theorem unlistedWarned (listed : unit ∈ modules) (needs : Needs dependencies unit dependency)
    (missing : dependency ∉ modules) : .notListed unit dependency ∈ warnings modules dependencies := by
  refine warningsMember.mpr ⟨modules.idxOf unit, unit, dependency, List.getElem?_idxOf listed, needs, ?_⟩
  simp [edge?, firstPlace, missing]

end Warnings
end LoadOrder

namespace Project
open LoadOrder Relation

theorem orderedWithoutWarnings {σ : Type} [Storage σ] (p : Project σ) :
    let modules := p.manifest.allModules
    let needs := Needs p.manifest.dependencies
    (p.orderWarnings = [] →
      (∀ unit ∈ modules, ∀ dependency, TransGen needs unit dependency →
        dependency ∈ modules ∧
          ∀ place, modules[place]? = some unit → modules.idxOf dependency < place) ∧
      (∀ unit ∈ modules, ∀ dependency, ReflTransGen needs unit dependency →
        ¬ TransGen needs dependency dependency) ∧
      ∀ unit ∈ p.manifest.coreModules, ∀ dependency, TransGen needs unit dependency →
        dependency ∈ p.manifest.modulesFor false) ∧
    (∀ unit ∈ modules, TransGen needs unit unit → ∃ warning ∈ p.orderWarnings,
      ReflTransGen needs unit warning.unit ∧ ReflTransGen needs warning.unit unit) ∧
    ∀ unit ∈ modules, ∀ dependency, needs unit dependency → dependency ∉ modules →
      .notListed unit dependency ∈ p.orderWarnings := by
  intro modules needs
  refine ⟨fun none => ?_, fun unit listed cycle => cycleWarned listed cycle,
    fun unit listed dependency needed missing => unlistedWarned listed needed missing⟩
  have quiet (start stop : String) : ∀ warning ∈ warnings modules p.manifest.dependencies,
      ReflTransGen needs start warning.unit → ¬ ReflTransGen needs warning.unit stop := by
    intro warning member
    have nothing : warnings modules p.manifest.dependencies = [] := none
    rw [nothing] at member
    cases member
  have before {unit dependency : String} {place : Nat} (listed : modules[place]? = some unit)
      (chain : TransGen needs unit dependency) :
      dependency ∈ modules ∧ modules.idxOf dependency < place :=
    quietReaches (quiet unit dependency) listed chain .refl
  refine ⟨fun unit listed dependency chain => ?_, fun unit listed dependency reached cycle => ?_,
    fun unit core dependency chain => ?_⟩
  · exact ⟨(before (List.getElem?_idxOf listed) chain).1, fun place found => (before found chain).2⟩
  · have member : dependency ∈ modules := by
      rcases reflTransGen_iff_eq_or_transGen.mp reached with rfl | chain
      · exact listed
      · exact (before (List.getElem?_idxOf listed) chain).1
    exact Nat.lt_irrefl _ (before (List.getElem?_idxOf member) cycle).2
  · -- A core module stands among the first places, and so does all that comes before it.
    have inCore : modules.idxOf unit < p.manifest.coreModules.length := by
      rw [show modules.idxOf unit = p.manifest.coreModules.idxOf unit from List.idxOf_append_of_mem core]
      exact List.idxOf_lt_length_of_mem core
    have listed : unit ∈ modules := List.mem_append_left _ core
    obtain ⟨member, lower⟩ := before (List.getElem?_idxOf listed) chain
    have place : modules[modules.idxOf dependency]? = some dependency := List.getElem?_idxOf member
    have early : modules.idxOf dependency < p.manifest.coreModules.length := Nat.lt_trans lower inCore
    rw [show modules[modules.idxOf dependency]? = p.manifest.coreModules[modules.idxOf dependency]? from
      List.getElem?_append_left early] at place
    exact List.mem_of_getElem? place

example : LoadOrder.warnings Manifest.builtin.allModules Manifest.builtin.dependencies = [] := by
  decide +kernel

end Project
end ScriptBundle
