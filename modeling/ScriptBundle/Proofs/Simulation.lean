import ScriptBundle.Proofs.Gate
import ScriptBundle.Proofs.Operations

/-! One storage in place of another. If single accesses answer alike and leave storages that go on doing so, then
any run of accesses does, and so does every operation on a project, one after another. Only the paths that are
shown may differ. -/
namespace ScriptBundle
namespace Storage

inductive Call where
  | read (name : String)
  | isFile (name : String)
  | write (name text : String)
  | remove (name : String)
  | list
  deriving DecidableEq, Repr

inductive Reply where
  | text (outcome : Except AccessError (Option String))
  | present (answer : Bool)
  | written (outcome : Except AccessError Unit)
  | removed (outcome : Except AccessError Bool)
  | names (outcome : Except AccessError (List String))

def Call.Over (allowed : String → Prop) : Call → Prop
  | .read name | .isFile name | .write name _ | .remove name => allowed name
  | .list => True

instance (allowed : String → Prop) [DecidablePred allowed] : DecidablePred (Call.Over allowed)
  | .read name | .isFile name | .write name _ | .remove name => inferInstanceAs (Decidable (allowed name))
  | .list => inferInstanceAs (Decidable True)

def serve {σ : Type} [Storage σ] (s : σ) : Call → Reply × σ
  | .read name => (.text (read s name), s)
  | .isFile name => (.present (isFile s name), s)
  | .write name text =>
    match write s name text with
    | .error error => (.written (.error error), s)
    | .ok later => (.written (.ok ()), later)
  | .remove name =>
    match remove s name with
    | .error error => (.removed (.error error), s)
    | .ok (removed, later) => (.removed (.ok removed), later)
  | .list => (.names (list s), s)

def replies {σ : Type} [Storage σ] (s : σ) : List Call → List Reply
  | [] => []
  | call :: calls => (serve s call).1 :: replies (serve s call).2 calls

def served {σ : Type} [Storage σ] (s : σ) (calls : List Call) : σ :=
  calls.foldl (fun s call => (serve s call).2) s

structure Simulation {σ τ : Type} [Storage σ] [Storage τ] (Related : σ → τ → Prop) (allowed : String → Prop) :
    Prop where
  read {s : σ} {t : τ} (related : Related s t) {name : String} : allowed name →
    Storage.read s name = Storage.read t name
  isFile {s : σ} {t : τ} (related : Related s t) {name : String} : allowed name →
    Storage.isFile s name = Storage.isFile t name
  list {s : σ} {t : τ} (related : Related s t) : Storage.list s = Storage.list t
  write {s : σ} {t : τ} (related : Related s t) {name : String} (text : String) : allowed name →
    ∃ later other, Storage.write s name text = .ok later ∧ Storage.write t name text = .ok other ∧
      Related later other
  remove {s : σ} {t : τ} (related : Related s t) {name : String} : allowed name →
    ∃ removed later other, Storage.remove s name = .ok (removed, later) ∧
      Storage.remove t name = .ok (removed, other) ∧ Related later other

namespace Simulation
variable {σ τ : Type} [Storage σ] [Storage τ] {Related : σ → τ → Prop} {allowed : String → Prop} {s : σ} {t : τ}

theorem serve (sim : Simulation Related allowed) (related : Related s t) {call : Call} (permitted : call.Over allowed) :
    (Storage.serve s call).1 = (Storage.serve t call).1 ∧
      Related (Storage.serve s call).2 (Storage.serve t call).2 := by
  cases call with
  | read name => exact ⟨congrArg Reply.text (sim.read related permitted), related⟩
  | isFile name => exact ⟨congrArg Reply.present (sim.isFile related permitted), related⟩
  | list => exact ⟨congrArg Reply.names (sim.list related), related⟩
  | write name text =>
    obtain ⟨later, other, left, right, related⟩ := sim.write related text permitted
    rw [Storage.serve, Storage.serve, left, right]
    exact ⟨rfl, related⟩
  | remove name =>
    obtain ⟨removed, later, other, left, right, related⟩ := sim.remove related permitted
    rw [Storage.serve, Storage.serve, left, right]
    exact ⟨rfl, related⟩

theorem serveAll (sim : Simulation Related allowed) (related : Related s t) {calls : List Call}
    (permitted : ∀ call ∈ calls, call.Over allowed) :
    replies s calls = replies t calls ∧ Related (served s calls) (served t calls) := by
  induction calls generalizing s t with
  | nil => exact ⟨rfl, related⟩
  | cons call calls ih =>
    obtain ⟨answered, related⟩ := sim.serve related (permitted call List.mem_cons_self)
    obtain ⟨rest, ended⟩ := ih related fun call member => permitted call (List.mem_cons_of_mem _ member)
    exact ⟨by rw [replies, replies, answered, rest], ended⟩

theorem resolution (sim : Simulation Related allowed) (related : Related s t) {modules : List String}
    (names : ∀ name ∈ modules, allowed name) : Resolution.of s modules = Resolution.of t modules :=
  Resolution.ofAlike fun name listed => sim.read related (names name listed)

theorem verification (sim : Simulation Related allowed) (related : Related s t) {modules : List String}
    (names : ∀ name ∈ modules, allowed name) : Verification.of s modules = Verification.of t modules := by
  rw [Verification.of, Verification.of]
  refine congrArg (Verification.mk _) (List.filter_congr fun name listed => ?_)
  rw [sim.isFile related (names name listed)]

end Simulation
end Storage

namespace BuildReport

def pathless (report : BuildReport) : BuildReport := { report with outputPath := "" }

end BuildReport

namespace Project

def Answer.pathless : Answer → Answer
  | .built outcome => .built (outcome.map BuildReport.pathless)
  | answer => answer

def answers {σ : Type} [Storage σ] (p : Project σ) : List Operation → List Answer
  | [] => []
  | operation :: operations => (p.perform operation).1 :: answers (p.perform operation).2 operations

structure Twins {σ τ : Type} (Related : σ → τ → Prop) (allowed : String → Prop) (p : Project σ) (q : Project τ) :
    Prop where
  manifest : p.manifest = q.manifest
  storage : Related p.storage q.storage
  output : allowed p.manifest.output
  modules : ∀ name ∈ p.manifest.allModules, allowed name

namespace Twins
variable {σ τ : Type} [Storage σ] [Storage τ] {Related : σ → τ → Prop} {allowed : String → Prop}
  {p : Project σ} {q : Project τ}

variable (sim : Storage.Simulation Related allowed)
include sim

theorem load (twins : Twins Related allowed p q) (includeTests : Bool) :
    p.load (p.manifest.modulesFor includeTests) = q.load (q.manifest.modulesFor includeTests) := by
  have names : ∀ name ∈ p.manifest.modulesFor includeTests, allowed name := fun name listed =>
    twins.modules name ((Manifest.modulesForBegin p.manifest includeTests).subset listed)
  simp only [Project.load, ← twins.manifest, sim.resolution twins.storage names]

theorem assemble (twins : Twins Related allowed p q) (options : BuildOptions) (date : String) (cleaned : Bool) :
    p.assemble options date cleaned =
      (q.assemble options date cleaned).map fun report => { report with outputPath := p.outputPath } := by
  rw [Project.assemble, Project.assemble, twins.load sim]
  cases q.load (q.manifest.modulesFor options.includeTests) with
  | error error => rfl
  | ok resolution =>
    have scans : p.scan resolution.units = q.scan resolution.units := by rw [scan, scan, twins.manifest]
    have infos : p.info options date = q.info options date := by rw [info, info, twins.manifest]
    simp only [bind, Except.bind, scans, infos, twins.manifest]
    by_cases fails : (q.scan resolution.units).hasDuplicates = true
    · rw [if_pos fails, if_pos fails]
      rfl
    · rw [if_neg fails, if_neg fails]
      rfl

theorem publish (twins : Twins Related allowed p q) {report : BuildReport}
    (named : report.artifact.name = q.manifest.output) (path : String) :
    ∃ later other, p.publish { report with outputPath := path } = .ok later ∧ q.publish report = .ok other ∧
      Twins Related allowed later other := by
  have output : allowed report.artifact.name := by
    rw [named, ← twins.manifest]
    exact twins.output
  obtain ⟨later, other, left, right, related⟩ := sim.write twins.storage report.artifact.text output
  refine ⟨{ p with storage := later }, { q with storage := other }, ?_, ?_, ?_⟩
  · simp only [Project.publish, left]
  · simp only [Project.publish, right]
  · exact ⟨twins.manifest, related, twins.output, twins.modules⟩

theorem clean (twins : Twins Related allowed p q) :
    ∃ removed later other, p.clean = .ok (removed, later) ∧ q.clean = .ok (removed, other) ∧
      Twins Related allowed later other := by
  obtain ⟨removed, later, other, left, right, related⟩ := sim.remove twins.storage twins.output
  refine ⟨removed, { p with storage := later }, { q with storage := other }, ?_, ?_, ?_⟩
  · simp only [Project.clean, left]
  · simp only [Project.clean, ← twins.manifest, right]
  · exact ⟨twins.manifest, related, twins.output, twins.modules⟩

theorem cleanIfAsked (twins : Twins Related allowed p q) (options : BuildOptions) :
    ∃ removed later other, (if options.clean then p.clean else .ok (false, p)) = .ok (removed, later) ∧
      (if options.clean then q.clean else .ok (false, q)) = .ok (removed, other) ∧ Twins Related allowed later other := by
  cases options.clean with
  | true => exact twins.clean sim
  | false => exact ⟨false, p, q, rfl, rfl, twins⟩

theorem build (twins : Twins Related allowed p q) (options : BuildOptions) (date : String) :
    (p.build options date).1.map BuildReport.pathless = (q.build options date).1.map BuildReport.pathless ∧
      Twins Related allowed (p.build options date).2 (q.build options date).2 := by
  obtain ⟨removed, cleaned, other, left, right, next⟩ := twins.cleanIfAsked sim options
  simp only [Project.build, left, right, next.assemble sim]
  cases assembled : other.assemble options date removed with
  | error error => exact ⟨rfl, next⟩
  | ok report =>
    obtain ⟨units, composed, _⟩ := assembleUnits assembled
    have named : report.artifact.name = other.manifest.output := by rw [composed]; rfl
    obtain ⟨written, rewritten, left, right, last⟩ := next.publish sim named cleaned.outputPath
    simp only [Except.map, left, right]
    exact ⟨rfl, last⟩

theorem perform (twins : Twins Related allowed p q) (operation : Operation) :
    (p.perform operation).1.pathless = (q.perform operation).1.pathless ∧
      Twins Related allowed (p.perform operation).2 (q.perform operation).2 := by
  cases operation with
  | check =>
    have loaded : p.load p.manifest.allModules = q.load q.manifest.allModules := twins.load sim true
    have same : p.check = q.check := by
      rw [check, check, loaded]
      simp only [scan, twins.manifest]
    exact ⟨congrArg Answer.scanned same, twins⟩
  | verify includeTests =>
    have names : ∀ name ∈ p.manifest.modulesFor includeTests, allowed name := fun name listed =>
      twins.modules name ((Manifest.modulesForBegin p.manifest includeTests).subset listed)
    have verified : p.verify includeTests = q.verify includeTests := by
      rw [verify, verify, ← twins.manifest, sim.verification twins.storage names]
    have unlisted : p.unlisted = q.unlisted := by
      simp only [Project.unlisted, unlistedDiagnostics, unlistedFiles, sim.list twins.storage, twins.manifest]
    exact ⟨congrArg₂ Answer.verified verified unlisted, twins⟩
  | orderWarnings =>
    have same : p.orderWarnings = q.orderWarnings := by rw [orderWarnings, orderWarnings, twins.manifest]
    exact ⟨congrArg Answer.warned same, twins⟩
  | clean =>
    obtain ⟨removed, cleaned, other, left, right, next⟩ := twins.clean sim
    rw [Project.perform, Project.perform, left, right]
    exact ⟨rfl, next⟩
  | build options date =>
    obtain ⟨answered, next⟩ := twins.build sim options date
    exact ⟨congrArg Answer.built answered, next⟩

theorem performAll (twins : Twins Related allowed p q) (operations : List Operation) :
    (p.answers operations).map Answer.pathless = (q.answers operations).map Answer.pathless ∧
      Twins Related allowed (p.after operations) (q.after operations) := by
  induction operations generalizing p q with
  | nil => exact ⟨rfl, twins⟩
  | cons operation operations ih =>
    obtain ⟨answered, next⟩ := twins.perform sim operation
    obtain ⟨rest, last⟩ := ih next
    exact ⟨by rw [answers, answers, List.map_cons, List.map_cons, answered, rest], last⟩

end Twins
end Project
end ScriptBundle
