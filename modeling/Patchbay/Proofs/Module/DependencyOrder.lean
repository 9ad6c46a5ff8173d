import Mathlib.Data.List.Pairwise
import Mathlib.Logic.Relation
import Patchbay.Proofs.Graph.SignalOrder
import Patchbay.Proofs.Module.Linking

namespace Patchbay.Library

open Patchbay.Graph (Precedes precedes_append_singleton)
open Relation (TransGen)

/-! The order in which modules are listed.

A module comes after what it depends on, unless a cycle makes that impossible.  The tasks ahead are a stack:
whatever is to be visited or listed, each module that waits behind it depends on it.  So when a module is
listed and something it depends on is marked but not listed, that is one of the modules that wait, and the two
lie on a cycle.  Definitions share a cycle through their name spaces, since a visit looks at nothing else.
-/

/-- Whether a module of one name space, among those given, depends on a definition of another. -/
def Uses (library : Library) (modules : List Module) (user used : String) : Prop :=
  ∃ module ∈ modules, module.namespaceName = user ∧ ∃ definition ∈ module.dependencies, ∃ other,
    library.get? definition = some other ∧ other.namespaceName = used

/-- Whether two name spaces lie on a cycle of dependencies. -/
def OnCycle (library : Library) (modules : List Module) (first second : String) : Prop :=
  TransGen (library.Uses modules) first second ∧ TransGen (library.Uses modules) second first

/-- The modules that roots lead to. -/
inductive Reaches (library : Library) (roots : List String) : Module → Prop where
  | root {definition : String} {module : Module} (listed : definition ∈ roots)
      (found : library.get? definition = some module) : Reaches library roots module
  | dependency {definition : String} {user module : Module} (reached : Reaches library roots user)
      (needed : definition ∈ user.dependencies) (found : library.get? definition = some module) :
      Reaches library roots module

/-- Modules in which everything that the roots and the modules themselves depend on is listed, each name
space once, and what a module depends on stands before it. -/
structure DependenciesFirst (library : Library) (roots : List String) (modules : List Module) : Prop where
  distinct : (modules.map Module.namespaceName).Nodup
  rooted : ∀ definition ∈ roots, ∀ root, library.get? definition = some root →
    root.namespaceName ∈ modules.map Module.namespaceName
  closed : ∀ module ∈ modules, ∀ definition ∈ module.dependencies, ∀ other,
    library.get? definition = some other → other.namespaceName ∈ modules.map Module.namespaceName
  ordered : ∀ module ∈ modules, ∀ definition ∈ module.dependencies, ∀ other,
    library.get? definition = some other →
      Precedes (modules.map Module.namespaceName) other.namespaceName module.namespaceName ∨
      library.OnCycle modules other.namespaceName module.namespaceName
  reached : ∀ module ∈ modules, library.Reaches roots module

variable {library : Library} {roots seen : List String} {tasks rest : List Task}
  {modules more ordered : List Module} {module other : Module} {definition user used : String}

theorem Uses.mono (grown : ∀ module ∈ modules, module ∈ more) (uses : library.Uses modules user used) :
    library.Uses more user used :=
  have ⟨module, member, rest⟩ := uses
  ⟨module, grown module member, rest⟩

theorem uses_of_dependency (member : module ∈ modules) (needed : definition ∈ module.dependencies)
    (found : library.get? definition = some other) :
    library.Uses modules module.namespaceName other.namespaceName :=
  ⟨module, member, rfl, definition, needed, other, found, rfl⟩

/-- The module that a task is about. -/
def Task.subject? (library : Library) : Task → Option Module
  | .visit definition => library.get? definition
  | .emit module => some module

theorem Task.module?_eq_some_iff {task : Task} : task.module? = some module ↔ task = .emit module := by
  cases task <;> simp [module?]

/-- What one task is about is needed by the module that waits at another. -/
def Task.NeededBy (library : Library) (modules : List Module) (ahead behind : Task) : Prop :=
  ∀ user, behind.module? = some user → ∀ used, ahead.subject? library = some used →
    TransGen (library.Uses modules) user.namespaceName used.namespaceName

/-! ## One step -/

/-- How the tasks and the modules in order hang together. -/
structure Arranging (library : Library) (roots : List String) (tasks : List Task) (seen : List String)
    (ordered : List Module) : Prop extends Settling library roots tasks seen ordered where
  /-- A module that waits depends on everything ahead of it. -/
  nested : tasks.Pairwise (Task.NeededBy library (met tasks ordered))
  /-- What a waiting module depends on is marked already, or it is visited first. -/
  awaited : ∀ module, .emit module ∈ tasks → ∀ definition ∈ module.dependencies, ∀ other,
    library.get? definition = some other →
      other.namespaceName ∈ seen ∨ [.visit definition, .emit module].Sublist tasks
  arranged : ∀ module ∈ ordered, ∀ definition ∈ module.dependencies, ∀ other,
    library.get? definition = some other →
      Precedes (ordered.map Module.namespaceName) other.namespaceName module.namespaceName ∨
      TransGen (library.Uses (met tasks ordered)) other.namespaceName module.namespaceName
  listed : ∀ module ∈ ordered, library.Reaches roots module
  leading : ∀ task ∈ tasks, ∀ module, task.subject? library = some module →
    library.Reaches roots module

theorem mem_met_iff : module ∈ met tasks ordered ↔ module ∈ ordered ∨ .emit module ∈ tasks := by
  simp [met, Task.module?_eq_some_iff]

namespace Arranging

theorem skip (arranging : Arranging library roots (.visit definition :: rest) seen ordered)
    (idle : ∀ other, library.get? definition = some other → other.namespaceName ∈ seen) :
    Arranging library roots rest seen ordered where
  toSettling := arranging.toSettling.skip idle
  nested := arranging.nested.of_cons
  awaited module waiting needed isNeeded other found := by
    rcases arranging.awaited module (List.mem_cons_of_mem _ waiting) needed isNeeded other found with
      isSeen | ahead
    · exact .inl isSeen
    · rcases List.sublist_cons_iff.mp ahead with later | ⟨_, same, _⟩
      · exact .inr later
      · cases same
        exact .inl (idle other found)
  arranged := arranging.arranged
  listed := arranging.listed
  leading task member := arranging.leading task (List.mem_cons_of_mem _ member)

/-- Whatever a module depends on is marked when its turn comes. -/
theorem dependency_seen (arranging : Arranging library roots (.emit module :: rest) seen ordered)
    (needed : definition ∈ module.dependencies) (found : library.get? definition = some other) :
    other.namespaceName ∈ seen := by
  refine (arranging.awaited module (List.mem_cons_self ..) definition needed other found).resolve_right ?_
  intro ahead
  have again : .emit module ∈ rest := by
    rcases List.sublist_cons_iff.mp ahead with later | ⟨_, same, _⟩
    · exact later.subset (by simp)
    · cases same
  -- then the module would wait twice
  have distinct := arranging.distinct
  rw [met_emit, met, List.map_append, List.map_append, List.nodup_append] at distinct
  refine distinct.2.2 module.namespaceName (by simp) module.namespaceName ?_ rfl
  exact List.mem_map_of_mem (List.mem_filterMap.mpr ⟨.emit module, again, rfl⟩)

/-- What a module depends on is listed when its turn comes, or it waits and depends on the module. -/
theorem dependency_placed (arranging : Arranging library roots (.emit module :: rest) seen ordered)
    (needed : definition ∈ module.dependencies) (found : library.get? definition = some other) :
    other.namespaceName ∈ ordered.map Module.namespaceName ∨
    TransGen (library.Uses (met (.emit module :: rest) ordered)) other.namespaceName
      module.namespaceName := by
  have isMet := (arranging.marked _).mp (arranging.dependency_seen needed found)
  obtain ⟨holder, held, same⟩ := List.mem_map.mp isMet
  rcases mem_met_iff.mp held with isListed | waiting
  · exact .inl (same ▸ List.mem_map_of_mem isListed)
  · refine .inr ?_
    rcases List.mem_cons.mp waiting with itself | below
    · cases itself
      have uses := uses_of_dependency held needed found
      rw [← same] at uses ⊢
      exact .single uses
    · rw [← same]
      exact List.rel_of_pairwise_cons arranging.nested below holder rfl module rfl

theorem emit (arranging : Arranging library roots (.emit module :: rest) seen ordered) :
    Arranging library roots rest seen (ordered ++ [module]) where
  toSettling := arranging.toSettling.emit
  nested := met_emit module rest ordered ▸ arranging.nested.of_cons
  awaited other waiting needed isNeeded used found := by
    refine (arranging.awaited other (List.mem_cons_of_mem _ waiting) needed isNeeded used found).imp_right ?_
    intro ahead
    rcases List.sublist_cons_iff.mp ahead with later | ⟨_, same, _⟩
    · exact later
    · cases same
  arranged user member needed isNeeded used found := by
    rw [← met_emit, List.map_append]
    rcases List.mem_append.mp member with earlier | itself
    · exact (arranging.arranged user earlier needed isNeeded used found).imp_left fun before =>
        before.mono (List.sublist_append_left ..)
    · cases List.mem_singleton.mp itself
      exact (arranging.dependency_placed isNeeded found).imp_left precedes_append_singleton
  listed := List.forall_mem_append.mpr ⟨arranging.listed,
    List.forall_mem_singleton.mpr (arranging.leading _ (List.mem_cons_self ..) module rfl)⟩
  leading task member := arranging.leading task (List.mem_cons_of_mem _ member)

/-- Opening a module takes nothing from what is met. -/
theorem depends_visit
    (depends : TransGen (library.Uses (met (.visit definition :: rest) ordered)) user used) :
    TransGen (library.Uses (met (module.dependencies.map .visit ++ .emit module :: rest) ordered))
      user used := by
  refine TransGen.mono (fun _ _ => Uses.mono fun other member => ?_) _ _ depends
  exact (Settling.met_visit_perm module definition rest ordered).mem_iff.mpr (List.mem_cons_of_mem _ member)

theorem depends_opened (needed : definition ∈ module.dependencies)
    (found : library.get? definition = some other) :
    TransGen (library.Uses (met (module.dependencies.map .visit ++ .emit module :: rest) ordered))
      module.namespaceName other.namespaceName :=
  .single (uses_of_dependency (mem_met_iff.mpr (.inr (by simp))) needed found)

/-- The module waits for its dependencies, and what waited for the visit waits for them through it. -/
theorem nested_visit (arranging : Arranging library roots (.visit definition :: rest) seen ordered)
    (found : library.get? definition = some module) :
    (module.dependencies.map Task.visit ++ .emit module :: rest).Pairwise (Task.NeededBy library
      (met (module.dependencies.map .visit ++ .emit module :: rest) ordered)) := by
  obtain ⟨below, nested⟩ := List.pairwise_cons.mp arranging.nested
  refine List.pairwise_append.mpr ⟨?_, List.pairwise_cons.mpr ⟨?_, ?_⟩, ?_⟩
  · refine List.pairwise_map.mpr (List.pairwise_of_forall fun _ _ user isUser => ?_)
    cases isUser
  · intro behind member user isUser used isUsed
    cases isUsed
    exact depends_visit (below behind member user isUser _ found)
  · exact nested.imp fun needed user isUser used isUsed => depends_visit (needed user isUser used isUsed)
  · intro ahead visits behind member user isUser used isUsed
    obtain ⟨needed, isNeeded, rfl⟩ := List.mem_map.mp visits
    rcases List.mem_cons.mp member with rfl | later
    · cases isUser
      exact depends_opened isNeeded isUsed
    · exact (depends_visit (below behind later user isUser _ found)).trans (depends_opened isNeeded isUsed)

theorem awaited_visit (arranging : Arranging library roots (.visit definition :: rest) seen ordered)
    (found : library.get? definition = some module) {user used : Module} {needed : String}
    (waiting : .emit user ∈ module.dependencies.map .visit ++ .emit module :: rest)
    (isNeeded : needed ∈ user.dependencies) (usedFound : library.get? needed = some used) :
    used.namespaceName ∈ module.namespaceName :: seen ∨
    [.visit needed, .emit user].Sublist (module.dependencies.map .visit ++ .emit module :: rest) := by
  have unopened : .emit user ∈ .emit module :: rest :=
    (List.mem_append.mp waiting).resolve_left fun visits => by simp at visits
  rcases List.mem_cons.mp unopened with itself | earlier
  · cases itself
    have visited : [Task.visit needed].Sublist (module.dependencies.map .visit) :=
      List.singleton_sublist.mpr (List.mem_map_of_mem isNeeded)
    have waits : [Task.emit module].Sublist (.emit module :: rest) :=
      List.singleton_sublist.mpr (List.mem_cons_self ..)
    exact .inr (visited.append waits)
  · rcases arranging.awaited user (List.mem_cons_of_mem _ earlier) needed isNeeded used usedFound with
      isSeen | ahead
    · exact .inl (List.mem_cons_of_mem _ isSeen)
    · rcases List.sublist_cons_iff.mp ahead with later | ⟨_, same, _⟩
      · exact .inr ((later.trans (List.sublist_cons_self ..)).trans (List.sublist_append_right ..))
      · cases same
        cases found.symm.trans usedFound
        exact .inl (List.mem_cons_self ..)

theorem visit (arranging : Arranging library roots (.visit definition :: rest) seen ordered)
    (found : library.get? definition = some module) (fresh : module.namespaceName ∉ seen) :
    Arranging library roots (module.dependencies.map .visit ++ .emit module :: rest)
      (module.namespaceName :: seen) ordered where
  toSettling := arranging.toSettling.visit found fresh
  nested := arranging.nested_visit found
  awaited _ waiting _ isNeeded _ usedFound := arranging.awaited_visit found waiting isNeeded usedFound
  arranged user member needed isNeeded used usedFound :=
    (arranging.arranged user member needed isNeeded used usedFound).imp_right depends_visit
  listed := arranging.listed
  leading := by
    have reaches := arranging.leading _ (List.mem_cons_self ..) module found
    refine List.forall_mem_append.mpr ⟨?_, List.forall_mem_cons.mpr ⟨?_, ?_⟩⟩
    · exact List.forall_mem_map.mpr fun needed isNeeded used usedFound =>
        reaches.dependency isNeeded usedFound
    · rintro _ ⟨⟩
      exact reaches
    · exact fun task member => arranging.leading task (List.mem_cons_of_mem _ member)

end Arranging

/-! ## A whole run -/

theorem arranging_roots (library : Library) (roots : List String) :
    Arranging library roots (roots.map .visit) [] [] := by
  have waits : ∀ module, .emit module ∉ roots.map Task.visit := fun module member => by simp at member
  refine ⟨settling_roots library roots, ?_, ?_, ?_, ?_, ?_⟩
  · refine List.pairwise_map.mpr (List.pairwise_of_forall fun _ _ user isUser => ?_)
    cases isUser
  · exact fun module waiting => absurd waiting (waits module)
  · exact fun module member => absurd member List.not_mem_nil
  · exact fun module member => absurd member List.not_mem_nil
  · exact List.forall_mem_map.mpr fun definition isRoot module found => .root isRoot found

/-- Whatever definitions refer to each other, a list of them comes out with all that it depends on, each name
space once and after what it depends on, unless the two lie on a cycle. -/
theorem flatten_puts_dependencies_first (library : Library) (roots : List String) :
    DependenciesFirst library roots (library.flatten roots) := by
  obtain ⟨seen, arranging⟩ := settle_invariant (fun _ _ _ _ => Arranging.emit)
    (fun _ _ _ _ => Arranging.skip) (fun _ _ _ _ _ => Arranging.visit) (arranging_roots library roots)
  have linked := library.flatten_linked roots
  have all : met [] (library.flatten roots) = library.flatten roots := by simp [met]
  refine ⟨linked.distinct, ?_, ?_, ?_, arranging.listed⟩
  · exact fun definition isRoot => linked.closed definition (.inl isRoot)
  · exact fun module member definition needed => linked.closed definition (.inr ⟨module, member, needed⟩)
  · intro module member definition needed other found
    refine (arranging.arranged module member definition needed other found).imp_right fun depends => ?_
    change TransGen (library.Uses (met [] (library.flatten roots))) _ _ at depends
    rw [all] at depends
    exact ⟨depends, .single (uses_of_dependency member needed found)⟩

example : (flatten (.ofList [("a", { namespaceName := "a", dependencies := ["b"] }),
    ("b", { namespaceName := "b", dependencies := ["a", "none"] })]) ["a", "b"]).map Module.namespaceName =
      ["b", "a"] := by
  cbv

end Patchbay.Library
