import Mathlib.Data.List.Perm.Basic
import Patchbay.Module.Library

namespace Patchbay.Library

/-! What a library makes of a list of definitions.

The modules that are met come out once for each name space, with everything that they depend on.  The
invariant speaks about the modules that are done or under way: what they depend on is met already or
still to be visited.
-/

variable {library : Library} {roots seen : List String} {tasks rest : List Task}
  {ordered : List Module} {module : Module} {definition : String}

def Task.module? : Task → Option Module
  | .emit module => some module
  | .visit _ => none

/-- The modules that were met: those in order, then those that wait for their dependencies. -/
def met (tasks : List Task) (ordered : List Module) : List Module :=
  ordered ++ tasks.filterMap Task.module?

theorem met_emit (module : Module) (rest : List Task) (ordered : List Module) :
    met (.emit module :: rest) ordered = met rest (ordered ++ [module]) := by
  simp [met, Task.module?]

/-- Modules that a library lists, once for each name space, with what they and the roots depend on. -/
structure Linked (library : Library) (roots : List String) (modules : List Module) : Prop where
  distinct : (modules.map Module.namespaceName).Nodup
  known : ∀ module ∈ modules, ∃ definition, library.get? definition = some module
  closed : ∀ definition, (definition ∈ roots ∨ ∃ module ∈ modules, definition ∈ module.dependencies) →
    ∀ other, library.get? definition = some other →
      other.namespaceName ∈ modules.map Module.namespaceName

/-- What every step keeps holds when no task is left.  A module is put into the result, or a visit leads
nowhere new, or it opens a module. -/
theorem settle_invariant {Invariant : List Task → List String → List Module → Prop}
    (emit : ∀ module rest seen ordered, Invariant (.emit module :: rest) seen ordered →
      Invariant rest seen (ordered ++ [module]))
    (skip : ∀ definition rest seen ordered, Invariant (.visit definition :: rest) seen ordered →
      (∀ other, library.get? definition = some other → other.namespaceName ∈ seen) →
      Invariant rest seen ordered)
    (visit : ∀ definition rest seen ordered module, Invariant (.visit definition :: rest) seen ordered →
      library.get? definition = some module → module.namespaceName ∉ seen →
      Invariant (module.dependencies.map .visit ++ .emit module :: rest)
        (module.namespaceName :: seen) ordered)
    (start : Invariant tasks seen ordered) :
    ∃ seen', Invariant [] seen' (library.settle tasks seen ordered) := by
  induction tasks, seen, ordered using settle.induct library with
  | case1 seen ordered =>
      rw [Library.settle]
      exact ⟨seen, start⟩
  | case2 seen ordered module rest ih =>
      rw [Library.settle]
      exact ih (emit _ _ _ _ start)
  | case3 seen ordered definition rest missing ih =>
      rw [Library.settle]
      split
      · exact ih (skip _ _ _ _ start fun other found => by simp [missing] at found)
      · next other found => simp [missing] at found
  | case4 seen ordered definition rest module found known ih =>
      rw [Library.settle]
      split
      · next missing => simp [missing] at found
      · next other again =>
        cases found.symm.trans again
        rw [if_pos known]
        exact ih (skip _ _ _ _ start fun other found' => by cases found.symm.trans found'; exact known)
  | case5 seen ordered definition rest module found fresh ih =>
      rw [Library.settle]
      split
      · next missing => simp [missing] at found
      · next other again =>
        cases found.symm.trans again
        rw [if_neg fresh]
        exact ih (visit _ _ _ _ _ start found fresh)

structure Settling (library : Library) (roots : List String) (tasks : List Task)
    (seen : List String) (ordered : List Module) : Prop where
  distinct : ((met tasks ordered).map Module.namespaceName).Nodup
  known : ∀ module ∈ met tasks ordered, ∃ definition, library.get? definition = some module
  marked : ∀ namespaceName, namespaceName ∈ seen ↔
    namespaceName ∈ (met tasks ordered).map Module.namespaceName
  closed : ∀ definition,
    (definition ∈ roots ∨ ∃ module ∈ met tasks ordered, definition ∈ module.dependencies) →
    ∀ other, library.get? definition = some other →
      other.namespaceName ∈ seen ∨ .visit definition ∈ tasks

namespace Settling

theorem finish (settling : Settling library roots [] seen ordered) :
    Linked library roots ordered where
  distinct := by simpa [met] using settling.distinct
  known := by simpa [met] using settling.known
  closed definition asked other found := by
    have isMet := (settling.marked other.namespaceName).mp
      ((settling.closed definition (by simpa [met] using asked) other found).resolve_right (by simp))
    simpa [met] using isMet

/-- What was met is the same, and only a visit that leads nowhere new was dropped. -/
theorem skip (settling : Settling library roots (.visit definition :: rest) seen ordered)
    (idle : ∀ other, library.get? definition = some other → other.namespaceName ∈ seen) :
    Settling library roots rest seen ordered where
  distinct := settling.distinct
  known := settling.known
  marked := settling.marked
  closed asked isAsked other found := by
    rcases settling.closed asked isAsked other found with isSeen | waiting
    · exact .inl isSeen
    · rcases List.mem_cons.mp waiting with same | later
      · cases same
        exact .inl (idle other found)
      · exact .inr later

theorem emit (settling : Settling library roots (.emit module :: rest) seen ordered) :
    Settling library roots rest seen (ordered ++ [module]) := by
  have same := (met_emit module rest ordered).symm
  refine ⟨same ▸ settling.distinct, same ▸ settling.known, same ▸ settling.marked, ?_⟩
  intro definition asked other found
  rw [same] at asked
  refine (settling.closed definition asked other found).imp_right fun waiting => ?_
  simpa using waiting

theorem met_visit_perm (module : Module) (definition : String) (rest : List Task)
    (ordered : List Module) : (met (module.dependencies.map .visit ++ .emit module :: rest) ordered).Perm
      (module :: met (.visit definition :: rest) ordered) := by
  have none : (module.dependencies.map Task.visit).filterMap Task.module? = [] := by
    simp [Task.module?, Function.comp_def]
  simp only [met, List.filterMap_append, none, List.nil_append, List.filterMap_cons, Task.module?]
  exact List.perm_middle

theorem visit (settling : Settling library roots (.visit definition :: rest) seen ordered)
    (found : library.get? definition = some module) (fresh : module.namespaceName ∉ seen) :
    Settling library roots (module.dependencies.map .visit ++ .emit module :: rest)
      (module.namespaceName :: seen) ordered := by
  have perm := met_visit_perm module definition rest ordered
  refine ⟨?_, ?_, ?_, ?_⟩
  · refine (perm.map Module.namespaceName).nodup_iff.mpr (List.nodup_cons.mpr ⟨?_, settling.distinct⟩)
    exact fun member => fresh ((settling.marked _).mpr member)
  · intro other member
    rcases List.mem_cons.mp (perm.mem_iff.mp member) with rfl | earlier
    · exact ⟨definition, found⟩
    · exact settling.known other earlier
  · intro namespaceName
    rw [(perm.map Module.namespaceName).mem_iff, List.map_cons, List.mem_cons, List.mem_cons,
      settling.marked]
  · intro asked isAsked other otherFound
    have before : (asked ∈ roots ∨ ∃ module ∈ met (.visit definition :: rest) ordered,
        asked ∈ module.dependencies) ∨ asked ∈ module.dependencies := by
      simp only [perm.mem_iff, List.mem_cons, exists_eq_or_imp] at isAsked
      rcases isAsked with isRoot | own | isNeeded
      · exact .inl (.inl isRoot)
      · exact .inr own
      · exact .inl (.inr isNeeded)
    rcases before with earlier | own
    · rcases settling.closed asked earlier other otherFound with isSeen | waiting
      · exact .inl (List.mem_cons_of_mem _ isSeen)
      · rcases List.mem_cons.mp waiting with same | later
        · cases same
          rw [found] at otherFound
          cases otherFound
          exact .inl (List.mem_cons_self ..)
        · exact .inr (List.mem_append_right _ (List.mem_cons_of_mem _ later))
    · exact .inr (List.mem_append_left _ (List.mem_map_of_mem own))

theorem settle (settling : Settling library roots tasks seen ordered) :
    Linked library roots (library.settle tasks seen ordered) :=
  have ⟨_, settled⟩ := settle_invariant (fun _ _ _ _ => emit) (fun _ _ _ _ => skip)
    (fun _ _ _ _ _ => visit) settling
  settled.finish

end Settling

theorem settling_roots (library : Library) (roots : List String) :
    Settling library roots (roots.map .visit) [] [] := by
  have none : (roots.map Task.visit).filterMap Task.module? = [] := by
    simp [Task.module?, Function.comp_def]
  refine ⟨?_, ?_, ?_, ?_⟩
  · simp [met, none]
  · simp [met, none]
  · simp [met, none]
  · intro definition asked other _
    simp only [met, none, List.append_nil, List.not_mem_nil, false_and, exists_false, or_false] at asked
    exact .inr (List.mem_map_of_mem asked)

theorem flatten_linked (library : Library) (roots : List String) :
    Linked library roots (library.flatten roots) :=
  (settling_roots library roots).settle

end Patchbay.Library
