import Patchbay.Code.Template
import Patchbay.Remaining
import Patchbay.Settings

namespace Patchbay

/-! Runtime modules: code that generated programs share, each in a name space of its own.

A library holds definitions by name, and definitions refer to each other by name.
Programs identify a module by its name space, so of two definitions that claim one
name space only the first that is met is used.
-/

structure Module where
  namespaceName : String
  /-- The definitions this one uses; a name that no definition has is ignored. -/
  dependencies : List String := []
  code : Option (Settings → Code.Template) := none
  /-- Keys of the name space that the host can see. -/
  exports : List String := []
  /-- Functions that the host provides, under keys of the name space. -/
  imports : Option (Settings → List Code.FunctionTemplate) := none

abbrev Library := Table Module

namespace Library

/-- What is left to do while modules are put in order. -/
inductive Task where
  | visit (definition : String)
  | emit (module : Module)

theorem mem_values_of_get? {α : Type u} {table : Table α} {key : String} {value : α}
    (found : table.get? key = some value) : value ∈ table.values := by
  unfold Table.get? at found
  unfold Table.values
  generalize table.entries = entries at found
  induction entries with
  | nil => simp at found
  | cons entry rest ih =>
      obtain ⟨other, held⟩ := entry
      by_cases same : key = other
      · subst same
        simp at found
        simp [found]
      · have apart : (key == other) = false := beq_eq_false_iff_ne.mpr same
        rw [List.lookup_cons, apart] at found
        exact List.mem_cons_of_mem _ (ih found)

def namespaces (library : Library) : List String := library.values.map Module.namespaceName

/-- Works tasks off from first to last.  A module is marked as seen when it is met and put into the
result after its dependencies. -/
def settle (library : Library) (tasks : List Task) (seen : List String) (ordered : List Module) :
    List Module :=
  match tasks with
  | [] => ordered
  | .emit module :: rest => settle library rest seen (ordered ++ [module])
  | .visit definition :: rest =>
      match found : library.get? definition with
      | none => settle library rest seen ordered
      | some module =>
          if module.namespaceName ∈ seen then settle library rest seen ordered
          else settle library (module.dependencies.map .visit ++ .emit module :: rest)
            (module.namespaceName :: seen) ordered
termination_by (remaining library.namespaces seen, tasks.length)
decreasing_by
  · exact Prod.Lex.right _ (by simp)
  · exact Prod.Lex.right _ (by simp)
  · exact Prod.Lex.right _ (by simp)
  · exact Prod.Lex.left _ _ (remaining_lt (List.mem_map_of_mem (mem_values_of_get? found))
      (by assumption) (by simp) (by simp +contextual))

/-- The named definitions and all they depend on, dependencies first, each name space once. -/
def flatten (library : Library) (roots : List String) : List Module :=
  library.settle (roots.map .visit) [] []

end Library

namespace Code.Template

/-- A function with typed arguments, written type first. -/
def fn (name : Template) (args : List (String × String)) (result : String)
    (body : List Template := []) : Template :=
  .func name (args.map fun slot => (.text slot.1, .text slot.2, none)) (.text result) body

/-- Hands out names of the own name space ahead of their use. -/
def reserve (keys : List String) : Template := .ahead (keys.map .own)

end Code.Template

/-- An empty map, with its types where the target has them. -/
def newMap (settings : Settings) (key value : String) : Code.Template :=
  if settings.isAssemblyScript then .text ("new Map<" ++ key ++ ", " ++ value ++ ">()")
  else .text "new Map()"

end Patchbay
