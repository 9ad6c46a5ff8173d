import Patchbay.Program.Basic

namespace Patchbay.Program

open Code (Function)

/-! Setup code and the bodies of message receivers.  Both come last, since both may refer to any
name of the program.
-/

def fillReceivers (scope : Code.Scope) (templates : List (String × Option Code.FunctionTemplate)) :
    Code.Fill (Table Function) := do
  let ids := Text.sortIds (templates.map Prod.fst)
  let filled ← ids.mapM fun id => do
    match (templates.lookup id).join with
    | none => return none
    | some template =>
        let function ← template.fill scope
        return some (id, function)
  return .ofList (filled.filterMap id)

/-- Gives a reserved receiver the body that was generated for it. -/
def completeReceiver (program : Program) (id : String) (node : Node) (generated : Table Function)
    (inlet : String) : Outcome Program := do
  let entry ← program.nodes.get id
  let placeholder ← entry.receivers.get inlet
  match generated.get? inlet with
  | none => throw (.missingReceiver id node.type inlet)
  | some function =>
      if !placeholder.sameSignature function then
        throw (.signatureMismatch id node.type inlet)
      return program.refineNode id fun entry =>
        { entry with receivers := entry.receivers.refine inlet fun receiver =>
            { receiver with body := function.body } }

def completeNode (program : Program) (id : String) : Outcome Program := do
  let (scope, program) ← program.scopeOf id
  let node := scope.node
  let site : Site := ⟨node, program.settings⟩
  let type ← program.types.get node.type
  let program ← match type.implementation.initialization with
    | none => pure program
    | some template => do
        let (code, program) ← program.fill (contextOf "initialization" node)
          ((template site).fillSequence scope)
        pure (program.refineNode id fun entry => { entry with initialization := some code })
  let entry ← program.nodes.get id
  if entry.receivers.size = 0 then return program
  match type.implementation.receivers with
  | none => throw (.missingReceivers id node.type)
  | some templates => do
      let (generated, program) ← program.fill (contextOf "message receivers" node)
        (fillReceivers scope (templates site))
      entry.receivers.keys.foldlM (fun program inlet =>
        program.completeReceiver id node generated inlet) program

def completeNodes (program : Program) : Outcome Program :=
  program.fullTraversal.foldlM completeNode program

end Patchbay.Program
