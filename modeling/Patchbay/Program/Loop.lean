import Patchbay.Program.Wiring

namespace Patchbay.Program

open Code (Sequence Part)

/-! The audio code of nodes.  Inline groups are composed into one expression that their reader
holds; every other member of a group gets a loop statement.
-/

/-- The audio code of a node. -/
structure Dsp where
  expression : Option Sequence
  loop : Option Sequence
  inlets : Table Sequence

def fillDsp (scope : Code.Scope) (template : DspTemplate) : Code.Fill Dsp := do
  let expression ← template.expression.mapM fun part => part.fillSequence scope
  let loop ← template.loop.mapM fun part => part.fillSequence scope
  let ids := Text.sortIds (template.inlets.map Prod.fst)
  let inlets ← ids.mapM fun id => do
    let statement ← ((template.inlets.lookup id).getD (.code [])).fillSequence scope
    return (id, statement)
  return { expression, loop, inlets := .ofList inlets }

/-- Generates the audio code of a node under what is known about its inlets. -/
def generateDsp (program : Program) (id : String) : Outcome (Node × Dsp × Program) := do
  let (scope, program) ← program.scopeOf id
  let type ← program.types.get scope.node.type
  match type.implementation.dsp with
  | none => throw (.missingDsp id scope.node.type)
  | some template =>
      let (dsp, program) ← program.fill (contextOf "dsp" scope.node)
        (fillDsp scope (template ⟨scope.node, program.settings⟩))
      return (scope.node, dsp, program)

/-- The text of a sequence that declares nothing. -/
def flatText : Sequence → Outcome String
  | [] => .ok ""
  | .text value :: rest => do
      let others ← flatText rest
      return value ++ others
  | part :: _ => .error (.declarationInExpression part.typeName)

def setInlet (program : Program) (id inlet code : String) : Program :=
  program.refineNode id fun entry => { entry with signalIns := entry.signalIns.set inlet code }

def without (members : List String) (id : String) : List String := members.filter (· ≠ id)

theorem length_without {members : List String} {id : String} (present : id ∈ members) :
    (without members id).length < members.length :=
  List.length_filter_lt_length_iff_exists.mpr ⟨id, present, by simp⟩

/-- The expression of a node with the expressions of its inlined sources in the place of their
variables.  A source is looked for among the members that are not being composed already. -/
def inlineExpression (program : Program) (members : List String) (id : String) :
    Outcome (String × Program) :=
  if _present : id ∈ members then do
    let node ← program.graph.node id
    let _ ← program.nodes.get id
    let others := without members id
    let feeds := (node.inletsOfType .signal).flatMap fun inlet =>
      (node.sourcesOf inlet.id).map fun source => (inlet.id, source.node)
    let program ← feeds.foldlM (fun program (inlet, source) =>
      if source ∈ others then do
        let (expression, program) ← inlineExpression program others source
        return program.setInlet id inlet ("(" ++ expression ++ ")")
      else return program) program
    let (node, dsp, program) ← program.generateDsp id
    match dsp.expression with
    | none => throw (.missingExpression id node.type)
    | some expression => do
        let text ← flatText expression
        return (text, program)
  else .error (.unknownNode id)
termination_by members.length
decreasing_by
  exact length_without _present

/-- Composes an inline group and hands the expression to the inlet that reads it. -/
def emitInlineGroup (program : Program) (group : DspGroup) : Outcome Program :=
  group.outNodes.head?.elim (.ok program) fun out => do
    let (expression, program) ← program.inlineExpression group.traversal out
    let node ← program.graph.node out
    match node.signalSinks with
    | [] => return program
    | sink :: _ => do
        let _ ← program.nodes.get sink.node
        return program.setInlet sink.node sink.portlet ("(" ++ expression ++ ")")

/-- Generates the loop statement of a node.  An expression is assigned to the first signal outlet. -/
def emitLoop (program : Program) (id : String) : Outcome Program := do
  let (node, dsp, program) ← program.generateDsp id
  match dsp.expression with
  | none => return program.refineNode id fun entry =>
      { entry with loop := dsp.loop, inlets := dsp.inlets }
  | some expression =>
      match node.outletsOfType .signal with
      | [] => throw (.expressionWithoutOutlet id node.type)
      | outlet :: _ => return program.refineNode id fun entry =>
          { entry with
            loop := some (Code.code [
              entry.signalOuts.getD outlet.id "", " = ", .sequence expression])
            inlets := ∅ }

def emitDsp (program : Program) : Outcome Program := do
  let program ← program.inlineDsp.foldlM emitInlineGroup program
  program.loopNodes.foldlM emitLoop program

end Patchbay.Program
