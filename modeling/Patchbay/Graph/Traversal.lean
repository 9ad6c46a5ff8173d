import Patchbay.Graph.Edit
import Patchbay.Remaining

namespace Patchbay.Graph

/-! Depth-first walks over a graph.

`messageNodes` follows message connections and lists a node when it is reached.
`signalNodes` follows signal connections against their direction and lists a node
after its sources, so that the result is an order of evaluation wherever no feedback
loop forbids one; a loop is cut at the first node that is already on the path.
Both list every node once.
-/

theorem mem_ids_of_node? {graph : Graph} {id : String} {node : Node}
    (found : graph.node? id = some node) : id ∈ graph.ids := by
  unfold node? Table.get? at found
  unfold ids Table.keys
  generalize graph.slots.entries = entries at found
  induction entries with
  | nil => simp at found
  | cons entry rest ih =>
      obtain ⟨key, slot⟩ := entry
      by_cases same : id = key
      · simp [same]
      · have apart : (id == key) = false := beq_eq_false_iff_ne.mpr same
        rw [List.lookup_cons, apart] at found
        exact List.mem_cons_of_mem _ (ih found)

/-- Walks message connections from the pending nodes, the first of them first. -/
def walkMessages (graph : Graph) (pending order : List String) : Outcome (List String) :=
  match pending with
  | [] => .ok order
  | id :: rest =>
      if id ∈ order then walkMessages graph rest order
      else match _found : graph.node? id with
        | none => .error (.unknownNode id)
        | some node =>
            walkMessages graph (node.messageSinks.map Endpoint.node ++ rest) (order ++ [id])
termination_by (remaining graph.ids order, pending.length)
decreasing_by
  · exact Prod.Lex.right _ (by simp)
  · exact Prod.Lex.left _ _ (remaining_lt (mem_ids_of_node? _found) (by assumption) (by simp)
      (by simp +contextual))

/-- The nodes that messages from the roots reach, roots included, each listed when reached. -/
def messageNodes (graph : Graph) (roots : List String) : Outcome (List String) :=
  graph.walkMessages roots []

/-- Lists the sources of a node and then the node.  `path` holds the nodes whose sources are being
listed; a source on the path, a listed one and one that is not admitted are passed over. -/
def visitSignal (graph : Graph) (admits : Node → Bool) (path : List String) (id : String)
    (order : List String) : Outcome (List String) :=
  if id ∈ path ∨ id ∈ order then .ok order
  else match _found : graph.node? id with
    | none => .error (.unknownNode id)
    | some node => do
        let listed ← node.signalSources.foldlM (fun order source =>
          if source.node ∈ id :: path ∨ source.node ∈ order then pure order
          else do
            let sourceNode ← graph.node source.node
            if admits sourceNode then visitSignal graph admits (id :: path) source.node order
            else pure order) order
        return if id ∈ listed then listed else listed ++ [id]
termination_by remaining graph.ids path
decreasing_by
  refine remaining_lt (mem_ids_of_node? _found) ?_ (by simp) (by simp +contextual)
  intro onPath
  simp_all

/-- The nodes that the roots depend on through signals, roots included, each after its sources.
Only admitted sources are followed. -/
def signalNodesWhere (graph : Graph) (roots : List String) (admits : Node → Bool) :
    Outcome (List String) :=
  roots.foldlM (fun order id => graph.visitSignal admits [] id order) []

def signalNodes (graph : Graph) (roots : List String) : Outcome (List String) :=
  graph.signalNodesWhere roots fun _ => true

/-- The audio sinks, in natural order. -/
def pulling (graph : Graph) : List String :=
  (graph.sortedNodes.filter fun entry => entry.2.isPullingSignal).map Prod.fst

/-- The nodes that push messages, in natural order. -/
def pushing (graph : Graph) : List String :=
  (graph.sortedNodes.filter fun entry => entry.2.isPushingMessages).map Prod.fst

/-- Everything that can have an effect: what audio sinks depend on, then what pushed messages
reach.  Signal nodes come first, so that a source stands before its sinks even when a message
reaches a sink earlier. -/
def fullTraversal (graph : Graph) : Outcome (List String) := do
  let signal ← graph.signalNodes graph.pulling
  let message ← graph.messageNodes graph.pushing
  return Text.unique (signal ++ message)

end Patchbay.Graph
