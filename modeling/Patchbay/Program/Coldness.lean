import Patchbay.Graph.Traversal

namespace Patchbay.Coldness

/-! Which nodes are cold.

A node is cold when its type is pure and all its signal sources are cold: its output
changes only when a message changes the state of a node it depends on.  A node on a
feedback path is not cold.  Answers are remembered, and a node is asked for at most
once on any path.
-/

/-- Answers that were found so far. -/
abbrev Memo := Table Bool

/-- Answers whether a node is cold; `path` holds the nodes whose sources are being asked for. -/
def visit (graph : Graph) (isPure : Node → Bool) (path : List String) (id : String) (memo : Memo) :
    Bool × Memo :=
  match memo.get? id with
  | some answer => (answer, memo)
  | none =>
      if id ∈ path then (false, memo)
      else match _found : graph.node? id with
        | none => (false, memo.set id false)
        | some node =>
            if isPure node then
              let (cold, memo) := node.signalSources.foldl (fun (state : Bool × Memo) source =>
                if state.1 then visit graph isPure (id :: path) source.node state.2 else state)
                (true, memo)
              (cold, memo.set id cold)
            else (false, memo.set id false)
termination_by remaining graph.ids path
decreasing_by
  exact remaining_lt (Graph.mem_ids_of_node? _found) (by assumption) (by simp) (by simp +contextual)

def query (graph : Graph) (isPure : Node → Bool) (id : String) (memo : Memo) : Bool × Memo :=
  visit graph isPure [] id memo

/-- The answers for all nodes of a graph. -/
def survey (graph : Graph) (isPure : Node → Bool) : Memo :=
  graph.sortedIds.foldl (fun memo id => (query graph isPure id memo).2) ∅

end Patchbay.Coldness
