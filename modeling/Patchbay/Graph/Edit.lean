import Patchbay.Fault

namespace Patchbay

/-! Building and changing graphs.

Every operation edits both records of a connection, so a graph that was built
here lists a connection at its sink exactly when it is listed at its source.
-/

namespace Node

def inlet (node : Node) (id : String) : Outcome Portlet :=
  match node.inlet? id with
  | some portlet => .ok portlet
  | none => .error (.unknownInlet id node.id)

def outlet (node : Node) (id : String) : Outcome Portlet :=
  match node.outlet? id with
  | some portlet => .ok portlet
  | none => .error (.unknownOutlet id node.id)

/-- The node with no connection. -/
def isolated (node : Node) : Node := { node with sources := ∅, sinks := ∅ }

end Node

namespace Endpoints

/-- Adds an endpoint at the end of the list under a portlet. -/
def add (table : Table (List Endpoint)) (portlet : String) (endpoint : Endpoint) :
    Table (List Endpoint) :=
  table.set portlet (table.getD portlet [] ++ [endpoint])

/-- Removes an endpoint from the list under a portlet, and the portlet when nothing is left. -/
def remove (table : Table (List Endpoint)) (portlet : String) (endpoint : Endpoint) :
    Table (List Endpoint) :=
  let left := (table.getD portlet []).filter (· ≠ endpoint)
  if left.isEmpty then table.erase portlet else table.set portlet left

/-- Keeps the endpoints on allowed nodes, and the portlets that still have one. -/
def restrict (allowed : List String) (table : Table (List Endpoint)) : Table (List Endpoint) :=
  (table.map fun _ endpoints => endpoints.filter fun endpoint => allowed.contains endpoint.node)
    |>.filter fun _ endpoints => !endpoints.isEmpty

end Endpoints

namespace Graph

def node (graph : Graph) (id : String) : Outcome Node :=
  match graph.node? id with
  | some node => .ok node
  | none => .error (.unknownNode id)

/-- The nodes with the given ids; the first unknown id is a fault. -/
def nodes (graph : Graph) (ids : List String) : Outcome (List Node) := ids.mapM graph.node

def modifyNode (graph : Graph) (id : String) (change : Node → Node) : Graph :=
  ⟨graph.slots.modify id (Option.map change)⟩

def add (graph : Graph) (candidate : Option Node) : Outcome Graph :=
  match candidate with
  | none => .error .nodeWithoutId
  | some node =>
      if node.id = "" then .error .nodeWithoutId
      else if graph.slots.contains node.id then .error (.duplicateNode node.id)
      else .ok ⟨graph.slots.set node.id (some node)⟩

/-- Records a connection at its source and at its sink. -/
def link (graph : Graph) (source sink : Endpoint) : Graph :=
  (graph.modifyNode source.node fun node =>
      { node with sinks := Endpoints.add node.sinks source.portlet sink})
    |>.modifyNode sink.node fun node =>
      { node with sources := Endpoints.add node.sources sink.portlet source }

/-- Connects an outlet to an inlet of the same type.  A connection that is already there stays as
it is; a signal inlet takes one source only. -/
def connect (graph : Graph) (source sink : Endpoint) : Outcome Graph := do
  let sourceNode ← graph.node source.node
  let sinkNode ← graph.node sink.node
  let outlet ← sourceNode.outlet source.portlet
  let inlet ← sinkNode.inlet sink.portlet
  if outlet.type ≠ inlet.type then
    throw (.typesDiffer outlet.type source inlet.type sink)
  let present := sinkNode.sourcesOf inlet.id
  if source ∈ present then return graph
  if inlet.type = .signal ∧ present ≠ [] then throw (.inletTaken sink)
  return graph.link source sink

/-- Removes a connection from both of its records. -/
def disconnect (graph : Graph) (source sink : Endpoint) : Outcome Graph := do
  let _ ← graph.node source.node
  let _ ← graph.node sink.node
  return (graph.modifyNode source.node fun node =>
      { node with sinks := Endpoints.remove node.sinks source.portlet sink })
    |>.modifyNode sink.node fun node =>
      { node with sources := Endpoints.remove node.sources sink.portlet source }

/-- Assembles a graph from nodes, whose own connections are dropped, and a connection list. -/
def build (nodes : List (Option Node)) (connections : List Connection) : Outcome Graph := do
  let unconnected ← nodes.foldlM (fun graph node => graph.add (node.map Node.isolated)) empty
  connections.foldlM (fun graph connection => graph.connect connection.source connection.sink)
    unconnected

/-- The graph restricted to some nodes, without the connections to any other. -/
def trim (graph : Graph) (keep : List String) : Graph :=
  ⟨(graph.slots.filter fun id _ => keep.contains id).map fun _ slot =>
    slot.map fun node =>
      { node with
        sources := Endpoints.restrict keep node.sources
        sinks := Endpoints.restrict keep node.sinks }⟩

end Graph

end Patchbay
