import Patchbay.Table
import Patchbay.Text.NaturalOrder
import Patchbay.Value

namespace Patchbay

/-! Patch graphs.

A node has inlets and outlets, each of which carries either an audio signal or
discrete messages.  A connection is recorded twice: the source lists the inlet
under its outlet, and the sink lists the outlet under its inlet.  A graph stores
nodes under ids; a slot may be reserved and hold no node, and nothing in the type
says that a node is stored under its own id.
-/

inductive PortletType where
  | signal
  | message
  | unknown (name : String)
deriving DecidableEq, Repr, Inhabited

namespace PortletType

def ofName : String → PortletType
  | "signal" => .signal
  | "message" => .message
  | name => .unknown name

def name : PortletType → String
  | .signal => "signal"
  | .message => "message"
  | .unknown name => name

end PortletType

structure Portlet where
  id : String
  type : PortletType
deriving DecidableEq, Repr, Inhabited

/-- One portlet of one node. -/
structure Endpoint where
  node : String
  portlet : String
deriving DecidableEq, Repr, Inhabited

/-- A directed edge from an outlet to an inlet. -/
structure Connection where
  source : Endpoint
  sink : Endpoint
deriving DecidableEq, Repr, Inhabited

structure Node where
  id : String
  type : String
  args : Option (Table Value) := none
  inlets : List Portlet := []
  outlets : List Portlet := []
  /-- The outlets that feed each inlet. -/
  sources : Table (List Endpoint) := ∅
  /-- The inlets that each outlet feeds. -/
  sinks : Table (List Endpoint) := ∅
  /-- Whether the node emits messages without being triggered by one. -/
  isPushingMessages : Bool := false
  /-- Whether the node is an audio sink. -/
  isPullingSignal : Bool := false
deriving Inhabited

structure Graph where
  slots : Table (Option Node)
deriving Inhabited

namespace Node

def inlet? (node : Node) (id : String) : Option Portlet :=
  node.inlets.find? fun portlet => portlet.id = id

def outlet? (node : Node) (id : String) : Option Portlet :=
  node.outlets.find? fun portlet => portlet.id = id

def inletsOfType (node : Node) (type : PortletType) : List Portlet :=
  node.inlets.filter fun portlet => portlet.type = type

def outletsOfType (node : Node) (type : PortletType) : List Portlet :=
  node.outlets.filter fun portlet => portlet.type = type

def sourcesOf (node : Node) (inlet : String) : List Endpoint := node.sources.getD inlet []

def sinksOf (node : Node) (outlet : String) : List Endpoint := node.sinks.getD outlet []

/-- The sources of all signal inlets, in inlet order. -/
def signalSources (node : Node) : List Endpoint :=
  (node.inletsOfType .signal).flatMap fun inlet => node.sourcesOf inlet.id

/-- The sinks of all signal outlets, in outlet order. -/
def signalSinks (node : Node) : List Endpoint :=
  (node.outletsOfType .signal).flatMap fun outlet => node.sinksOf outlet.id

/-- The sinks of all message outlets, in outlet order. -/
def messageSinks (node : Node) : List Endpoint :=
  (node.outletsOfType .message).flatMap fun outlet => node.sinksOf outlet.id

def arg? (node : Node) (name : String) : Option Value := node.args.bind (·.get? name)

/-- A numeric argument; the fallback stands in for an absent or non-numeric one. -/
def floatArg (node : Node) (name : String) (fallback : Float) : Float :=
  ((node.arg? name).bind Value.toNumber?).getD fallback

def textArg (node : Node) (name fallback : String) : String :=
  match node.arg? name with
  | some (.text value) => value
  | _ => fallback

def listArg? (node : Node) (name : String) : Option (List Value) :=
  match node.arg? name with
  | some (.list items) => some items
  | _ => none

end Node

namespace Graph

def empty : Graph := ⟨∅⟩

def node? (graph : Graph) (id : String) : Option Node := (graph.slots.get? id).join

def ids (graph : Graph) : List String := graph.slots.keys

/-- The ids of all slots in natural order.  Ids that spell one integer keep the order of the slots.  A
graph is a table in its meaning, and in which order a table is gone through is not specified: the order
of the slots stands for the order of one run, and two runs over one graph may have two orders. -/
def sortedIds (graph : Graph) : List String := Text.sortIds graph.ids

/-- The stored nodes in natural order of their ids, each with its id. -/
def sortedNodes (graph : Graph) : List (String × Node) :=
  graph.sortedIds.filterMap fun id => (graph.node? id).map fun node => (id, node)

/-- Every connection, by source node, outlet and the order in which sinks were added. -/
def connections (graph : Graph) : List Connection :=
  graph.sortedNodes.flatMap fun (id, node) =>
    node.outlets.flatMap fun outlet =>
      (node.sinksOf outlet.id).map fun sink => ⟨⟨id, outlet.id⟩, sink⟩

end Graph

end Patchbay
