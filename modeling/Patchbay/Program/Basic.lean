import Patchbay.NodeType.Basic
import Patchbay.Register

namespace Patchbay

/-! Laid-out programs: the reachable part of a graph, the names handed out and every piece of code
that is assembled from them later.
-/

open Code (Sequence Function Record)

/-- How a message outlet delivers messages. -/
structure Sender where
  /-- What node code calls: the only sink function, the shared receiver that does nothing, or the
  dispatcher. -/
  name : String
  sinkFunctions : List String
  /-- Calls all sink functions; there is one when there are several. -/
  dispatcher : Option Function

/-- The code of one node. -/
structure NodeCode where
  id : String
  type : String
  /-- Receivers of the message inlets that have a source. -/
  receivers : Register Function
  senders : Register Sender
  /-- Variables of the signal outlets. -/
  signalOuts : Table String := ∅
  /-- The code that reads each signal inlet: a variable, the null signal or an expression. -/
  signalIns : Table String := ∅
  initialization : Option Sequence := none
  loop : Option Sequence := none
  /-- Statements that run before the loop statement, by signal inlet. -/
  inlets : Table Sequence := ∅
  state : Option Record := none
  stateName : String := ""

def NodeCode.new (id type : String) : NodeCode where
  id := id
  type := type
  receivers := { label := "message receiver of " ++ id }
  senders := { label := "message sender of " ++ id }

/-- The code that all nodes of a type share. -/
structure TypeCode where
  type : String
  implementation : Implementation
  stateRecord : Option Record := none
  core : Option Sequence := none

/-- Nodes in order of evaluation, and those of them that are read from outside. -/
structure DspGroup where
  traversal : List String
  outNodes : List String
deriving Repr, Inhabited, DecidableEq

/-- Nodes that are computed once for a triggering message instead of once for a sample. -/
structure ColdGroup extends DspGroup where
  id : String
  functionName : String
  /-- Signal connections that leave the group. -/
  sinkConnections : List Connection
deriving Repr, Inhabited

structure Import where
  namespaceName : String
  key : String
  function : Function

structure Export where
  namespaceName : String
  key : String
  name : String

/-- The runtime modules of a program. -/
structure Dependencies where
  modules : List Module := []
  code : Option Sequence := none
  imports : List Import := []
  exports : List Export := []

/-- A message portlet that the host can reach, and the node that was grafted on for it. -/
structure HostPort where
  node : String
  portlet : String
  functionName : String
  adapter : String
deriving Repr, Inhabited

structure Program where
  graph : Graph
  catalog : Catalog
  library : Library
  settings : Settings
  names : NameIndex
  nodes : Register NodeCode := { label := "node" }
  types : Register TypeCode := { label := "node type" }
  fullTraversal : List String := []
  rootDsp : DspGroup := ⟨[], []⟩
  hotDsp : DspGroup := ⟨[], []⟩
  coldDsp : Register ColdGroup := { label := "cold dsp group" }
  inlineDsp : List DspGroup := []
  dependencies : Dependencies := {}
  hostReceivers : Register HostPort := { label := "io message receiver" }
  hostSenders : Register HostPort := { label := "io message sender" }
  /-- The cold group of every node that is in one, nodes that were inlined there included. -/
  coldOf : Table String := ∅
  /-- Nodes that are written as an expression at their reader. -/
  inlined : List String := []

namespace Program

def isInlined (program : Program) (node : String) : Bool := program.inlined.contains node

def refineNode (program : Program) (id : String) (change : NodeCode → NodeCode) : Program :=
  { program with nodes := program.nodes.refine id change }

/-- Reads a name and keeps the index up to date. -/
def readName (program : Program) (space : NameSpace) (key : String) :
    Outcome (String × Program) := do
  let (name, names) ← program.names.read space key
  return (name, { program with names })

/-- Everything a node's code can refer to at this point. -/
def scopeOf (program : Program) (id : String) : Outcome (Code.Scope × Program) := do
  let node ← program.graph.node id
  let entry ← program.nodes.get id
  let _ ← program.types.get node.type
  let names ← program.names.enterNode id
  let names ← names.enter (.nodeType node.type)
  let scope : Code.Scope :=
    { space := .nodeType node.type
      node := node
      state := names.stateOf id
      ins := entry.signalIns
      outs := entry.signalOuts
      snds := entry.senders.entries.map fun _ sender => sender.name
      rcvs := entry.receivers.entries.map fun _ receiver => receiver.name }
  return (scope, { program with names })

/-- Fills a template; a hole that could not be resolved is a fault. -/
def fill (program : Program) (context : String) (template : Code.Fill α) :
    Outcome (α × Program) :=
  let (result, ledger) := template.run { names := program.names }
  match ledger.miss with
  | some fault => .error (.within context fault)
  | none => .ok (result, { program with names := ledger.names })

/-- What a fault in the code of a node is reported as. -/
def contextOf (what : String) (node : Node) : String :=
  s!"{what} of node {Text.quoted node.id} ({node.type})"

end Program

end Patchbay
