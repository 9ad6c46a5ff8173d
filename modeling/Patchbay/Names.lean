import Patchbay.Graph.Edit
import Patchbay.Text.Identifier

namespace Patchbay

/-! Names of generated code.

A name belongs to a name space and is determined by it and a key: the space gives
the leading parts of the identifier, the key the last one.  The index remembers
which keys were read, in the order of first reading, and refuses spaces that are
not there: those of unknown nodes, of node types without an implementation and of
modules that were not registered.
-/

inductive NameSpace where
  | outlets (node : String)
  | senders (node : String)
  | receivers (node : String)
  | nodeType (type : String)
  | module (namespaceName : String)
  | coldGroups
  | hostReceivers (node : String)
  | hostSenders (node : String)
deriving DecidableEq, Repr

structure NameIndex where
  graph : Graph
  /-- What node types are called in names. -/
  labels : Table String
  /-- The keys read so far, by name space. -/
  spaces : List (NameSpace × List String) := []
  /-- Nodes that were known when one of their names was asked for. -/
  nodes : List String := []
  /-- Modules that were registered. -/
  modules : List String := []
  /-- Nodes that have a state variable. -/
  states : List String := []

namespace NameIndex

/-- The leading parts of the names of a space.  The first part tells the kinds of space apart. -/
def pathOf (index : NameIndex) : NameSpace → List String
  | .outlets node => ["N", node, "outs"]
  | .senders node => ["N", node, "snds"]
  | .receivers node => ["N", node, "rcvs"]
  | .nodeType type => ["NT", index.labels.getD type type]
  | .module namespaceName => ["G", namespaceName]
  | .coldGroups => ["DSP"]
  | .hostReceivers node => ["IORCV", node]
  | .hostSenders node => ["IOSND", node]

def nameOf (index : NameIndex) (space : NameSpace) (key : String) : String :=
  Text.join (index.pathOf space ++ [key])

def stateName (node : String) : String := Text.join ["N", node, "state"]

/-- Points the index at another graph; what was known stays known. -/
def setGraph (index : NameIndex) (graph : Graph) : NameIndex := { index with graph }

/-- Makes sure that a node is known, now or from before. -/
def enterNode (index : NameIndex) (id : String) : Outcome NameIndex :=
  if id ∈ index.nodes then .ok index
  else match index.graph.node? id with
    | some _ => .ok { index with nodes := index.nodes ++ [id] }
    | none => .error (.unknownNode id)

def registerModule (index : NameIndex) (namespaceName : String) : NameIndex :=
  if namespaceName ∈ index.modules then index
  else { index with modules := index.modules ++ [namespaceName] }

/-- Makes sure that names of a space can be read. -/
def enter (index : NameIndex) : NameSpace → Outcome NameIndex
  | .outlets node | .senders node | .receivers node => index.enterNode node
  | .nodeType type =>
      if index.labels.contains type then .ok index else .error (.unnamedNodeType type)
  | .module namespaceName =>
      if namespaceName ∈ index.modules then .ok index else .error (.unnamedModule namespaceName)
  | .coldGroups | .hostReceivers _ | .hostSenders _ => .ok index

/-- The keys read in a space, in the order of first reading. -/
def keysOf (index : NameIndex) (space : NameSpace) : List String :=
  (index.spaces.lookup space).getD []

def addKey (space : NameSpace) (key : String) :
    List (NameSpace × List String) → List (NameSpace × List String)
  | [] => [(space, [key])]
  | (other, keys) :: rest =>
      if other = space then (space, if key ∈ keys then keys else keys ++ [key]) :: rest
      else (other, keys) :: addKey space key rest

/-- Reads a name of a space that was entered before. -/
def take (index : NameIndex) (space : NameSpace) (key : String) : String × NameIndex :=
  (index.nameOf space key, { index with spaces := addKey space key index.spaces })

/-- Reads a name. -/
def read (index : NameIndex) (space : NameSpace) (key : String) :
    Outcome (String × NameIndex) := do
  let entered ← index.enter space
  return entered.take space key

/-- A name that was read before. -/
def lookup? (index : NameIndex) (space : NameSpace) (key : String) : Option String :=
  if key ∈ index.keysOf space then some (index.nameOf space key) else none

/-- Gives a node that is known a state variable. -/
def enableState (index : NameIndex) (node : String) : NameIndex :=
  if node ∈ index.states then index else { index with states := index.states ++ [node] }

/-- The state variable of a node, empty when it has none. -/
def stateOf (index : NameIndex) (node : String) : String :=
  if node ∈ index.states then stateName node else ""

/-- Every name handed out, sorted. -/
def allNames (index : NameIndex) : List String :=
  Text.sortTexts <|
    (index.spaces.flatMap fun (space, keys) => keys.map fun key => index.nameOf space key) ++
      index.states.map stateName

end NameIndex

end Patchbay
