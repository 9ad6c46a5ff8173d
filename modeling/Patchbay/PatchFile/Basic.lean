import Patchbay.Graph.Edit

namespace Patchbay

/-! Patch files: nodes and connections as a file lists them, and named arrays.

A file is decoded first and checked afterwards, so what a field means does not
depend on the file format.  Numbers that are arguments, or items of argument lists,
become doubles whatever width the format gave them.
-/

structure PortletEntry where
  id : String := ""
  type : String := ""
deriving Inhabited

structure EndpointEntry where
  node : String := ""
  portlet : String := ""
deriving Inhabited

structure ConnectionEntry where
  source : EndpointEntry := {}
  sink : EndpointEntry := {}
deriving Inhabited

/-- A list of entries.  Where a file gives a list again, it fills in the entries that are there, so
those of an earlier and longer list are kept aside. -/
structure Entries (α : Type) where
  items : List α := []
  /-- What earlier lists had behind the items of this one. -/
  spare : List α := []
deriving Inhabited

structure NodeEntry where
  id : String := ""
  type : String := ""
  args : Option (Table Value) := none
  inlets : Entries PortletEntry := {}
  outlets : Entries PortletEntry := {}
  isPushingMessages : Bool := false
  isPullingSignal : Bool := false
deriving Inhabited

structure PatchFile where
  nodes : Entries NodeEntry := {}
  connections : Entries ConnectionEntry := {}
  arrays : Table (List Float) := ∅
deriving Inhabited

/-- A loaded patch. -/
structure Patch where
  graph : Graph
  arrays : Table (List Float)

namespace Value

mutual

/-- Turns numbers into doubles, also in lists.  Tables are left as they are. -/
def normalize : Value → Value
  | .integer _ value => .number (Number.doubleOfInt value)
  | .single value => .number value.toFloat
  | .list items => .list (normalizeItems items)
  | .null => .null
  | .bool value => .bool value
  | .text value => .text value
  | .number value => .number value
  | .table entries => .table entries
  | .mixed entries => .mixed entries
  | .instant time => .instant time

def normalizeItems : List Value → List Value
  | [] => []
  | item :: rest => item.normalize :: normalizeItems rest

end

end Value

namespace PatchFile

def portlets (entries : List PortletEntry) : Outcome (List Portlet) :=
  entries.mapM fun entry =>
    match PortletType.ofName entry.type with
    | .unknown name => .error (.unknownPortletType entry.id name)
    | type => .ok ⟨entry.id, type⟩

def node (entry : NodeEntry) : Outcome Node := do
  let inlets ← Outcome.inContext s!"inlets of node {Text.quoted entry.id}"
    (portlets entry.inlets.items)
  let outlets ← Outcome.inContext s!"outlets of node {Text.quoted entry.id}"
    (portlets entry.outlets.items)
  return {
    id := entry.id
    type := entry.type
    args := entry.args.map fun args => args.map fun _ value => value.normalize
    inlets, outlets
    isPushingMessages := entry.isPushingMessages
    isPullingSignal := entry.isPullingSignal }

def connection (entry : ConnectionEntry) : Connection :=
  ⟨⟨entry.source.node, entry.source.portlet⟩, ⟨entry.sink.node, entry.sink.portlet⟩⟩

/-- Builds the graph that a file describes. -/
def toPatch (file : PatchFile) : Outcome Patch := do
  let nodes ← file.nodes.items.mapM node
  let graph ← Graph.build (nodes.map some) (file.connections.items.map connection)
  return { graph, arrays := file.arrays }

end PatchFile

end Patchbay
