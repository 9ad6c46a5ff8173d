import Patchbay.Program.Basic

namespace Patchbay.Program

open Code (Template)

/-! Message ports of the host.

For every portlet that the host can reach one adapter node is grafted onto the graph,
so that all that follows sees plain connections.  A receiver adapter pushes messages
into the inlet; a sender adapter forwards what leaves the outlet to a function of the
host.
-/

def receiverType : String := "_messageReceiver"

def senderType : String := "_messageSender"

def receiverAdapter : Implementation := {}

def senderAdapter : Implementation where
  receivers := some fun site => [
    ("0", some <| receiverTemplate [
      .text (site.node.textArg "functionName" ""), .text "(m)"])]

/-- Node ids with ports, in natural order. -/
def portOrder (ports : Option Ports) : List (String × List String) :=
  match ports with
  | none => []
  | some ports =>
      (Text.sortIds (Text.sortTexts ports.keys)).map fun node =>
        (node, ((ports.get? node).getD none).getD [])

def addHostReceiver (program : Program) (node inlet : String) : Outcome Program := do
  let target ← program.graph.node node
  let portlet ← target.inlet inlet
  if portlet.type ≠ .message then throw (.notMessageInlet node inlet)
  let adapter : Node :=
    { id := "_ioRcv_" ++ Text.join [node, inlet]
      type := receiverType
      outlets := [⟨"0", .message⟩]
      isPushingMessages := true
      args := some (.ofList [("nodeId", .text node), ("portletId", .text inlet)]) }
  let graph ← program.graph.add (some adapter)
  let graph ← graph.connect ⟨adapter.id, "0"⟩ ⟨node, inlet⟩
  let (functionName, program) ← program.readName (.hostReceivers node) inlet
  let hostReceivers ← program.hostReceivers.add (Text.join [node, inlet])
    ⟨node, inlet, functionName, adapter.id⟩
  return { program with graph, hostReceivers }

def addHostSender (program : Program) (node outlet : String) : Outcome Program := do
  let target ← program.graph.node node
  let portlet ← target.outlet outlet
  if portlet.type ≠ .message then throw (.notMessageOutlet node outlet)
  let (functionName, program) ← program.readName (.hostSenders node) outlet
  let adapter : Node :=
    { id := "_ioSnd_" ++ Text.join [node, outlet]
      type := senderType
      inlets := [⟨"0", .message⟩]
      args := some (.ofList [("nodeId", .text node), ("portletId", .text outlet),
        ("functionName", .text functionName)]) }
  let graph ← program.graph.add (some adapter)
  let graph ← graph.connect ⟨node, outlet⟩ ⟨adapter.id, "0"⟩
  let hostSenders ← program.hostSenders.add (Text.join [node, outlet])
    ⟨node, outlet, functionName, adapter.id⟩
  return { program with graph, hostSenders }

/-- Grafts all adapters on, those of receivers first. -/
def graftHostPorts (program : Program) : Outcome Program := do
  let withReceivers ← (portOrder program.settings.receivers).foldlM (fun program (node, inlets) =>
    inlets.foldlM (fun program inlet => program.addHostReceiver node inlet) program) program
  (portOrder program.settings.senders).foldlM (fun program (node, outlets) =>
    outlets.foldlM (fun program outlet => program.addHostSender node outlet) program) withReceivers

end Patchbay.Program
