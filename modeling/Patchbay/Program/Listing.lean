import Patchbay.Graph.Listing
import Patchbay.Program.Basic

namespace Patchbay.Program

/-! A summary of a program for people: groups, the wiring of every node and the ports of the host. -/

def spaced (words : List String) : String := String.intercalate " " words

def listPortlets (label : String) (portlets : Table String) : List String :=
  (Text.sortTexts portlets.keys).map fun key =>
    "  " ++ label ++ " " ++ key ++ ": " ++ portlets.getD key ""

def listNode (entry : NodeCode) : List String :=
  ("node " ++ entry.id ++ " " ++ entry.type) ::
    (if entry.stateName = "" then [] else ["  state: " ++ entry.stateName]) ++
    listPortlets "ins" entry.signalIns ++ listPortlets "outs" entry.signalOuts ++
    (entry.receivers.entries.entries.map fun (inlet, receiver) =>
      "  rcv " ++ inlet ++ ": " ++ receiver.name) ++
    (entry.senders.entries.entries.map fun (outlet, sender) =>
      "  snd " ++ outlet ++ ": " ++ sender.name ++ " [" ++
        String.intercalate ", " sender.sinkFunctions ++ "]")

def listPorts (label : String) (ports : List HostPort) : List String :=
  ports.map fun hostPort =>
    "io " ++ label ++ " " ++ hostPort.node ++ ":" ++ hostPort.portlet ++ " -> " ++
      hostPort.functionName

def listing (program : Program) : String :=
  Graph.endLines <|
    ("traversal: " ++ spaced program.fullTraversal) ::
    ("modules: " ++ spaced (program.dependencies.modules.map (·.namespaceName))) ::
    ("hot: " ++ spaced program.hotDsp.traversal) ::
    (program.coldDsp.values.map fun group =>
      "cold " ++ group.id ++ " " ++ group.functionName ++ ": " ++ spaced group.traversal ++
        " (out " ++ spaced group.outNodes ++ ")") ++
    (program.inlineDsp.map fun group =>
      "inline: " ++ spaced group.traversal ++ " (into " ++ spaced group.outNodes ++ ")") ++
    ((program.fullTraversal.filterMap program.nodes.entries.get?).flatMap listNode) ++
    listPorts "rcv" program.hostReceivers.values ++ listPorts "snd" program.hostSenders.values

/-- The summary of a program that may be missing. -/
def listingOf : Option Program → String
  | none => "<nil program>\n"
  | some program => program.listing

end Patchbay.Program
