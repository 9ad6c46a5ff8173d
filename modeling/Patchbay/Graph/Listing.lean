import Patchbay.Graph.Basic

namespace Patchbay.Graph

/-! A listing of a graph for people: nodes in natural order, each with its arguments sorted by
name, its portlets and the connections that leave it.
-/

def padRight (width : Nat) (text : String) : String :=
  text ++ String.ofList (List.replicate (width - text.length) ' ')

def listFlags (node : Node) : String :=
  let flags := (if node.isPullingSignal then ["pulling-signal"] else []) ++
    (if node.isPushingMessages then ["pushing-messages"] else [])
  if flags.isEmpty then "" else " [" ++ String.intercalate ", " flags ++ "]"

def listArgs (node : Node) : List String :=
  match node.args with
  | none => []
  | some args =>
      if args.isEmpty then []
      else "  args:" :: (Text.sortTexts args.keys).map fun name =>
        "    " ++ padRight 8 name ++ " " ++ (args.getD name .null).listed

def portletMark : PortletType → String
  | .signal => "~"
  | .message => "m"
  | .unknown _ => "?"

def listPortlets (label : String) (portlets : List Portlet) : List String :=
  if portlets.isEmpty then []
  else ["  " ++ label ++ ":" ++ String.join (portlets.map fun portlet =>
    " " ++ portlet.id ++ "(" ++ portletMark portlet.type ++ ")")]

def listConnections (node : Node) : List String :=
  node.outlets.flatMap fun outlet => (node.sinksOf outlet.id).map fun sink =>
    "    " ++ node.id ++ ":" ++ outlet.id ++ " -> " ++ sink.node ++ ":" ++ sink.portlet

def listNode (node : Node) : List String :=
  ("node " ++ node.id ++ " " ++ node.type ++ listFlags node) :: listArgs node ++
    listPortlets "inlets" node.inlets ++ listPortlets "outlets" node.outlets ++
    listConnections node

def endLines (lines : List String) : String := String.join (lines.map (· ++ "\n"))

def listing (graph : Graph) : String :=
  endLines (graph.sortedNodes.flatMap fun entry => listNode entry.2)

/-- The listing of a graph that may be missing. -/
def listingOf : Option Graph → String
  | none => "<nil graph>\n"
  | some graph => graph.listing

end Patchbay.Graph
