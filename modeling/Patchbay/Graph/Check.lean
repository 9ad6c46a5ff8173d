import Patchbay.Graph.Traversal
import Patchbay.NodeType.Basic
import Patchbay.Reporter

namespace Patchbay

/-! Checking a graph before it is laid out.

All problems are found, not only the first.  Only a graph without problems is asked
which of its nodes can have no effect; these are worth a warning, since they are
dropped.
-/

/-- The two sides of a node. -/
inductive Side where
  | inlet
  | outlet
deriving DecidableEq, Repr

def Side.name : Side → String
  | .inlet => "inlet"
  | .outlet => "outlet"

inductive Problem where
  | emptyEntry
  | foreignId (key id : String)
  | unknownNodeType (type : String)
  | repeatedPortlet (side : Side) (id : String)
  | unknownPortletType (side : Side) (id type : String)
  | missingInlet (inlet : String)
  | manySources (inlet : String) (count : Nat)
  | missingSource (inlet : String) (source : Endpoint)
  | sourceTypeDiffers (inlet inletType outletType : String) (source : Endpoint)
  | unrecordedAtSource (source sink : Endpoint)
  | missingOutlet (outlet : String)
  | missingSink (outlet : String) (sink : Endpoint)
  | unrecordedAtSink (source sink : Endpoint)
  | failedTraversal (reason : String)

def Problem.message : Problem → String
  | .emptyEntry => "node entry is empty"
  | .foreignId key id =>
      s!"node is registered under id {Text.quoted key} but carries id {Text.quoted id}"
  | .unknownNodeType type => s!"unknown node type {Text.quoted type}"
  | .repeatedPortlet side id => s!"duplicate {side.name} id {Text.quoted id}"
  | .unknownPortletType side id type =>
      s!"{side.name} {Text.quoted id} has unknown type {Text.quoted type}"
  | .missingInlet inlet => s!"connection into missing inlet {Text.quoted inlet}"
  | .manySources inlet count =>
      s!"signal inlet {Text.quoted inlet} has {Text.ofNat count} sources"
  | .missingSource inlet source =>
      s!"inlet {Text.quoted inlet} is fed by missing outlet {Fault.atEndpoint source}"
  | .sourceTypeDiffers inlet inletType outletType source =>
      s!"inlet {Text.quoted inlet} ({inletType}) is fed by {outletType} outlet " ++
        Fault.atEndpoint source
  | .unrecordedAtSource source sink =>
      s!"connection {Fault.atEndpoint source} -> {Fault.atEndpoint sink} " ++
        "is missing its mirror on the source"
  | .missingOutlet outlet => s!"connection from missing outlet {Text.quoted outlet}"
  | .missingSink outlet sink =>
      s!"outlet {Text.quoted outlet} feeds missing inlet {Fault.atEndpoint sink}"
  | .unrecordedAtSink source sink =>
      s!"connection {Fault.atEndpoint source} -> {Fault.atEndpoint sink} " ++
        "is missing its mirror on the sink"
  | .failedTraversal reason => s!"traversal failed: {reason}"

/-- A problem and what it is about. -/
structure Issue where
  subject : String
  problem : Problem

namespace Graph

def portletProblems (side : Side) (portlets : List Portlet) : List Problem :=
  let rec walk (seen : List String) : List Portlet → List Problem
    | [] => []
    | portlet :: rest =>
        (if seen.contains portlet.id then [.repeatedPortlet side portlet.id] else []) ++
          (match portlet.type with
            | .unknown type => [.unknownPortletType side portlet.id type]
            | _ => []) ++
          walk (portlet.id :: seen) rest
  walk [] portlets

def outletAt? (graph : Graph) (endpoint : Endpoint) : Option Portlet :=
  (graph.node? endpoint.node).bind fun node => node.outlet? endpoint.portlet

def inletAt? (graph : Graph) (endpoint : Endpoint) : Option Portlet :=
  (graph.node? endpoint.node).bind fun node => node.inlet? endpoint.portlet

def sinksAt (graph : Graph) (endpoint : Endpoint) : List Endpoint :=
  ((graph.node? endpoint.node).map fun node => node.sinksOf endpoint.portlet).getD []

def sourcesAt (graph : Graph) (endpoint : Endpoint) : List Endpoint :=
  ((graph.node? endpoint.node).map fun node => node.sourcesOf endpoint.portlet).getD []

/-- The problems of one connection that is recorded at its sink. -/
def sourceProblems (graph : Graph) (id : String) (inlet : Portlet) (source : Endpoint) :
    List Problem :=
  match graph.outletAt? source with
  | none => [.missingSource inlet.id source]
  | some outlet =>
      (if outlet.type = inlet.type then []
        else [.sourceTypeDiffers inlet.id inlet.type.name outlet.type.name source]) ++
      (if (graph.sinksAt source).contains ⟨id, inlet.id⟩ then []
        else [.unrecordedAtSource source ⟨id, inlet.id⟩])

def inletProblems (graph : Graph) (id : String) (node : Node) (inletId : String) :
    List Problem :=
  let sources := node.sourcesOf inletId
  match node.inlet? inletId with
  | none => [.missingInlet inletId]
  | some inlet =>
      (if inlet.type = .signal ∧ 1 < sources.length then [.manySources inletId sources.length]
        else []) ++
      sources.flatMap (graph.sourceProblems id inlet)

def sinkProblems (graph : Graph) (source : Endpoint) (sink : Endpoint) : List Problem :=
  match graph.inletAt? sink with
  | none => [.missingSink source.portlet sink]
  | some _ =>
      if (graph.sourcesAt sink).contains source then [] else [.unrecordedAtSink source sink]

def outletProblems (graph : Graph) (id : String) (node : Node) (outletId : String) :
    List Problem :=
  match node.outlet? outletId with
  | none => [.missingOutlet outletId]
  | some _ => (node.sinksOf outletId).flatMap (graph.sinkProblems ⟨id, outletId⟩)

/-- The problems of one slot.  Node types are checked when there is a catalog. -/
def slotIssues (graph : Graph) (catalog : Option Catalog) (id : String) : List Issue :=
  match graph.node? id with
  | none => [⟨id, .emptyEntry⟩]
  | some node =>
      let isKnown := match catalog with
        | none => true
        | some catalog => catalog.contains node.type
      (if node.id = id then [] else [⟨id, .foreignId id node.id⟩]) ++
        (if isKnown then [] else [⟨node.id, .unknownNodeType node.type⟩]) ++
        (portletProblems .inlet node.inlets ++ portletProblems .outlet node.outlets ++
          (Text.sortIds node.sources.keys).flatMap (graph.inletProblems id node) ++
          (Text.sortIds node.sinks.keys).flatMap (graph.outletProblems id node)).map (⟨id, ·⟩)

def issues (graph : Graph) (catalog : Option Catalog) : List Issue :=
  graph.sortedIds.flatMap (graph.slotIssues catalog)

/-- The nodes that can have no effect, in natural order. -/
def unreachable (graph : Graph) : Outcome (List String) := do
  let reached ← graph.fullTraversal
  return graph.sortedIds.filter fun id => !reached.contains id

def unreachableWarning (id : String) : String :=
  s!"node {Text.quoted id} is not reachable from any audio sink or message trigger " ++
    "and will be dropped"

def report (reporter : Reporter) (issues : List Issue) : Reporter :=
  issues.foldl (fun reporter issue => reporter.errorAbout issue.subject issue.problem.message)
    reporter

/-- The verdict on a graph with a number of issues. -/
def verdict (issues : List Issue) : Outcome Unit :=
  if issues.isEmpty then .ok () else .error (.invalidGraph issues.length)

/-- Checks a graph and reports what was found. -/
def check (graph : Graph) (catalog : Option Catalog) (reporter : Reporter) :
    Reporter × Outcome Unit :=
  let found := graph.issues catalog
  if found.isEmpty then
    match graph.unreachable with
    | .ok ids => (ids.foldl (fun reporter id => reporter.warn (unreachableWarning id)) reporter,
        .ok ())
    | .error fault =>
        let found := [⟨"graph", .failedTraversal fault.message⟩]
        (report reporter found, verdict found)
  else (report reporter found, verdict found)

/-- Checks a graph that may be missing, with a reporter that may be missing. -/
def checkAny (graph : Option Graph) (catalog : Option Catalog) (reporter : Option Reporter) :
    Option Reporter × Outcome Unit :=
  match graph, reporter with
  | none, _ => (reporter, .error .missingGraph)
  | some _, none => (none, .error .missingReporter)
  | some graph, some reporter =>
      let (reporter, outcome) := graph.check catalog reporter
      (some reporter, outcome)

end Graph

end Patchbay
