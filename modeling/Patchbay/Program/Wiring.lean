import Patchbay.Program.Basic

namespace Patchbay.Program

open Code (Function)

/-! Naming and wiring portlets.

Receivers are reserved first, because message outlets point at them.  Signal outlets
come last: only nodes that are left in a group after inlining have a variable.
-/

/-- The function that a message inlet is reserved with. -/
def receiverPlaceholder (name : String) : Function :=
  Code.func name [Code.arg "Message" "m"] "void"

/-- Runs a step for some nodes, in order. -/
def forNodes (program : Program) (ids : List String)
    (step : Program → String → Node → Outcome Program) : Outcome Program :=
  ids.foldlM (fun program id => do step program id (← program.graph.node id)) program

/-- Reserves a receiver for every message inlet that has a source. -/
def reserveReceivers (program : Program) (id : String) (node : Node) : Outcome Program := do
  let _ ← program.nodes.get id
  let names ← program.names.enterNode id
  let inlets := (node.inletsOfType .message).filter fun inlet =>
    !(node.sourcesOf inlet.id).isEmpty
  inlets.foldlM (fun program inlet => do
    let (name, program) ← program.readName (.receivers id) inlet.id
    let entry ← program.nodes.get id
    let receivers ← entry.receivers.add inlet.id (receiverPlaceholder name)
    return program.refineNode id fun entry => { entry with receivers }) { program with names }

/-- Signal inlets without a source read the null signal. -/
def wireNullSignals (program : Program) (id : String) (node : Node) : Program :=
  let inlets := (node.inletsOfType .signal).filter fun inlet =>
    (node.sourcesOf inlet.id).isEmpty
  let wire (ins : Table String) : Table String :=
    inlets.foldl (fun ins inlet => ins.set inlet.id nullSignal) ins
  program.refineNode id fun entry => { entry with signalIns := wire entry.signalIns }

/-- The functions that a message outlet calls: the receivers of its sinks in connection order, then
the cold groups that compute one of its sinks. -/
def sinkFunctions (program : Program) (id : String) (outlet : Portlet) (sinks : List Endpoint) :
    Outcome (List String) := do
  let receivers ← sinks.mapM fun sink => do
    let entry ← program.nodes.get sink.node
    let receiver ← Outcome.inContext s!"outlet {id}:{outlet.id}"
      (entry.receivers.get sink.portlet)
    return receiver.name
  let groups := program.coldDsp.values.filter fun group =>
    sinks.any fun sink => program.coldOf.get? sink.node == some group.id
  return receivers ++ groups.map (·.functionName)

def dispatcher (name : String) (functions : List String) : Function :=
  let call (function : String) : Code.Part := .sequence (Code.code [function, "(m)"])
  Code.func name [Code.arg "Message" "m"] "void" [.sequence (Code.lines (functions.map call))]

/-- With no function an outlet calls the receiver that does nothing, with one that very function,
else a dispatcher. -/
def wireMessageOutlet (program : Program) (id : String) (node : Node) (outlet : Portlet) :
    Outcome Program := do
  let functions ← program.sinkFunctions id outlet (node.sinksOf outlet.id)
  let (sender, program) ← match functions with
    | [] => do
        let (name, program) ← program.readName (.module "msg") "nullMessageReceiver"
        pure (⟨name, [], none⟩, program)
    | [function] => pure (⟨function, [function], none⟩, program)
    | _ => do
        let (name, program) ← program.readName (.senders id) outlet.id
        pure (⟨name, functions, some (dispatcher name functions)⟩, program)
  let entry ← program.nodes.get id
  let senders ← entry.senders.add outlet.id sender
  return program.refineNode id fun entry => { entry with senders }

def wireMessageOutlets (program : Program) (id : String) (node : Node) : Outcome Program := do
  let _ ← program.nodes.get id
  let names ← program.names.enterNode id
  (node.outletsOfType .message).foldlM (fun program outlet =>
    program.wireMessageOutlet id node outlet) { program with names }

/-- Gives an outlet a variable, which all its sinks read. -/
def wireSignalOutlet (program : Program) (id : String) (node : Node) (outlet : Portlet) :
    Outcome Program := do
  let (name, program) ← program.readName (.outlets id) outlet.id
  let program := program.refineNode id fun entry =>
    { entry with signalOuts := entry.signalOuts.set outlet.id name }
  (node.sinksOf outlet.id).foldlM (fun program sink => do
    let _ ← program.nodes.get sink.node
    return program.refineNode sink.node fun entry =>
      { entry with signalIns := entry.signalIns.set sink.portlet name }) program

def wireSignalOutlets (program : Program) (id : String) (node : Node) : Outcome Program := do
  let _ ← program.nodes.get id
  let names ← program.names.enterNode id
  (node.outletsOfType .signal).foldlM (fun program outlet =>
    program.wireSignalOutlet id node outlet) { program with names }

/-- The nodes that have loop statements: the hot group, then the cold groups in order. -/
def loopNodes (program : Program) : List String :=
  program.hotDsp.traversal ++ program.coldDsp.values.flatMap fun group => group.traversal

def wirePortlets (program : Program) : Outcome Program := do
  let program ← program.forNodes program.fullTraversal reserveReceivers
  let program ← program.forNodes program.fullTraversal fun program id node =>
    pure (program.wireNullSignals id node)
  let names ← program.names.enter (.module "msg")
  let program := { program with names }
  let program ← program.forNodes program.fullTraversal wireMessageOutlets
  program.forNodes program.loopNodes wireSignalOutlets

end Patchbay.Program
