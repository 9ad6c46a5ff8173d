import Patchbay.Program.Basic
import Patchbay.Text.Literal

namespace Patchbay

open Code (Sequence Part Function Slot)

/-! The regions of a generated program, in the order in which they are written.

Regions are the same for every target language; the languages differ in what is
written around them.
-/

structure Regions where
  dependencies : Option Sequence
  nodeTypes : Sequence
  stateInstances : Sequence
  portlets : Sequence
  coldDsp : Sequence
  hostReceivers : Sequence
  arrays : Option Sequence
  initializations : Sequence
  coldDspTriggers : Option Sequence
  loop : Sequence

/-- Whether an optional sequence renders to nothing. -/
def rendersNothing (sequence : Option Sequence) : Bool :=
  match sequence with
  | none => true
  | some content => Code.Sequence.isEmpty content

def messageArg : Slot := Code.arg "Message" "m"

namespace Program

/-- The shape of every type's state record, followed by the code its nodes share. -/
def nodeTypesRegion (program : Program) : Sequence :=
  Code.lines <| program.types.values.flatMap fun type =>
    (type.stateRecord.toList.map Part.ofRecord) ++
      (if rendersNothing type.core then [] else [Part.ofSequence? type.core])

/-- Initial values of state members that are declared without one. -/
def zeroValue? : String → Option String
  | "Float" | "Int" => some "0"
  | "string" => some "''"
  | "boolean" => some "false"
  | _ => none

def memberValue (stateName : String) (member : Slot) : Outcome Sequence :=
  match member.2 with
  | some value =>
      if Code.Sequence.isEmpty value then zero member.1 else .ok value
  | none => zero member.1
where
  zero (declared : Code.TypedName) : Outcome Sequence :=
    match zeroValue? declared.type with
    | some value => .ok (Code.code [value])
    | none => .error (.missingMemberValue stateName declared.name declared.type)

def separateMembers : List Sequence → List Part
  | [] => []
  | [entry] => [.sequence entry]
  | entry :: rest => .sequence entry :: "," :: separateMembers rest

def stateInstance (entry : NodeCode) (record : Code.Record) : Outcome Part := do
  let members ← record.members.mapM fun member => do
    let value ← memberValue entry.stateName member
    return Code.code ["\n", member.1.name, ": ", .sequence value]
  let literal := Code.code ["\x7b", .list .parts (separateMembers members), "\n\x7d"]
  return .sequence (Code.code [Code.const record.name entry.stateName [.sequence literal]])

/-- One state record for every node that has state, with the node's own initial values. -/
def stateInstancesRegion (program : Program) : Outcome Sequence := do
  let parts ← program.fullTraversal.mapM fun id => do
    let entry ← program.nodes.get id
    match entry.state with
    | none => return []
    | some record => return [← stateInstance entry record]
  return Code.lines parts.flatten

/-- Variables of signal outlets, message receivers and dispatchers of every node.  The outlets are gone
through in natural order; where two ids spell one integer their order is that of the table, which is
not specified. -/
def portletsRegion (program : Program) : Outcome Sequence := do
  let parts ← program.fullTraversal.mapM fun id => do
    let entry ← program.nodes.get id
    let outlets := (Text.sortIds entry.signalOuts.keys).map fun outlet =>
      Code.var "Float" (entry.signalOuts.getD outlet "") ["0"]
    return outlets ++ entry.receivers.values.map Part.ofFunction ++
      entry.senders.values.filterMap fun sender => sender.dispatcher.map Part.ofFunction
  return Code.lines parts.flatten

/-- For every node the statements of its connected inlets whose source is kept, followed by its
loop statement. -/
def dspStatements (program : Program) (traversal : List String) (keeps : String → Bool) :
    Outcome (List Part) := do
  let statements ← traversal.mapM fun id => do
    let entry ← program.nodes.get id
    let node ← program.graph.node id
    let before := (node.inletsOfType .signal).filterMap fun inlet => do
      let statement ← entry.inlets.get? inlet.id
      let source ← (node.sourcesOf inlet.id).head?
      if keeps source.node then some (Part.sequence statement) else none
    return before ++ (if rendersNothing entry.loop then [] else [Part.ofSequence? entry.loop])
  return statements.flatten

/-- One function for every cold group.  It computes the group, then runs the inlet statements that
its outputs feed outside of it. -/
def coldDspRegion (program : Program) : Outcome Sequence := do
  let functions ← program.coldDsp.values.mapM fun group => do
    let body ← program.dspStatements group.traversal fun _ => true
    let after ← group.sinkConnections.mapM fun connection => do
      let sink ← program.nodes.get connection.sink.node
      return (sink.inlets.get? connection.sink.portlet).toList.map Part.sequence
    return Part.ofFunction <| Code.func group.functionName [messageArg] "void" [
      .sequence (Code.lines (body ++ after.flatten))]
  return Code.lines functions

/-- Calls every cold group once, so that its outputs are defined before a message arrives. -/
def coldDspTriggers (program : Program) : Outcome (Option Sequence) := do
  if program.coldDsp.size = 0 then return none
  let _ ← program.names.enter (.module "msg")
  let message := program.names.nameOf (.module "msg") "emptyMessage"
  return some <| Code.lines <| program.coldDsp.values.map fun group =>
    .sequence (Code.code [group.functionName, "(", message, ")"])

/-- The functions that the host calls to send a message into an inlet. -/
def hostReceiversRegion (program : Program) : Outcome Sequence := do
  let functions ← program.hostReceivers.values.mapM fun hostPort => do
    let adapter ← program.nodes.get hostPort.adapter
    let sender ← adapter.senders.get "0"
    return Part.ofFunction (Code.func hostPort.functionName [messageArg] "void" [sender.name, "(m)"])
  return Code.lines functions

/-- The functions of the host that messages are forwarded to. -/
def hostSenderFunctions (program : Program) : List Function :=
  program.hostSenders.values.map fun hostPort => Code.func hostPort.functionName [messageArg] "void"

def arrayBlock (setArray name : String) (values : List Float) : Part :=
  let first : Part := Code.const "FloatArray" "array" [
    "new FloatArray(", .integer values.length, ")"]
  let writes : List Part := values.zipIdx.map fun (value, index) =>
    .sequence (Code.code ["array[", .integer index, "] = ", .number value])
  let last : Part := .sequence (Code.code [setArray, "(", Text.literal name, ", array)"])
  .sequence (Code.code ["\x7b\n", .sequence (Code.lines (first :: writes ++ [last])), "\n\x7d"])

/-- Registers the named arrays of the settings, sorted by name. -/
def arraysRegion (program : Program) : Option Sequence :=
  if program.settings.arrays.isEmpty then none
  else
    let space := NameSpace.module "commonsArrays"
    let setArray := match program.names.enter space with
      | .ok names => names.nameOf space "setArray"
      | .error _ => ""
    some <| Code.lines <| (Text.sortTexts program.settings.arrays.keys).map fun name =>
      arrayBlock setArray name (program.settings.arrays.getD name [])

/-- The setup code of every node. -/
def initializationsRegion (program : Program) : Outcome Sequence := do
  let parts ← program.fullTraversal.mapM fun id => do
    let entry ← program.nodes.get id
    return if rendersNothing entry.initialization then []
      else [Part.ofSequence? entry.initialization]
  return Code.lines parts.flatten

/-- The loop over a block: a notification of the frame, the hot group, the frame counter. -/
def loopRegion (program : Program) : Outcome Sequence := do
  let _ ← program.names.enter (.module "commonsFrames")
  let emitFrame := program.names.nameOf (.module "commonsFrames") "emitFrame"
  let body ← program.dspStatements program.hotDsp.traversal fun source =>
    !program.coldOf.contains source
  return Code.code [
    "for (", loopFrame, " = 0; ", loopFrame, " < ", blockSize, "; ", loopFrame, "++) \x7b\n",
    emitFrame, "(", frameCounter, ")\n",
    .sequence (Code.lines body), "\n",
    frameCounter, "++\n",
    "\x7d"]

def regions (program : Program) : Outcome Regions := do
  let stateInstances ← program.stateInstancesRegion
  let portlets ← program.portletsRegion
  let coldDsp ← program.coldDspRegion
  let hostReceivers ← program.hostReceiversRegion
  let initializations ← program.initializationsRegion
  let loop ← program.loopRegion
  let coldDspTriggers ← program.coldDspTriggers
  return {
    dependencies := program.dependencies.code
    nodeTypes := program.nodeTypesRegion
    stateInstances, portlets, coldDsp, hostReceivers
    arrays := program.arraysRegion
    initializations, coldDspTriggers, loop }

end Program

namespace Regions

/-- The variables that every program has.  The audio buffers are declared by the target languages,
which shape them differently. -/
def coreVariables : Sequence :=
  Code.lines [
    Code.var "Float" sampleRate ["0"],
    Code.var "Int" blockSize ["0"],
    Code.var "Int" frameCounter ["0"],
    Code.var "Int" loopFrame ["0"],
    Code.const "Float" nullSignal ["0"]]

/-- A region as a part that is absent when it renders to nothing. -/
def ifAny (region : Option Sequence) : Part :=
  if rendersNothing region then .missing .sequence else Part.ofSequence? region

/-- What a program does when it is initialized. -/
def initializeBody (regions : Regions) : Sequence :=
  Code.lines [
    .sequence (Code.code [sampleRate, " = sampleRate"]),
    .sequence (Code.code [blockSize, " = blockSize"]),
    ifAny regions.arrays,
    ifAny (some regions.initializations),
    ifAny regions.coldDspTriggers]

/-- The regions that stand at the top level, without those that render to nothing. -/
def declarations (regions : Regions) : List Sequence :=
  ([regions.dependencies, some regions.nodeTypes, some regions.stateInstances,
    some regions.portlets, some regions.coldDsp, some regions.hostReceivers].filter
      fun region => !rendersNothing region).filterMap id

end Regions

end Patchbay
