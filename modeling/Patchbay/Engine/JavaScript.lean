import Patchbay.Code.Dialect
import Patchbay.Program.Metadata
import Patchbay.Program.Regions

namespace Patchbay.Engine.JavaScript

open Code (Sequence Part Function)

/-! Programs in JavaScript: one factory function that returns the engine object. -/

def prelude (settings : Settings) : Sequence :=
  let toFloat := if settings.bitDepth = 32 then "return Math.fround(v)" else "return v"
  Code.lines [
    .sequence (Code.code ["const FloatArray = ", settings.floatArrayType]),
    Code.func "toFloat" [Code.arg "Float" "v"] "Float" [toFloat],
    Code.func "toInt" [Code.arg "Float" "v"] "Int" ["return v | 0"],
    .sequence Regions.coreVariables,
    Code.var "Array<FloatArray>" inputBuffer ["[]"],
    Code.var "Array<FloatArray>" outputBuffer ["[]"]]

/-- One function for every import, which calls what the host put in its place. -/
def importForwarders (program : Program) : Sequence :=
  Code.lines <| program.dependencies.imports.map fun entry =>
    let args := String.intercalate ", " (entry.function.args.map fun slot => slot.1.name)
    Part.ofFunction <| Code.func entry.function.name entry.function.args entry.function.result [
      "return engine.globals[", Text.literal entry.namespaceName, "][", Text.literal entry.key,
      "](", args, ")"]

def hostSenders (program : Program) : Sequence :=
  Code.lines <| program.hostSenders.values.map fun hostPort =>
    Part.ofFunction <| Code.func hostPort.functionName [messageArg] "void" [
      "engine.io.messageSenders[", Text.literal hostPort.node, "][", Text.literal hostPort.portlet,
      "](m)"]

/-- A table of ports by node and portlet, in order of registration. -/
def portTable (ports : List HostPort) (value : HostPort → Part) : Sequence :=
  let nodes := Text.unique (ports.map (·.node))
  if nodes.isEmpty then Code.code ["\x7b\x7d"]
  else
    let entries := nodes.map fun node =>
      let own := (ports.filter (·.node = node)).map fun hostPort =>
        Part.sequence (Code.code [Text.literal hostPort.portlet, ": ", value hostPort, ","])
      Part.sequence (Code.code [
        Text.literal node, ": \x7b\n", .sequence (Code.lines own), "\n\x7d,"])
    Code.code ["\x7b\n", .sequence (Code.lines entries), "\n\x7d"]

/-- What the host finds under a module: its exports, and a place for every import that throws until
the host fills it. -/
def moduleEntries (program : Program) (module : Module) : List Part :=
  let exports := program.dependencies.exports.filter (·.namespaceName = module.namespaceName)
  let imports := program.dependencies.imports.filter (·.namespaceName = module.namespaceName)
  (exports.map fun entry =>
    Part.sequence (Code.code [Text.literal entry.key, ": ", entry.name, ","])) ++
  imports.map fun entry =>
    let missing := "import for " ++ entry.namespaceName ++ "." ++ entry.key ++ " not provided"
    Part.sequence (Code.code [
      Text.literal entry.key, ": ",
      Code.func "" [] "void" ["throw new Error(", Text.literal missing, ")"], ","])

def moduleTable (program : Program) : Sequence :=
  let tables := program.dependencies.modules.filterMap fun module =>
    let entries := moduleEntries program module
    if entries.isEmpty then none
    else some <| Part.sequence (Code.code [
      Text.literal module.namespaceName, ": \x7b\n", .sequence (Code.lines entries), "\n\x7d,"])
  if tables.isEmpty then Code.code ["\x7b\x7d"]
  else Code.code ["\x7b\n", .sequence (Code.lines tables), "\n\x7d"]

def initializer (regions : Regions) : Function :=
  Code.func "" [Code.arg "Float" "sampleRate", Code.arg "Int" "blockSize"] "void" [
    .sequence (Code.lines [
      "engine.metadata.settings.audio.sampleRate = sampleRate",
      "engine.metadata.settings.audio.blockSize = blockSize",
      .sequence regions.initializeBody])]

def dspLoop (regions : Regions) : Function :=
  Code.func "" [Code.arg "Array<FloatArray>" "input", Code.arg "Array<FloatArray>" "output"] "void" [
    .sequence (Code.lines [
      .sequence (Code.code [inputBuffer, " = input"]),
      .sequence (Code.code [outputBuffer, " = output"]),
      .sequence regions.loop])]

def engineObject (program : Program) (regions : Regions) (metadata : String) : Sequence :=
  let receivers := portTable program.hostReceivers.values fun hostPort => hostPort.functionName
  let senders := portTable program.hostSenders.values fun _ => Code.func "" [messageArg] "void"
  Code.lines [
    "const engine = \x7b",
    .sequence (Code.code ["metadata: JSON.parse(", Text.embedded metadata, "),"]),
    .sequence (Code.code ["initialize: ", initializer regions, ","]),
    .sequence (Code.code ["dspLoop: ", dspLoop regions, ","]),
    "io: \x7b",
    .sequence (Code.code ["messageReceivers: ", .sequence receivers, ","]),
    .sequence (Code.code ["messageSenders: ", .sequence senders, ","]),
    "\x7d,",
    .sequence (Code.code ["globals: ", .sequence (moduleTable program), ","]),
    "\x7d"]

/-- The code of a program before it is rendered. -/
def code (program : Program) : Outcome Sequence := do
  let regions ← program.regions
  let metadata ← program.metadata
  return Code.lines [
    "function createEngine() \x7b",
    .sequence (prelude program.settings),
    .sequence (importForwarders program),
    .sequence (Code.lines (regions.declarations.map Part.sequence)),
    .sequence (hostSenders program),
    .sequence (engineObject program regions metadata),
    "return engine",
    "\x7d"]

def source (program : Program) : Outcome String := do
  Code.renderAll .javaScript (← code program)

end Patchbay.Engine.JavaScript
