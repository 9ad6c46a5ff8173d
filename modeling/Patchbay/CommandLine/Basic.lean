import Patchbay.Assembler
import Patchbay.CommandLine.Flags
import Patchbay.Compile
import Patchbay.Configuration
import Patchbay.Graph.Check
import Patchbay.Graph.Listing
import Patchbay.NodeType.Catalog
import Patchbay.PatchFile.Load
import Patchbay.Program.Listing

namespace Patchbay.CommandLine

/-! The commands: compiling a patch, checking patches and looking into one.

A command is a function of its arguments, the environment and the files it can see.
It gives what it printed, the files as it left them and, when it failed, why; what
was printed and written before a failure stays.
-/

/-- What surrounds a run. -/
structure Host where
  environment : Table String := ∅
  assemble : Artifacts → AssemblyOptions → FileTree → FileTree × Outcome Artifacts

/-- A host with assemblers that can be started. -/
def Host.ofTools (environment : Table String) (tools : Tools) : Host where
  environment := environment
  assemble artifacts options tree := artifacts.assemble tools options tree

/-- What was handed to an assembler. -/
structure Assembly where
  options : AssemblyOptions
  target : String

structure Session where
  tree : FileTree
  output : String := ""
  diagnostics : String := ""
  assembly : Option Assembly := none

abbrev Command := ExceptT Fault (StateM Session)

def ofOutcome : Outcome α → Command α
  | .ok value => pure value
  | .error fault => throw fault

def say (text : String) : Command Unit :=
  modify fun session => { session with diagnostics := session.diagnostics ++ text }

/-- Passes on what a reporter has written since the last time. -/
def flush (reporter : Reporter) : Command Reporter := do
  say reporter.output
  return { reporter with output := "" }

/-- A step that reports and may fail. -/
def reporting (step : Reporter × Outcome α) : Command (Reporter × α) := do
  let reporter ← flush step.1
  let value ← ofOutcome step.2
  return (reporter, value)

/-- Writes a result to a file, or prints it. -/
def deliver (path content : String) : Command Unit := do
  if path = "" ∨ path = "-" then
    modify fun session => { session with output := session.output ++ content }
  else
    let tree ← ofOutcome ((← get).tree.store path content)
    modify fun session => { session with tree }

/-- The flags of every command. -/
def commonFlags : List (String × FlagValue) := [
  ("target", .text ""),
  ("bit-depth", .integer 0),
  ("settings", .text ""),
  ("env", .text ".env"),
  ("diag-format", .text ""),
  ("v", .switch false)]

/-- Reads the flags of a command; what is wrong with them is printed, too. -/
def readFlags (own : List (String × FlagValue)) (arguments : List String) :
    Command (Flags × List String) := do
  match Flags.parse (.ofList (commonFlags ++ own)) arguments with
  | .ok parsed => return parsed
  | .error .helpRequested => throw .helpRequested
  | .error fault => do
      say (fault.message ++ "\n")
      throw fault

/-- A patch with the settings for it. -/
structure Job where
  reporter : Reporter
  graph : Graph
  settings : Settings

/-- Settings as the flags change them.  A target that is known gets its full name. -/
def Flags.override (flags : Flags) (settings : Settings) : Settings :=
  let target := if flags.text "target" = "" then settings.target else flags.text "target"
  let bitDepth := if flags.integer "bit-depth" = 0 then settings.bitDepth
    else flags.integer "bit-depth"
  let known := match Target.parse target with
    | .ok parsed => parsed.name
    | .error _ => target
  { settings with target := known, bitDepth }

/-- Resolves the settings and loads a patch.  Its arrays are added to those of the settings. -/
def prepare (host : Host) (flags : Flags) (path : String) : Command Job := do
  let tree := (← get).tree
  let configuration ← ofOutcome
    (Configuration.load tree host.environment (flags.text "settings") (flags.text "env"))
  let format := if flags.text "diag-format" = "" then configuration.logFormat
    else flags.text "diag-format"
  let reporter := { Reporter.new format with isVerbose := flags.switch "v" }
  let settings := flags.override configuration.settings
  let (reporter, patch) ← reporting (Patch.load tree path "" reporter)
  if reporter.hasErrors then throw (.reportedErrors path)
  return { reporter
           graph := patch.graph
           settings := { settings with arrays := settings.arrays.union patch.arrays } }

def Job.check (job : Job) : Command Job := do
  let (reporter, _) ← reporting (job.graph.check (some Catalog.standard) job.reporter)
  return { job with reporter }

/-- Lays out the program of a job; its faults are put into a context. -/
def Job.precompile (job : Job) (inContext : Outcome Program → Outcome Program := id) :
    Command Program := do
  ofOutcome job.settings.check
  let (passes, outcome) :=
    Program.precompileWithTrace job.graph Catalog.standard Library.standard job.settings
  let (_, program) ← reporting (job.reporter.passesDone passes, inContext outcome)
  return program

/-- Compiles a job. -/
def Job.compile (job : Job) : Command Compiled := do
  let (passes, outcome) :=
    compileWithTrace job.graph Catalog.standard Library.standard job.settings
  let (reporter, compiled) ← reporting (job.reporter.passesDone passes, outcome)
  let _ ← flush (reporter.debug compiled.summary)
  return compiled

def assemble (host : Host) (flags : Flags) (artifacts : Artifacts) : Command String := do
  let options : AssemblyOptions :=
    { assemblerPath := flags.text "asc"
      flags := Text.words (flags.text "asc-flags")
      sourcePath := flags.text "asc-source" }
  let (tree, outcome) := host.assemble artifacts options (← get).tree
  modify fun session =>
    { session with tree, assembly := some ⟨options, artifacts.target⟩ }
  let assembled ← ofOutcome outcome
  ofOutcome (assembled.get "wasm")

def compileFlags : List (String × FlagValue) := [
  ("emit", .text "code"),
  ("o", .text ""),
  ("asc", .text ""),
  ("asc-flags", .text ""),
  ("asc-source", .text "")]

def compileCommand (host : Host) (arguments : List String) : Command Unit := do
  let (flags, operands) ← readFlags compileFlags arguments
  let [path] := operands | throw (.wrongArgumentCount "compile command" "exactly one patch file")
  let job ← prepare host flags path
  let job ← job.check
  let compiled ← job.compile
  let artifacts := compiled.artifacts
  let output := flags.text "o"
  match flags.text "emit" with
  | "code" => deliver output (← ofOutcome (artifacts.get "code"))
  | "metadata" => deliver output (← ofOutcome (artifacts.get "metadata"))
  | "bundle" => deliver output (artifacts.bundle compiled.names)
  | "wasm" => do
      if output = "" ∨ output = "-" then throw .missingOutputPath
      deliver output (← assemble host flags artifacts)
  | other => throw (.unknownEmission other)

def lintFile (host : Host) (flags : Flags) (path : String) : Command Unit := do
  let job ← prepare host flags path
  let job ← job.check
  if flags.switch "precompile" then
    let _ ← job.precompile (Outcome.inContext path)

def lintCommand (host : Host) (arguments : List String) : Command Unit := do
  let (flags, operands) ← readFlags [("precompile", .switch true)] arguments
  if operands.isEmpty then throw (.wrongArgumentCount "lint" "at least one patch file")
  operands.forM (lintFile host flags)

def inspectCommand (host : Host) (arguments : List String) : Command Unit := do
  let (flags, operands) ← readFlags
    [("o", .text ""), ("graph", .switch true), ("program", .switch true)] arguments
  let [path] := operands | throw (.wrongArgumentCount "inspect" "exactly one patch file")
  let job ← prepare host flags path
  let graph := if flags.switch "graph" then job.graph.listing else ""
  let program ← if flags.switch "program" then do
      pure (← job.precompile).listing
    else pure ""
  deliver (flags.text "o") (graph ++ program)

def usage : String :=
  "Pure Data patch compiler\n\n" ++
  "Usage:\n" ++
  "  pdc <command> [options] <patch.json|patch.yaml>\n\n" ++
  "Commands:\n" ++
  "  compile    Compile a patch to JavaScript, AssemblyScript or WebAssembly\n" ++
  "  lint       Check a patch graph without generating code\n" ++
  "  inspect    Print the graph and the precompiled program layout\n"

/-- The command that arguments ask for. -/
def command (host : Host) : List String → Command Unit
  | [] => do
      say usage
      throw .missingCommand
  | "compile" :: arguments => compileCommand host arguments
  | "lint" :: arguments => lintCommand host arguments
  | "inspect" :: arguments => inspectCommand host arguments
  | name :: _ => do
      say usage
      throw (.unknownCommand name)

/-- The paths that arguments may name. -/
def paths (arguments : List String) : List String :=
  ".env" :: arguments.flatMap fun argument =>
    argument :: ((splitAssignment argument.toList).2.map String.ofList).toList

/-- Runs a command on the files of a directory. -/
def run (host : Host) (tree : FileTree) (arguments : List String) : Session × Option Fault :=
  match (command host arguments).run { tree } with
  | (.ok _, session) => (session, none)
  | (.error fault, session) => (session, some fault)

end Patchbay.CommandLine
