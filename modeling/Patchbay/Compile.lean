import Patchbay.Artifacts
import Patchbay.Engine.AssemblyScript
import Patchbay.Engine.JavaScript
import Patchbay.Program.Precompile

namespace Patchbay

/-! From a graph to the source text of a program. -/

structure Compiled where
  artifacts : Artifacts
  program : Program

namespace Compiled

/-- Every generated name of the program, sorted. -/
def names (compiled : Compiled) : List String := compiled.program.names.allNames

/-- What is logged about a program that was compiled. -/
def summary (compiled : Compiled) : String :=
  let nodes := Text.ofNat compiled.program.fullTraversal.length
  let size := Text.ofNat compiled.artifacts.code.utf8ByteSize
  s!"compiled {nodes} nodes to {compiled.artifacts.target} ({size} bytes)"

end Compiled

def Target.source (target : Target) (program : Program) : Outcome String :=
  match target with
  | .javaScript => Engine.JavaScript.source program
  | .assemblyScript => Engine.AssemblyScript.source program

/-- Renders a program that was laid out for a target. -/
def Program.render (program : Program) (target : Target) : Outcome Compiled := do
  let code ← Outcome.inContext ("render " ++ target.name) (target.source program)
  let metadata ← program.metadata
  return { artifacts := { target := target.name, code, metadata }, program }

/-- Compiles a graph, and gives the passes that were done on the way. -/
def compileWithTrace (graph : Graph) (catalog : Catalog) (library : Library)
    (settings : Settings) : List String × Outcome Compiled :=
  match Target.parse settings.target with
  | .error fault => ([], .error fault)
  | .ok target =>
      let settings := { settings with target := target.name }
      match settings.check with
      | .error fault => ([], .error fault)
      | .ok _ =>
          let (passes, outcome) := Program.precompileWithTrace graph catalog library settings
          (passes, outcome.bind fun program => program.render target)

def compile (graph : Graph) (catalog : Catalog) (library : Library) (settings : Settings) :
    Outcome Compiled :=
  (compileWithTrace graph catalog library settings).2

end Patchbay
