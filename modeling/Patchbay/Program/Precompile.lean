import Patchbay.Program.Declarations
import Patchbay.Program.Groups
import Patchbay.Program.HostPorts
import Patchbay.Program.Loop
import Patchbay.Program.Receivers

namespace Patchbay.Program

/-! Laying a program out: a fixed sequence of passes, each of which relies on what those before it
registered.
-/

/-- One step of the layout, under the name it is reported by. -/
structure Pass where
  name : String
  run : Program → Outcome Program

def passes : List Pass :=
  [⟨"io", graftHostPorts⟩,
   ⟨"dead-code", keepReachable⟩,
   ⟨"dependencies", embedModules⟩,
   ⟨"node-types", declareTypes⟩,
   ⟨"state", instantiateStates⟩,
   ⟨"dsp-groups", splitSignal⟩,
   ⟨"portlets", wirePortlets⟩,
   ⟨"dsp", emitDsp⟩,
   ⟨"receivers", completeNodes⟩]

def Pass.apply (pass : Pass) (program : Program) : Outcome Program :=
  Outcome.inContext ("precompile: " ++ pass.name) (pass.run program)

/-- Runs passes until one fails, and gives the names of those that were done. -/
def runPasses : List Pass → Program → List String × Outcome Program
  | [], program => ([], .ok program)
  | pass :: rest, program =>
      match pass.apply program with
      | .error fault => ([], .error fault)
      | .ok next =>
          let (completed, outcome) := runPasses rest next
          (pass.name :: completed, outcome)

/-- The program before the first pass.  The types of the adapter nodes are always available. -/
def start (graph : Graph) (catalog : Catalog) (library : Library) (settings : Settings) :
    Program :=
  let graph := graph.trim graph.sortedIds
  let catalog : Catalog := (catalog.set receiverType (some receiverAdapter)).set senderType
    (some senderAdapter)
  { graph, catalog, library, settings, names := { graph, labels := Catalog.labels catalog } }

/-- Lays a program out, and gives the passes that were done. -/
def precompileWithTrace (graph : Graph) (catalog : Catalog) (library : Library)
    (settings : Settings) : List String × Outcome Program :=
  runPasses passes (start graph catalog library settings)

def precompile (graph : Graph) (catalog : Catalog) (library : Library) (settings : Settings) :
    Outcome Program :=
  (precompileWithTrace graph catalog library settings).2

end Patchbay.Program
