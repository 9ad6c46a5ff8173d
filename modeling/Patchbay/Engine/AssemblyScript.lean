import Patchbay.Code.Dialect
import Patchbay.Program.Metadata
import Patchbay.Program.Regions

namespace Patchbay.Engine.AssemblyScript

open Code (Sequence Part Function)

/-! Programs in AssemblyScript: one typed module, meant to be compiled to WebAssembly.  Audio buffers
are flat: sample `i` of channel `c` stands at `i + BLOCK_SIZE * c`.
-/

def prelude (settings : Settings) : Sequence :=
  let float := if settings.bitDepth = 32 then "f32" else "f64"
  Code.lines [
    .sequence (Code.code ["type Float = ", float]),
    "type Int = i32",
    .sequence (Code.code ["type FloatArray = ", settings.floatArrayType]),
    Code.func "toFloat" [Code.arg "f64" "v"] "Float" ["return v as Float"],
    Code.func "toInt" [Code.arg "f64" "v"] "Int" ["return v as Int"],
    .sequence Regions.coreVariables,
    Code.var "FloatArray" inputBuffer ["new FloatArray(0)"],
    Code.var "FloatArray" outputBuffer ["new FloatArray(0)"]]

/-- Declarations of what the host provides. -/
def imports (program : Program) : String :=
  String.intercalate "\n" <|
    (program.dependencies.imports.map fun entry => Code.Dialect.declareImport entry.function) ++
      program.hostSenderFunctions.map Code.Dialect.declareImport

/-- The names that the host can see: those of runtime modules and the receivers of the host. -/
def exports (program : Program) : String :=
  let names := program.dependencies.exports.map (·.name) ++
    program.hostReceivers.values.map (·.functionName)
  if names.isEmpty then "" else "export \x7b\n" ++ String.intercalate ",\n" names ++ "\n\x7d"

def initializer (program : Program) (regions : Regions) : Function :=
  Code.func "initialize" [Code.arg "Float" "sampleRate", Code.arg "Int" "blockSize"] "void" [
    .sequence (Code.lines [
      .sequence regions.initializeBody,
      .sequence (Code.code [inputBuffer, " = new FloatArray(", blockSize, " * ",
        .integer program.settings.inputs, ")"]),
      .sequence (Code.code [outputBuffer, " = new FloatArray(", blockSize, " * ",
        .integer program.settings.outputs, ")"])])]

def exported (part : Part) : Part := .sequence (Code.code ["export ", part])

/-- The code of a program before it is rendered. -/
def code (program : Program) : Outcome Sequence := do
  let regions ← program.regions
  let metadata ← program.metadata
  return Code.lines [
    .sequence (prelude program.settings),
    imports program,
    .sequence (Code.lines (regions.declarations.map Part.sequence)),
    exported (initializer program regions),
    exported (Code.func "getInput" [] "FloatArray" ["return ", inputBuffer]),
    exported (Code.func "getOutput" [] "FloatArray" ["return ", outputBuffer]),
    exported (Code.func "dspLoop" [] "void" [.sequence regions.loop]),
    exported (Code.const "string" "metadata" [Text.embedded metadata]),
    exports program]

def source (program : Program) : Outcome String := do
  Code.renderAll .assemblyScript (← code program)

end Patchbay.Engine.AssemblyScript
