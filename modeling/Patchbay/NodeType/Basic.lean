import Patchbay.Module.Basic

namespace Patchbay

/-! Node types: what a node of some type contributes to a program.

Every contribution is optional and given as a template, which may depend on the
node at hand and on the settings.
-/

/-- Where a node's code is generated. -/
structure Site where
  node : Node
  settings : Settings

/-- Code of the audio loop: an expression for types that can be inlined, or statements.  The
statements of an inlet run before those of the node, and only when the inlet is connected. -/
structure DspTemplate where
  expression : Option Code.Template := none
  loop : Option Code.Template := none
  inlets : List (String × Code.Template) := []

structure Implementation where
  /-- Whether the output depends on inputs and message-set state only. -/
  isPure : Bool := false
  /-- Whether the audio code is one expression that may stand at its only reader. -/
  isInline : Bool := false
  /-- Stands for the type in generated names; empty when the type does that itself. -/
  alphaName : String := ""
  /-- Definitions of the runtime modules the code uses. -/
  dependencies : List String := []
  /-- The state record, with the initial values of this node. -/
  state : Option (Site → Option Code.RecordTemplate) := none
  initialization : Option (Site → Code.Template) := none
  /-- Message receivers by inlet. -/
  receivers : Option (Site → List (String × Option Code.FunctionTemplate)) := none
  dsp : Option (Site → DspTemplate) := none
  /-- Code that all nodes of the type share. -/
  core : Option (Settings → Code.Template) := none
deriving Inhabited

/-- Implementations by node type; a type can be listed without one. -/
abbrev Catalog := Table (Option Implementation)

namespace Catalog

def implementation? (catalog : Catalog) (type : String) : Option Implementation :=
  (catalog.get? type).join

/-- What the types that have an implementation are called in names. -/
def labels (catalog : Catalog) : Table String :=
  .ofList (catalog.entries.filterMap fun (type, slot) => slot.map fun implementation =>
    (type, if implementation.alphaName = "" then type else implementation.alphaName))

end Catalog

/-- Variables that every generated program defines. -/
def sampleRate : String := "SAMPLE_RATE"

def blockSize : String := "BLOCK_SIZE"

def frameCounter : String := "FRAME"

def loopFrame : String := "IT_FRAME"

def inputBuffer : String := "INPUT"

def outputBuffer : String := "OUTPUT"

def nullSignal : String := "NULL_SIGNAL"

/-- A message receiver takes one message and returns nothing. -/
def receiverTemplate (body : List Code.Template) : Code.FunctionTemplate where
  args := [("Message", "m", none)]
  result := "void"
  body := body

end Patchbay
