import Patchbay.Table
import Patchbay.Value

namespace Patchbay

/-! Compile settings: the target language, the audio format, the message ports that the host can
reach, named arrays and metadata that is passed through untouched.
-/

inductive Target where
  | javaScript
  | assemblyScript
deriving DecidableEq, Repr, Inhabited

def Target.name : Target → String
  | .javaScript => "javascript"
  | .assemblyScript => "assemblyscript"

/-- Portlet ids by node id.  A node can be named without a list of its portlets. -/
abbrev Ports := Table (Option (List String))

structure Settings where
  /-- The target as it was written; only its exact name counts until it is parsed. -/
  target : String := "javascript"
  bitDepth : Int := 64
  inputs : Int := 2
  outputs : Int := 2
  /-- Message inlets that the host can send to. -/
  receivers : Option Ports := none
  /-- Message outlets that the host listens to. -/
  senders : Option Ports := none
  /-- Named arrays that exist when a program starts. -/
  arrays : Table (List Float) := ∅
  customMetadata : Option (Table Value) := none
  debug : Bool := false
deriving Inhabited

namespace Settings

def isAssemblyScript (settings : Settings) : Bool :=
  settings.target = Target.assemblyScript.name

/-- The typed array that matches the bit depth. -/
def floatArrayType (settings : Settings) : String :=
  if settings.bitDepth = 32 then "Float32Array" else "Float64Array"

end Settings

end Patchbay
