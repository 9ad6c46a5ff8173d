import Patchbay.NodeType.Basic
import Patchbay.Text.Literal

namespace Patchbay.NodeType

open Code (Template FunctionTemplate RecordTemplate)
open Code.Template

/-! Phrases that the code of several node types shares. -/

/-- A text as a string literal of generated code. -/
def quote (value : String) : Template := .text (Text.literal value)

def msg (key : String) : Template := shared "msg" key

/-- The state record of a type is named after the type. -/
def stateRecord (members : List (Template × Template × List Template)) : RecordTemplate where
  name := own "State"
  members := members

/-- Whether an inlet has a source. -/
def connected (site : Site) (inlet : String) : Bool := !(site.node.sourcesOf inlet).isEmpty

/-- The statement for a message that the receiver does not understand. -/
def unsupported (site : Site) : Template :=
  .code [
    "throw new Error(", quote ("[" ++ site.node.type ++ "] unsupported message: "), " + ",
    msg "display", "(m))"]

def isFloatMessage : Template := .code [msg "isMatching", "(m, [", msg "FLOAT_TOKEN", "])"]

def readFloat (index : Int) : Template :=
  .code [msg "readFloatToken", "(m, ", integer index, ")"]

end Patchbay.NodeType
