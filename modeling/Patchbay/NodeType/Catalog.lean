import Patchbay.NodeType.Audio
import Patchbay.NodeType.Control
import Patchbay.NodeType.Storage

namespace Patchbay.Catalog

/-! The node types that come with the compiler, aliases included. -/

def standard : Catalog :=
  .ofList [
    ("dac~", some NodeType.dac),
    ("osc~", some NodeType.osc),
    ("sig~", some NodeType.sig),
    ("+~", some (NodeType.binaryOperator "add" "+")),
    ("*~", some (NodeType.binaryOperator "mul" "*")),
    ("lop~", some NodeType.lop),
    ("loadbang", some NodeType.loadbang),
    ("metro", some NodeType.metro),
    ("float", some NodeType.float),
    ("msg", some NodeType.message),
    ("tabwrite", some NodeType.tabwrite),
    ("send", some NodeType.send),
    ("receive", some NodeType.receive),
    ("soundfiler", some NodeType.soundfiler),
    ("f", some NodeType.float),
    ("s", some NodeType.send),
    ("r", some NodeType.receive)]

end Patchbay.Catalog
