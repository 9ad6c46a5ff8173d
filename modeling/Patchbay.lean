import Patchbay.Proofs.Program.Merge
import Patchbay.Proofs.Program.Coldness
import Patchbay.Proofs.Graph.SignalOrder
import Patchbay.Main
import Patchbay.Module.Standalone
import Patchbay.Proofs.Program.ColdGroups
import Patchbay.Proofs.Program.Components
import Patchbay.Proofs.Program.Inlining
import Patchbay.Proofs.Program.Split
import Patchbay.Proofs.Graph.Edit
import Patchbay.Proofs.Program.Passes
import Patchbay.Proofs.Program.Partition
import Patchbay.Proofs.Program.InlineOrder
import Patchbay.Proofs.Program.Wiring
import Patchbay.Proofs.Semantics.Inlined
import Patchbay.Proofs.Semantics.Settled
import Patchbay.Proofs.Semantics.Refinement
import Patchbay.Proofs.Code.Fill
import Patchbay.Proofs.Code.Declarations
import Patchbay.Proofs.Code.Writable
import Patchbay.Proofs.Code.Flattening
import Patchbay.Proofs.Code.BareConstants
import Patchbay.Proofs.Module.Linking
import Patchbay.Proofs.Module.Sound
import Patchbay.Proofs.Program.Completion
import Patchbay.Proofs.Program.Composition
import Patchbay.Proofs.Program.Grafting
import Patchbay.Proofs.Program.InletWiring
import Patchbay.Proofs.Text.Identifier
import Patchbay.Proofs.Text.Literal
import Patchbay.Proofs.Graph.Adjacency
import Patchbay.Proofs.Graph.Verdict
import Patchbay.Proofs.Program.Delivery
import Patchbay.Proofs.Program.InletStatements
import Patchbay.Proofs.Program.Assignment
import Patchbay.Proofs.NodeType.Sound
import Patchbay.Proofs.Module.Linkage
import Patchbay.Proofs.Program.Closed
import Patchbay.Proofs.Compile
import Patchbay.Proofs.Requests
import Patchbay.Proofs.Graph.Reachable
import Patchbay.Proofs.Code.Alike
import Patchbay.Proofs.Dialects
import Patchbay.Proofs.Graph.EvaluationOrder
import Patchbay.Proofs.Rearranged
import Patchbay.Proofs.Bundle
import Patchbay.Proofs.Program.InlineTrees
import Patchbay.Proofs.Program.ComposedText
import Patchbay.Proofs.Program.Feedback
import Patchbay.Proofs.Program.HostDelivery
import Patchbay.Proofs.Module.DependencyOrder
import Patchbay.Proofs.Number.Literal
import Patchbay.Proofs.PatchFile.Arguments
import Patchbay.Proofs.NodeType.FixedMessages
import Patchbay.Proofs.Text.IdOrder
import Patchbay.Proofs.Graph.Connections
import Patchbay.Proofs.Graph.Restriction
import Patchbay.Proofs.Graph.Rebuild
