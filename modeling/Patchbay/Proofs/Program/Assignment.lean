import Patchbay.Proofs.Program.InletStatements
import Patchbay.Proofs.Semantics.ExpressionTree

namespace Patchbay

/-! Expressions of nodes that stay.

The expression of an inlined node stands in parentheses at the inlet that the node feeds, whichever outlet the
connection leaves.  A node that stays assigns its expression to a variable instead, and that is always the
variable of its first signal outlet.  So both ways give an inlet the same where it is fed from that outlet; the
variables of the other outlets are read as well, but the statement of the node does not assign them.
-/

open Code (Sequence Part)

namespace Program

variable {graph : Graph} {catalog : Catalog} {library : Library} {settings : Settings}
  {program : Program} {id name other : String} {node : Node} {inlet source : Endpoint}
  {expression : Sequence} {scope : Code.Scope} {dsp : Dsp}

/-! ## Statements -/

def loop? (program : Program) (id : String) : Option Sequence :=
  (program.nodes.entries.get? id).bind fun entry => entry.loop

def assignment (name : String) (expression : Sequence) : Sequence :=
  Code.code [name, " = ", .sequence expression]

/-- What follows the name of the variable in an assignment. -/
theorem exists_assignment_eq (expression : Sequence) : ∃ text rest, ∀ name,
    assignment name expression = .text (name ++ text) :: rest := by
  have merged : ∃ text rest, Code.mergeTexts (.text " = " :: Code.piecesOf expression) =
      .text text :: rest := by
    rw [Code.mergeTexts, if_neg (by decide)]
    unfold Code.prependText
    split <;> exact ⟨_, _, rfl⟩
  obtain ⟨text, rest, merged⟩ := merged
  refine ⟨text, rest, fun name => ?_⟩
  have pieces : Code.piecesOf [name, " = ", .sequence expression] =
      .text name :: .text " = " :: Code.piecesOf expression := by
    simp [Code.piecesOf, Part.pieces]
  rw [assignment, Code.code, pieces, Code.mergeTexts]
  split
  · next empty => rw [empty, merged, String.empty_append]
  · rw [merged, Code.prependText]

theorem assignment_inj : assignment name expression = assignment other expression ↔ name = other := by
  obtain ⟨text, rest, isAssignment⟩ := exists_assignment_eq expression
  rw [isAssignment, isAssignment]
  simp

theorem loop?_eq_solid? : program.loop? id = (program.solid? id).bind fun entry => entry.loop := by
  unfold loop? solid?
  cases program.nodes.entries.get? id <;> rfl

theorem loop_completed (program : Program) (id : String) (entry : NodeCode) :
    (program.completed id entry).loop = entry.loop := by
  unfold completed withSetup
  split <;> rfl

namespace Laying

variable (laying : Laying graph catalog library settings program)

include laying

theorem loop?_eq_emitted : program.loop? id = laying.emitted.loop? id := by
  rw [loop?_eq_solid?, loop?_eq_solid?]
  exact laying.bind_solid?_eq_emitted fun entry => loop_completed laying.emitted id entry

theorem loop?_eq_assignment (looped : id ∈ program.loopNodes)
    (generated : .generate id scope dsp ∈ laying.events) (isExpression : dsp.expression = some expression)
    (found : program.graph.node? id = some node) {first : Portlet} {rest : List Portlet}
    (outlets : node.outletsOfType .signal = first :: rest) :
    program.loop? id = some (assignment (outletVariable ⟨id, first.id⟩) expression) := by
  rw [laying.loopNodes_eq] at looped
  rw [laying.keeps.graph] at found
  obtain ⟨_, _, other, foundAgain, member, same⟩ := laying.emitting.looped looped
  cases found.symm.trans foundAgain
  obtain ⟨_, rfl⟩ := laying.emitting.sound.generate_unique generated member
  obtain ⟨entry, stored⟩ := laying.divided.framed.entry found
  have isVariable := get?_signalOuts_wiredEntry laying.divided.framed.wellFormed found looped
    (show first ∈ node.outletsOfType .signal by simp [outlets]) entry.solid
  rw [laying.loop?_eq_emitted, loop?_eq_solid?, same, laying.wiring.nodes, solid?_of_entry stored,
    Option.map_some, Option.map_some, Option.bind_some, withLoop, isExpression, outlets]
  dsimp only
  rw [Table.getD, isVariable, Option.getD_some, assignment]

/-- A signal inlet of an audio node is read by what its source decides. -/
theorem exists_carried (listed : inlet.node ∈ program.rootDsp.traversal)
    (hasInlet : program.HasSignalInlet inlet) :
    ∃ code, program.signalIn? inlet = some code ∧ program.Carries laying.events inlet code := by
  obtain ⟨_, sameRoot, _, sameInlets⟩ := laying.fixed
  rw [sameRoot] at listed
  rw [sameInlets] at hasInlet
  have sound := laying.emitting.sound
  obtain ⟨scope, dsp, generated⟩ := mem_generatedIn_iff.mp (laying.emitting.complete.mpr listed)
  obtain ⟨earlier, later, isSplit⟩ := List.append_of_mem generated
  obtain ⟨writer, code, before, _⟩ := (sound.ordered isSplit).1 hasInlet
  have written : .write writer inlet code ∈ laying.events := by
    rw [isSplit]
    exact List.mem_append_left _ before
  rw [laying.signalIn?, laying.carries_eq]
  exact ⟨code, (laying.emitting.recorded inlet code).mpr ⟨writer, written⟩, (sound.written written).2⟩

end Laying

/-- Where the source of a signal inlet gives an expression, the inlet is read by this expression if the source
is inlined, and by a variable if it stays.  The loop statement of the source assigns the expression to this
variable if the inlet is fed from the first signal outlet, and only then. -/
theorem expression_assigned_to_first_outlet {known : Option Catalog} {reporter : Reporter}
    (accepted : (graph.check known reporter).2 = .ok ())
    (compiled : precompile graph catalog library settings = .ok program) :
    ∃ events, (layOutLogged graph catalog library settings).run [] = .ok (program, events) ∧
      ∀ inlet source, inlet.node ∈ program.rootDsp.traversal →
        program.graph.signalSource? inlet = some source →
        ∃ scope dsp, .generate source.node scope dsp ∈ events ∧
          ∀ expression, dsp.expression = some expression →
            (source.node ∈ program.inlined → ∃ text, flatText expression = .ok text ∧
              program.signalIn? inlet = some ("(" ++ text ++ ")")) ∧
            (source.node ∉ program.inlined →
              program.signalIn? inlet = some (outletVariable source) ∧
              (program.loop? source.node = some (assignment (outletVariable source) expression) ↔
                source.portlet = program.graph.firstOutlet source.node)) := by
  obtain ⟨laying⟩ := laying_of_precompile (Graph.wellFormed_of_check accepted) compiled
  have wellFormed := laying.framed.wellFormed
  have held := laying.splitInto
  refine ⟨laying.events, laying.logged, fun inlet source listed fed => ?_⟩
  have feeds := Graph.feeds_of_signalSource? wellFormed fed
  obtain ⟨code, isRead, carries⟩ := laying.exists_carried listed (hasSignalInlet_of_fed wellFormed fed)
  have sourceListed := held.rooted.mem_of_reaches wellFormed listed (.single feeds)
  rw [laying.fixed.2.1] at sourceListed
  obtain ⟨scope, dsp, generated⟩ := mem_generatedIn_iff.mp (laying.emitting.complete.mpr sourceListed)
  refine ⟨scope, dsp, generated, fun expression isExpression => ⟨fun isInlined => ?_, fun solid => ?_⟩⟩
  · simp only [Carries, fed, if_pos isInlined] at carries
    obtain ⟨text, ⟨_, other, written, member, isWritten, flat⟩, rfl⟩ := carries
    obtain ⟨_, rfl⟩ := laying.emitting.sound.generate_unique generated member
    cases isExpression.symm.trans isWritten
    exact ⟨text, flat, isRead⟩
  · simp only [Carries, fed, if_neg solid] at carries
    rw [← carries]
    refine ⟨isRead, ?_⟩
    have looped := held.mem_loopNodes_of_feeds listed feeds solid
    obtain ⟨node, outlet, found, isOutlet, _⟩ := Graph.mem_sinksOf_of_signalSource? wellFormed fed
    obtain ⟨first, rest, outlets⟩ := List.exists_cons_of_ne_nil (List.ne_nil_of_mem isOutlet)
    have isFirst : program.graph.firstOutlet source.node = first.id := by
      simp [Graph.firstOutlet, found, outlets]
    rw [laying.loop?_eq_assignment looped generated isExpression found outlets, isFirst, carries,
      Option.some_inj, assignment_inj, outletVariable_injective.eq_iff, eq_comm]
    obtain ⟨sourceNode, portlet⟩ := source
    simp

/-! A gain `g` with two outlets, between an oscillator `o` and the channels of an output `d`. -/

def gainNodes : List (Option Node) := [
  some { id := "o", type := "osc", outlets := [⟨"0", .signal⟩] },
  some { id := "g", type := "op", inlets := [⟨"0", .signal⟩]
         outlets := [⟨"0", .signal⟩, ⟨"1", .signal⟩] },
  some { id := "d", type := "dac", inlets := [⟨"0", .signal⟩, ⟨"1", .signal⟩], isPullingSignal := true }]

/-- What the first channel reads and the statements of the program, when the second outlet of the gain feeds
some channels. -/
def gainCode (channels : List String) : Outcome (Option String × List Part) := do
  let graph ← Graph.build gainNodes
    (⟨⟨"o", "0"⟩, ⟨"g", "0"⟩⟩ :: channels.map fun channel => ⟨⟨"g", "1"⟩, ⟨"d", channel⟩⟩)
  (graph.check none .discarding).2
  let program ← precompile graph toneCatalog toneLibrary {}
  return (program.signalIn? ⟨"d", "0"⟩, program.steps.flatMap program.partsOf)

/-- One channel is given the expression.  Two channels read the variable of the second outlet, and nothing
assigns it. -/
theorem gain_assigned_at_first_outlet :
    gainCode ["0"] = .ok (some "(1)", []) ∧
      gainCode ["0", "1"] = .ok (some "N_g_outs_1", [.sequence [.text "N_g_outs_0 = 1"]]) := by
  constructor <;> cbv

end Program

end Patchbay
