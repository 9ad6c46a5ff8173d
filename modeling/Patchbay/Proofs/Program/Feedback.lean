import Patchbay.Proofs.Program.ComposedText

namespace Patchbay

/-! Inlined expressions on feedback loops.

The text at the reader of an inlined node mentions the variables of the nodes that stay and feed the operands
of what is inlined there, and no others.  Nodes are chosen for inlining by their type and their only reader, so
the reader can be one of these nodes: then its text mentions its own variable.  That takes a signal loop, and a
reader on none reads the same whether it assigns its variables before or after.
-/

open Code (Expression)
open Code.Expression (Interpretation)
open Relation (TransGen)

namespace Code.Expression

/-- The variables that an expression is made of. -/
def names : Expression → List String
  | .variable name => [name]
  | .literal _ => []
  | .sum left right => left.names ++ right.names
  | .product left right => left.names ++ right.names

/-- A variable that an expression does not name can be changed. -/
theorem evaluate_update {V : Type u} {meaning : Interpretation V} {values : String → V} {name : String}
    (value : V) : ∀ {expression : Expression}, name ∉ expression.names →
      expression.evaluate meaning (Function.update values name value) = expression.evaluate meaning values
  | .variable other, absent => by
      have apart : other ≠ name := fun same => absent (by simp [names, same])
      exact Function.update_of_ne apart value values
  | .literal _, _ => rfl
  | .sum left right, absent => by
      rw [names, List.mem_append, not_or] at absent
      exact congrArg₂ meaning.add (evaluate_update value absent.1) (evaluate_update value absent.2)
  | .product left right, absent => by
      rw [names, List.mem_append, not_or] at absent
      exact congrArg₂ meaning.mul (evaluate_update value absent.1) (evaluate_update value absent.2)

end Code.Expression

/-- The inlets that the expression of a node of a standard type is made of. -/
def Node.operands (node : Node) : List String :=
  match node.type with
  | "+~" | "*~" => ["0", "1"]
  | _ => []

namespace Program

variable {graph : Graph} {library : Library} {settings : Settings} {program : Program}
  {id inlet : String} {node : Node} {outlet : Endpoint} {expression : Expression}

/-! ## Variables of trees -/

/-- A node that stays feeds an operand of a node, or of a node that is inlined into it. -/
inductive Mentions (program : Program) : String → Endpoint → Prop where
  | own {id inlet : String} {node : Node} {outlet : Endpoint}
      (found : program.graph.node? id = some node) (operand : inlet ∈ node.operands)
      (fed : program.graph.signalSource? ⟨id, inlet⟩ = some outlet)
      (solid : outlet.node ∉ program.inlined) : Mentions program id outlet
  | inlined {id inlet source : String} {node : Node} {outlet : Endpoint}
      (found : program.graph.node? id = some node) (operand : inlet ∈ node.operands)
      (given : program.inlinedAt? ⟨id, inlet⟩ = some source)
      (mentions : Mentions program source outlet) : Mentions program id outlet

/-- What is mentioned leads to the node along signal connections. -/
theorem Mentions.leads (wellFormed : program.graph.WellFormed) (mentions : program.Mentions id outlet) :
    TransGen program.graph.Feeds outlet.node id := by
  induction mentions with
  | own _ _ fed _ => exact .single (Graph.feeds_of_signalSource? wellFormed fed)
  | inlined _ _ given _ ih =>
      obtain ⟨source, fed, _, rfl⟩ := inlinedAt?_eq_some_iff.mp given
      exact ih.tail (Graph.feeds_of_signalSource? wellFormed fed)

theorem mem_names_expression? {operands : String → Expression}
    (own : node.expression? operands = some expression) :
    outletVariable outlet ∈ expression.names ↔
      ∃ inlet ∈ node.operands, outletVariable outlet ∈ (operands inlet).names := by
  unfold Node.expression? at own
  unfold Node.operands
  split at own
  · next isType =>
    cases own
    simp [isType, Expression.names, (outletVariable_ne_value _ outlet).symm]
  · next isType =>
    cases own
    simp [isType, Expression.names]
  · next isType =>
    cases own
    simp [isType, Expression.names]
  · cases own

theorem mem_names_operand : outletVariable outlet ∈ (program.operand node inlet).names ↔
    program.graph.signalSource? ⟨node.id, inlet⟩ = some outlet := by
  unfold operand
  cases program.graph.signalSource? ⟨node.id, inlet⟩ with
  | some source => simp [Expression.names, outletVariable_injective.eq_iff, eq_comm]
  | none =>
      dsimp only
      split
      · simp [Expression.names]
      · simp [Expression.names, (outletVariable_ne_nullSignal outlet).symm]

/-- The tree of a node holds the variables of the outlets that the node mentions. -/
theorem ExpressionTree.mem_names_iff (wellFormed : program.graph.WellFormed)
    (tree : program.ExpressionTree id expression) :
    outletVariable outlet ∈ expression.names ↔ program.Mentions id outlet := by
  induction tree with
  | @node id node operands expression found _ others own ih =>
  have ownId := (wellFormed.fits found).ownId
  have solidOperand : ∀ inlet, program.inlinedAt? ⟨id, inlet⟩ = none →
      (outletVariable outlet ∈ (operands inlet).names ↔
        program.graph.signalSource? ⟨id, inlet⟩ = some outlet) := fun inlet given => by
    rw [others inlet given, mem_names_operand, ownId]
  rw [mem_names_expression? own]
  constructor
  · rintro ⟨inlet, isOperand, mentioned⟩
    cases given : program.inlinedAt? ⟨id, inlet⟩ with
    | some source => exact .inlined found isOperand given ((ih inlet source given).mp mentioned)
    | none =>
        have fed := (solidOperand inlet given).mp mentioned
        refine .own found isOperand fed fun isInlined => ?_
        rw [inlinedAt?_of_fed fed isInlined] at given
        cases given
  · intro mentions
    cases mentions with
    | @own _ inlet _ _ foundAgain isOperand fed solid =>
        cases found.symm.trans foundAgain
        exact ⟨inlet, isOperand, (solidOperand inlet (inlinedAt?_of_solid fed solid)).mpr fed⟩
    | @inlined _ inlet source _ _ foundAgain isOperand given mentions =>
        cases found.symm.trans foundAgain
        exact ⟨inlet, isOperand, (ih inlet source given).mpr mentions⟩

/-! ## Texts at readers -/

/-- The text at the reader of an inlined node mentions an outlet of the reader only where the reader lies on a
signal loop.  Elsewhere it has the same value when the reader has assigned a variable of its own before. -/
theorem reader_mentioned_on_loops_only {known : Option Catalog} {reporter : Reporter}
    (accepted : (graph.check known reporter).2 = .ok ()) (finite : graph.FiniteArguments)
    (compiled : precompile graph .standard library settings = .ok program) :
    ∀ inlet source, program.graph.signalSource? inlet = some source → source.node ∈ program.inlined →
      inlet.node ∉ program.inlined → ∃ text expression,
        program.signalIn? inlet = some text ∧ Expression.parse text = some expression ∧
        (∀ outlet, outletVariable outlet ∈ expression.names ↔ program.Mentions source.node outlet) ∧
        (∀ outlet, outlet.node = inlet.node → outletVariable outlet ∈ expression.names →
          TransGen program.graph.Feeds inlet.node inlet.node) ∧
        (¬ TransGen program.graph.Feeds inlet.node inlet.node →
          ∀ {V : Type u} (meaning : Interpretation V) (values : String → V) (portlet : String) (value : V),
            expression.evaluate meaning
                (Function.update values (outletVariable ⟨inlet.node, portlet⟩) value) =
              expression.evaluate meaning values) := by
  obtain ⟨laying⟩ := laying_of_precompile (Graph.wellFormed_of_check accepted) compiled
  have wellFormed := laying.framed.wellFormed
  intro inlet source fed isInlined solid
  obtain ⟨expression, tree⟩ := laying.splitInto.exists_tree laying.expressive isInlined
  obtain ⟨text, composed, isRead⟩ := laying.signalIn?_of_inlined fed isInlined solid
  have spells := Code.Expression.spells_parenthesised
    (laying.derives_of_composed finite tree isInlined composed)
  have mentioned : ∀ outlet, outletVariable outlet ∈ expression.names ↔
      program.Mentions source.node outlet := fun _ => tree.mem_names_iff wellFormed
  have looping : ∀ outlet, outlet.node = inlet.node → outletVariable outlet ∈ expression.names →
      TransGen program.graph.Feeds inlet.node inlet.node := fun outlet same isVariable => by
    have leads := ((mentioned outlet).mp isVariable).leads wellFormed
    exact (same ▸ leads).tail (Graph.feeds_of_signalSource? wellFormed fed)
  refine ⟨_, expression, isRead, spells.parse, mentioned, looping, ?_⟩
  intro loopless V meaning values portlet value
  refine Expression.evaluate_update value fun isVariable => loopless ?_
  exact looping ⟨inlet.node, portlet⟩ rfl isVariable

/-! A product `s` of itself and the sum `x`, which reads it twice. -/

def echoNodes : List Node :=
  [mixNode "s" "*~" [("0", "x"), ("1", "s")] [("x", "0"), ("x", "1"), ("s", "1"), ("d", "0")],
   mixNode "x" "+~" [("0", "s"), ("1", "s")] [("s", "0")],
   { mixNode "d" "dac~" [("0", "s")] [] with outlets := [], sinks := ∅, isPullingSignal := true }]

def echoGraph : Graph := ⟨.ofList (echoNodes.map fun node => (node.id, some node))⟩

theorem echo_finite : echoGraph.FiniteArguments := by
  intro id node name value number found given _
  obtain ⟨slot, held, isNode⟩ := Option.bind_eq_some_iff.mp found
  obtain ⟨other, isOther, same⟩ := List.mem_map.mp (Table.mem_of_get?_ofList held)
  cases same
  cases isNode
  simp only [echoNodes, List.mem_cons, List.not_mem_nil, or_false] at isOther
  rcases isOther with rfl | rfl | rfl <;> cases given

theorem echo_laid_out : (do
      let program ← precompile echoGraph .standard toneLibrary {}
      return (program.inlined, program.graph.signalSource? ⟨"s", "0"⟩, program.signalIn? ⟨"s", "0"⟩)) =
      Except.ok (["x"], some ⟨"x", "0"⟩, some "(N_s_outs_0 + N_s_outs_0)") := by
    cbv

/-- The sum has one reader and is inlined into it, though the reader is also what feeds it. -/
theorem reader_mentioned_echo :
    ∃ program, (echoGraph.check (some .standard) .discarding).2 = .ok () ∧
      precompile echoGraph .standard toneLibrary {} = .ok program ∧
      program.signalIn? ⟨"s", "0"⟩ = some "(N_s_outs_0 + N_s_outs_0)" ∧
      program.Mentions "x" ⟨"s", "0"⟩ ∧ TransGen program.graph.Feeds "s" "s" := by
  have accepted : (echoGraph.check (some .standard) .discarding).2 = .ok () := by cbv
  obtain ⟨program, compiled, evaluated⟩ := Outcome.bind_eq_ok_iff.mp echo_laid_out
  have facts := Except.ok.inj evaluated
  simp only [Prod.mk.injEq] at facts
  obtain ⟨inlined, fed, isRead⟩ := facts
  obtain ⟨text, expression, isReadAgain, parsed, mentioned, looping, _⟩ :=
    reader_mentioned_on_loops_only.{0} accepted echo_finite compiled _ _ fed (by simp [inlined])
      (by simp [inlined])
  cases isRead.symm.trans isReadAgain
  have spelled : Expression.parse "(N_s_outs_0 + N_s_outs_0)" =
      some (.sum (.variable "N_s_outs_0") (.variable "N_s_outs_0")) := by
    decide +kernel
  cases spelled.symm.trans parsed
  have isVariable : outletVariable ⟨"s", "0"⟩ ∈
      (Expression.sum (.variable "N_s_outs_0") (.variable "N_s_outs_0")).names := by decide +kernel
  exact ⟨program, accepted, compiled, isRead, (mentioned _).mp isVariable, looping _ rfl isVariable⟩

end Program

end Patchbay
