import Patchbay.Proofs.Program.Grafts
import Patchbay.Proofs.Program.Reliable
import Patchbay.Proofs.Semantics.ExpressionTree

namespace Patchbay

/-! The text of an inline group.

Composing pastes texts into texts.  Whatever is pasted is a word or stands in parentheses, so for the standard
types the text that the reader of a group gets spells the tree that the group is in the graph.  Arguments have
to be finite numbers for that: what stands for the others would be read as a sum or as a variable.
-/

open Code (Expression Part)
open Code.Expression (Interpretation Spells Derives)

/-- Every argument that stands for a number stands for a finite one. -/
def Graph.FiniteArguments (graph : Graph) : Prop :=
  ∀ id node name value number, graph.node? id = some node → node.arg? name = some value →
    value.toNumber? = some number → Number.IsFinite number

theorem Number.isFinite_zero : IsFinite 0 := ⟨false, 0, Format.double.leastExponent, by decide⟩

/-- The standard types that can be inlined. -/
theorem Catalog.inline_of_standard {type : String} {implementation : Implementation}
    (found : (Program.withAdapters standard).implementation? type = some implementation)
    (isInline : implementation.isInline = true) :
    (type = "sig~" ∧ implementation = NodeType.sig) ∨
      (type = "+~" ∧ implementation = NodeType.binaryOperator "add" "+") ∨
      (type = "*~" ∧ implementation = NodeType.binaryOperator "mul" "*") := by
  unfold implementation? Program.withAdapters at found
  rw [Table.get?_set, Table.get?_set] at found
  split at found
  · cases found
    cases isInline
  split at found
  · cases found
    cases isInline
  have listed := Table.mem_of_get?_ofList (Option.join_eq_some_iff.mp found)
  simp only [List.mem_cons, Prod.mk.injEq, Option.some_inj, List.not_mem_nil, or_false] at listed
  rcases listed with ⟨_, rfl⟩ | ⟨_, rfl⟩ | listed | listed | listed | ⟨_, rfl⟩ | ⟨_, rfl⟩ | ⟨_, rfl⟩ |
    ⟨_, rfl⟩ | ⟨_, rfl⟩ | ⟨_, rfl⟩ | ⟨_, rfl⟩ | ⟨_, rfl⟩ | ⟨_, rfl⟩ | ⟨_, rfl⟩ | ⟨_, rfl⟩ | ⟨_, rfl⟩
  · cases isInline
  · cases isInline
  · exact .inl listed
  · exact .inr (.inl listed)
  · exact .inr (.inr listed)
  all_goals cases isInline

/-- Parts that are texts make up one text. -/
theorem Program.flatText_code {parts : List Part} {values : List String}
    (pieces : Code.piecesOf parts = values.map Part.text) :
    flatText (Code.code parts) = .ok (String.join values) := by
  rw [Code.code, pieces, Code.mergeTexts_texts]
  split
  · next empty =>
    rw [empty]
    rfl
  · change Except.ok (String.join values ++ "") = _
    rw [String.append_empty]

namespace Program

variable {graph : Graph} {library : Library} {settings : Settings} {program : Program}
  {id inlet text code : String} {node : Node} {expression : Expression} {scope : Code.Scope} {dsp : Dsp}

theorem spells_nullSignal : Spells nullSignal (.variable nullSignal) := by
  have isWord : Code.Expression.IsWord nullSignal :=
    ⟨by decide, by simp [nullSignal, Code.Expression.isWordChar, Code.Expression.Token.ofMark?]⟩
  have isName : Code.Expression.startsNumber nullSignal = false := by decide
  have spells := Code.Expression.spells_word isWord
  rwa [Code.Expression.ofWord, if_neg (by simp [isName])] at spells

theorem spells_outletVariable (outlet : Endpoint) :
    Spells (outletVariable outlet) (.variable (outletVariable outlet)) := by
  have spells : Spells (outletVariable outlet ++ "") (.variable (outletVariable outlet ++ "")) :=
    Code.Expression.spells_nodeName (List.cons_ne_nil _ _) (by simp)
  rwa [String.append_empty] at spells

namespace Laying

variable (laying : Laying graph .standard library settings program)

include laying

/-! ## Inlined nodes -/

theorem inline_type (isInlined : id ∈ program.inlined) (found : program.graph.node? id = some node) :
    ∃ implementation, program.catalog.implementation? node.type = some implementation ∧
      ((node.type = "sig~" ∧ implementation = NodeType.sig) ∨
        (node.type = "+~" ∧ implementation = NodeType.binaryOperator "add" "+") ∨
        (node.type = "*~" ∧ implementation = NodeType.binaryOperator "mul" "*")) := by
  obtain ⟨parent, _, inlinable⟩ := (laying.splitInto.inlined id).mp isInlined
  obtain ⟨_, _, stored, implementation, isNode, given, isInline, _⟩ := isInlinable_iff.mp inlinable
  cases found.symm.trans isNode
  exact ⟨implementation, given, Catalog.inline_of_standard (laying.implementation?_eq found ▸ given) isInline⟩

theorem expressive : program.Expressive := by
  intro id isInlined
  obtain ⟨node, found⟩ :=
    laying.splitInto.rooted.known (laying.splitInto.mem_root_of_inlined isInlined)
  refine ⟨node, found, fun operands => ?_⟩
  obtain ⟨_, _, ⟨isType, _⟩ | ⟨isType, _⟩ | ⟨isType, _⟩⟩ := laying.inline_type isInlined found <;>
  · unfold Node.expression?
    rw [isType]
    exact ⟨_, rfl⟩

/-- The argument of an inlined node is that of a node of the graph. -/
theorem finite_argument (finite : graph.FiniteArguments) (isInlined : id ∈ program.inlined)
    (found : program.graph.node? id = some node) : Number.IsFinite (node.floatArg "value" 0) := by
  obtain ⟨before, stored, rewired⟩ := laying.node?_grafted found
  have apart : node.type ≠ receiverType ∧ node.type ≠ senderType := by
    obtain ⟨_, _, ⟨isType, _⟩ | ⟨isType, _⟩ | ⟨isType, _⟩⟩ := laying.inline_type isInlined found <;>
    · rw [isType]
      decide
  have given : ∀ value number, node.arg? "value" = some value → value.toNumber? = some number →
      Number.IsFinite number := by
    obtain ⟨first, isFirst, second⟩ | ⟨⟨kind, _, _⟩, _, second⟩ :=
      laying.setup.grafting.origin stored
    · obtain ⟨own, isOwn, third⟩ := node?_of_start isFirst
      obtain ⟨_, _, rfl⟩ := (third.trans second).trans rewired
      exact fun value number => finite id own "value" value number isOwn
    · obtain ⟨_, _, rfl⟩ := second.trans rewired
      cases kind with
      | receiver => exact absurd rfl apart.1
      | sender => exact absurd rfl apart.2
  unfold Node.floatArg
  cases isValue : node.arg? "value" with
  | none => exact Number.isFinite_zero
  | some value =>
      cases isNumber : value.toNumber? with
      | none => simpa [isNumber] using Number.isFinite_zero
      | some number => simpa [isNumber] using given value number isValue isNumber

/-! ## What was generated -/

theorem generated {implementation : Implementation} (found : program.graph.node? id = some node)
    (given : program.catalog.implementation? node.type = some implementation)
    (member : .generate id scope dsp ∈ laying.events) :
    ∃ template, implementation.dsp = some template ∧ scope.node = node ∧
      scope.state = laying.wired.names.stateOf id ∧
      Code.Granted laying.wired.names scope (template ⟨node, program.settings⟩).reads ∧
      dsp = (template ⟨node, program.settings⟩).resolve scope laying.wired.names.nameOf := by
  obtain ⟨⟨_, entry, isNode, _, isScope⟩, template, isTemplate, granted, isDsp⟩ :=
    laying.emitting.generates member
  have keeps := laying.wiring.keeps
  have sameGraph : laying.wired.graph = program.graph := keeps.graph.trans laying.keeps.graph.symm
  have sameSettings := keeps.settings.trans laying.keeps.settings.symm
  have sameCatalog := keeps.catalog.trans laying.keeps.catalog.symm
  have framed := laying.divided.framed.of_keeps keeps
  rw [sameGraph, found] at isNode
  cases isNode
  have ownId := (laying.framed.wellFormed.fits found).ownId
  obtain ⟨_, isNode, rest⟩ := Option.bind_eq_some_iff.mp isTemplate
  rw [sameGraph, found] at isNode
  cases isNode
  obtain ⟨type, registered, rest⟩ := Option.bind_eq_some_iff.mp rest
  obtain ⟨own, isOwn, rfl⟩ := Option.map_eq_some_iff.mp rest
  have implemented := (framed.typed registered).2.1
  rw [sameCatalog, given] at implemented
  cases implemented
  rw [sameSettings] at granted isDsp
  refine ⟨own, isOwn, ?_, ?_, granted, isDsp⟩
  · rw [isScope]
    rfl
  · rw [isScope, ← ownId]
    rfl

/-- What is at an inlet when the audio code of its node is generated is what the inlet is read by. -/
theorem carries_of_read (member : .generate id scope dsp ∈ laying.events)
    (read : scope.ins.get? inlet = some code) : program.HasSignalInlet ⟨id, inlet⟩ ∧
      program.Carries laying.events ⟨id, inlet⟩ code := by
  have sound := laying.emitting.sound
  obtain ⟨writer, written⟩ := sound.handed member read
  rw [laying.fixed.2.2.2, laying.carries_eq]
  exact ⟨sound.declared written, (sound.written written).2⟩

theorem state_eq_stateName {template : Site → Option Code.RecordTemplate}
    (given : program.stateTemplate? id = some template) :
    laying.wired.names.stateOf id = NameIndex.stateName id := by
  have emitted := (laying.completing.names.states.mp (laying.mem_states_of_template given)).resolve_left
    (by simp)
  have wired := (laying.emitting.names.states.mp emitted).resolve_left List.not_mem_nil
  rw [NameIndex.stateOf, if_pos wired]

/-! ## Texts -/

theorem composed_level (isLevel : program.catalog.implementation? node.type = some NodeType.sig)
    (found : program.graph.node? id = some node) (composed : Composed laying.events id text) :
    text = NameIndex.stateName id ++ ".value" := by
  obtain ⟨scope, dsp, written, member, isWritten, flat⟩ := composed
  obtain ⟨template, isTemplate, _, isState, _, rfl⟩ := laying.generated found isLevel member
  cases isTemplate
  cases isWritten
  obtain ⟨stateTemplate, isGiven⟩ : ∃ template, NodeType.sig.state = some template := ⟨_, rfl⟩
  have given : program.stateTemplate? id = some stateTemplate := by
    obtain ⟨type, registered⟩ := laying.framed.types found
    have implemented := (laying.framed.typed registered).2.1
    rw [isLevel, Option.some_inj] at implemented
    simp [Program.stateTemplate?, found, registered, ← implemented, isGiven]
  rw [laying.state_eq_stateName given] at isState
  have pieces : Code.piecesOf [.text scope.state, .text ".value"] =
      [scope.state, ".value"].map Part.text := rfl
  have written := flatText_code pieces
  cases flat.symm.trans written
  rw [isState]
  simp [String.join_cons]

theorem composed_binary {alphaName operator : String} (isBinary :
      program.catalog.implementation? node.type = some (NodeType.binaryOperator alphaName operator))
    (found : program.graph.node? id = some node) (composed : Composed laying.events id text) :
    ∃ scope dsp left right, .generate id scope dsp ∈ laying.events ∧
      text = left ++ " " ++ operator ++ " " ++ right ∧ scope.ins.get? "0" = some left ∧
      (node.sourcesOf "1" = [] ∧ right = Number.toCode (node.floatArg "value" 0) ∨
        node.sourcesOf "1" ≠ [] ∧ scope.ins.get? "1" = some right) := by
  obtain ⟨scope, dsp, written, member, isWritten, flat⟩ := composed
  obtain ⟨template, isTemplate, isNode, _, granted, rfl⟩ := laying.generated found isBinary member
  cases isTemplate
  cases isWritten
  obtain ⟨left, isLeft⟩ := granted (.portlet .ins "0")
    (by simp [DspTemplate.reads, Code.Template.reads, Code.readsOf])
  have leftText : (scope.portlets .ins).getD "0" "" = left := by simp [Table.getD, isLeft]
  -- the text of the right side stands for the part that it is filled with
  have pasted : ∀ {part : Code.Template} {right : String},
      (part.resolve scope laying.wired.names.nameOf).pieces = [.text right] →
      flatText ((Code.Template.code [.ahead [part], .portlet .ins "0", .text " ", .text operator, .text " ",
        part]).resolve scope laying.wired.names.nameOf).toSequence = .ok text →
      text = left ++ " " ++ operator ++ " " ++ right := by
    intro part right isRight flat
    have pieces : Code.piecesOf (Code.resolveAll scope laying.wired.names.nameOf [.ahead [part],
        .portlet .ins "0", .text " ", .text operator, .text " ", part]) =
        [left, " ", operator, " ", right].map Part.text := by
      simp [Code.resolveAll, Code.Template.resolve, Code.piecesOf, Part.pieces, isRight, leftText]
    cases flat.symm.trans (flatText_code pieces)
    simp [String.join_cons, String.append_assoc]
  by_cases unfed : node.sourcesOf "1" = []
  · have unconnected : NodeType.connected ⟨node, program.settings⟩ "1" = false := by
      simp [NodeType.connected, unfed]
    simp only [unconnected] at flat
    refine ⟨scope, _, left, _, member, pasted ?_ flat, isLeft, .inl ⟨unfed, rfl⟩⟩
    rw [← isNode]
    rfl
  · have isConnected : NodeType.connected ⟨node, program.settings⟩ "1" = true := by
      simp [NodeType.connected, unfed]
    simp only [isConnected] at flat granted
    obtain ⟨right, isRight⟩ := granted (.portlet .ins "1")
      (by simp [DspTemplate.reads, Code.Template.reads, Code.readsOf])
    have rightText : (scope.portlets .ins).getD "1" "" = right := by simp [Table.getD, isRight]
    refine ⟨scope, _, left, right, member, pasted ?_ flat, isLeft, .inr ⟨unfed, isRight⟩⟩
    rw [← rightText]
    rfl

/-- What an inlet is read by spells the tree of what is inlined there, and what stands there otherwise. -/
theorem spells_operand (found : program.graph.node? id = some node)
    (member : .generate id scope dsp ∈ laying.events) (read : scope.ins.get? inlet = some code)
    (silent : program.graph.signalSource? ⟨id, inlet⟩ = none → inlet ≠ "1")
    (inlined : ∀ source, program.inlinedAt? ⟨id, inlet⟩ = some source → ∀ text,
      Composed laying.events source text → Derives .sum (Expression.tokens text) expression)
    (others : program.inlinedAt? ⟨id, inlet⟩ = none → expression = program.operand node inlet) :
    Spells code expression := by
  have ownId := (laying.framed.wellFormed.fits found).ownId
  obtain ⟨_, carries⟩ := laying.carries_of_read member read
  unfold Carries at carries
  cases fed : program.graph.signalSource? ⟨id, inlet⟩ with
  | none =>
      simp only [fed] at carries
      rw [carries, others (inlinedAt?_of_unfed fed), operand, ownId, fed]
      dsimp only
      rw [if_neg (silent fed)]
      exact spells_nullSignal
  | some source =>
      simp only [fed] at carries
      split at carries
      · next isInlined =>
        obtain ⟨text, composed, rfl⟩ := carries
        exact Code.Expression.spells_parenthesised
          (inlined _ (inlinedAt?_of_fed fed isInlined) text composed)
      · next solid =>
        rw [carries, others (inlinedAt?_of_solid fed solid), operand, ownId, fed]
        exact spells_outletVariable source

/-- The text that is composed for an inlined node spells its tree. -/
theorem derives_of_composed (finite : graph.FiniteArguments) (tree : program.ExpressionTree id expression)
    (isInlined : id ∈ program.inlined) (composed : Composed laying.events id text) :
    Derives .sum (Expression.tokens text) expression := by
  induction tree generalizing text with
  | @node id node operands expression found _ others own ih =>
  have ownId := (laying.framed.wellFormed.fits found).ownId
  obtain ⟨implementation, given, types⟩ := laying.inline_type isInlined found
  have sides : ∀ {alphaName operator : String},
      implementation = NodeType.binaryOperator alphaName operator →
        ∃ left right, text = left ++ " " ++ operator ++ " " ++ right ∧ Spells left (operands "0") ∧
          Spells right (operands "1") := by
    rintro alphaName operator rfl
    obtain ⟨scope, dsp, left, right, member, isText, isLeft, isRight⟩ :=
      laying.composed_binary given found composed
    have inlined : ∀ inlet source, program.inlinedAt? ⟨id, inlet⟩ = some source → ∀ text,
        Composed laying.events source text →
          Derives .sum (Expression.tokens text) (operands inlet) := by
      intro inlet source isSource text sourceComposed
      obtain ⟨endpoint, _, sourceInlined, rfl⟩ := inlinedAt?_eq_some_iff.mp isSource
      exact ih inlet _ isSource sourceInlined sourceComposed
    refine ⟨left, right, isText, ?_, ?_⟩
    · exact laying.spells_operand found member isLeft (by simp) (inlined "0") (others "0")
    rcases isRight with ⟨unfed, rfl⟩ | ⟨isFed, isRight⟩
    · have unfed := Graph.signalSource?_eq_none laying.framed.wellFormed found unfed
      rw [others "1" (inlinedAt?_of_unfed unfed), operand, ownId, unfed]
      exact Number.spells_toCode (laying.finite_argument finite isInlined found)
    · refine laying.spells_operand found member isRight (fun unfed => ?_) (inlined "1") (others "1")
      obtain ⟨_, portlet, isNode, isInlet, samePortlet⟩ := (laying.carries_of_read member isRight).1
      cases found.symm.trans isNode
      obtain ⟨isInlet, signal⟩ := List.mem_filter.mp isInlet
      have isSecond : portlet.id = "1" := samePortlet
      rw [← isSecond] at isFed
      obtain ⟨source, isSource⟩ := List.exists_mem_of_ne_nil _ isFed
      have fed := (Graph.signalSource?_eq_some_iff laying.framed.wellFormed).mpr
        ⟨node, portlet, found, isInlet, decide_eq_true_eq.mp signal, samePortlet, isSource⟩
      cases fed.symm.trans unfed
  unfold Node.expression? at own
  rcases types with ⟨isType, rfl⟩ | ⟨isType, isSum⟩ | ⟨isType, isProduct⟩
  · rw [isType] at own
    cases own
    rw [laying.composed_level given found composed, ownId]
    refine .summand (.factor (Code.Expression.spells_nodeName (by simp) ?_))
    simp [Code.Expression.isWordChar, Code.Expression.Token.ofMark?]
  · rw [isType] at own
    cases own
    obtain ⟨left, right, rfl, isLeft, isRight⟩ := sides isSum
    exact isLeft.plus isRight
  · rw [isType] at own
    cases own
    obtain ⟨left, right, rfl, isLeft, isRight⟩ := sides isProduct
    exact isLeft.times isRight

/-- An inlet of a node that stays is read by the text of the node that is inlined there. -/
theorem signalIn?_of_inlined {sink source : Endpoint}
    (fed : program.graph.signalSource? sink = some source) (isInlined : source.node ∈ program.inlined)
    (solid : sink.node ∉ program.inlined) : ∃ text, Composed laying.events source.node text ∧
      program.signalIn? sink = some ("(" ++ text ++ ")") := by
  rw [laying.keeps.graph] at fed
  rw [laying.fixed.1] at isInlined solid
  obtain ⟨writer, code, written⟩ := laying.emitting.written sink source fed isInlined solid
  have carries := (laying.emitting.sound.written written).2
  unfold Carries at carries
  simp only [fed, if_pos isInlined] at carries
  obtain ⟨text, composed, rfl⟩ := carries
  refine ⟨text, composed, ?_⟩
  rw [laying.signalIn?]
  exact (laying.emitting.recorded sink _).mpr ⟨writer, written⟩

end Laying

/-! ## Inline groups -/

/-- What the reader of an inline group gets spells the tree of the out node of the group.  The tree has the
value that the reader would find at the outlet if the members assigned their variables in order. -/
theorem inline_texts_spell_trees {known : Option Catalog} {reporter : Reporter}
    (accepted : (graph.check known reporter).2 = .ok ()) (finite : graph.FiniteArguments)
    (compiled : precompile graph .standard library settings = .ok program) :
    ∀ group ∈ program.inlineDsp, ∃ last node consumer source text expression,
      group.outNodes = [last] ∧ program.graph.node? last = some node ∧ node.signalSinks = [consumer] ∧
      program.graph.signalSource? consumer = some source ∧ source.node = last ∧
      program.signalIn? consumer = some text ∧ Expression.parse text = some expression ∧
      (∀ other, program.ExpressionTree last other ↔ other = expression) ∧
      ∀ {V : Type u} (meaning : Interpretation V) (values : String → V),
        expression.evaluate meaning values =
          program.assignAll meaning group.traversal values (outletVariable source) := by
  obtain ⟨laying⟩ := laying_of_precompile (Graph.wellFormed_of_check accepted) compiled
  have held := laying.splitInto
  intro group registered
  obtain ⟨parent, isParent, last, inlineGroup⟩ := held.exists_inline_parent registered
  have closed := held.closed_inlineGroup isParent inlineGroup
  have lastInside : last ∈ group.traversal := inlineGroup.ordered.covers last (by simp)
  have lastInlined := closed.inlined last lastInside
  obtain ⟨node, consumer, source, found, single, fed, rfl, solid⟩ :=
    held.inlineGroup_reader isParent inlineGroup
  obtain ⟨expression, tree⟩ := held.exists_tree laying.expressive lastInlined
  obtain ⟨text, composed, isRead⟩ := laying.signalIn?_of_inlined fed lastInlined solid
  have spells := Code.Expression.spells_parenthesised
    (laying.derives_of_composed finite tree lastInlined composed)
  refine ⟨source.node, node, consumer, source, _, expression, inlineGroup.outs, found, single, fed, rfl,
    isRead, spells.parse, fun other => ⟨fun again => again.unique tree, fun same => same ▸ tree⟩, ?_⟩
  intro V meaning values
  have assigned := held.assignAll_group laying.expressive isParent inlineGroup meaning values
  exact (assigned.own fed lastInside tree).symm

/-! A mix with feedback: `p` reads the inlined `q` and `m`, and what it gives comes back over `l`. -/

def mixNode (id type : String) (sources sinks : List (String × String)) : Node :=
  { feedbackNode id type sources sinks with inlets := [⟨"0", .signal⟩, ⟨"1", .signal⟩] }

def mixNodes : List Node :=
  [{ mixNode "l" "+~" [("1", "p")] [("q", "1"), ("m", "0"), ("p", "1")] with
     args := some (.ofList [("value", .integer .machine (-2))]) },
   mixNode "q" "*~" [("1", "l")] [("m", "1")],
   mixNode "m" "+~" [("0", "l"), ("1", "q")] [("p", "0")],
   mixNode "p" "*~" [("0", "m"), ("1", "l")] [("d", "0"), ("l", "1")],
   { mixNode "d" "dac~" [("0", "p")] [] with outlets := [], sinks := ∅, isPullingSignal := true }]

def mixGraph : Graph := ⟨.ofList (mixNodes.map fun node => (node.id, some node))⟩

theorem mix_finite : mixGraph.FiniteArguments := by
  intro id node name value number found given isNumber
  obtain ⟨slot, held, isNode⟩ := Option.bind_eq_some_iff.mp found
  have listed : (id, slot) ∈ mixNodes.map fun node => (node.id, some node) :=
    Table.mem_of_get?_ofList held
  obtain ⟨other, isOther, same⟩ := List.mem_map.mp listed
  cases same
  cases isNode
  simp only [mixNodes, List.mem_cons, List.not_mem_nil, or_false] at isOther
  rcases isOther with rfl | rfl | rfl | rfl | rfl
  · cases Table.mem_of_get?_ofList given with
    | head =>
        cases isNumber
        exact ⟨true, Nat.pow 2 52, -51, by decide +kernel⟩
    | tail _ later => cases later
  all_goals cases given

/-- Nothing is connected to the left inlet of `q`. -/
theorem inline_texts_spell_trees_mix :
    ∃ program, (mixGraph.check (some .standard) .discarding).2 = .ok () ∧ mixGraph.FiniteArguments ∧
      precompile mixGraph .standard toneLibrary {} = .ok program ∧
      program.inlineDsp.map DspGroup.traversal = [["q", "m"]] ∧
      program.signalIn? ⟨"p", "0"⟩ = some "(N_l_outs_0 + (NULL_SIGNAL * N_l_outs_0))" ∧
      program.ExpressionTree "m" (.sum (.variable "N_l_outs_0")
        (.product (.variable "NULL_SIGNAL") (.variable "N_l_outs_0"))) ∧
      ∀ {V : Type} (meaning : Interpretation V) (values : String → V),
        meaning.add (values "N_l_outs_0")
            (meaning.mul (values "NULL_SIGNAL") (values "N_l_outs_0")) =
          program.assignAll meaning ["q", "m"] values "N_m_outs_0" := by
  have accepted : (mixGraph.check (some .standard) .discarding).2 = .ok () := by cbv
  have evaluated : (do
      let program ← precompile mixGraph .standard toneLibrary {}
      return (program.inlineDsp.map fun group => (group.traversal, group.outNodes),
        (program.graph.node? "m").map Node.signalSinks,
        program.graph.signalSource? ⟨"p", "0"⟩, program.signalIn? ⟨"p", "0"⟩)) =
      Except.ok ([(["q", "m"], ["m"])], some [⟨"p", "0"⟩], some ⟨"m", "0"⟩,
        some "(N_l_outs_0 + (NULL_SIGNAL * N_l_outs_0))") := by
    cbv
  obtain ⟨program, compiled, evaluated⟩ := Outcome.bind_eq_ok_iff.mp evaluated
  have lists := Except.ok.inj evaluated
  simp only [Prod.mk.injEq] at lists
  obtain ⟨grouped, sinks, fed, isRead⟩ := lists
  obtain ⟨group, registered, same⟩ : ∃ group ∈ program.inlineDsp,
      (group.traversal, group.outNodes) = (["q", "m"], ["m"]) :=
    List.mem_map.mp (grouped ▸ List.mem_singleton_self _)
  obtain ⟨isTraversal, isOut⟩ := Prod.mk.inj same
  obtain ⟨last, node, consumer, source, text, expression, outs, found, single, isFed, _, read, parsed, tree,
    value⟩ := inline_texts_spell_trees accepted mix_finite compiled group registered
  cases isOut.symm.trans outs
  rw [found] at sinks
  cases single.symm.trans (Option.some_inj.mp sinks)
  cases fed.symm.trans isFed
  cases isRead.symm.trans read
  have spelled : Expression.parse "(N_l_outs_0 + (NULL_SIGNAL * N_l_outs_0))" =
      some (.sum (.variable "N_l_outs_0")
        (.product (.variable "NULL_SIGNAL") (.variable "N_l_outs_0"))) := by
    decide +kernel
  cases spelled.symm.trans parsed
  refine ⟨program, accepted, mix_finite, compiled, ?_, isRead, (tree _).mpr rfl, fun meaning values => ?_⟩
  · simpa [List.map_map] using congrArg (List.map Prod.fst) grouped
  · exact isTraversal ▸ value meaning values

end Program

end Patchbay
