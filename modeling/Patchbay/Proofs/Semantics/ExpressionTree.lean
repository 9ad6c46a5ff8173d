import Patchbay.Proofs.Code.Expression
import Patchbay.Proofs.Program.InlineTrees
import Patchbay.Proofs.Semantics.Settled

namespace Patchbay

/-! The trees of inlined nodes.

An inlined node of a standard type stands for a state variable, a sum or a product of what is at its inlets.
Where another inlined node is there, its tree stands for its variable, so every inlined node has a tree over
the variables of the nodes that stay.  When the members of an inline group assign their variables one after
the other, each is assigned the value of its tree: its sources came before it, and nothing that it reads from
outside the group is assigned in between.
-/

open Code (Expression)
open Code.Expression (Interpretation)

/-- The expression of a node of a standard type that can be inlined, over what stands at its inlets. -/
def Node.expression? (node : Node) (operand : String → Expression) : Option Expression :=
  match node.type with
  | "sig~" => some (.variable (NameIndex.stateName node.id ++ ".value"))
  | "+~" => some (.sum (operand "0") (operand "1"))
  | "*~" => some (.product (operand "0") (operand "1"))
  | _ => none

namespace Program

variable {V : Type u} {program : Program} {groups : List DspGroup} {group parent : DspGroup}
  {id last : String} {node : Node} {inlet source : Endpoint} {expression other : Expression}
  {meaning : Interpretation V} {values later : String → V}

/-! ## Trees -/

/-- What stands at an inlet when every source has a variable. -/
def operand (program : Program) (node : Node) (inlet : String) : Expression :=
  match program.graph.signalSource? ⟨node.id, inlet⟩ with
  | some source => .variable (outletVariable source)
  | none =>
      if inlet = "1" then .literal (Number.toCode (node.floatArg "value" 0))
      else .variable nullSignal

/-- The node that is inlined into an inlet. -/
def inlinedAt? (program : Program) (inlet : Endpoint) : Option String :=
  (program.graph.signalSource? inlet).bind fun source =>
    if source.node ∈ program.inlined then some source.node else none

theorem inlinedAt?_eq_some_iff : program.inlinedAt? inlet = some id ↔
    ∃ source, program.graph.signalSource? inlet = some source ∧ source.node ∈ program.inlined ∧
      source.node = id := by
  simp [inlinedAt?, Option.bind_eq_some_iff]

theorem inlinedAt?_of_fed (fed : program.graph.signalSource? inlet = some source)
    (isInlined : source.node ∈ program.inlined) : program.inlinedAt? inlet = some source.node :=
  inlinedAt?_eq_some_iff.mpr ⟨source, fed, isInlined, rfl⟩

theorem inlinedAt?_of_solid (fed : program.graph.signalSource? inlet = some source)
    (solid : source.node ∉ program.inlined) : program.inlinedAt? inlet = none := by
  simp [inlinedAt?, fed, solid]

theorem inlinedAt?_of_unfed (unfed : program.graph.signalSource? inlet = none) :
    program.inlinedAt? inlet = none := by
  simp [inlinedAt?, unfed]

/-- The expression of a node, in which the trees of inlined sources stand for their variables. -/
inductive ExpressionTree (program : Program) : String → Expression → Prop where
  | node {id : String} {node : Node} {operands : String → Expression} {expression : Expression}
      (found : program.graph.node? id = some node)
      (inlined : ∀ inlet source, program.inlinedAt? ⟨id, inlet⟩ = some source →
        ExpressionTree program source (operands inlet))
      (others : ∀ inlet, program.inlinedAt? ⟨id, inlet⟩ = none →
        operands inlet = program.operand node inlet)
      (own : node.expression? operands = some expression) : ExpressionTree program id expression

theorem ExpressionTree.unique (one : program.ExpressionTree id expression)
    (two : program.ExpressionTree id other) : expression = other := by
  induction one generalizing other with
  | @node id node operands expression found _ others own ih =>
      obtain ⟨foundAgain, inlinedAgain, othersAgain, ownAgain⟩ := two
      cases found.symm.trans foundAgain
      have same : operands = _ := funext fun inlet => by
        cases given : program.inlinedAt? ⟨id, inlet⟩ with
        | some source => exact ih inlet source given (inlinedAgain inlet source given)
        | none => exact (others inlet given).trans (othersAgain inlet given).symm
      rw [same] at own
      exact Option.some_inj.mp (own.symm.trans ownAgain)

/-- Whether all inlined nodes are of a type that stands for an expression. -/
def Expressive (program : Program) : Prop :=
  ∀ id ∈ program.inlined, ∃ node, program.graph.node? id = some node ∧
    ∀ operands, ∃ expression, node.expression? operands = some expression

theorem SplitInto.exists_tree (held : program.SplitInto groups) (expressive : program.Expressive)
    (isInlined : id ∈ program.inlined) : ∃ expression, program.ExpressionTree id expression := by
  induction place : program.rootDsp.traversal.idxOf id using Nat.strong_induction_on
    generalizing id with
  | _ place ih =>
      subst place
      obtain ⟨node, found, own⟩ := expressive id isInlined
      have operands : ∀ inlet, ∃ expression,
          (∀ source, program.inlinedAt? ⟨id, inlet⟩ = some source →
            program.ExpressionTree source expression) ∧
          (program.inlinedAt? ⟨id, inlet⟩ = none → expression = program.operand node inlet) := by
        intro inlet
        cases given : program.inlinedAt? ⟨id, inlet⟩ with
        | none => exact ⟨_, by simp, fun _ => rfl⟩
        | some source =>
            obtain ⟨endpoint, fed, sourceInlined, rfl⟩ := inlinedAt?_eq_some_iff.mp given
            have earlier := held.place_lt_reader sourceInlined
              (Graph.feeds_of_signalSource? held.wellFormed fed)
            obtain ⟨expression, tree⟩ := ih _ earlier sourceInlined rfl
            refine ⟨expression, fun source same => ?_, by simp⟩
            cases same
            exact tree
      choose operands inlined others using operands
      obtain ⟨expression, isOwn⟩ := own operands
      exact ⟨expression, .node found inlined others isOwn⟩

/-! ## Values -/

/-- The variable that the only reader of an inlined node would read. -/
def ownVariable? (program : Program) (node : Node) : Option String :=
  node.signalSinks.head?.bind fun sink => (program.graph.signalSource? sink).map outletVariable

/-- Assigns to the variable of a node what its expression gives. -/
def assign (program : Program) (meaning : Interpretation V) (values : String → V) (id : String) :
    String → V :=
  match program.graph.node? id with
  | none => values
  | some node =>
      match program.ownVariable? node, node.expression? (program.operand node) with
      | some name, some expression => Function.update values name (expression.evaluate meaning values)
      | _, _ => values

/-- The variables after some nodes assigned theirs, one after the other. -/
def assignAll (program : Program) (meaning : Interpretation V) (ids : List String)
    (values : String → V) : String → V :=
  ids.foldl (program.assign meaning) values

theorem toList_outletVariable (outlet : Endpoint) : (outletVariable outlet).toList =
    'N' :: '_' :: Text.joinParts [outlet.node, "outs", outlet.portlet] := by
  rw [outletVariable, Text.join, String.toList_ofList]
  rfl

theorem outletVariable_injective : Function.Injective outletVariable := by
  rintro ⟨node, portlet⟩ ⟨other, otherPortlet⟩ same
  have parts := Text.join_injective (by simp) (by simp) same
  simp only [List.cons.injEq, true_and, and_true] at parts
  rw [parts.1, parts.2]

theorem outletVariable_ne_nullSignal (outlet : Endpoint) : nullSignal ≠ outletVariable outlet := by
  intro same
  have starts := toList_outletVariable outlet
  rw [← same] at starts
  cases starts

theorem outletVariable_ne_value (name : String) (outlet : Endpoint) :
    name ++ ".value" ≠ outletVariable outlet := by
  intro same
  have point : '.' ∈ (outletVariable outlet).toList := by simp [← same]
  rw [outletVariable, Text.join, String.toList_ofList] at point
  rcases Text.cases_of_mem_joinParts point with plain | mark | mark
  · exact absurd plain (by decide)
  · exact absurd mark (by decide)
  · exact absurd mark (by decide)

/-- Expressions have the same value where the same stands at the inlets and in the state. -/
theorem evaluate_of_expression? {operands others : String → Expression}
    (own : node.expression? operands = some expression) (otherOwn : node.expression? others = some other)
    (state : values (NameIndex.stateName node.id ++ ".value") =
      later (NameIndex.stateName node.id ++ ".value"))
    (same : ∀ inlet, (operands inlet).evaluate meaning values = (others inlet).evaluate meaning later) :
    expression.evaluate meaning values = other.evaluate meaning later := by
  unfold Node.expression? at own otherOwn
  split at own
  · next isType =>
    rw [isType] at otherOwn
    cases own
    cases otherOwn
    exact state
  · next isType =>
    rw [isType] at otherOwn
    cases own
    cases otherOwn
    exact congrArg₂ meaning.add (same "0") (same "1")
  · next isType =>
    rw [isType] at otherOwn
    cases own
    cases otherOwn
    exact congrArg₂ meaning.mul (same "0") (same "1")
  · cases own

/-- Variables after some inlined nodes assigned theirs: these have the values of the trees, and all others
are as they were. -/
structure Assigned (program : Program) (meaning : Interpretation V) (values : String → V)
    (done : List String) (current : String → V) : Prop where
  own : ∀ {inlet source expression}, program.graph.signalSource? inlet = some source →
    source.node ∈ done → program.ExpressionTree source.node expression →
      current (outletVariable source) = expression.evaluate meaning values
  others : ∀ {name}, (∀ outlet : Endpoint, outlet.node ∈ done → name ≠ outletVariable outlet) →
    current name = values name

/-- What stands at an inlet has the value of its tree once the node that is inlined there assigned its own. -/
theorem Assigned.evaluate_operand {done : List String} {current : String → V} {inlet : String}
    {tree : Expression} (assigned : program.Assigned meaning values done current)
    (solid : ∀ other ∈ done, other ∈ program.inlined)
    (inlined : ∀ source, program.inlinedAt? ⟨node.id, inlet⟩ = some source →
      source ∈ done ∧ program.ExpressionTree source tree)
    (others : program.inlinedAt? ⟨node.id, inlet⟩ = none → tree = program.operand node inlet) :
    (program.operand node inlet).evaluate meaning current = tree.evaluate meaning values := by
  cases given : program.inlinedAt? ⟨node.id, inlet⟩ with
  | some source =>
      obtain ⟨isDone, isTree⟩ := inlined source given
      obtain ⟨endpoint, fed, _, rfl⟩ := inlinedAt?_eq_some_iff.mp given
      rw [operand, fed]
      exact assigned.own fed isDone isTree
  | none =>
      rw [others given, operand]
      cases fed : program.graph.signalSource? ⟨node.id, inlet⟩ with
      | some endpoint =>
          refine assigned.others fun outlet isDone same => ?_
          have isInlined := solid outlet.node isDone
          rw [← outletVariable_injective same] at isInlined
          rw [inlinedAt?_of_fed fed isInlined] at given
          cases given
      | none =>
          dsimp only
          split
          · rfl
          · exact assigned.others fun outlet _ => outletVariable_ne_nullSignal outlet

namespace SplitInto

theorem ownVariable?_eq (held : program.SplitInto groups) (isInlined : id ∈ program.inlined)
    (found : program.graph.node? id = some node) : ∃ sink source,
      node.signalSinks = [sink] ∧ program.graph.signalSource? sink = some source ∧ source.node = id ∧
        program.ownVariable? node = some (outletVariable source) := by
  obtain ⟨parent, _, inlinable⟩ := (held.inlined id).mp isInlined
  obtain ⟨stored, sink, isStored, single, _⟩ := isInlinable_facts inlinable
  cases found.symm.trans isStored
  obtain ⟨source, fed, isSource⟩ := Graph.signalSource?_of_mem_signalSinks held.wellFormed found
    (show sink ∈ node.signalSinks by simp [single])
  exact ⟨sink, source, single, fed, isSource, by simp [ownVariable?, single, fed]⟩

/-- An inlined node assigns the value of its tree once the nodes that are inlined into it did. -/
theorem assign_step (held : program.SplitInto groups) (expressive : program.Expressive)
    {done : List String} {current : String → V}
    (assigned : program.Assigned meaning values done current)
    (inlined : ∀ other ∈ done, other ∈ program.inlined) (isInlined : id ∈ program.inlined)
    (sources : ∀ {source}, program.InlinedInto source id → source ∈ done) :
    program.Assigned meaning values (done ++ [id]) (program.assign meaning current id) := by
  obtain ⟨node, found, own⟩ := expressive id isInlined
  obtain ⟨expression, isOwn⟩ := own (program.operand node)
  obtain ⟨sink, source, _, fed, isSource, isVariable⟩ := held.ownVariable?_eq isInlined found
  have ownId : node.id = id := (held.wellFormed.fits found).ownId
  have changed : program.assign meaning current id =
      Function.update current (outletVariable source) (expression.evaluate meaning current) := by
    simp [assign, found, isVariable, isOwn]
  have gives : ∀ {tree}, program.ExpressionTree id tree →
      expression.evaluate meaning current = tree.evaluate meaning values := by
    intro tree isTree
    obtain ⟨foundAgain, operandTrees, others, treeOwn⟩ := isTree
    cases found.symm.trans foundAgain
    refine evaluate_of_expression? isOwn treeOwn
      (assigned.others fun outlet _ => outletVariable_ne_value _ outlet) fun inlet => ?_
    refine assigned.evaluate_operand inlined (fun source isSource => ?_) (ownId.symm ▸ others inlet)
    rw [ownId] at isSource
    obtain ⟨endpoint, endpointFed, endpointInlined, rfl⟩ := inlinedAt?_eq_some_iff.mp isSource
    exact ⟨sources ⟨Graph.feeds_of_signalSource? held.wellFormed endpointFed, endpointInlined⟩,
      operandTrees inlet _ isSource⟩
  rw [changed]
  refine ⟨fun {inlet endpoint tree} endpointFed isDone isTree => ?_, fun {name} apart => ?_⟩
  · by_cases isNew : endpoint.node = id
    · have sameInlet := held.inlet_unique (isSource ▸ isInlined) fed endpointFed (isNew.trans isSource.symm)
      rw [sameInlet, endpointFed] at fed
      cases fed
      rw [Function.update_self]
      exact gives (isNew ▸ isTree)
    · have earlier : endpoint.node ∈ done := (List.mem_append.mp isDone).resolve_right fun last =>
        isNew (List.mem_singleton.mp last)
      have apart : outletVariable endpoint ≠ outletVariable source := fun same => by
        rw [outletVariable_injective same] at isNew
        exact isNew isSource
      rw [Function.update_of_ne apart]
      exact assigned.own endpointFed earlier isTree
  · rw [Function.update_of_ne (apart source (by simp [isSource]))]
    exact assigned.others fun outlet isDone => apart outlet (List.mem_append_left _ isDone)

/-- In an inline group a node comes after those that are inlined into it. -/
theorem precedes_in_group (held : program.SplitInto groups) (isParent : parent ∈ program.parents groups)
    (inlineGroup : program.InlineGroupOf parent group last) {source : String}
    (inGroup : id ∈ group.traversal) (step : program.InlinedInto source id) :
    Graph.Precedes group.traversal source id := by
  have closed := held.closed_inlineGroup isParent inlineGroup
  have inlinable := inlineGroup.inlinable held.wellFormed (closed.sources inGroup step)
  have upstream := (upstream_isInlinable_iff held.wellFormed).mpr ⟨step.1, inlinable⟩
  refine (inlineGroup.ordered.precedes_or_reaches inGroup upstream).resolve_right fun reaches => ?_
  refine held.not_reaches_source step (Relation.ReflTransGen.mono (fun from_ sink next => ?_) _ _ reaches)
  obtain ⟨feeds, isInlinable⟩ := (upstream_isInlinable_iff held.wellFormed).mp next
  exact ⟨feeds, (held.inlined from_).mpr ⟨parent, isParent, isInlinable⟩⟩

/-- The members of an inline group assign the values of their trees. -/
theorem assignAll_group (held : program.SplitInto groups) (expressive : program.Expressive)
    (isParent : parent ∈ program.parents groups)
    (inlineGroup : program.InlineGroupOf parent group last) (meaning : Interpretation V)
    (values : String → V) :
    program.Assigned meaning values group.traversal (program.assignAll meaning group.traversal values) := by
  have closed := held.closed_inlineGroup isParent inlineGroup
  refine foldl_invariant (fun done current => program.Assigned meaning values done current)
    ⟨fun _ isDone => absurd isDone List.not_mem_nil, fun _ => rfl⟩ ?_
  intro done id rest current split assigned
  have distinct := inlineGroup.ordered.distinct
  have inGroup : ∀ {other}, other ∈ done ++ [id] → other ∈ group.traversal := by
    intro other member
    rw [split, List.append_cons]
    exact List.mem_append_left rest member
  refine held.assign_step expressive assigned
    (fun other isDone => closed.inlined other (inGroup (List.mem_append_left _ isDone)))
    (closed.inlined id (inGroup (by simp))) fun {source} step => ?_
  have precedes := held.precedes_in_group isParent inlineGroup (inGroup (by simp)) step
  rw [split] at precedes distinct
  exact precedes.mem_done distinct (by simp)

end SplitInto

end Program

end Patchbay
