import Patchbay.Proofs.Program.Alike
import Patchbay.Proofs.Program.Completion
import Patchbay.Proofs.Program.Journal

namespace Patchbay

/-! The code of nodes in two programs side by side.  Loops may be written differently; expressions, setup
code and receivers are the same.
-/

/-- The audio code of one node in two programs. -/
structure Program.Dsp.Alike (exact : Prop) (dsp twin : Dsp) : Prop where
  rest : twin = { dsp with loop := twin.loop }
  loop : exact → twin.loop = dsp.loop

variable {exact : Prop} {template templateToo : DspTemplate} {scope scopeToo : Code.Scope}

theorem DspTemplate.Alike.reads_eq (alike : template.Alike exact templateToo) :
    template.reads = templateToo.reads := by
  unfold DspTemplate.reads DspTemplate.inletIds DspTemplate.statementOf
  rw [alike.expression, alike.reads, alike.inlets]

theorem DspTemplate.Alike.resolve (alike : template.Alike exact templateToo) (scopes : scope.Alike scopeToo)
    (naming : Code.Naming) : (template.resolve scope naming).Alike exact (templateToo.resolve scopeToo naming) where
  rest := by
    unfold DspTemplate.resolve DspTemplate.inletIds DspTemplate.statementOf
    simp only [Code.Template.resolve_congr scopes, alike.expression, alike.inlets]
  loop same := by
    unfold DspTemplate.resolve
    simp only [Code.Template.resolve_congr scopes, alike.loop same]

namespace Program

variable {program twin : Program} {node nodeToo : Node} {id : String}

namespace Alike

variable (alike : program.Alike exact twin)

include alike

theorem generateDsp (id : String) : Outcome.Alike (fun result other => result.1.Alike other.1 ∧
      result.2.1.Alike exact other.2.1 ∧ result.2.2.Alike exact other.2.2)
    (program.generateDsp id) (twin.generateDsp id) := by
  refine (alike.scopeOf id).bind fun result other held => ?_
  obtain ⟨scope, program⟩ := result
  obtain ⟨scopeToo, twin⟩ := other
  obtain ⟨scopes, alike⟩ := held
  dsimp only at scopes alike ⊢
  rw [← scopes.node.type, ← alike.types, ← contextOf_congr scopes.node]
  refine .bind_same fun type registered => ?_
  cases given : type.implementation.dsp with
  | none => exact .fault _
  | some template =>
      have templates := (alike.typeOf registered).dsp _ given (alike.site scopes.node)
      have fillsToo := fillDsp_fills scopeToo (template ⟨scopeToo.node, twin.settings⟩)
      rw [← templates.reads_eq] at fillsToo
      refine (alike.fillReads _ scopes (fillDsp_fills scope _) fillsToo (templates.resolve scopes _)).bind
        fun result other held => .pure ⟨scopes.node, held.1, held.2⟩

theorem setInlet (id inlet code : String) :
    (program.setInlet id inlet code).Alike exact (twin.setInlet id inlet code) :=
  alike.refineRest id (fun _ _ => rfl) fun _ => rfl

end Alike

/-! ## Inline groups -/

theorem feeds_congr (nodes : node.Alike nodeToo) : feeds node = feeds nodeToo := by
  unfold feeds
  rw [← nodes.inletsOfType]
  refine List.flatMap_congr fun inlet member => ?_
  obtain ⟨isInlet, signal⟩ := List.mem_filter.mp member
  rw [nodes.signals inlet isInlet (of_decide_eq_true signal)]

theorem resolveReceivers_congr (scopes : scope.Alike scopeToo)
    (templates : List (String × Option Code.FunctionTemplate)) :
    resolveReceivers templates scope = resolveReceivers templates scopeToo := by
  funext naming
  unfold resolveReceivers
  simp only [Code.FunctionTemplate.resolve_congr scopes]

theorem Alike.inlineExpression (alike : program.Alike exact twin) (members : List String) (id : String) :
    Outcome.Alike (AlikeWith exact Eq) (program.inlineExpression members id)
      (twin.inlineExpression members id) := by
  induction program, members, id using inlineExpression.induct generalizing twin with
  | case1 program members id present ih =>
      rw [inlineExpression_eq members present, inlineExpression_eq members present]
      refine (alike.graph.lookup id).bind fun node nodeToo nodes => ?_
      refine (alike.nodes.get id).bind fun _ _ _ => ?_
      rw [← feeds_congr nodes]
      refine .via (Alike exact) (.foldlM_same alike fun state stateToo feed _ alike => ?_)
        fun program twin alike => ?_
      · split
        · refine (ih state feed.2 alike).bind fun result other held => .pure ?_
          rw [held.1]
          exact held.2.setInlet _ _ _
        · exact .pure alike
      · refine (alike.generateDsp id).bind fun result other held => ?_
        obtain ⟨node, dsp, program⟩ := result
        obtain ⟨nodeToo, dspToo, twin⟩ := other
        obtain ⟨nodes, dsps, alike⟩ := held
        dsimp only at nodes dsps alike ⊢
        rw [dsps.rest, ← nodes.type]
        cases dsp.expression with
        | none => exact .fault _
        | some expression => exact .bind_same fun text _ => .pure ⟨rfl, alike⟩
  | case2 program members id absent =>
      rw [Program.inlineExpression, Program.inlineExpression, dif_neg absent, dif_neg absent]
      exact .fault _

namespace Alike

variable (alike : program.Alike exact twin)

include alike

theorem emitInlineGroup (group : DspGroup) :
    Outcome.Alike (Alike exact) (program.emitInlineGroup group) (twin.emitInlineGroup group) := by
  unfold Program.emitInlineGroup
  cases group.outNodes.head? with
  | none => exact .result alike
  | some out =>
      refine (alike.inlineExpression group.traversal out).bind fun result other held => ?_
      obtain ⟨expression, program⟩ := result
      obtain ⟨expressionToo, twin⟩ := other
      obtain ⟨rfl, alike⟩ := held
      refine (alike.graph.lookup out).bind fun node nodeToo nodes => ?_
      rw [← nodes.signalSinks]
      cases node.signalSinks with
      | nil => exact .pure alike
      | cons sink rest => exact (alike.nodes.get _).bind fun _ _ _ => .pure (alike.setInlet _ _ _)

/-! ## Loops -/

theorem emitLoop (id : String) :
    Outcome.Alike (Alike exact) (program.emitLoop id) (twin.emitLoop id) := by
  refine (alike.generateDsp id).bind fun result other held => ?_
  obtain ⟨node, dsp, program⟩ := result
  obtain ⟨nodeToo, dspToo, twin⟩ := other
  obtain ⟨nodes, dsps, alike⟩ := held
  dsimp only at nodes dsps alike ⊢
  rw [show dspToo.expression = dsp.expression by rw [dsps.rest],
    show dspToo.inlets = dsp.inlets by rw [dsps.rest], ← nodes.outletsOfType, ← nodes.type]
  cases dsp.expression with
  | none =>
      refine .pure (alike.refineNode id fun entry other entries => ⟨?_, fun same => dsps.loop same⟩)
      rw [entries.rest]
  | some expression =>
      cases node.outletsOfType .signal with
      | nil => exact .fault _
      | cons outlet rest =>
          refine .pure (alike.refineNode id fun entry other entries => ?_)
          rw [← entries.blind NodeCode.signalOuts fun _ _ => rfl]
          exact ⟨by rw [entries.rest], fun _ => rfl⟩

theorem emitDsp : Outcome.Alike (Alike exact) program.emitDsp twin.emitDsp := by
  unfold Program.emitDsp
  rw [← alike.inlineDsp]
  refine .via (Alike exact) (.foldlM_same alike fun _ _ group _ alike =>
    alike.emitInlineGroup group) fun program twin alike => ?_
  rw [← alike.loopNodes]
  exact .foldlM_same alike fun _ _ id _ alike => alike.emitLoop id

/-! ## Setup code and receivers -/

theorem setUp {site siteToo : Site} {type : TypeCode} (scopes : scope.Alike scopeToo)
    (sites : site.Alike exact siteToo) (uniform : type.implementation.Uniform exact) :
    Outcome.Alike (Alike exact) (program.setUp id scope site type) (twin.setUp id scopeToo siteToo type) := by
  unfold Program.setUp
  rw [← contextOf_congr scopes.node]
  cases given : type.implementation.initialization with
  | none => exact .pure alike
  | some template =>
      dsimp only
      rw [← uniform.setup _ given sites]
      refine .via (AlikeWith exact Eq) (alike.fillReads _ scopes (Code.Template.fillSequence_fills _ _)
        (Code.Template.fillSequence_fills _ _) ?_) fun result other held => ?_
      · rw [Code.Template.resolve_congr scopes]
      · obtain ⟨code, program⟩ := result
        obtain ⟨codeToo, twin⟩ := other
        obtain ⟨rfl, alike⟩ := held
        exact .pure (alike.refineRest id (fun _ _ => rfl) fun _ => rfl)

theorem completeReceiver (nodes : node.Alike nodeToo) (generated : Table Code.Function) (inlet : String) :
    Outcome.Alike (Alike exact) (program.completeReceiver id node generated inlet)
      (twin.completeReceiver id nodeToo generated inlet) := by
  refine (alike.nodes.get id).bind fun entry entryToo entries => ?_
  rw [← entries.blind NodeCode.receivers fun _ _ => rfl]
  refine .bind_same fun placeholder _ => ?_
  rw [← nodes.type]
  cases generated.get? inlet with
  | none => exact .fault _
  | some function =>
      dsimp only
      split
      · exact .fault _
      · exact .pure (alike.refineRest id (fun _ _ => rfl) fun _ => rfl)

theorem receive {site siteToo : Site} {type : TypeCode} (scopes : scope.Alike scopeToo)
    (sites : site.Alike exact siteToo) (uniform : type.implementation.Uniform exact) :
    Outcome.Alike (Alike exact) (program.receive id scope site type) (twin.receive id scopeToo siteToo type) := by
  refine (alike.nodes.get id).bind fun entry entryToo entries => ?_
  rw [← entries.blind NodeCode.receivers fun _ _ => rfl, ← scopes.node.type, ← contextOf_congr scopes.node]
  split
  · exact .pure alike
  · cases given : type.implementation.receivers with
    | none => exact .fault _
    | some templates =>
        dsimp only
        rw [← uniform.receivers _ given sites]
        refine .via (AlikeWith exact Eq) (alike.fillReads _ scopes (fillReceivers_fills _ _) (fillReceivers_fills _ _)
          (congrFun (resolveReceivers_congr scopes _) _)) fun result other held => ?_
        obtain ⟨generated, program⟩ := result
        obtain ⟨generatedToo, twin⟩ := other
        obtain ⟨rfl, alike⟩ := held
        exact .foldlM_same alike fun _ _ inlet _ alike =>
          alike.completeReceiver scopes.node generated inlet

theorem completeNode (id : String) :
    Outcome.Alike (Alike exact) (program.completeNode id) (twin.completeNode id) := by
  rw [completeNode_eq, completeNode_eq]
  refine (alike.scopeOf id).bind fun result other held => ?_
  obtain ⟨scope, program⟩ := result
  obtain ⟨scopeToo, twin⟩ := other
  obtain ⟨scopes, alike⟩ := held
  dsimp only at scopes alike ⊢
  rw [← scopes.node.type, ← alike.types]
  refine .bind_same fun type registered => ?_
  have uniform := alike.typeOf registered
  have sites := alike.site scopes.node
  exact (alike.setUp scopes sites uniform).bind fun _ _ alike => alike.receive scopes sites uniform

theorem completeNodes : Outcome.Alike (Alike exact) program.completeNodes twin.completeNodes := by
  unfold Program.completeNodes
  rw [← alike.fullTraversal]
  exact .foldlM_same alike fun _ _ id _ alike => alike.completeNode id

end Alike

end Program

end Patchbay
