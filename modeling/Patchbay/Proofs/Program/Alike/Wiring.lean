import Patchbay.Proofs.Program.Alike
import Patchbay.Proofs.Program.Portlets

namespace Patchbay

/-! The portlets of two programs side by side: they get the same names and are wired in the same way. -/

namespace Program

variable {exact : Prop} {program twin : Program} {node nodeToo : Node} {id : String}

namespace Alike

theorem forNodes (alike : program.Alike exact twin) {ids idsToo : List String} (same : ids = idsToo)
    {step : Program → String → Node → Outcome Program}
    (steps : ∀ {program twin : Program} {node nodeToo : Node} (id : String), program.Alike exact twin →
      node.Alike nodeToo → Outcome.Alike (Alike exact) (step program id node) (step twin id nodeToo)) :
    Outcome.Alike (Alike exact) (program.forNodes ids step) (twin.forNodes idsToo step) :=
  same ▸ .foldlM_same alike fun _ _ id _ alike =>
    (alike.graph.lookup id).bind fun _ _ nodes => steps id alike nodes

variable (alike : program.Alike exact twin) (nodes : node.Alike nodeToo)

include alike

/-! ## Messages -/

include nodes in
theorem reserveReceivers (id : String) :
    Outcome.Alike (Alike exact) (program.reserveReceivers id node) (twin.reserveReceivers id nodeToo) := by
  refine (alike.nodes.get id).bind fun _ _ _ => ?_
  refine (alike.names.enterNode id).bind fun names namesToo indices => ?_
  dsimp only
  simp only [← nodes.inletsOfType, ← nodes.isEmpty_sourcesOf]
  refine .foldlM_same (alike.withNames indices) fun program twin inlet _ alike => ?_
  refine (alike.readName _ _).bind fun result other held => ?_
  obtain ⟨name, program⟩ := result
  obtain ⟨nameToo, twin⟩ := other
  obtain ⟨rfl, alike⟩ := held
  refine (alike.nodes.get id).bind fun entry entryToo entries => ?_
  dsimp only
  rw [← entries.blind NodeCode.receivers fun _ _ => rfl]
  refine .bind_same fun receivers _ => .pure ?_
  exact alike.refineRest id (fun _ _ => rfl) fun _ => rfl

include nodes in
theorem wireNullSignals (id : String) :
    (program.wireNullSignals id node).Alike exact (twin.wireNullSignals id nodeToo) := by
  unfold Program.wireNullSignals
  simp only [← nodes.inletsOfType, ← nodes.isEmpty_sourcesOf]
  exact alike.refineRest id (fun _ _ => rfl) fun _ => rfl

theorem sinkFunctions (id : String) (outlet : Portlet) (sinks : List Endpoint) :
    Outcome.Alike Eq (program.sinkFunctions id outlet sinks) (twin.sinkFunctions id outlet sinks) := by
  unfold Program.sinkFunctions
  rw [← alike.coldDsp, ← alike.coldOf]
  refine .via (List.Forall₂ Eq) (.mapM fun sink _ => ?_) fun receivers receiversToo same => ?_
  · refine (alike.nodes.get sink.node).bind fun entry entryToo entries => ?_
    rw [← entries.blind NodeCode.receivers fun _ _ => rfl]
    exact .bind_same fun receiver _ => .pure rfl
  · have equal : receivers = receiversToo := by simpa only [List.forall₂_eq_eq_eq] using same
    exact .pure (by rw [equal])

theorem chooseSender (id outlet : String) (functions : List String) : Outcome.Alike (AlikeWith exact Eq)
    (program.chooseSender id outlet functions) (twin.chooseSender id outlet functions) := by
  unfold Program.chooseSender
  cases functions with
  | nil =>
      refine (alike.readName _ _).bind fun result other held => .pure ⟨?_, held.2⟩
      rw [held.1]
  | cons first rest =>
      cases rest with
      | nil => exact .pure ⟨rfl, alike⟩
      | cons second rest =>
          refine (alike.readName _ _).bind fun result other held => .pure ⟨?_, held.2⟩
          rw [held.1]

include nodes in
theorem wireMessageOutlet (id : String) (outlet : Portlet) : Outcome.Alike (Alike exact)
    (program.wireMessageOutlet id node outlet) (twin.wireMessageOutlet id nodeToo outlet) := by
  rw [wireMessageOutlet_eq, wireMessageOutlet_eq, ← nodes.sinks]
  refine (alike.sinkFunctions id outlet _).bind fun functions _ same => ?_
  subst same
  refine (alike.chooseSender id outlet.id functions).bind fun result other held => ?_
  obtain ⟨sender, program⟩ := result
  obtain ⟨senderToo, twin⟩ := other
  obtain ⟨rfl, alike⟩ := held
  refine (alike.nodes.get id).bind fun entry entryToo entries => ?_
  dsimp only
  rw [← entries.blind NodeCode.senders fun _ _ => rfl]
  refine .bind_same fun senders _ => .pure ?_
  exact alike.refineRest id (fun _ _ => rfl) fun _ => rfl

include nodes in
theorem wireMessageOutlets (id : String) : Outcome.Alike (Alike exact)
    (program.wireMessageOutlets id node) (twin.wireMessageOutlets id nodeToo) := by
  refine (alike.nodes.get id).bind fun _ _ _ => ?_
  refine (alike.names.enterNode id).bind fun names namesToo indices => ?_
  rw [← nodes.outletsOfType]
  exact .foldlM_same (alike.withNames indices) fun _ _ outlet _ alike =>
    alike.wireMessageOutlet nodes id outlet

/-! ## Signals -/

include nodes in
theorem wireSignalOutlet (id : String) (outlet : Portlet) : Outcome.Alike (Alike exact)
    (program.wireSignalOutlet id node outlet) (twin.wireSignalOutlet id nodeToo outlet) := by
  refine (alike.readName _ _).bind fun result other held => ?_
  obtain ⟨name, program⟩ := result
  obtain ⟨nameToo, twin⟩ := other
  obtain ⟨rfl, alike⟩ := held
  dsimp only
  rw [← nodes.sinks]
  refine .foldlM_same (alike.refineRest id (fun _ _ => rfl) fun _ => rfl) fun _ _ sink _ alike => ?_
  exact (alike.nodes.get sink.node).bind fun _ _ _ =>
    .pure (alike.refineRest sink.node (fun _ _ => rfl) fun _ => rfl)

include nodes in
theorem wireSignalOutlets (id : String) : Outcome.Alike (Alike exact)
    (program.wireSignalOutlets id node) (twin.wireSignalOutlets id nodeToo) := by
  refine (alike.nodes.get id).bind fun _ _ _ => ?_
  refine (alike.names.enterNode id).bind fun names namesToo indices => ?_
  rw [← nodes.outletsOfType]
  exact .foldlM_same (alike.withNames indices) fun _ _ outlet _ alike =>
    alike.wireSignalOutlet nodes id outlet

theorem wirePortlets : Outcome.Alike (Alike exact) program.wirePortlets twin.wirePortlets := by
  unfold Program.wirePortlets
  refine (alike.forNodes alike.fullTraversal fun id alike nodes => alike.reserveReceivers nodes id).bind
    fun program twin alike => ?_
  refine (alike.forNodes alike.fullTraversal fun id alike nodes => .pure (alike.wireNullSignals nodes id)).bind
    fun program twin alike => ?_
  refine (alike.names.enter _).bind fun names namesToo indices => ?_
  have entered := alike.withNames indices
  refine (entered.forNodes entered.fullTraversal fun id alike nodes => alike.wireMessageOutlets nodes id).bind
    fun program twin alike => ?_
  exact alike.forNodes alike.loopNodes fun id alike nodes => alike.wireSignalOutlets nodes id

end Alike

end Program

end Patchbay
