import Patchbay.Compile
import Patchbay.Proofs.Program.Alike

namespace Patchbay

/-! The code of two programs side by side.

Alike programs have the same regions but for those that loops and the code of modules go into, and they
are described to the host in the same words.  Where the targets are the same, so is the whole text.
-/

open Code (Part)

variable {exact : Prop}

/-- Lists of results that are the same where the targets are. -/
theorem eq_of_exact {β : Type u} {results others : List β}
    (held : List.Forall₂ (fun own other => exact → own = other) results others) (same : exact) :
    results = others := by
  rw [← List.forall₂_eq_eq_eq]
  exact held.imp fun _ _ own => own same

/-- The regions of two programs. -/
structure Regions.Alike (exact : Prop) (regions twin : Regions) : Prop where
  rest : twin = { regions with
    dependencies := twin.dependencies, coldDsp := twin.coldDsp, loop := twin.loop }
  eq : exact → regions = twin

namespace Program.Alike

variable {program twin : Program} (alike : program.Alike exact twin)

include alike

/-- A region that is gathered node by node from anything but the loops. -/
theorem gather (view : NodeCode → Outcome (List Part))
    (unseen : ∀ (entry : NodeCode) loop, view { entry with loop } = view entry) :
    (program.fullTraversal.mapM (fun id => program.nodes.get id >>= view) >>= fun parts =>
        pure (Code.lines parts.flatten)) =
      (twin.fullTraversal.mapM (fun id => twin.nodes.get id >>= view) >>= fun parts =>
        pure (Code.lines parts.flatten) : Outcome Code.Sequence) := by
  have same : (fun id => program.nodes.get id >>= view) = fun id => twin.nodes.get id >>= view :=
    funext fun id => ((alike.nodes.get id).bind fun _ _ entries =>
      .of_eq (entries.blind view unseen)).eq
  rw [same, alike.fullTraversal]

theorem stateInstancesRegion : program.stateInstancesRegion = twin.stateInstancesRegion := by
  unfold Program.stateInstancesRegion
  exact alike.gather _ fun _ _ => rfl

theorem portletsRegion : program.portletsRegion = twin.portletsRegion :=
  alike.gather (fun entry =>
    let outlets := (Text.sortIds entry.signalOuts.keys).map fun outlet =>
      Code.var "Float" (entry.signalOuts.getD outlet "") ["0"]
    return outlets ++ entry.receivers.values.map Part.ofFunction ++
      entry.senders.values.filterMap fun sender => sender.dispatcher.map Part.ofFunction) fun _ _ => rfl

theorem initializationsRegion : program.initializationsRegion = twin.initializationsRegion :=
  alike.gather (fun entry =>
    return if rendersNothing entry.initialization then []
      else [Part.ofSequence? entry.initialization]) fun _ _ => rfl

theorem hostReceiversRegion : program.hostReceiversRegion = twin.hostReceiversRegion := by
  unfold Program.hostReceiversRegion
  rw [← alike.hostReceivers]
  congr 2
  funext hostPort
  refine ((alike.nodes.get _).bind fun entry entryToo entries => ?_).eq
  rw [entries.blind NodeCode.senders fun _ _ => rfl]
  exact .of_eq rfl

theorem nodeTypesRegion : program.nodeTypesRegion = twin.nodeTypesRegion := by
  unfold Program.nodeTypesRegion
  rw [alike.types]

theorem arraysRegion : program.arraysRegion = twin.arraysRegion := by
  have arrays : program.settings.arrays = twin.settings.arrays :=
    alike.settings.blind Settings.arrays fun _ _ => rfl
  have entered := alike.names.enter (.module "commonsArrays")
  unfold Program.arraysRegion
  dsimp only
  rw [← arrays]
  generalize program.names.enter _ = entering at *
  generalize twin.names.enter _ = enteringToo at *
  cases entered with
  | fault fault => rfl
  | result known => simp only [known.nameOf]

theorem coldDspTriggers : program.coldDspTriggers = twin.coldDspTriggers := by
  unfold Program.coldDspTriggers
  rw [← alike.coldDsp, ← alike.names.nameOf]
  split
  · rfl
  · exact ((alike.names.enter _).bind fun _ _ _ => .of_eq rfl).eq

/-! ## Loops -/

theorem dspStatements (traversal : List String) (keeps : String → Bool) :
    Outcome.Alike (fun statements others => exact → statements = others)
      (program.dspStatements traversal keeps) (twin.dspStatements traversal keeps) := by
  refine .via (List.Forall₂ fun own other => exact → own = other) (.mapM fun id _ => ?_)
    fun statements others held => .pure fun same => ?_
  · refine (alike.nodes.get id).bind fun entry entryToo entries => ?_
    refine (alike.graph.lookup id).bind fun node nodeToo nodes => .pure fun same => ?_
    rw [entries.eq same, ← nodes.inletsOfType]
    refine congrArg (· ++ _) (List.filterMap_congr fun inlet member => ?_)
    obtain ⟨isInlet, signal⟩ := List.mem_filter.mp member
    rw [nodes.signals inlet isInlet (of_decide_eq_true signal)]
  · rw [eq_of_exact held same]

theorem coldDspRegion : Outcome.Alike (fun region regionToo => exact → region = regionToo)
    program.coldDspRegion twin.coldDspRegion := by
  unfold Program.coldDspRegion
  rw [← alike.coldDsp]
  refine .via (List.Forall₂ fun own other => exact → own = other) (.mapM fun group _ => ?_)
    fun functions others held => .pure fun same => ?_
  · refine (alike.dspStatements group.traversal _).bind fun body bodyToo bodies => ?_
    have after : (fun connection : Connection => program.nodes.get connection.sink.node >>= fun sink =>
        pure ((sink.inlets.get? connection.sink.portlet).toList.map Part.sequence)) =
        fun connection => twin.nodes.get connection.sink.node >>= fun sink =>
          (pure ((sink.inlets.get? connection.sink.portlet).toList.map Part.sequence) : Outcome _) := by
      funext connection
      refine ((alike.nodes.get _).bind fun entry entryToo entries => ?_).eq
      rw [entries.blind NodeCode.inlets fun _ _ => rfl]
      exact .of_eq rfl
    rw [after]
    exact .bind_same fun statements _ => .pure fun same => by rw [bodies same]
  · rw [eq_of_exact held same]

theorem loopRegion : Outcome.Alike (fun region regionToo => exact → region = regionToo)
    program.loopRegion twin.loopRegion := by
  unfold Program.loopRegion
  refine (alike.names.enter _).bind fun _ _ _ => ?_
  dsimp only
  rw [← alike.names.nameOf, ← alike.hotDsp, ← alike.coldOf]
  exact (alike.dspStatements _ _).bind fun body bodyToo bodies => .pure fun same => by rw [bodies same]

theorem regions : Outcome.Alike (Regions.Alike exact) program.regions twin.regions := by
  unfold Program.regions
  rw [← alike.stateInstancesRegion, ← alike.portletsRegion, ← alike.hostReceiversRegion,
    ← alike.initializationsRegion, ← alike.coldDspTriggers, ← alike.nodeTypesRegion, ← alike.arraysRegion]
  refine .bind_same fun stateInstances _ => .bind_same fun portlets _ => ?_
  refine alike.coldDspRegion.bind fun coldDsp coldDspToo colds => ?_
  refine .bind_same fun hostReceivers _ => .bind_same fun initializations _ => ?_
  refine alike.loopRegion.bind fun loop loopToo loops => .bind_same fun triggers _ => .pure ⟨rfl, fun same => ?_⟩
  rw [colds same, loops same, alike.dependencies.eq same]

/-! ## Metadata and text -/

theorem metadata : program.metadata = twin.metadata := by
  have told : Metadata.variableNames program = Metadata.variableNames twin := by
    unfold Metadata.variableNames
    rw [alike.hostReceivers, alike.hostSenders, alike.dependencies.rest]
    rfl
  have document : Metadata.document program = Metadata.document twin := by
    unfold Metadata.document
    rw [told, alike.settings.rest]
    rfl
  unfold Program.metadata
  rw [document]

theorem source (same : exact) (target : Target) : target.source program = target.source twin := by
  have settings := alike.settings.eq same
  have dependencies := alike.dependencies.eq same
  have regions : program.regions = twin.regions :=
    (alike.regions.mono fun _ _ held => held.eq same).eq
  cases target with
  | javaScript =>
      unfold Target.source Engine.JavaScript.source Engine.JavaScript.code
        Engine.JavaScript.importForwarders Engine.JavaScript.hostSenders
        Engine.JavaScript.engineObject Engine.JavaScript.moduleTable Engine.JavaScript.moduleEntries
      rw [regions, alike.metadata, settings, dependencies, alike.hostReceivers, alike.hostSenders]
  | assemblyScript =>
      unfold Target.source Engine.AssemblyScript.source Engine.AssemblyScript.code
        Engine.AssemblyScript.imports Engine.AssemblyScript.exports Engine.AssemblyScript.initializer
        Program.hostSenderFunctions
      rw [regions, alike.metadata, settings, dependencies, alike.hostReceivers, alike.hostSenders]

end Program.Alike

end Patchbay
