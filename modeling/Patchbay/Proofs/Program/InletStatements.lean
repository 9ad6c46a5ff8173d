import Patchbay.Proofs.Program.Placement

namespace Patchbay.Program

/-! The statements of signal inlets in a program that was compiled.

A graph that was built records every connection at both ends, and no pass changes that: adapters are
connected like other nodes, and dead code is left out on both sides.  What a type returned for its
inlets stays with the code of the node, so the places of the steps are the places of these statements.
-/

variable {graph : Graph} {catalog : Catalog} {library : Library} {settings : Settings}
  {program before after : Program} {id : String} {inlet : Endpoint} {entry : NodeCode}
  {scope : Code.Scope} {dsp : Dsp}

/-! ## Connections through the passes -/

theorem consistent_graft {request : PortRequest} (consistent : before.graph.Consistent)
    (grafts : Grafts before request after) : after.graph.Consistent := by
  obtain ⟨added, adding, connecting⟩ := grafts.graph
  exact (consistent.add (PortRequest.adapter_sources _) (PortRequest.adapter_sinks _) adding).connect
    connecting

theorem consistent_graftHostPorts (consistent : before.graph.Consistent)
    (run : before.graftHostPorts = .ok after) : after.graph.Consistent := by
  rw [graftHostPorts_eq] at run
  exact Outcome.foldlM_invariant (fun _ state => state.graph.Consistent) consistent
    (fun _ _ _ _ _ held grafted => consistent_graft held (graft_ends.of_ok grafted)) run

namespace Laying

theorem consistent (laying : Laying graph catalog library settings program)
    (consistent : graph.Consistent) : program.graph.Consistent := by
  have setup := laying.setup
  have grafted : laying.grafted.graph.Consistent :=
    consistent_graftHostPorts (consistent.trim _) setup.graftRan
  have reachable : laying.reachable.graph.Consistent := by
    obtain ⟨_, _, _, _, same⟩ := setup.keeping.frame
    rw [same]
    exact grafted.trim _
  have ready : laying.ready.graph = laying.reachable.graph := by
    obtain ⟨_, same, _⟩ := setup.embedding
    rw [setup.instantiating.keeps.graph, setup.declaring.keeps.graph, same]
  have split : laying.split.graph = laying.ready.graph := by
    obtain ⟨_, _, _, _, _, _, _, same⟩ := laying.divided.frame
    rw [same]
  rw [laying.keeps.graph, split, ready]
  exact reachable

/-! ## What was generated -/

theorem splitInto (laying : Laying graph catalog library settings program) :
    program.SplitInto laying.groups := by
  obtain ⟨names, nodes, same⟩ := laying.frame
  have held := laying.divided.splitInto
  generalize laying.split = split at same held
  subst same
  exact ⟨held.wellFormed, held.pulled, held.rooted, held.coldGroups, held.hotDsp, held.coldDsp,
    held.coldOf, held.inlineDsp, held.inlined⟩

/-- Nodes with loop statements are there. -/
theorem loopNodes_known (laying : Laying graph catalog library settings program) :
    ∀ id ∈ program.loopNodes, ∃ node, program.graph.node? id = some node := fun _ looped =>
  laying.splitInto.rooted.known (laying.splitInto.mem_loopNodes_iff.mp looped).1

theorem loopRegion_eq (laying : Laying graph catalog library settings program) :
    program.loopRegion = (do
      let _ ← program.names.enter (.module "commonsFrames")
      return program.loopCode) :=
  laying.framed.loopRegion_eq fun id hot =>
    laying.loopNodes_known id (List.mem_append_left _ hot)

theorem coldDspRegion_eq (laying : Laying graph catalog library settings program) :
    program.coldDspRegion =
      .ok (Code.lines (program.coldDsp.values.map program.coldFunction)) := by
  refine laying.framed.coldDspRegion_eq (fun group registered id member => ?_) ?_
  · exact laying.loopNodes_known id
      (List.mem_append_right _ (List.mem_flatMap.mpr ⟨group, registered, member⟩))
  · intro group registered connection leaves
    obtain ⟨members, _, sinks, _⟩ := laying.splitInto.exists_members registered
    rw [sinks] at leaves
    have fed := ((mem_leaving_iff laying.framed.wellFormed).mp leaves).1
    obtain ⟨node, _, found, _⟩ := hasSignalInlet_of_fed laying.framed.wellFormed fed
    exact ⟨node, found⟩

end Laying

theorem inletStatement?_eq_solid? : program.inletStatement? inlet =
    (program.solid? inlet.node).bind fun entry => entry.inlets.get? inlet.portlet := by
  unfold inletStatement? solid?
  cases program.nodes.entries.get? inlet.node <;> rfl

theorem inlets_completed (program : Program) (id : String) (entry : NodeCode) :
    (program.completed id entry).inlets = entry.inlets := by
  unfold completed withSetup
  split <;> rfl

theorem inlets_wiredEntry (program : Program) (id : String) (entry : NodeCode) :
    (program.wiredEntry id entry).inlets = entry.inlets := by
  unfold wiredEntry
  split <;> rfl

namespace Laying

/-- Completing the nodes leaves what was generated for them. -/
theorem bind_solid?_eq_emitted (laying : Laying graph catalog library settings program) {α : Type}
    {read : NodeCode → Option α}
    (kept : ∀ entry, read (laying.emitted.completed id entry) = read entry) :
    (program.solid? id).bind read = (laying.emitted.solid? id).bind read := by
  rw [laying.completing.solid? fun id entry => solid_completed laying.emitted id entry]
  split
  · cases laying.emitted.solid? id with
    | none => rfl
    | some entry => simp [kept]
  · rfl

theorem inletStatement?_eq_emitted (laying : Laying graph catalog library settings program) :
    program.inletStatement? inlet = laying.emitted.inletStatement? inlet := by
  rw [inletStatement?_eq_solid?, inletStatement?_eq_solid?]
  exact laying.bind_solid?_eq_emitted fun entry => by rw [inlets_completed]

/-- Only nodes with a loop statement have statements for their inlets. -/
theorem looped_of_inletStatement? (laying : Laying graph catalog library settings program)
    (stated : (program.inletStatement? inlet).isSome = true) :
    inlet.node ∈ laying.split.loopNodes := by
  by_contra unlooped
  rw [laying.inletStatement?_eq_emitted, inletStatement?_eq_solid?,
    laying.emitting.untouched unlooped, laying.wiring.nodes] at stated
  cases found : laying.split.solid? inlet.node with
  | none => simp [found] at stated
  | some solid =>
      obtain ⟨entry, stored, rfl⟩ := exists_of_solid? found
      have none : entry.solid.inlets = ∅ := (laying.divided.unwired stored).inlets
      rw [found, Option.map_some, Option.bind_some, inlets_wiredEntry, none] at stated
      cases stated

/-- A node without an expression keeps the statements that its type returned. -/
theorem inletStatement?_eq_returned (laying : Laying graph catalog library settings program)
    (looped : inlet.node ∈ laying.split.loopNodes)
    (generated : .generate inlet.node scope dsp ∈ laying.events) (isLoop : dsp.expression = none) :
    program.inletStatement? inlet = dsp.inlets.get? inlet.portlet := by
  obtain ⟨node, _, other, found, member, same⟩ := laying.emitting.looped looped
  obtain ⟨_, rfl⟩ := laying.emitting.sound.generate_unique generated member
  obtain ⟨entry, stored⟩ := laying.divided.framed.entry found
  rw [laying.inletStatement?_eq_emitted, inletStatement?_eq_solid?, same, laying.wiring.nodes,
    solid?_of_entry stored, Option.map_some, Option.map_some, Option.bind_some, withLoop, isLoop]

theorem loopNodes_eq (laying : Laying graph catalog library settings program) :
    program.loopNodes = laying.split.loopNodes := by
  obtain ⟨_, _, same⟩ := laying.frame
  generalize laying.split = split at same ⊢
  subst same
  rfl

theorem stated (laying : Laying graph catalog library settings program)
    (consistent : graph.Consistent) : program.Stated laying.groups where
  split := laying.splitInto
  framed := laying.framed
  consistent := laying.consistent consistent
  solid stated := by
    rw [laying.loopNodes_eq]
    exact laying.looped_of_inletStatement? stated

end Laying

/-- The statements that a type returns for the signal inlets of a node with a loop statement have one
place each, and none where nothing feeds the inlet.  The regions are written from these places. -/
theorem inlet_statements_run_once {nodes : List (Option Node)} {connections : List Connection}
    {known : Option Catalog} {reporter : Reporter}
    (built : Graph.build nodes connections = .ok graph)
    (accepted : (graph.check known reporter).2 = .ok ())
    (compiled : precompile graph catalog library settings = .ok program) :
    ∃ events, (layOutLogged graph catalog library settings).run [] = .ok (program, events) ∧
      program.loopRegion = (do
        let _ ← program.names.enter (.module "commonsFrames")
        return program.loopCode) ∧
      program.coldDspRegion = .ok (Code.lines (program.coldDsp.values.map program.coldFunction)) ∧
      (∀ id ∈ program.rootDsp.traversal, ∃ scope dsp, .generate id scope dsp ∈ events) ∧
      ∀ id scope dsp, .generate id scope dsp ∈ events → id ∉ program.inlined →
        dsp.expression = none → ∀ inlet statement, program.HasSignalInlet ⟨id, inlet⟩ →
          dsp.inlets.get? inlet = some statement →
          program.inletStatement? ⟨id, inlet⟩ = some statement ∧ program.IsPlaced ⟨id, inlet⟩ := by
  obtain ⟨laying⟩ := laying_of_precompile (Graph.wellFormed_of_check accepted) compiled
  have stated := laying.stated (Graph.consistent_build built)
  refine ⟨laying.events, laying.logged, laying.loopRegion_eq, laying.coldDspRegion_eq, ?_, ?_⟩
  · intro id listed
    rw [laying.fixed.2.1] at listed
    exact mem_generatedIn_iff.mp (laying.emitting.complete.mpr listed)
  · intro id scope dsp generated solid isLoop inlet statement hasInlet returned
    have listed := laying.emitting.complete.mp (mem_generatedIn_iff.mpr ⟨scope, dsp, generated⟩)
    rw [laying.fixed.1] at solid
    have looped := laying.divided.splitInto.mem_loopNodes_iff.mpr ⟨listed, solid⟩
    have same : program.inletStatement? ⟨id, inlet⟩ = dsp.inlets.get? inlet :=
      laying.inletStatement?_eq_returned looped generated isLoop
    rw [returned] at same
    exact ⟨same, stated.isPlaced hasInlet (by rw [same]; rfl)⟩

/-! An oscillator `o` with two inlets: a number `n` that a box `b` sets feeds one of them, nothing feeds
the other.  It drives the output `d`. -/

def hoistNodes : List (Option Node) := [
  some { id := "b", type := "box", outlets := [⟨"0", .message⟩], isPushingMessages := true },
  some { id := "n", type := "num", inlets := [⟨"0", .message⟩], outlets := [⟨"0", .signal⟩] },
  some { id := "o", type := "osc", inlets := [⟨"0", .signal⟩, ⟨"1", .signal⟩]
         outlets := [⟨"0", .signal⟩] },
  some { id := "d", type := "dac", inlets := [⟨"0", .signal⟩], isPullingSignal := true }]

def hoistConnections : List Connection := [
  ⟨⟨"b", "0"⟩, ⟨"n", "0"⟩⟩, ⟨⟨"n", "0"⟩, ⟨"o", "0"⟩⟩, ⟨⟨"o", "0"⟩, ⟨"d", "0"⟩⟩]

def hoistCatalog (expression : Option Code.Template) : Catalog := .ofList [
  ("box", some {}),
  ("num", some { isPure := true, dsp := some fun _ => {}
                 receivers := some fun _ => [("0", some (receiverTemplate []))] }),
  ("osc", some { dsp := some fun _ => { expression, inlets := [("0", .text "s"), ("1", .text "u")] } }),
  ("dac", some { dsp := some fun _ => { inlets := [("0", .text "t")] } })]

/-- What generating gave for a node. -/
def returnedBy (id : String) : WiringEvent → Option Dsp
  | .generate node _ dsp => if node = id then some dsp else none
  | _ => none

theorem generate_of_returnedBy {events : List WiringEvent} (found : dsp ∈ events.filterMap (returnedBy id)) :
    ∃ scope, .generate id scope dsp ∈ events := by
  obtain ⟨event, member, same⟩ := List.mem_filterMap.mp found
  cases event with
  | write => cases same
  | generate node scope other =>
      obtain ⟨rfl, rfl⟩ : node = id ∧ other = dsp := by simpa [returnedBy] using same
      exact ⟨scope, member⟩

theorem hoist_built : ∃ graph, Graph.build hoistNodes hoistConnections = .ok graph ∧
    (graph.check none .discarding).2 = .ok () := by
  refine ⟨_, rfl, ?_⟩
  cbv

theorem hoist_laid_out : (do
    let graph ← Graph.build hoistNodes hoistConnections
    let program ← precompile graph (hoistCatalog none) toneLibrary {}
    let (_, events) ← (layOutLogged graph (hoistCatalog none) toneLibrary {}).run []
    return (program.inlined, events.filterMap (returnedBy "o"),
      ["0", "1"].map (fun inlet => decide (program.HasSignalInlet ⟨"o", inlet⟩)),
      program.loopSteps, program.coldDsp.values.map program.coldSteps)) =
    Except.ok ([], [⟨none, none, .ofList [("0", [.text "s"]), ("1", [.text "u"])]⟩], [true, true],
      [.loop "o", .inlet ⟨"d", "0"⟩, .loop "d"], [[.loop "n", .inlet ⟨"o", "0"⟩]]) := by
  cbv

/-- The function of the number runs the statement of the inlet that it feeds; nothing feeds the other
inlet of the oscillator, and its statement runs nowhere. -/
theorem inlet_statements_run_once_hoist :
    ∃ graph program, Graph.build hoistNodes hoistConnections = .ok graph ∧
      (graph.check none .discarding).2 = .ok () ∧
      precompile graph (hoistCatalog none) toneLibrary {} = .ok program ∧
      program.inletStatement? ⟨"o", "0"⟩ = some [.text "s"] ∧ program.IsPlaced ⟨"o", "0"⟩ ∧
      program.inletStatement? ⟨"o", "1"⟩ = some [.text "u"] ∧ program.IsPlaced ⟨"o", "1"⟩ ∧
      program.loopSteps = [.loop "o", .inlet ⟨"d", "0"⟩, .loop "d"] ∧
      program.coldDsp.values.map program.coldSteps = [[.loop "n", .inlet ⟨"o", "0"⟩]] := by
  obtain ⟨graph, built, accepted⟩ := hoist_built
  obtain ⟨_, builtAgain, evaluated⟩ := Outcome.bind_eq_ok_iff.mp hoist_laid_out
  cases built.symm.trans builtAgain
  obtain ⟨program, compiled, evaluated⟩ := Outcome.bind_eq_ok_iff.mp evaluated
  obtain ⟨⟨_, events⟩, logged, evaluated⟩ := Outcome.bind_eq_ok_iff.mp evaluated
  have facts := Except.ok.inj evaluated
  simp only [Prod.mk.injEq, List.map_cons, List.map_nil, List.cons.injEq, decide_eq_true_eq,
    and_true] at facts
  obtain ⟨noneInlined, returned, ⟨first, second⟩, loop, cold⟩ := facts
  obtain ⟨_, loggedAgain, _, _, _, all⟩ := inlet_statements_run_once built accepted compiled
  cases logged.symm.trans loggedAgain
  obtain ⟨scope, generated⟩ := generate_of_returnedBy (returned ▸ List.mem_singleton_self _)
  have placed := all "o" scope _ generated (by simp [noneInlined]) rfl
  obtain ⟨atFirst, placedFirst⟩ := placed "0" _ first rfl
  obtain ⟨atSecond, placedSecond⟩ := placed "1" _ second rfl
  exact ⟨graph, program, built, accepted, compiled, atFirst, placedFirst, atSecond, placedSecond,
    loop, cold⟩

theorem hoist_with_expression : (do
    let graph ← Graph.build hoistNodes hoistConnections
    let program ← precompile graph (hoistCatalog (some (.text "1"))) toneLibrary {}
    let (_, events) ← (layOutLogged graph (hoistCatalog (some (.text "1"))) toneLibrary {}).run []
    return (decide ("o" ∈ program.rootDsp.traversal), decide ("o" ∈ program.inlined),
      decide (program.HasSignalInlet ⟨"o", "0"⟩), program.graph.signalSource? ⟨"o", "0"⟩,
      events.filterMap (returnedBy "o"), program.steps, program.steps.flatMap program.partsOf)) =
    Except.ok (true, false, true, some ⟨"n", "0"⟩,
      [⟨some [.text "1"], none, .ofList [("0", [.text "s"]), ("1", [.text "u"])]⟩],
      [.loop "o", .inlet ⟨"d", "0"⟩, .loop "d", .loop "n"],
      [.sequence [.text "N_o_outs_0 = 1"], .sequence [.text "t"]]) := by
  cbv

/-- A type that returns an expression keeps no statements for its inlets: the statement of the inlet that
the number feeds runs nowhere. -/
theorem expression_drops_inlet_statement :
    ∃ graph program events scope dsp, Graph.build hoistNodes hoistConnections = .ok graph ∧
      (graph.check none .discarding).2 = .ok () ∧
      precompile graph (hoistCatalog (some (.text "1"))) toneLibrary {} = .ok program ∧
      (layOutLogged graph (hoistCatalog (some (.text "1"))) toneLibrary {}).run [] =
        .ok (program, events) ∧
      "o" ∈ program.rootDsp.traversal ∧ "o" ∉ program.inlined ∧
      program.HasSignalInlet ⟨"o", "0"⟩ ∧
      program.graph.signalSource? ⟨"o", "0"⟩ = some ⟨"n", "0"⟩ ∧
      .generate "o" scope dsp ∈ events ∧ dsp.inlets.get? "0" = some [.text "s"] ∧
      program.steps.count (.inlet ⟨"o", "0"⟩) = 0 ∧
      program.steps.flatMap program.partsOf =
        [.sequence [.text "N_o_outs_0 = 1"], .sequence [.text "t"]] := by
  obtain ⟨graph, built, accepted⟩ := hoist_built
  obtain ⟨_, builtAgain, evaluated⟩ := Outcome.bind_eq_ok_iff.mp hoist_with_expression
  cases built.symm.trans builtAgain
  obtain ⟨program, compiled, evaluated⟩ := Outcome.bind_eq_ok_iff.mp evaluated
  obtain ⟨⟨other, events⟩, logged, evaluated⟩ := Outcome.bind_eq_ok_iff.mp evaluated
  obtain ⟨laying⟩ := laying_of_precompile (Graph.wellFormed_of_check accepted) compiled
  cases logged.symm.trans laying.logged
  have facts := Except.ok.inj evaluated
  simp only [Prod.mk.injEq, decide_eq_true_eq, decide_eq_false_iff_not] at facts
  obtain ⟨listed, solid, hasInlet, fed, returned, steps, parts⟩ := facts
  obtain ⟨scope, generated⟩ := generate_of_returnedBy (returned ▸ List.mem_singleton_self _)
  refine ⟨graph, program, _, scope, _, built, accepted, compiled, logged, listed, solid, hasInlet, fed,
    generated, rfl, ?_, parts⟩
  rw [steps]
  decide

end Patchbay.Program
