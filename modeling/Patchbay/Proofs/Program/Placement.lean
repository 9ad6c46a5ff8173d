import Patchbay.Proofs.Graph.Adjacency
import Patchbay.Proofs.Program.InletWiring

namespace Patchbay

/-! Where the statements of signal inlets run.

The loop and the functions of the cold groups are written from steps, each the statement of a signal
inlet or the loop statement of a node.  The loop leaves out the inlets that a cold group feeds, and
these are the ones that the function of this group runs after its own members.  So every step has one
place: the functions share out the nodes, and a cold group holds all sources of its members.
-/

open Code (Sequence Part)

namespace Program

variable {graph : Graph} {catalog : Catalog} {library : Library} {settings : Settings}
  {program before after : Program} {groups : List DspGroup} {id : String} {node : Node}
  {inlet source : Endpoint} {keeps : String → Bool}

/-! ## Steps -/

/-- One step of the audio code. -/
inductive Step where
  | inlet (inlet : Endpoint)
  | loop (id : String)
deriving DecidableEq

/-- The statement of a signal inlet. -/
def inletStatement? (program : Program) (inlet : Endpoint) : Option Sequence :=
  (program.nodes.entries.get? inlet.node).bind fun entry => entry.inlets.get? inlet.portlet

/-- The inlet has a statement and a source that is kept. -/
def runsInlet (program : Program) (keeps : String → Bool) (inlet : Endpoint) : Bool :=
  (program.inletStatement? inlet).isSome &&
    (program.graph.signalSource? inlet).any fun source => keeps source.node

def nodeSteps (program : Program) (keeps : String → Bool) (id : String) : List Step :=
  ((((program.graph.node? id).map fun node => node.inletsOfType .signal).getD []).filter fun portlet =>
    program.runsInlet keeps ⟨id, portlet.id⟩).map (fun portlet => .inlet ⟨id, portlet.id⟩) ++ [.loop id]

/-- The steps of the loop. -/
def loopSteps (program : Program) : List Step :=
  program.hotDsp.traversal.flatMap (program.nodeSteps fun source => !program.coldOf.contains source)

/-- The inlets outside of a cold group that its function runs. -/
def sinkSteps (program : Program) (group : ColdGroup) : List Step :=
  ((group.sinkConnections.map Connection.sink).filter fun inlet =>
    (program.inletStatement? inlet).isSome).map .inlet

/-- The steps of the function of a cold group. -/
def coldSteps (program : Program) (group : ColdGroup) : List Step :=
  group.traversal.flatMap (program.nodeSteps fun _ => true) ++ program.sinkSteps group

/-- What a step is written as. -/
def partsOf (program : Program) : Step → List Part
  | .inlet inlet => (program.inletStatement? inlet).toList.map Part.sequence
  | .loop id =>
      let loop := (program.nodes.entries.get? id).bind fun entry => entry.loop
      if rendersNothing loop then [] else [Part.ofSequence? loop]

/-! ## The regions are written from steps -/

theorem Framed.signalSource?_eq (framed : program.Framed)
    (found : program.graph.node? id = some node) {portlet : Portlet}
    (isInlet : portlet ∈ node.inletsOfType .signal) :
    program.graph.signalSource? ⟨id, portlet.id⟩ = (node.sourcesOf portlet.id).head? := by
  have distinct : ((node.inletsOfType .signal).map Portlet.id).Nodup :=
    (framed.wellFormed.fits found).inletsDistinct.sublist (List.filter_sublist.map _)
  simp [Graph.signalSource?, found, Node.find?_id_of_mem distinct isInlet]

theorem nodeSteps_eq (found : program.graph.node? id = some node) :
    program.nodeSteps keeps id = ((node.inletsOfType .signal).filter fun portlet =>
      program.runsInlet keeps ⟨id, portlet.id⟩).map (fun portlet => .inlet ⟨id, portlet.id⟩) ++
        [.loop id] := by
  simp [nodeSteps, found]

/-- The part that the code of a node has for one of its signal inlets. -/
def inletPart? (node : Node) (entry : NodeCode) (keeps : String → Bool) (inlet : Portlet) :
    Option Part := do
  let statement ← entry.inlets.get? inlet.id
  let source ← (node.sourcesOf inlet.id).head?
  if keeps source.node then some (Part.sequence statement) else none

theorem Framed.inletPart?_eq (framed : program.Framed) {entry : NodeCode}
    (found : program.graph.node? id = some node) (stored : program.nodes.entries.get? id = some entry)
    {portlet : Portlet} (isInlet : portlet ∈ node.inletsOfType .signal) :
    (inletPart? node entry keeps portlet).toList =
      if program.runsInlet keeps ⟨id, portlet.id⟩ then program.partsOf (.inlet ⟨id, portlet.id⟩)
      else [] := by
  have fed := framed.signalSource?_eq found isInlet
  have stated : program.inletStatement? ⟨id, portlet.id⟩ = entry.inlets.get? portlet.id := by
    simp [inletStatement?, stored]
  simp only [runsInlet, fed, stated, inletPart?, partsOf]
  cases entry.inlets.get? portlet.id with
  | none => rfl
  | some statement =>
      cases (node.sourcesOf portlet.id).head? with
      | none => rfl
      | some source => by_cases kept : keeps source.node = true <;> simp [kept]

theorem flatMap_filter {α : Type u} {β : Type v} (items : List α) (chosen : α → Bool)
    (image : α → List β) : (items.filter chosen).flatMap image =
      items.flatMap fun item => if chosen item then image item else [] := by
  induction items with
  | nil => rfl
  | cons item rest ih => cases isChosen : chosen item <;> simp [isChosen, ih]

/-- The statements of one node. -/
def nodeParts (program : Program) (keeps : String → Bool) (id : String) : Outcome (List Part) := do
  let entry ← program.nodes.get id
  let node ← program.graph.node id
  let before := (node.inletsOfType .signal).filterMap (inletPart? node entry keeps)
  return before ++ (if rendersNothing entry.loop then [] else [Part.ofSequence? entry.loop])

theorem Framed.nodeParts_eq (framed : program.Framed) (found : program.graph.node? id = some node) :
    program.nodeParts keeps id = .ok ((program.nodeSteps keeps id).flatMap program.partsOf) := by
  obtain ⟨entry, stored⟩ := framed.entry found
  have inlets : (node.inletsOfType .signal).filterMap (inletPart? node entry keeps) =
      ((node.inletsOfType .signal).filter fun portlet =>
        program.runsInlet keeps ⟨id, portlet.id⟩).flatMap
          fun portlet => program.partsOf (.inlet ⟨id, portlet.id⟩) := by
    rw [List.filterMap_eq_flatMap_toList, flatMap_filter]
    exact List.flatMap_congr fun portlet isInlet => framed.inletPart?_eq found stored isInlet
  rw [nodeSteps_eq found, List.flatMap_append, List.flatMap_map, List.flatMap_singleton, ← inlets]
  unfold nodeParts
  rw [register_get_eq_ok_iff.mpr stored, Graph.node_eq_ok_iff.mpr found]
  simp only [partsOf, stored, Option.bind_some]
  rfl

theorem Framed.dspStatements_eq (framed : program.Framed) {traversal : List String}
    (known : ∀ id ∈ traversal, ∃ node, program.graph.node? id = some node) :
    program.dspStatements traversal keeps =
      .ok ((traversal.flatMap (program.nodeSteps keeps)).flatMap program.partsOf) := by
  change (traversal.mapM (program.nodeParts keeps) >>= fun parts => pure parts.flatten) = _
  rw [Outcome.mapM_eq_ok fun id listed => (known id listed).elim fun _ found =>
    framed.nodeParts_eq found]
  rw [List.flatMap_assoc, List.flatMap_def]
  rfl

/-- The loop, written from its steps. -/
def loopCode (program : Program) : Sequence :=
  Code.code [
    "for (", loopFrame, " = 0; ", loopFrame, " < ", blockSize, "; ", loopFrame, "++) \x7b\n",
    program.names.nameOf (.module "commonsFrames") "emitFrame", "(", frameCounter, ")\n",
    .sequence (Code.lines (program.loopSteps.flatMap program.partsOf)), "\n",
    frameCounter, "++\n",
    "\x7d"]

theorem Framed.loopRegion_eq (framed : program.Framed)
    (known : ∀ id ∈ program.hotDsp.traversal, ∃ node, program.graph.node? id = some node) :
    program.loopRegion = (do
      let _ ← program.names.enter (.module "commonsFrames")
      return program.loopCode) := by
  unfold loopRegion loopCode loopSteps
  rw [framed.dspStatements_eq known]
  rfl

/-- The function of a cold group, written from its steps. -/
def coldFunction (program : Program) (group : ColdGroup) : Part :=
  Part.ofFunction <| Code.func group.functionName [messageArg] "void" [
    .sequence (Code.lines ((program.coldSteps group).flatMap program.partsOf))]

theorem Framed.coldDspRegion_eq (framed : program.Framed)
    (known : ∀ group ∈ program.coldDsp.values, ∀ id ∈ group.traversal,
      ∃ node, program.graph.node? id = some node)
    (sinks : ∀ group ∈ program.coldDsp.values, ∀ connection ∈ group.sinkConnections,
      ∃ node, program.graph.node? connection.sink.node = some node) :
    program.coldDspRegion =
      .ok (Code.lines (program.coldDsp.values.map program.coldFunction)) := by
  unfold coldDspRegion
  suffices functions : program.coldDsp.values.mapM _ =
      Except.ok (program.coldDsp.values.map program.coldFunction) by
    rw [functions]
    rfl
  · refine Outcome.mapM_eq_ok fun group registered => ?_
    rw [framed.dspStatements_eq (known group registered)]
    have after : (group.sinkConnections.mapM fun connection => do
        let sink ← program.nodes.get connection.sink.node
        return (sink.inlets.get? connection.sink.portlet).toList.map Part.sequence :
          Outcome (List (List Part))) =
        .ok (group.sinkConnections.map fun connection => program.partsOf (.inlet connection.sink)) := by
      refine Outcome.mapM_eq_ok fun connection member => ?_
      obtain ⟨node, found⟩ := sinks group registered connection member
      obtain ⟨entry, stored⟩ := framed.entry found
      rw [register_get_eq_ok_iff.mpr stored]
      simp [partsOf, inletStatement?, stored, bind, Except.bind, pure, Except.pure]
    have stated : (program.sinkSteps group).flatMap program.partsOf =
        (group.sinkConnections.map fun connection =>
          program.partsOf (.inlet connection.sink)).flatten := by
      unfold sinkSteps
      rw [List.flatMap_map, flatMap_filter, List.flatMap_map, ← List.flatMap_def]
      refine List.flatMap_congr fun connection _ => ?_
      cases statement : program.inletStatement? connection.sink <;> simp [partsOf, statement]
    change ((group.sinkConnections.mapM _ >>= _ : Outcome Part)) = _
    rw [after]
    simp only [coldFunction, coldSteps, List.flatMap_append, stated]
    rfl

/-! ## Connections that leave a group -/

theorem signalSource?_of_sink (wellFormed : graph.WellFormed) (found : graph.node? id = some node)
    {outlet : Portlet} (isOutlet : outlet ∈ node.outletsOfType .signal) {sink : Endpoint}
    (isSink : sink ∈ node.sinksOf outlet.id) : graph.signalSource? sink = some ⟨id, outlet.id⟩ := by
  obtain ⟨member, signal⟩ := List.mem_filter.mp isOutlet
  obtain ⟨sinkNode, portlet, sinkFound, isInlet, sameId, sameType, recorded⟩ :=
    wellFormed.sink_of_outlet found member isSink
  refine (Graph.signalSource?_eq_some_iff wellFormed).mpr
    ⟨sinkNode, portlet, sinkFound, isInlet, sameType.trans (decide_eq_true_eq.mp signal), sameId, ?_⟩
  rw [sameId]
  exact recorded

/-- The connections of one member of a group that leave it. -/
def leavingFrom (graph : Graph) (members : List String) (id : String) : List Connection :=
  (((graph.node? id).map fun node => node.outletsOfType .signal).getD []).flatMap fun outlet =>
    ((graph.sinksAt ⟨id, outlet.id⟩).filter fun sink => !members.contains sink.node).map fun sink =>
      ⟨⟨id, outlet.id⟩, sink⟩

theorem leaving_eq (members : List String) :
    leaving graph members = members.flatMap (leavingFrom graph members) := by
  refine List.flatMap_congr fun id _ => ?_
  unfold leavingFrom Graph.sinksAt
  cases found : graph.node? id <;> simp [found]

theorem mem_leavingFrom_iff {members : List String} {connection : Connection} :
    connection ∈ leavingFrom graph members id ↔ ∃ node, graph.node? id = some node ∧
      ∃ outlet ∈ node.outletsOfType .signal, connection.source = ⟨id, outlet.id⟩ ∧
        connection.sink ∈ node.sinksOf outlet.id ∧ connection.sink.node ∉ members := by
  unfold leavingFrom Graph.sinksAt
  cases found : graph.node? id with
  | none => simp
  | some node =>
      obtain ⟨source, sink⟩ := connection
      simp only [found, Option.map_some, Option.getD_some, List.mem_flatMap, List.mem_map,
        List.mem_filter, Connection.mk.injEq, Option.some_inj, exists_eq_left']
      refine exists_congr fun outlet => and_congr_right fun _ => ?_
      constructor
      · rintro ⟨_, ⟨isSink, outside⟩, rfl, rfl⟩
        exact ⟨rfl, isSink, by simpa using outside⟩
      · rintro ⟨rfl, isSink, outside⟩
        exact ⟨sink, ⟨isSink, by simpa using outside⟩, rfl, rfl⟩

/-- A connection that leaves a group is known by the inlet that it leads to. -/
theorem mem_leaving_iff (wellFormed : graph.WellFormed) {members : List String}
    {connection : Connection} : connection ∈ leaving graph members ↔
      graph.signalSource? connection.sink = some connection.source ∧
        connection.source.node ∈ members ∧ connection.sink.node ∉ members := by
  rw [leaving_eq, List.mem_flatMap]
  simp only [mem_leavingFrom_iff]
  constructor
  · rintro ⟨id, member, node, found, outlet, isOutlet, isSource, isSink, outside⟩
    rw [isSource]
    exact ⟨signalSource?_of_sink wellFormed found isOutlet isSink, member, outside⟩
  · rintro ⟨fed, member, outside⟩
    obtain ⟨node, outlet, found, isOutlet, sameId, isSink⟩ :=
      Graph.mem_sinksOf_of_signalSource? wellFormed fed
    exact ⟨_, member, node, found, outlet, isOutlet, by rw [sameId], isSink, outside⟩

theorem nodup_leavingFrom (wellFormed : graph.WellFormed) (consistent : graph.Consistent)
    (members : List String) (id : String) : (leavingFrom graph members id).Nodup := by
  unfold leavingFrom
  cases found : graph.node? id with
  | none => exact .nil
  | some node =>
      have outlets : (node.outletsOfType .signal).Pairwise fun left right => left.id ≠ right.id :=
        List.pairwise_map.mp
          ((wellFormed.fits found).outletsDistinct.sublist (List.filter_sublist.map _))
      refine List.nodup_flatMap.mpr ⟨fun outlet _ => ?_, outlets.imp fun apart => ?_⟩
      · exact (consistent.nodup_sinksAt.filter _).map fun left right same => by simpa using same
      · intro connection isLeft isRight
        obtain ⟨_, _, rfl⟩ := List.mem_map.mp isLeft
        obtain ⟨_, _, same⟩ := List.mem_map.mp isRight
        exact apart (congrArg (fun connection => connection.source.portlet) same).symm

/-- The inlets that a group leads to are listed once. -/
theorem nodup_leaving_sinks (wellFormed : graph.WellFormed) (consistent : graph.Consistent)
    {members : List String} (distinct : members.Nodup) :
    ((leaving graph members).map Connection.sink).Nodup := by
  have once : (leaving graph members).Nodup := by
    rw [leaving_eq]
    refine List.nodup_flatMap.mpr
      ⟨fun id _ => nodup_leavingFrom wellFormed consistent members id, distinct.imp fun apart => ?_⟩
    intro connection isLeft isRight
    obtain ⟨_, _, _, _, isSource, _⟩ := mem_leavingFrom_iff.mp isLeft
    obtain ⟨_, _, _, _, isOther, _⟩ := mem_leavingFrom_iff.mp isRight
    rw [isSource, Endpoint.mk.injEq] at isOther
    exact apart isOther.1
  refine once.map_on fun left isLeft right isRight same => ?_
  have leftFed := ((mem_leaving_iff wellFormed).mp isLeft).1
  have rightFed := ((mem_leaving_iff wellFormed).mp isRight).1
  rw [same, rightFed, Option.some_inj] at leftFed
  obtain ⟨leftSource, leftSink⟩ := left
  dsimp only at leftFed same
  rw [same, ← leftFed]

/-! ## The place of a step -/

theorem mem_nodeSteps_inlet_iff : .inlet inlet ∈ program.nodeSteps keeps id ↔
    inlet.node = id ∧ program.HasSignalInlet inlet ∧ program.runsInlet keeps inlet = true := by
  unfold nodeSteps HasSignalInlet
  simp only [List.mem_append, List.mem_map, List.mem_filter, List.mem_singleton, reduceCtorEq,
    or_false, Step.inlet.injEq]
  constructor
  · rintro ⟨portlet, ⟨isInlet, runs⟩, rfl⟩
    cases found : program.graph.node? id with
    | none => simp [found] at isInlet
    | some node =>
        simp only [found, Option.map_some, Option.getD_some] at isInlet
        exact ⟨rfl, ⟨node, portlet, rfl, isInlet, rfl⟩, runs⟩
  · rintro ⟨rfl, ⟨node, portlet, found, isInlet, sameId⟩, runs⟩
    refine ⟨portlet, ⟨?_, ?_⟩, ?_⟩
    · simpa [found] using isInlet
    · rw [sameId]
      exact runs
    · rw [sameId]

theorem mem_nodeSteps_loop_iff {other : String} :
    .loop other ∈ program.nodeSteps keeps id ↔ other = id := by
  simp [nodeSteps]

theorem Framed.nodup_nodeSteps (framed : program.Framed) (keeps : String → Bool) (id : String) :
    (program.nodeSteps keeps id).Nodup := by
  unfold nodeSteps
  refine List.nodup_append.mpr ⟨?_, List.nodup_singleton _, ?_⟩
  · cases found : program.graph.node? id with
    | none => exact .nil
    | some node =>
        have inlets : ((node.inletsOfType .signal).map Portlet.id).Nodup :=
          (framed.wellFormed.fits found).inletsDistinct.sublist (List.filter_sublist.map _)
        have steps : (((node.inletsOfType .signal).map Portlet.id).map fun inlet =>
            Step.inlet ⟨id, inlet⟩).Nodup := inlets.map fun left right same => by simpa using same
        rw [List.map_map] at steps
        exact steps.sublist (List.filter_sublist.map _)
  · intro step isInlet other isLoop
    obtain ⟨portlet, _, rfl⟩ := List.mem_map.mp isInlet
    rw [List.mem_singleton.mp isLoop]
    exact Step.noConfusion

namespace SplitInto

variable (held : program.SplitInto groups) {group : ColdGroup}

include held

theorem mem_hotDsp_iff_coldOf : id ∈ program.hotDsp.traversal ↔
    id ∈ program.rootDsp.traversal ∧ program.coldOf.get? id = none ∧ id ∉ program.inlined := by
  have member : id ∈ program.finalTraversal none ↔ _ := held.mem_finalTraversal_iff
  rw [held.memberBefore_iff, and_assoc] at member
  exact member

/-- The members of a cold group before inlining, as they are recorded. -/
theorem exists_members (registered : group ∈ program.coldDsp.values) :
    ∃ members : List String, members.Nodup ∧ group.sinkConnections = leaving program.graph members ∧
      group.traversal.Sublist members ∧ (∀ id, id ∈ members ↔ program.coldOf.get? id = some group.id) ∧
      ∀ id ∈ group.traversal, id ∉ program.inlined := by
  obtain ⟨key, found⟩ := Table.mem_values_iff.mp registered
  obtain ⟨before, position, indexed, rfl, rfl⟩ := held.coldDsp_get?_iff.mp found
  have isGroup : before ∈ groups := List.fst_mem_of_mem_zipIdx indexed
  have isParent : before ∈ program.parents groups := List.mem_cons_of_mem _ isGroup
  refine ⟨before.traversal, (held.leadsOut isParent).distinct, rfl, List.filter_sublist, ?_, ?_⟩
  · intro id
    rw [held.coldOf]
    constructor
    · exact fun member => ⟨before, position, indexed, rfl, member⟩
    · rintro ⟨other, otherPosition, otherIndexed, samePosition, member⟩
      have same := Text.ofNat_injective samePosition
      subst same
      have atPosition := List.mem_zipIdx_iff_getElem?.mp indexed
      rw [List.mem_zipIdx_iff_getElem?.mp otherIndexed, Option.some_inj] at atPosition
      change other = before at atPosition
      exact atPosition ▸ member
  · exact fun id member => ((held.mem_left_iff isParent).mp member).2

theorem coldOf_of_mem (registered : group ∈ program.coldDsp.values) (member : id ∈ group.traversal) :
    program.coldOf.get? id = some group.id := by
  obtain ⟨members, _, _, within, recorded, _⟩ := held.exists_members registered
  exact (recorded id).mp (within.subset member)

theorem exists_coldGroup {key : String} (isCold : program.coldOf.get? id = some key) :
    ∃ group ∈ program.coldDsp.values, group.id = key := by
  obtain ⟨group, position, indexed, rfl, _⟩ := (held.coldOf id key).mp isCold
  exact ⟨_, Table.mem_values_iff.mpr
    ⟨_, held.coldDsp_get?_iff.mpr ⟨group, position, indexed, rfl, rfl⟩⟩, rfl⟩

/-- A cold group holds the sources of its members. -/
theorem coldOf_of_feeds {source sink key : String} (isCold : program.coldOf.get? sink = some key)
    (feeds : program.graph.Feeds source sink) : program.coldOf.get? source = some key := by
  obtain ⟨group, position, indexed, rfl, member⟩ := (held.coldOf sink key).mp isCold
  refine (held.coldOf source _).mpr ⟨group, position, indexed, rfl, ?_⟩
  exact (held.coldGroupsOf.group group (List.fst_mem_of_mem_zipIdx indexed)).mem_of_feeds
    held.wellFormed member feeds

theorem mem_sinkSteps_iff (registered : group ∈ program.coldDsp.values) {step : Step} :
    step ∈ program.sinkSteps group ↔ ∃ inlet, step = .inlet inlet ∧
      (program.inletStatement? inlet).isSome = true ∧
      program.coldOf.get? inlet.node ≠ some group.id ∧
      ∃ source, program.graph.signalSource? inlet = some source ∧
        program.coldOf.get? source.node = some group.id := by
  obtain ⟨members, _, leaves, _, recorded, _⟩ := held.exists_members registered
  unfold sinkSteps
  rw [leaves]
  simp only [List.mem_map, List.mem_filter, mem_leaving_iff held.wellFormed, recorded]
  constructor
  · rintro ⟨inlet, ⟨⟨connection, ⟨fed, isCold, outside⟩, rfl⟩, stated⟩, rfl⟩
    exact ⟨_, rfl, stated, outside, _, fed, isCold⟩
  · rintro ⟨inlet, rfl, stated, outside, source, fed, isCold⟩
    exact ⟨inlet, ⟨⟨⟨source, inlet⟩, ⟨fed, isCold, outside⟩, rfl⟩, stated⟩, rfl⟩

end SplitInto

/-- The cold group whose function a step stands in; the others stand in the loop. -/
def placeOf (program : Program) : Step → Option String
  | .loop id => program.coldOf.get? id
  | .inlet inlet =>
      (program.coldOf.get? inlet.node).or
        ((program.graph.signalSource? inlet).bind fun source => program.coldOf.get? source.node)

/-- What the places of the steps rest on. -/
structure Stated (program : Program) (groups : List DspGroup) : Prop where
  split : program.SplitInto groups
  framed : program.Framed
  consistent : program.graph.Consistent
  solid : ∀ {inlet}, (program.inletStatement? inlet).isSome = true → inlet.node ∈ program.loopNodes

theorem mem_loopSteps_inlet_iff : .inlet inlet ∈ program.loopSteps ↔
    program.HasSignalInlet inlet ∧ (program.inletStatement? inlet).isSome = true ∧
      inlet.node ∈ program.hotDsp.traversal ∧
      ∃ source, program.graph.signalSource? inlet = some source ∧
        program.coldOf.get? source.node = none := by
  simp only [loopSteps, List.mem_flatMap, mem_nodeSteps_inlet_iff, runsInlet, Bool.and_eq_true,
    Option.any_eq_true, Bool.not_eq_true', Table.contains, Option.isSome_eq_false_iff,
    Option.isNone_iff_eq_none]
  constructor
  · rintro ⟨_, hot, rfl, hasInlet, stated, fed⟩
    exact ⟨hasInlet, stated, hot, fed⟩
  · rintro ⟨hasInlet, stated, hot, fed⟩
    exact ⟨_, hot, rfl, hasInlet, stated, fed⟩

theorem mem_loopSteps_loop_iff : .loop id ∈ program.loopSteps ↔ id ∈ program.hotDsp.traversal := by
  simp [loopSteps, mem_nodeSteps_loop_iff]

namespace Stated

variable (held : program.Stated groups) {group : ColdGroup}

include held

theorem mem_coldSteps_inlet_iff (registered : group ∈ program.coldDsp.values) :
    .inlet inlet ∈ program.coldSteps group ↔ program.HasSignalInlet inlet ∧
      (program.inletStatement? inlet).isSome = true ∧
      ∃ source, program.graph.signalSource? inlet = some source ∧
        (inlet.node ∈ group.traversal ∨ inlet.node ∈ program.hotDsp.traversal ∧
          program.coldOf.get? source.node = some group.id) := by
  have wellFormed := held.framed.wellFormed
  simp only [coldSteps, List.mem_append, List.mem_flatMap, mem_nodeSteps_inlet_iff, runsInlet,
    Bool.and_eq_true, Option.any_eq_true, held.split.mem_sinkSteps_iff registered, Step.inlet.injEq,
    and_true]
  constructor
  · rintro (⟨_, member, rfl, hasInlet, stated, source, fed⟩ |
      ⟨_, rfl, stated, outside, source, fed, isCold⟩)
    · exact ⟨hasInlet, stated, source, fed, .inl member⟩
    · refine ⟨hasSignalInlet_of_fed wellFormed fed, stated, source, fed, .inr ⟨?_, isCold⟩⟩
      rcases List.mem_append.mp (held.solid stated) with hot | cold
      · exact hot
      · -- another cold group would hold the source as well
        obtain ⟨other, otherRegistered, member⟩ := List.mem_flatMap.mp cold
        have own := held.split.coldOf_of_mem otherRegistered member
        have sameGroup := held.split.coldOf_of_feeds own (Graph.feeds_of_signalSource? wellFormed fed)
        rw [isCold] at sameGroup
        exact absurd (own.trans sameGroup.symm) outside
  · rintro ⟨hasInlet, stated, source, fed, member | ⟨hot, isCold⟩⟩
    · exact .inl ⟨_, member, rfl, hasInlet, stated, source, fed⟩
    · refine .inr ⟨_, rfl, stated, ?_, source, fed, isCold⟩
      rw [(held.split.mem_hotDsp_iff_coldOf.mp hot).2.1]
      exact (Option.some_ne_none _).symm

theorem mem_coldSteps_loop_iff (registered : group ∈ program.coldDsp.values) :
    .loop id ∈ program.coldSteps group ↔ id ∈ group.traversal := by
  simp [coldSteps, mem_nodeSteps_loop_iff, held.split.mem_sinkSteps_iff registered]

/-- Steps of the loop are of no cold group, those of a cold function of its own group. -/
theorem placeOf_loopSteps {step : Step} (member : step ∈ program.loopSteps) :
    program.placeOf step = none := by
  cases step with
  | loop id => exact (held.split.mem_hotDsp_iff_coldOf.mp (mem_loopSteps_loop_iff.mp member)).2.1
  | inlet inlet =>
      obtain ⟨_, _, hot, source, fed, isHot⟩ := mem_loopSteps_inlet_iff.mp member
      simp [placeOf, (held.split.mem_hotDsp_iff_coldOf.mp hot).2.1, fed, isHot]

theorem placeOf_coldSteps (registered : group ∈ program.coldDsp.values) {step : Step}
    (member : step ∈ program.coldSteps group) : program.placeOf step = some group.id := by
  cases step with
  | loop id =>
      exact held.split.coldOf_of_mem registered ((held.mem_coldSteps_loop_iff registered).mp member)
  | inlet inlet =>
      obtain ⟨_, _, source, fed, own | ⟨hot, isCold⟩⟩ :=
        (held.mem_coldSteps_inlet_iff registered).mp member
      · simp [placeOf, held.split.coldOf_of_mem registered own]
      · simp [placeOf, (held.split.mem_hotDsp_iff_coldOf.mp hot).2.1, fed, isCold]

theorem nodup_flatMap_nodeSteps {traversal : List String} (distinct : traversal.Nodup)
    (keeps : String → Bool) : (traversal.flatMap (program.nodeSteps keeps)).Nodup := by
  refine List.nodup_flatMap.mpr
    ⟨fun id _ => held.framed.nodup_nodeSteps keeps id, distinct.imp fun apart => ?_⟩
  intro step isLeft isRight
  cases step with
  | inlet inlet =>
      exact apart ((mem_nodeSteps_inlet_iff.mp isLeft).1.symm.trans
        (mem_nodeSteps_inlet_iff.mp isRight).1)
  | loop id =>
      exact apart ((mem_nodeSteps_loop_iff.mp isLeft).symm.trans (mem_nodeSteps_loop_iff.mp isRight))

theorem nodup_coldSteps (registered : group ∈ program.coldDsp.values) :
    (program.coldSteps group).Nodup := by
  obtain ⟨members, distinct, leaves, within, _⟩ := held.split.exists_members registered
  refine List.nodup_append.mpr ⟨held.nodup_flatMap_nodeSteps (distinct.sublist within) _, ?_, ?_⟩
  · unfold sinkSteps
    rw [leaves]
    refine ((nodup_leaving_sinks held.framed.wellFormed held.consistent distinct).filter _).map ?_
    exact fun left right same => Step.inlet.inj same
  · intro step inNodes other inSinks same
    subst same
    obtain ⟨inlet, rfl, _, outside, _⟩ := (held.split.mem_sinkSteps_iff registered).mp inSinks
    obtain ⟨id, member, isStep⟩ := List.mem_flatMap.mp inNodes
    obtain ⟨rfl, _⟩ := mem_nodeSteps_inlet_iff.mp isStep
    exact outside (held.split.coldOf_of_mem registered member)

/-- No step stands in two places. -/
theorem nodup_functions :
    (program.loopSteps ++ program.coldDsp.values.flatMap program.coldSteps).Nodup := by
  have distinct := (List.nodup_append.mp held.split.shared_nodup).1
  refine List.nodup_append.mpr ⟨?_, List.nodup_flatMap.mpr ⟨?_, ?_⟩, ?_⟩
  · exact held.nodup_flatMap_nodeSteps (List.nodup_append.mp distinct).1 _
  · exact fun group registered => held.nodup_coldSteps registered
  · refine (List.pairwise_map.mp held.split.coldIds_nodup).imp_of_mem ?_
    intro left right isLeft isRight apart step inLeft inRight
    have same := (held.placeOf_coldSteps isLeft inLeft).symm.trans
      (held.placeOf_coldSteps isRight inRight)
    exact apart (Option.some.inj same)
  · intro step inLoop other inCold same
    subst same
    obtain ⟨group, registered, member⟩ := List.mem_flatMap.mp inCold
    have placed := held.placeOf_loopSteps inLoop
    rw [held.placeOf_coldSteps registered member] at placed
    cases placed

end Stated

/-! ## The order of steps -/

theorem sublist_flatMap_of_mem {α : Type u} {β : Type v} {items : List α} {item : α}
    {image : α → List β} (member : item ∈ items) : (image item).Sublist (items.flatMap image) := by
  rw [List.flatMap_def]
  exact List.sublist_flatten_of_mem (List.mem_map_of_mem member)

/-- The inlets of a node come before its loop. -/
theorem nodeSteps_ordered (member : .inlet inlet ∈ program.nodeSteps keeps id) :
    [.inlet inlet, .loop id].Sublist (program.nodeSteps keeps id) := by
  unfold nodeSteps at member ⊢
  rcases List.mem_append.mp member with isInlet | isLoop
  · exact (List.singleton_sublist.mpr isInlet).append (.refl [Step.loop id])
  · cases List.mem_singleton.mp isLoop

theorem flatMap_nodeSteps_ordered {traversal : List String}
    (member : .inlet inlet ∈ traversal.flatMap (program.nodeSteps keeps)) :
    [.inlet inlet, .loop inlet.node].Sublist (traversal.flatMap (program.nodeSteps keeps)) := by
  obtain ⟨id, listed, isStep⟩ := List.mem_flatMap.mp member
  have same := (mem_nodeSteps_inlet_iff.mp isStep).1
  rw [same]
  exact (nodeSteps_ordered isStep).trans (sublist_flatMap_of_mem listed)

/-- All steps, function by function. -/
def steps (program : Program) : List Step :=
  program.loopSteps ++ program.coldDsp.values.flatMap program.coldSteps

/-- The statement of an inlet runs in one place: before the loop statement of its node, in the loop or
in the cold function of the node; or, where a cold group feeds a hot node, in the function of this
group after the loop statements of its members. -/
structure RunsOnce (program : Program) (inlet source : Endpoint) : Prop where
  once : program.steps.count (.inlet inlet) = 1
  hot : inlet.node ∈ program.hotDsp.traversal → program.coldOf.get? source.node = none →
    [.inlet inlet, .loop inlet.node].Sublist program.loopSteps
  cold : ∀ group ∈ program.coldDsp.values, inlet.node ∈ group.traversal →
    [.inlet inlet, .loop inlet.node].Sublist (program.coldSteps group)
  crossing : ∀ group ∈ program.coldDsp.values, inlet.node ∈ program.hotDsp.traversal →
    program.coldOf.get? source.node = some group.id → .inlet inlet ∈ program.coldSteps group ∧
      ∀ id ∈ group.traversal, [.loop id, .inlet inlet].Sublist (program.coldSteps group)

/-- Where the statement of an inlet runs, by what feeds the inlet. -/
def IsPlaced (program : Program) (inlet : Endpoint) : Prop :=
  match program.graph.signalSource? inlet with
  | none => Step.inlet inlet ∉ program.steps
  | some source => program.RunsOnce inlet source

namespace Stated

variable (held : program.Stated groups) {group : ColdGroup}

include held

theorem not_mem_steps (unfed : program.graph.signalSource? inlet = none) :
    Step.inlet inlet ∉ program.steps := by
  intro member
  rcases List.mem_append.mp member with inLoop | inCold
  · obtain ⟨_, _, _, source, fed, _⟩ := mem_loopSteps_inlet_iff.mp inLoop
    rw [unfed] at fed
    cases fed
  · obtain ⟨group, registered, isStep⟩ := List.mem_flatMap.mp inCold
    obtain ⟨_, _, source, fed, _⟩ := (held.mem_coldSteps_inlet_iff registered).mp isStep
    rw [unfed] at fed
    cases fed

theorem runsOnce (hasInlet : program.HasSignalInlet inlet)
    (stated : (program.inletStatement? inlet).isSome = true)
    (fed : program.graph.signalSource? inlet = some source) : program.RunsOnce inlet source := by
  have inLoop (hot : inlet.node ∈ program.hotDsp.traversal)
      (isHot : program.coldOf.get? source.node = none) : .inlet inlet ∈ program.loopSteps :=
    mem_loopSteps_inlet_iff.mpr ⟨hasInlet, stated, hot, source, fed, isHot⟩
  have inOwn {group : ColdGroup} (registered : group ∈ program.coldDsp.values)
      (own : inlet.node ∈ group.traversal) : .inlet inlet ∈ program.coldSteps group :=
    (held.mem_coldSteps_inlet_iff registered).mpr ⟨hasInlet, stated, source, fed, .inl own⟩
  have inSource {group : ColdGroup} (registered : group ∈ program.coldDsp.values)
      (hot : inlet.node ∈ program.hotDsp.traversal)
      (isCold : program.coldOf.get? source.node = some group.id) :
      .inlet inlet ∈ program.coldSteps group :=
    (held.mem_coldSteps_inlet_iff registered).mpr ⟨hasInlet, stated, source, fed, .inr ⟨hot, isCold⟩⟩
  refine ⟨?_, fun hot isHot => flatMap_nodeSteps_ordered (inLoop hot isHot), ?_, ?_⟩
  · refine List.count_eq_one_of_mem held.nodup_functions ?_
    rcases List.mem_append.mp (held.solid stated) with hot | cold
    · cases place : program.coldOf.get? source.node with
      | none => exact List.mem_append_left _ (inLoop hot place)
      | some key =>
          obtain ⟨group, registered, rfl⟩ := held.split.exists_coldGroup place
          exact List.mem_append_right _
            (List.mem_flatMap.mpr ⟨group, registered, inSource registered hot place⟩)
    · obtain ⟨group, registered, own⟩ := List.mem_flatMap.mp cold
      exact List.mem_append_right _
        (List.mem_flatMap.mpr ⟨group, registered, inOwn registered own⟩)
  · intro group registered own
    have member := inOwn registered own
    rcases List.mem_append.mp member with isOwn | isSink
    · exact (flatMap_nodeSteps_ordered isOwn).trans (List.sublist_append_left ..)
    · obtain ⟨_, same, _, outside, _⟩ := (held.split.mem_sinkSteps_iff registered).mp isSink
      cases same
      exact absurd (held.split.coldOf_of_mem registered own) outside
  · intro group registered hot isCold
    have member := inSource registered hot isCold
    refine ⟨member, fun id own => ?_⟩
    rcases List.mem_append.mp member with isOwn | isSink
    · obtain ⟨_, listed, isStep⟩ := List.mem_flatMap.mp isOwn
      cases (mem_nodeSteps_inlet_iff.mp isStep).1
      have isNone := (held.split.mem_hotDsp_iff_coldOf.mp hot).2.1
      rw [held.split.coldOf_of_mem registered listed] at isNone
      cases isNone
    · have isLoop : Step.loop id ∈ group.traversal.flatMap (program.nodeSteps fun _ => true) :=
        List.mem_flatMap.mpr ⟨id, own, mem_nodeSteps_loop_iff.mpr rfl⟩
      exact (List.singleton_sublist.mpr isLoop).append (List.singleton_sublist.mpr isSink)

theorem isPlaced (hasInlet : program.HasSignalInlet inlet)
    (stated : (program.inletStatement? inlet).isSome = true) : program.IsPlaced inlet := by
  unfold IsPlaced
  cases fed : program.graph.signalSource? inlet with
  | none => exact held.not_mem_steps fed
  | some source => exact held.runsOnce hasInlet stated fed

end Stated

end Program

end Patchbay
