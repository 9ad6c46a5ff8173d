import Mathlib.Logic.Relation
import Patchbay.Proofs.Graph.WellFormed

namespace Patchbay

/-! Signal connections between nodes.

`Feeds` reads a connection off the record at its sink.  In a well-formed graph the record at the
source says the same, so a node with a single signal sink feeds a single node.
-/

namespace Node

variable {node : Node}

theorem mem_signalSources {source : Endpoint} :
    source ∈ node.signalSources ↔
      ∃ inlet ∈ node.inlets, inlet.type = .signal ∧ source ∈ node.sourcesOf inlet.id := by
  simp [signalSources, inletsOfType, and_assoc]

theorem mem_signalSinks {sink : Endpoint} :
    sink ∈ node.signalSinks ↔
      ∃ outlet ∈ node.outlets, outlet.type = .signal ∧ sink ∈ node.sinksOf outlet.id := by
  simp [signalSinks, outletsOfType, and_assoc]

theorem mem_keys_of_mem_sourcesOf {inlet : String} {source : Endpoint}
    (member : source ∈ node.sourcesOf inlet) : inlet ∈ node.sources.keys := by
  cases found : node.sources.get? inlet with
  | none => simp [sourcesOf, Table.getD, found] at member
  | some endpoints => exact Table.mem_keys_of_get? found

theorem mem_keys_of_mem_sinksOf {outlet : String} {sink : Endpoint}
    (member : sink ∈ node.sinksOf outlet) : outlet ∈ node.sinks.keys := by
  cases found : node.sinks.get? outlet with
  | none => simp [sinksOf, Table.getD, found] at member
  | some endpoints => exact Table.mem_keys_of_get? found

/-- Where ids are distinct, looking for the id of a portlet finds the portlet. -/
theorem find?_id_of_mem {portlets : List Portlet} {portlet : Portlet}
    (distinct : (portlets.map Portlet.id).Nodup) (member : portlet ∈ portlets) :
    portlets.find? (fun other => other.id = portlet.id) = some portlet := by
  induction portlets with
  | nil => cases member
  | cons first rest ih =>
      simp only [List.map_cons, List.nodup_cons] at distinct
      rcases List.mem_cons.mp member with same | later
      · simp [same]
      · have apart : first.id ≠ portlet.id := fun same =>
          distinct.1 (same ▸ List.mem_map_of_mem later)
        rw [List.find?_cons_of_neg (by simpa using apart)]
        exact ih distinct.2 later

/-- A signal inlet has one source at most. -/
theorem FitsIn.single_source {graph : Graph} {id : String} (fits : node.FitsIn graph id) {inlet : Portlet}
    (member : inlet ∈ node.inlets) (signal : inlet.type = .signal) :
    (node.sourcesOf inlet.id).length ≤ 1 := by
  by_cases unfed : node.sourcesOf inlet.id = []
  · simp [unfed]
  · obtain ⟨source, fed⟩ := List.exists_mem_of_ne_nil _ unfed
    obtain ⟨known, lookup, single, _⟩ := fits.sources inlet.id (mem_keys_of_mem_sourcesOf fed)
    have same : node.inlet? inlet.id = some inlet := find?_id_of_mem fits.inletsDistinct member
    cases same.symm.trans lookup
    exact single signal

end Node

namespace Graph

/-- Whether a signal connection leads from one node to another. -/
def Feeds (graph : Graph) (source sink : String) : Prop :=
  ∃ node, graph.node? sink = some node ∧ ∃ endpoint ∈ node.signalSources, endpoint.node = source

/-- Whether every signal source of a node is stored. -/
def Sourced (graph : Graph) (id : String) : Prop :=
  ∀ source, graph.Feeds source id → ∃ node, graph.node? source = some node

variable {graph : Graph} {id : String} {node : Node}

theorem feeds_iff (found : graph.node? id = some node) {source : String} :
    graph.Feeds source id ↔ ∃ endpoint ∈ node.signalSources, endpoint.node = source := by
  simp [Feeds, found]

namespace WellFormed

/-- A signal inlet is fed by a signal outlet that records the connection. -/
theorem source_of_inlet (wellFormed : graph.WellFormed) (found : graph.node? id = some node)
    {inlet : Portlet} (member : inlet ∈ node.inlets) {source : Endpoint}
    (fed : source ∈ node.sourcesOf inlet.id) :
    ∃ sourceNode outlet, graph.node? source.node = some sourceNode ∧
      outlet ∈ sourceNode.outlets ∧ outlet.id = source.portlet ∧ outlet.type = inlet.type ∧
      ⟨id, inlet.id⟩ ∈ sourceNode.sinksOf source.portlet := by
  have fits := wellFormed.fits found
  obtain ⟨known, lookup, _, mirrored⟩ := fits.sources inlet.id (Node.mem_keys_of_mem_sourcesOf fed)
  have same : node.inlet? inlet.id = some inlet := Node.find?_id_of_mem fits.inletsDistinct member
  rw [same] at lookup
  cases lookup
  obtain ⟨outlet, outletFound, sameType, recorded⟩ := mirrored source fed
  cases sourceFound : graph.node? source.node with
  | none => simp [outletAt?, sourceFound] at outletFound
  | some sourceNode =>
      simp only [outletAt?, sourceFound, Option.bind_some] at outletFound
      simp only [sinksAt, sourceFound, Option.map_some, Option.getD_some] at recorded
      exact ⟨sourceNode, outlet, rfl, List.mem_of_find?_eq_some outletFound,
        outlet?_id outletFound, sameType, recorded⟩

/-- An outlet feeds an inlet of its own type that records the connection. -/
theorem sink_of_outlet (wellFormed : graph.WellFormed) (found : graph.node? id = some node)
    {outlet : Portlet} (member : outlet ∈ node.outlets) {sink : Endpoint}
    (feeding : sink ∈ node.sinksOf outlet.id) :
    ∃ sinkNode inlet, graph.node? sink.node = some sinkNode ∧
      inlet ∈ sinkNode.inlets ∧ inlet.id = sink.portlet ∧ inlet.type = outlet.type ∧
      ⟨id, outlet.id⟩ ∈ sinkNode.sourcesOf sink.portlet := by
  have fits := wellFormed.fits found
  obtain ⟨_, _, mirrored⟩ := fits.sinks outlet.id (Node.mem_keys_of_mem_sinksOf feeding)
  obtain ⟨inlet, inletFound, recorded⟩ := mirrored sink feeding
  cases sinkFound : graph.node? sink.node with
  | none => simp [inletAt?, sinkFound] at inletFound
  | some sinkNode =>
      simp only [inletAt?, sinkFound, Option.bind_some] at inletFound
      simp only [sourcesAt, sinkFound, Option.map_some, Option.getD_some] at recorded
      have inletMember : inlet ∈ sinkNode.inlets := List.mem_of_find?_eq_some inletFound
      have sameId : inlet.id = sink.portlet := inlet?_id inletFound
      rw [← sameId] at recorded
      obtain ⟨sourceNode, other, sourceFound, otherMember, otherId, sameType, _⟩ :=
        wellFormed.source_of_inlet sinkFound inletMember recorded
      simp only [found, Option.some.injEq] at sourceFound
      subst sourceFound
      -- the mirror names this outlet, and outlet ids are distinct
      have sameOutlet : other = outlet := by
        have first := Node.find?_id_of_mem fits.outletsDistinct otherMember
        have second := Node.find?_id_of_mem fits.outletsDistinct member
        rw [otherId] at first
        exact Option.some.inj (first.symm.trans second)
      subst sameOutlet
      exact ⟨sinkNode, inlet, rfl, inletMember, sameId, sameType.symm, sameId ▸ recorded⟩

theorem node?_of_feeds_source (wellFormed : graph.WellFormed) {source sink : String}
    (feeds : graph.Feeds source sink) : ∃ node, graph.node? source = some node := by
  obtain ⟨node, found, endpoint, member, rfl⟩ := feeds
  obtain ⟨inlet, inletMember, _, fed⟩ := Node.mem_signalSources.mp member
  obtain ⟨sourceNode, _, sourceFound, _⟩ := wellFormed.source_of_inlet found inletMember fed
  exact ⟨sourceNode, sourceFound⟩

theorem sourced (wellFormed : graph.WellFormed) (id : String) : graph.Sourced id :=
  fun _ feeds => wellFormed.node?_of_feeds_source feeds

theorem feeds_iff_signalSinks (wellFormed : graph.WellFormed) (found : graph.node? id = some node)
    {sink : String} :
    graph.Feeds id sink ↔ ∃ endpoint ∈ node.signalSinks, endpoint.node = sink := by
  constructor
  · intro given
    obtain ⟨sinkNode, sinkFound, endpoint, member, rfl⟩ := given
    obtain ⟨inlet, inletMember, signal, fed⟩ := Node.mem_signalSources.mp member
    obtain ⟨sourceNode, outlet, sourceFound, outletMember, sameId, sameType, recorded⟩ :=
      wellFormed.source_of_inlet sinkFound inletMember fed
    simp only [found, Option.some.injEq] at sourceFound
    subst sourceFound
    refine ⟨⟨sink, inlet.id⟩, Node.mem_signalSinks.mpr ⟨outlet, outletMember, ?_, ?_⟩, rfl⟩
    · exact sameType.trans signal
    · rw [sameId]
      exact recorded
  · intro given
    obtain ⟨endpoint, member, rfl⟩ := given
    obtain ⟨outlet, outletMember, signal, feeding⟩ := Node.mem_signalSinks.mp member
    obtain ⟨sinkNode, inlet, sinkFound, inletMember, sameId, sameType, recorded⟩ :=
      wellFormed.sink_of_outlet found outletMember feeding
    refine ⟨sinkNode, sinkFound, ⟨id, outlet.id⟩, ?_, rfl⟩
    refine Node.mem_signalSources.mpr ⟨inlet, inletMember, sameType.trans signal, ?_⟩
    rw [sameId]
    exact recorded

theorem feeds_iff_of_single (wellFormed : graph.WellFormed) (found : graph.node? id = some node)
    {only : Endpoint} (single : node.signalSinks = [only]) {sink : String} :
    graph.Feeds id sink ↔ only.node = sink := by
  rw [wellFormed.feeds_iff_signalSinks found, single]
  simp

end WellFormed

end Graph

end Patchbay
