import Patchbay.Proofs.Graph.Assembly

namespace Patchbay

/-! The entries of the records that nodes keep of their connections.

An entry is there exactly when it lists an endpoint, and a new endpoint goes to its end.  Whoever removes an
endpoint that was added last therefore finds the table that it was added to, with the same keys in the same
order.  Connecting and disconnecting do this at both ends, which may be portlets of one node.
-/

namespace Endpoints

variable {table : Table (List Endpoint)} {portlet key : String} {endpoint : Endpoint} {allowed : List String}

/-- What stays of an entry when only some endpoints are kept.  An entry that loses all of them goes. -/
def keptOf (keeps : Endpoint → Bool) (entry : Option (List Endpoint)) : Option (List Endpoint) :=
  (entry.map fun endpoints => endpoints.filter keeps).filter fun endpoints => !endpoints.isEmpty

theorem get?_add : (add table portlet endpoint).get? key =
    if key = portlet then some ((table.get? key).getD [] ++ [endpoint]) else table.get? key := by
  unfold add Table.getD
  rw [Table.get?_set]
  split
  · next same => rw [same]
  · rfl

theorem remove_eq : remove table portlet endpoint =
    match keptOf (· ≠ endpoint) (table.get? portlet) with
    | some left => table.set portlet left
    | none => table.erase portlet := by
  unfold remove keptOf Table.getD
  cases table.get? portlet with
  | none => rfl
  | some endpoints =>
      rw [Option.map_some, Option.getD_some, Option.filter_some]
      cases endpoints.filter (· ≠ endpoint) <;> rfl

theorem get?_remove : (remove table portlet endpoint).get? key =
    if key = portlet then keptOf (· ≠ endpoint) (table.get? key) else table.get? key := by
  rw [remove_eq]
  by_cases same : key = portlet
  · subst same
    rw [if_pos rfl]
    split
    · next left kept => rw [Table.get?_set, if_pos rfl, kept]
    · next gone => rw [Table.get?_erase, if_pos rfl, gone]
  · rw [if_neg same]
    split
    · rw [Table.get?_set, if_neg same]
    · rw [Table.get?_erase, if_neg same]

theorem get?_restrict : (restrict allowed table).get? key =
    keptOf (fun endpoint => allowed.contains endpoint.node) (table.get? key) := by
  unfold restrict keptOf
  rw [Table.get?_filter, Table.get?_map]

/-- Removing an endpoint that was not there before it was added restores the table, with its keys in their
order. -/
theorem remove_add (busy : NoneIdle table) (absent : endpoint ∉ table.getD portlet []) :
    remove (add table portlet endpoint) portlet endpoint = table := by
  have others : (table.getD portlet []).filter (· ≠ endpoint) = table.getD portlet [] := by
    refine List.filter_eq_self.mpr fun other member => decide_eq_true fun same => absent (same ▸ member)
  rw [remove_eq, get?_add, if_pos rfl]
  unfold Table.getD at others
  unfold keptOf
  rw [Option.map_some, List.filter_append, others, Option.filter_some]
  unfold add
  cases found : table.get? portlet with
  | none =>
      simpa [Table.getD, found] using Table.erase_set (Table.get?_eq_none_iff.mp found)
  | some endpoints =>
      have filled : endpoints ≠ [] := busy found
      simpa [Table.getD, found, filled, Table.set_set] using Table.set_of_get? found

end Endpoints

namespace Graph

open Endpoints (keptOf)

variable {graph other connected left : Graph} {id key : String} {node : Node}
  {source sink outlet inlet : Endpoint} {keep : List String}

/-- What is recorded at an outlet; nothing when there is no entry. -/
def recordedSinks? (graph : Graph) (outlet : Endpoint) : Option (List Endpoint) :=
  (graph.node? outlet.node).bind fun node => node.sinks.get? outlet.portlet

/-- What is recorded at an inlet; nothing when there is no entry. -/
def recordedSources? (graph : Graph) (inlet : Endpoint) : Option (List Endpoint) :=
  (graph.node? inlet.node).bind fun node => node.sources.get? inlet.portlet

theorem sinksAt_eq_getD : graph.sinksAt outlet = (graph.recordedSinks? outlet).getD [] := by
  unfold sinksAt recordedSinks?
  cases graph.node? outlet.node <;> rfl

theorem sourcesAt_eq_getD : graph.sourcesAt inlet = (graph.recordedSources? inlet).getD [] := by
  unfold sourcesAt recordedSources?
  cases graph.node? inlet.node <;> rfl

/-! ## Entries after an edit -/

theorem get?_sinks_linkNode : (linkNode source sink id node).sinks.get? key =
    if ⟨id, key⟩ = source then some ((node.sinks.get? key).getD [] ++ [sink])
    else node.sinks.get? key := by
  obtain ⟨sourceId, sourcePortlet⟩ := source
  by_cases atNode : id = sourceId <;> simp [linkNode, atNode, Endpoints.get?_add]

theorem get?_sources_linkNode : (linkNode source sink id node).sources.get? key =
    if ⟨id, key⟩ = sink then some ((node.sources.get? key).getD [] ++ [source])
    else node.sources.get? key := by
  obtain ⟨sinkId, sinkPortlet⟩ := sink
  by_cases atNode : id = sinkId <;> simp [linkNode, atNode, Endpoints.get?_add]

theorem get?_sinks_unlinkNode : (unlinkNode source sink id node).sinks.get? key =
    if ⟨id, key⟩ = source then keptOf (· ≠ sink) (node.sinks.get? key) else node.sinks.get? key := by
  obtain ⟨sourceId, sourcePortlet⟩ := source
  by_cases atNode : id = sourceId <;> simp [unlinkNode, atNode, Endpoints.get?_remove]

theorem get?_sources_unlinkNode : (unlinkNode source sink id node).sources.get? key =
    if ⟨id, key⟩ = sink then keptOf (· ≠ source) (node.sources.get? key) else node.sources.get? key := by
  obtain ⟨sinkId, sinkPortlet⟩ := sink
  by_cases atNode : id = sinkId <;> simp [unlinkNode, atNode, Endpoints.get?_remove]

theorem recordedSinks?_link (found : graph.node? source.node = some node) :
    (graph.link source sink).recordedSinks? outlet =
      if outlet = source then some (graph.sinksAt outlet ++ [sink]) else graph.recordedSinks? outlet := by
  rw [sinksAt_eq_getD]
  unfold recordedSinks?
  rw [node?_link]
  cases stored : graph.node? outlet.node with
  | none =>
      have apart : outlet ≠ source := by
        rintro rfl
        cases stored.symm.trans found
      rw [if_neg apart]
      rfl
  | some storedNode => exact get?_sinks_linkNode

theorem recordedSources?_link (found : graph.node? sink.node = some node) :
    (graph.link source sink).recordedSources? inlet =
      if inlet = sink then some (graph.sourcesAt inlet ++ [source]) else graph.recordedSources? inlet := by
  rw [sourcesAt_eq_getD]
  unfold recordedSources?
  rw [node?_link]
  cases stored : graph.node? inlet.node with
  | none =>
      have apart : inlet ≠ sink := by
        rintro rfl
        cases stored.symm.trans found
      rw [if_neg apart]
      rfl
  | some storedNode => exact get?_sources_linkNode

theorem recordedSinks?_unlink : (graph.unlink source sink).recordedSinks? outlet =
    if outlet = source then keptOf (· ≠ sink) (graph.recordedSinks? outlet)
    else graph.recordedSinks? outlet := by
  unfold recordedSinks?
  rw [node?_unlink]
  cases graph.node? outlet.node with
  | none => exact (ite_self _).symm
  | some node => exact get?_sinks_unlinkNode

theorem recordedSources?_unlink : (graph.unlink source sink).recordedSources? inlet =
    if inlet = sink then keptOf (· ≠ source) (graph.recordedSources? inlet)
    else graph.recordedSources? inlet := by
  unfold recordedSources?
  rw [node?_unlink]
  cases graph.node? inlet.node with
  | none => exact (ite_self _).symm
  | some node => exact get?_sources_unlinkNode

theorem recordedSinks?_trim : (graph.trim keep).recordedSinks? outlet =
    if outlet.node ∈ keep then keptOf (fun sink => keep.contains sink.node) (graph.recordedSinks? outlet)
    else none := by
  unfold recordedSinks?
  rw [node?_trim]
  split
  · cases graph.node? outlet.node with
    | none => rfl
    | some node => exact Endpoints.get?_restrict
  · rfl

theorem recordedSources?_trim : (graph.trim keep).recordedSources? inlet =
    if inlet.node ∈ keep then keptOf (fun source => keep.contains source.node) (graph.recordedSources? inlet)
    else none := by
  unfold recordedSources?
  rw [node?_trim]
  split
  · cases graph.node? inlet.node with
    | none => rfl
    | some node => exact Endpoints.get?_restrict
  · rfl

/-! ## Taking back a connection -/

/-- A graph without reserved slots is determined by the order of its ids and its nodes. -/
theorem ext_node? (filled : ∀ id ∈ graph.ids, ∃ node, graph.node? id = some node)
    (filledToo : ∀ id ∈ other.ids, ∃ node, other.node? id = some node) (sameIds : graph.ids = other.ids)
    (same : ∀ id, graph.node? id = other.node? id) : graph = other := by
  have slots : ∀ {graph : Graph}, (∀ id ∈ graph.ids, ∃ node, graph.node? id = some node) →
      ∀ id, graph.slots.get? id = (graph.node? id).map some := by
    intro graph filled id
    cases found : graph.slots.get? id with
    | none => simp [node?, found]
    | some slot =>
        obtain ⟨node, isNode⟩ := filled id (mem_ids_iff.mpr ⟨slot, found⟩)
        simp only [node?, found, Option.join_some] at isNode ⊢
        rw [isNode]
        rfl
  refine congrArg Graph.mk (Table.ext_get? sameIds fun id => ?_)
  rw [slots filled, slots filledToo, same]

theorem nodes_of_portlets {outletFound inletFound : Portlet}
    (atSource : graph.outletAt? source = some outletFound)
    (atSink : graph.inletAt? sink = some inletFound) : ∃ sourceNode sinkNode,
      graph.node? source.node = some sourceNode ∧ graph.node? sink.node = some sinkNode := by
  obtain ⟨sourceNode, sourceFound, _⟩ := outletAt?_eq_some_iff.mp atSource
  obtain ⟨sinkNode, sinkFound, _⟩ := inletAt?_eq_some_iff.mp atSink
  exact ⟨sourceNode, sinkNode, sourceFound, sinkFound⟩

theorem Connectable.nodes (connectable : graph.Connectable source sink) : ∃ sourceNode sinkNode,
    graph.node? source.node = some sourceNode ∧ graph.node? sink.node = some sinkNode := by
  obtain ⟨_, _, atSource, atSink, _⟩ := connectable.portlets
  exact nodes_of_portlets atSource atSink

theorem Consistent.nodes_of_recorded (consistent : graph.Consistent)
    (recorded : source ∈ graph.sourcesAt sink) : ∃ sourceNode sinkNode,
      graph.node? source.node = some sourceNode ∧ graph.node? sink.node = some sinkNode := by
  obtain ⟨_, _, atSource, atSink, _⟩ := consistent.typed (.inr recorded)
  exact nodes_of_portlets atSource atSink

theorem node?_link_of_some (found : graph.node? id = some node) :
    ∃ linked, (graph.link source sink).node? id = some linked :=
  ⟨linkNode source sink id node, by rw [node?_link, found, Option.map_some]⟩

theorem Consistent.unlink_link (consistent : graph.Consistent) (connectable : graph.Connectable source sink) :
    (graph.link source sink).unlink source sink = graph := by
  have linked := consistent.link connectable
  refine ext_node? linked.unlink.filled consistent.filled (ids_unlink.trans ids_link) fun id => ?_
  rw [node?_unlink, node?_link]
  cases found : graph.node? id with
  | none => rfl
  | some node =>
      obtain ⟨sources, sinks⟩ := consistent.noneIdle found
      have newSource : id = sink.node → source ∉ node.sources.getD sink.portlet [] := by
        rintro rfl
        have unrecorded := connectable.unrecorded
        rwa [sourcesAt_eq found] at unrecorded
      have newSink : id = source.node → sink ∉ node.sinks.getD source.portlet [] := by
        rintro rfl
        have unrecorded := mt consistent.mem_sinksAt_iff.mp connectable.unrecorded
        rwa [sinksAt_eq found] at unrecorded
      simp only [Option.map_some, Option.some.injEq, unlinkNode, linkNode]
      congr 1
      · split
        · next atSink => exact Endpoints.remove_add sources (newSource atSink)
        · rfl
      · split
        · next atSource => exact Endpoints.remove_add sinks (newSink atSource)
        · rfl

/-- Connecting what was not connected links two portlets. -/
theorem link_of_connect (absent : source ∉ graph.sourcesAt sink)
    (success : graph.connect source sink = .ok connected) :
    graph.Connectable source sink ∧ connected = graph.link source sink := by
  obtain ⟨outlet, inlet, atSource, atSink, sameTypes⟩ := portlets_of_connect success
  rw [connect_eq atSource atSink sameTypes, if_neg absent] at success
  split at success
  · cases success
  · next free =>
    cases success
    refine ⟨⟨⟨outlet, inlet, atSource, atSink, sameTypes, fun signal => ?_⟩, absent⟩, rfl⟩
    by_contra taken
    exact free ⟨signal, taken⟩

theorem connect_again (success : graph.connect source sink = .ok connected) :
    connected.connect source sink = .ok connected := by
  rcases connect_eq_ok success with rfl | ⟨⟨⟨newOutlet, newInlet, atSource, atSink, sameTypes, _⟩, _⟩, rfl⟩
  · exact success
  · obtain ⟨sinkNode, sinkFound, _⟩ := inletAt?_eq_some_iff.mp atSink
    rw [← outletAt?_link] at atSource
    rw [← inletAt?_link] at atSink
    rw [connect_eq atSource atSink sameTypes]
    exact if_pos ((mem_sourcesAt_link sinkFound).mpr (.inr ⟨rfl, rfl⟩))

theorem disconnect_eq (sourceFound : ∃ node, graph.node? source.node = some node)
    (sinkFound : ∃ node, graph.node? sink.node = some node) :
    graph.disconnect source sink = .ok (graph.unlink source sink) := by
  obtain ⟨sourceNode, sourceFound⟩ := sourceFound
  obtain ⟨sinkNode, sinkFound⟩ := sinkFound
  unfold disconnect
  rw [node_eq_ok_iff.mpr sourceFound, node_eq_ok_iff.mpr sinkFound]
  rfl

/-! ## Graphs made by edits -/

/-- Graphs that calls make out of the empty one. -/
inductive Made : Graph → Prop where
  | empty : Made empty
  | edit {graph changed : Graph} {edit : Edit} (made : Made graph) (bare : edit.AddsBare)
      (success : edit.apply graph = .ok changed) : Made changed

theorem Made.consistent (made : graph.Made) : graph.Consistent := by
  induction made with
  | empty => exact consistent_empty
  | edit _ bare success consistent => exact consistent.apply bare success

/-- A connection is recorded at the end of both lists, and nothing else changes. -/
structure Gains (graph : Graph) (source sink : Endpoint) (connected : Graph) : Prop where
  ids : connected.ids = graph.ids
  nodes : ∀ id, (connected.node? id).map Node.isolated = (graph.node? id).map Node.isolated
  sinks : ∀ outlet, connected.recordedSinks? outlet =
    if outlet = source then some (graph.sinksAt outlet ++ [sink]) else graph.recordedSinks? outlet
  sources : ∀ inlet, connected.recordedSources? inlet =
    if inlet = sink then some (graph.sourcesAt inlet ++ [source]) else graph.recordedSources? inlet

/-- A connection is taken out of both lists, with the entries that it leaves empty, and nothing else
changes. -/
structure Loses (graph : Graph) (source sink : Endpoint) (left : Graph) : Prop where
  ids : left.ids = graph.ids
  nodes : ∀ id, (left.node? id).map Node.isolated = (graph.node? id).map Node.isolated
  sinks : ∀ outlet, left.recordedSinks? outlet =
    if outlet = source then keptOf (· ≠ sink) (graph.recordedSinks? outlet) else graph.recordedSinks? outlet
  sources : ∀ inlet, left.recordedSources? inlet =
    if inlet = sink then keptOf (· ≠ source) (graph.recordedSources? inlet) else graph.recordedSources? inlet
  gone : sink ∉ left.sinksAt source ∧ source ∉ left.sourcesAt sink

theorem gains_link (connectable : graph.Connectable source sink) :
    graph.Gains source sink (graph.link source sink) := by
  obtain ⟨sourceNode, sinkNode, sourceFound, sinkFound⟩ := connectable.nodes
  refine ⟨ids_link, fun id => ?_, fun _ => recordedSinks?_link sourceFound,
    fun _ => recordedSources?_link sinkFound⟩
  rw [node?_link, Option.map_map]
  rfl

theorem loses_unlink : graph.Loses source sink (graph.unlink source sink) where
  ids := ids_unlink
  nodes id := by
    rw [node?_unlink, Option.map_map]
    rfl
  sinks outlet := recordedSinks?_unlink
  sources inlet := recordedSources?_unlink
  gone := by
    rw [sinksAt_unlink, sourcesAt_unlink]
    simp

/-- On every graph that calls can make, disconnecting undoes connecting to the last entry, connecting again
changes nothing, and neither touches any other connection. -/
theorem disconnect_undoes_connect (made : graph.Made) (source sink : Endpoint) :
    (∀ connected, graph.connect source sink = .ok connected →
      (sink ∉ graph.sinksAt source ∨ source ∉ graph.sourcesAt sink →
        connected.disconnect source sink = .ok graph ∧ graph.Gains source sink connected) ∧
      (sink ∈ graph.sinksAt source ∧ source ∈ graph.sourcesAt sink → connected = graph) ∧
      connected.connect source sink = .ok connected) ∧
    ((∃ node, graph.node? source.node = some node) → (∃ node, graph.node? sink.node = some node) →
      ∃ left, graph.disconnect source sink = .ok left ∧ graph.Loses source sink left) ∧
    ∀ fault, graph.disconnect source sink = .error fault →
      sink ∉ graph.sinksAt source ∧ source ∉ graph.sourcesAt sink := by
  have consistent := made.consistent
  refine ⟨fun connected success => ⟨fun absent => ?_, fun present => ?_, connect_again success⟩, ?_, ?_⟩
  · have unrecorded : source ∉ graph.sourcesAt sink := by
      rcases absent with noSink | noSource
      · exact mt consistent.mem_sinksAt_iff.mpr noSink
      · exact noSource
    obtain ⟨connectable, rfl⟩ := link_of_connect unrecorded success
    obtain ⟨sourceNode, sinkNode, sourceFound, sinkFound⟩ := connectable.nodes
    refine ⟨?_, gains_link connectable⟩
    rw [disconnect_eq (node?_link_of_some sourceFound) (node?_link_of_some sinkFound),
      consistent.unlink_link connectable]
  · rcases connect_eq_ok success with same | ⟨connectable, _⟩
    · exact same
    · exact absurd present.2 connectable.unrecorded
  · intro sourceFound sinkFound
    exact ⟨_, disconnect_eq sourceFound sinkFound, loses_unlink⟩
  · intro fault failed
    have absent : source ∉ graph.sourcesAt sink := by
      intro recorded
      obtain ⟨sourceNode, sinkNode, sourceFound, sinkFound⟩ := consistent.nodes_of_recorded recorded
      rw [disconnect_eq ⟨_, sourceFound⟩ ⟨_, sinkFound⟩] at failed
      cases failed
    exact ⟨mt consistent.mem_sinksAt_iff.mp absent, absent⟩

/-! A node that feeds another one, and then itself too. -/

def chainNodes : List (Option Node) := [
  some { id := "a", type := "float", inlets := [⟨"0", .message⟩], outlets := [⟨"0", .message⟩] },
  some { id := "b", type := "float", inlets := [⟨"0", .message⟩], outlets := [⟨"0", .message⟩] }]

theorem made_of_build {nodes : List (Option Node)} {connections : List Connection}
    (built : build nodes connections = .ok graph) : graph.Made := by
  have bare : Edit.AddsBare (.build nodes connections) := trivial
  exact .edit .empty bare built

theorem disconnect_undoes_connect_loop : ∃ graph connected : Graph, graph.Made ∧
    graph.connect ⟨"a", "0"⟩ ⟨"a", "0"⟩ = .ok connected ∧
    ⟨"a", "0"⟩ ∉ graph.sinksAt ⟨"a", "0"⟩ ∧ connected.sinksAt ⟨"a", "0"⟩ = [⟨"b", "0"⟩, ⟨"a", "0"⟩] ∧
    connected.disconnect ⟨"a", "0"⟩ ⟨"a", "0"⟩ = .ok graph := by
  have built : ∃ graph connected : Graph, build chainNodes [⟨⟨"a", "0"⟩, ⟨"b", "0"⟩⟩] = .ok graph ∧
      graph.connect ⟨"a", "0"⟩ ⟨"a", "0"⟩ = .ok connected ∧
      ⟨"a", "0"⟩ ∉ graph.sinksAt ⟨"a", "0"⟩ ∧ connected.sinksAt ⟨"a", "0"⟩ = [⟨"b", "0"⟩, ⟨"a", "0"⟩] :=
    ⟨_, _, rfl, rfl, by decide +kernel, by decide +kernel⟩
  obtain ⟨graph, connected, built, success, absent, added⟩ := built
  have made := made_of_build built
  obtain ⟨connecting, _⟩ := disconnect_undoes_connect made ⟨"a", "0"⟩ ⟨"a", "0"⟩
  exact ⟨graph, connected, made, success, absent, added, ((connecting connected success).1 (.inl absent)).1⟩

end Graph

end Patchbay
