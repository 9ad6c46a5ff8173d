import Patchbay.Proofs.Graph.Entries
import Patchbay.Proofs.Graph.Verdict

namespace Patchbay

/-! The list of all connections of a graph.

Connections are listed by the ids of their sources, in natural order, then by outlet, then in the order in
which they were made.  The list holds what the outlets of the graph record and nothing else.
-/

theorem flatMap_eq_of_apart {α : Type u} {β : Type v} {items : List α} {item : α} {image : α → List β}
    (distinct : items.Nodup) (member : item ∈ items)
    (others : ∀ other ∈ items, other ≠ item → image other = []) : items.flatMap image = image item := by
  induction items with
  | nil => cases member
  | cons first rest ih =>
      obtain ⟨fresh, later⟩ := List.nodup_cons.mp distinct
      rw [List.flatMap_cons]
      rcases List.mem_cons.mp member with rfl | further
      · have none : rest.flatMap image = [] := by
          rw [List.flatMap_eq_nil_iff]
          exact fun other isOther =>
            others other (List.mem_cons_of_mem _ isOther) fun same => fresh (same ▸ isOther)
        rw [none, List.append_nil]
      · rw [others first (List.mem_cons_self ..) fun same => fresh (same ▸ further), List.nil_append]
        exact ih later further fun other isOther => others other (List.mem_cons_of_mem _ isOther)

namespace Graph

variable {graph : Graph} {id : String} {node : Node} {source sink : Endpoint} {connection : Connection}
  {keep : List String}

/-- The connections that leave a node, outlet by outlet. -/
def connectionsFrom (graph : Graph) (id : String) : List Connection :=
  ((graph.node? id).map fun node => node.outlets.flatMap fun outlet =>
    (node.sinksOf outlet.id).map fun sink => ⟨⟨id, outlet.id⟩, sink⟩).getD []

theorem connections_eq : graph.connections = graph.sortedIds.flatMap graph.connectionsFrom := by
  unfold connections sortedNodes
  induction graph.sortedIds with
  | nil => rfl
  | cons id rest ih =>
      rw [List.filterMap_cons, List.flatMap_cons]
      unfold connectionsFrom at ih ⊢
      cases graph.node? id with
      | none => simpa using ih
      | some node => simpa using ih

theorem connectionsFrom_eq (found : graph.node? id = some node) :
    graph.connectionsFrom id = node.outlets.flatMap fun outlet =>
      (node.sinksOf outlet.id).map fun sink => ⟨⟨id, outlet.id⟩, sink⟩ := by
  unfold connectionsFrom
  rw [found]
  rfl

theorem mem_connectionsFrom_iff : connection ∈ graph.connectionsFrom id ↔ connection.source.node = id ∧
    (∃ outlet, graph.outletAt? connection.source = some outlet) ∧
      connection.sink ∈ graph.sinksAt connection.source := by
  obtain ⟨⟨sourceId, sourcePortlet⟩, sink⟩ := connection
  cases found : graph.node? id with
  | none =>
      constructor
      · intro member
        simp [connectionsFrom, found] at member
      · rintro ⟨rfl, ⟨outlet, atSource⟩, _⟩
        obtain ⟨stored, storedFound, _⟩ := outletAt?_eq_some_iff.mp atSource
        cases found.symm.trans storedFound
  | some node =>
      rw [connectionsFrom_eq found]
      simp only [List.mem_flatMap, List.mem_map, Connection.mk.injEq, Endpoint.mk.injEq]
      constructor
      · rintro ⟨outlet, isOutlet, other, recorded, ⟨rfl, rfl⟩, rfl⟩
        have listed : (node.outlet? outlet.id).isSome = true := by
          rw [Node.outlet?, List.find?_isSome]
          exact ⟨outlet, isOutlet, decide_eq_true rfl⟩
        obtain ⟨first, isFirst⟩ := Option.isSome_iff_exists.mp listed
        refine ⟨rfl, ⟨first, outletAt?_eq_some_iff.mpr ⟨node, found, isFirst⟩⟩, ?_⟩
        rwa [sinksAt_eq found]
      · rintro ⟨rfl, ⟨outlet, atSource⟩, recorded⟩
        obtain ⟨stored, storedFound, own⟩ := outletAt?_eq_some_iff.mp atSource
        cases found.symm.trans storedFound
        rw [sinksAt_eq found] at recorded
        refine ⟨outlet, List.mem_of_find?_eq_some own, sink, ?_, ⟨rfl, outlet?_id own⟩, rfl⟩
        rwa [outlet?_id own]

theorem mem_connections_iff : connection ∈ graph.connections ↔
    (∃ outlet, graph.outletAt? connection.source = some outlet) ∧
      connection.sink ∈ graph.sinksAt connection.source := by
  rw [connections_eq, List.mem_flatMap]
  simp only [mem_connectionsFrom_iff]
  constructor
  · rintro ⟨id, _, _, listed⟩
    exact listed
  · rintro ⟨⟨outlet, atSource⟩, recorded⟩
    obtain ⟨node, found, _⟩ := outletAt?_eq_some_iff.mp atSource
    exact ⟨_, mem_sortedIds_iff.mpr (mem_ids_of_node? found), rfl, ⟨outlet, atSource⟩, recorded⟩

theorem Consistent.mem_connections_iff (consistent : graph.Consistent) :
    connection ∈ graph.connections ↔ connection.sink ∈ graph.sinksAt connection.source := by
  rw [Graph.mem_connections_iff]
  refine and_iff_right_of_imp fun recorded => ?_
  obtain ⟨outlet, _, atSource, _⟩ := consistent.typed (.inl recorded)
  exact ⟨outlet, atSource⟩

/-! ## The connections of one outlet -/

/-- Whether the outlets of every node have different ids. -/
def OutletsDistinct (graph : Graph) : Prop :=
  ∀ {id node}, graph.node? id = some node → (node.outlets.map Portlet.id).Nodup

theorem WellFormed.outletsDistinct (wellFormed : graph.WellFormed) : graph.OutletsDistinct :=
  fun found => (wellFormed.fits found).outletsDistinct

theorem filter_connectionsFrom (distinct : graph.OutletsDistinct) {outlet : Portlet}
    (atSource : graph.outletAt? source = some outlet) :
    (graph.connectionsFrom source.node).filter (fun connection => connection.source = source) =
      (graph.sinksAt source).map fun sink => ⟨source, sink⟩ := by
  obtain ⟨node, found, own⟩ := outletAt?_eq_some_iff.mp atSource
  have isOutlet : outlet ∈ node.outlets := List.mem_of_find?_eq_some own
  have ofOutlet : (⟨source.node, outlet.id⟩ : Endpoint) = source := by rw [outlet?_id own]
  rw [connectionsFrom_eq found, List.filter_flatMap,
    flatMap_eq_of_apart (List.Nodup.of_map _ (distinct found)) isOutlet ?_]
  · rw [List.filter_eq_self.mpr, ofOutlet, sinksAt_eq found, outlet?_id own]
    intro connection member
    obtain ⟨sink, _, rfl⟩ := List.mem_map.mp member
    exact decide_eq_true ofOutlet
  · intro other isOther apart
    rw [List.filter_eq_nil_iff]
    intro connection member isOwn
    obtain ⟨sink, _, rfl⟩ := List.mem_map.mp member
    have sameId : other.id = outlet.id := by
      rw [outlet?_id own]
      exact congrArg Endpoint.portlet (of_decide_eq_true isOwn)
    exact apart (List.inj_on_of_nodup_map (distinct found) isOther isOutlet sameId)

/-- The list gives the connections of every outlet in the order in which they are recorded. -/
theorem Consistent.filter_connections (consistent : graph.Consistent) (distinct : graph.OutletsDistinct)
    (source : Endpoint) : graph.connections.filter (fun connection => connection.source = source) =
      (graph.sinksAt source).map fun sink => ⟨source, sink⟩ := by
  cases atSource : graph.outletAt? source with
  | none =>
      have unrecorded : graph.sinksAt source = [] := by
        refine List.eq_nil_iff_forall_not_mem.mpr fun sink recorded => ?_
        obtain ⟨outlet, _, isOutlet, _⟩ := consistent.typed (.inl recorded)
        cases atSource.symm.trans isOutlet
      rw [unrecorded, List.map_nil, List.filter_eq_nil_iff]
      intro connection member isOwn
      have recorded := consistent.mem_connections_iff.mp member
      rw [of_decide_eq_true isOwn, unrecorded] at recorded
      cases recorded
  | some outlet =>
      obtain ⟨node, found, own⟩ := outletAt?_eq_some_iff.mp atSource
      rw [connections_eq, List.filter_flatMap,
        flatMap_eq_of_apart nodup_sortedIds (mem_sortedIds_iff.mpr (mem_ids_of_node? found)) ?_,
        filter_connectionsFrom distinct atSource]
      intro id _ apart
      rw [List.filter_eq_nil_iff]
      intro connection member isOwn
      refine apart ?_
      rw [← (mem_connectionsFrom_iff.mp member).1, of_decide_eq_true isOwn]

/-! ## Restricted graphs -/

theorem connectionsFrom_trim (kept : id ∈ keep) : (graph.trim keep).connectionsFrom id =
    (graph.connectionsFrom id).filter fun connection => keep.contains connection.sink.node := by
  cases found : graph.node? id with
  | none =>
      have gone : (graph.trim keep).node? id = none := by
        rw [node?_trim, found, Option.map_none, ite_self]
      simp [connectionsFrom, found, gone]
  | some node =>
      have trimmed : (graph.trim keep).node? id = some (restrictNode keep node) := by
        rw [node?_trim, if_pos kept, found, Option.map_some]
      rw [connectionsFrom_eq found, connectionsFrom_eq trimmed, List.filter_flatMap]
      refine List.flatMap_congr fun outlet _ => ?_
      rw [List.filter_map]
      exact congrArg (List.map _) Endpoints.getD_restrict

/-- A restricted graph has the connections between the nodes that it keeps, in their order. -/
theorem connections_trim (graph : Graph) (keep : List String) : (graph.trim keep).connections =
    graph.connections.filter fun connection =>
      keep.contains connection.source.node && keep.contains connection.sink.node := by
  rw [connections_eq, connections_eq, List.filter_flatMap]
  unfold sortedIds
  rw [ids_trim, Text.sortIds_filter]
  induction Text.sortIds graph.ids with
  | nil => rfl
  | cons id rest ih =>
      have leaves : ∀ connection ∈ graph.connectionsFrom id,
          keep.contains connection.source.node = keep.contains id := by
        intro connection member
        rw [(mem_connectionsFrom_iff.mp member).1]
      rw [List.flatMap_cons, List.filter_cons, ← ih]
      split
      · next kept =>
        rw [List.flatMap_cons, connectionsFrom_trim (List.contains_iff_mem.mp kept)]
        congr 1
        refine List.filter_congr fun connection member => ?_
        rw [leaves connection member, kept, Bool.true_and]
      · next dropped =>
        have gone : (graph.connectionsFrom id).filter (fun connection =>
            keep.contains connection.source.node && keep.contains connection.sink.node) = [] := by
          refine List.filter_eq_nil_iff.mpr fun connection member both => ?_
          rw [leaves connection member, Bool.and_eq_true] at both
          exact dropped both.1
        rw [gone, List.nil_append]

end Graph

end Patchbay
