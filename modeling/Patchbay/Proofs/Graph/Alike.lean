import Patchbay.Proofs.Graph.Adjacency
import Patchbay.Proofs.Graph.Walk

namespace Patchbay

/-! Graphs that differ in nothing that a walk can see.

Two graphs are alike when they hold the same nodes and record the same sinks, in one order.  The sources of
a message inlet may be recorded in any order, and so may the slots, as long as sorting them gives the same
list.  Editing alike graphs in the same way gives alike graphs or one fault, and walks over them list the
same nodes.
-/

variable {node twin : Node} {source sink : Endpoint}

/-! ## Nodes -/

/-- One node with two records of its connections.  Only the sources of a message inlet can be in
different orders. -/
structure Node.Alike (node twin : Node) : Prop where
  isolated : node.isolated = twin.isolated
  sinks : ∀ outlet, node.sinksOf outlet = twin.sinksOf outlet
  sources : ∀ inlet, (node.sourcesOf inlet).Perm (twin.sourcesOf inlet)
  signals : ∀ inlet ∈ node.inlets, inlet.type = .signal → node.sourcesOf inlet.id = twin.sourcesOf inlet.id

namespace Node.Alike

theorem refl (node : Node) : node.Alike node := ⟨rfl, fun _ => rfl, fun _ => .refl _, fun _ _ _ => rfl⟩

section

variable (alike : node.Alike twin)

include alike

/-- Whatever does not look at connections says the same of both. -/
theorem blind {β : Type} (view : Node → β) (unseen : ∀ node : Node, view node.isolated = view node) :
    view node = view twin := by
  rw [← unseen node, ← unseen twin, alike.isolated]

theorem id : node.id = twin.id := alike.blind Node.id fun _ => rfl

theorem type : node.type = twin.type := alike.blind Node.type fun _ => rfl

theorem inlets : node.inlets = twin.inlets := alike.blind Node.inlets fun _ => rfl

theorem inletsOfType (type : PortletType) : node.inletsOfType type = twin.inletsOfType type :=
  alike.blind (Node.inletsOfType · type) fun _ => rfl

theorem outletsOfType (type : PortletType) : node.outletsOfType type = twin.outletsOfType type :=
  alike.blind (Node.outletsOfType · type) fun _ => rfl

theorem inlet (id : String) : node.inlet id = twin.inlet id :=
  alike.blind (Node.inlet · id) fun _ => rfl

theorem outlet (id : String) : node.outlet id = twin.outlet id :=
  alike.blind (Node.outlet · id) fun _ => rfl

theorem isEmpty_sourcesOf (inlet : String) :
    (node.sourcesOf inlet).isEmpty = (twin.sourcesOf inlet).isEmpty := by
  rw [Bool.eq_iff_iff, List.isEmpty_iff, List.isEmpty_iff, ← List.length_eq_zero_iff,
    ← List.length_eq_zero_iff, (alike.sources inlet).length_eq]

theorem signalSources : node.signalSources = twin.signalSources := by
  unfold Node.signalSources
  rw [← alike.inletsOfType]
  refine List.flatMap_congr fun inlet member => ?_
  obtain ⟨isInlet, signal⟩ := List.mem_filter.mp member
  exact alike.signals inlet isInlet (of_decide_eq_true signal)

theorem signalSinks : node.signalSinks = twin.signalSinks := by
  unfold Node.signalSinks
  rw [← alike.outletsOfType]
  exact List.flatMap_congr fun outlet _ => alike.sinks outlet.id

theorem messageSinks : node.messageSinks = twin.messageSinks := by
  unfold Node.messageSinks
  rw [← alike.outletsOfType]
  exact List.flatMap_congr fun outlet _ => alike.sinks outlet.id

theorem restrict (keep : List String) :
    (Graph.restrictNode keep node).Alike (Graph.restrictNode keep twin) where
  isolated := alike.isolated
  sinks outlet := by
    change (Endpoints.restrict ..).getD .. = (Endpoints.restrict ..).getD ..
    rw [Endpoints.getD_restrict, Endpoints.getD_restrict]
    exact congrArg _ (alike.sinks outlet)
  sources inlet := by
    change List.Perm ((Endpoints.restrict ..).getD ..) ((Endpoints.restrict ..).getD ..)
    rw [Endpoints.getD_restrict, Endpoints.getD_restrict]
    exact (alike.sources inlet).filter _
  signals inlet isInlet signal := by
    change (Endpoints.restrict ..).getD .. = (Endpoints.restrict ..).getD ..
    rw [Endpoints.getD_restrict, Endpoints.getD_restrict]
    exact congrArg _ (alike.signals inlet isInlet signal)

theorem link (source sink : Endpoint) (id : String) :
    (Graph.linkNode source sink id node).Alike (Graph.linkNode source sink id twin) where
  isolated := alike.isolated
  sinks outlet := by rw [Graph.sinksOf_linkNode, Graph.sinksOf_linkNode, alike.sinks]
  sources inlet := by
    rw [Graph.sourcesOf_linkNode, Graph.sourcesOf_linkNode]
    exact (alike.sources inlet).append_right _
  signals inlet isInlet signal := by
    rw [Graph.sourcesOf_linkNode, Graph.sourcesOf_linkNode, alike.signals inlet isInlet signal]

end

end Node.Alike

/-! ## Graphs -/

structure Graph.Alike (graph other : Graph) : Prop where
  order : Text.SameOrder graph.ids other.ids
  nodes : ∀ id, Graph.AlikeAt Node.Alike graph other id

namespace Graph.Alike

variable {graph other : Graph} {roots : List String} {id : String}

theorem refl (graph : Graph) : graph.Alike graph where
  order := .refl _
  nodes id := by
    unfold AlikeAt
    cases graph.node? id with
    | none => exact .none
    | some node => exact .some (.refl node)

variable (alike : graph.Alike other)

include alike

theorem lookup (id : String) : Outcome.Alike Node.Alike (graph.node id) (other.node id) :=
  (alike.nodes id).lookup

theorem known_iff : (∃ node, graph.node? id = some node) ↔ ∃ node, other.node? id = some node := by
  constructor
  · rintro ⟨node, found⟩
    obtain ⟨twin, foundToo, _⟩ := (alike.nodes id).of_some found
    exact ⟨twin, foundToo⟩
  · rintro ⟨twin, foundToo⟩
    cases found : graph.node? id with
    | some node => exact ⟨node, rfl⟩
    | none =>
        rw [(alike.nodes id).of_none found] at foundToo
        cases foundToo

/-- What can be told of a node from its portlets, its arguments and its sinks. -/
theorem option_congr {β : Type} (view : Option Node → β)
    (same : ∀ node twin : Node, node.Alike twin → view (some node) = view (some twin)) (id : String) :
    view (graph.node? id) = view (other.node? id) := by
  cases found : graph.node? id with
  | none => rw [(alike.nodes id).of_none found]
  | some node =>
      obtain ⟨twin, foundToo, held⟩ := (alike.nodes id).of_some found
      rw [foundToo]
      exact same node twin held

/-! ## Edits -/

theorem trim (keep : List String) : (graph.trim keep).Alike (other.trim keep) where
  order := by
    rw [ids_trim, ids_trim]
    exact alike.order.filter _
  nodes id := by
    rw [AlikeAt, node?_trim, node?_trim]
    split
    · exact (alike.nodes id).map fun _ _ held => held.restrict keep
    · exact .none

theorem link (source sink : Endpoint) : (graph.link source sink).Alike (other.link source sink) where
  order := by
    rw [ids_link, ids_link]
    exact alike.order
  nodes id := by
    rw [AlikeAt, node?_link, node?_link]
    exact (alike.nodes id).map fun _ _ held => held.link source sink id

theorem set (node : Node) :
    (⟨graph.slots.set node.id (some node)⟩ : Graph).Alike ⟨other.slots.set node.id (some node)⟩ where
  order := by
    unfold ids
    rw [Table.keys_set, Table.keys_set]
    simp only [show node.id ∈ graph.slots.keys ↔ node.id ∈ other.slots.keys from alike.order.mem_iff]
    split
    · exact alike.order
    · exact alike.order.append (.refl _)
  nodes id := by
    rw [AlikeAt, node?_set, node?_set]
    split
    · exact .some (.refl node)
    · exact alike.nodes id

theorem add (candidate : Option Node) :
    Outcome.Alike Graph.Alike (graph.add candidate) (other.add candidate) := by
  cases candidate with
  | none => exact .fault _
  | some node =>
      have taken : graph.slots.contains node.id = other.slots.contains node.id := by
        rw [Bool.eq_iff_iff, Table.contains_iff, Table.contains_iff]
        exact alike.order.mem_iff
      change Outcome.Alike _ (if _ then _ else _) (if _ then _ else _)
      rw [taken]
      split
      · exact .fault _
      · split
        · exact .fault _
        · exact .result (alike.set node)

theorem connect (source sink : Endpoint) :
    Outcome.Alike Graph.Alike (graph.connect source sink) (other.connect source sink) := by
  refine (alike.lookup source.node).bind fun sourceNode sourceTwin sources => ?_
  refine (alike.lookup sink.node).bind fun sinkNode sinkTwin sinks => ?_
  rw [← sources.outlet, ← sinks.inlet]
  refine .bind_same fun outlet _ => .bind_same fun inlet _ => ?_
  have present : ∀ endpoint, endpoint ∈ sinkNode.sourcesOf inlet.id ↔ endpoint ∈ sinkTwin.sourcesOf inlet.id :=
    fun endpoint => (sinks.sources inlet.id).mem_iff
  have free : sinkNode.sourcesOf inlet.id ≠ [] ↔ sinkTwin.sourcesOf inlet.id ≠ [] := by
    rw [ne_eq, ne_eq, ← List.isEmpty_iff, ← List.isEmpty_iff, sinks.isEmpty_sourcesOf]
  simp only [present, free]
  split
  · exact .fault _
  · change Outcome.Alike _ (if _ then _ else _) (if _ then _ else _)
    split
    · exact .result alike
    · split
      · exact .fault _
      · exact .result (alike.link source sink)

/-! ## Walks -/

theorem sortedIds : graph.sortedIds = other.sortedIds := Text.sortIds_congr alike.order

theorem filter_sortedNodes {keeps : Node → Bool} (same : ∀ node twin, node.Alike twin → keeps node = keeps twin) :
    (graph.sortedNodes.filter fun entry => keeps entry.2).map Prod.fst =
      (other.sortedNodes.filter fun entry => keeps entry.2).map Prod.fst := by
  unfold sortedNodes
  rw [alike.sortedIds, List.filter_filterMap, List.filter_filterMap, List.map_filterMap, List.map_filterMap]
  refine List.filterMap_congr fun id _ => ?_
  refine alike.option_congr (fun slot =>
    Option.map Prod.fst (Option.filter (fun entry => keeps entry.2) (slot.map fun node => (id, node)))) ?_ id
  intro node twin held
  simp only [Option.map_some, Option.filter_some, same node twin held]
  split <;> rfl

theorem pulling : graph.pulling = other.pulling :=
  alike.filter_sortedNodes fun _ _ held => held.blind Node.isPullingSignal fun _ => rfl

theorem pushing : graph.pushing = other.pushing :=
  alike.filter_sortedNodes fun _ _ held => held.blind Node.isPushingMessages fun _ => rfl

theorem signalNodesWhere {admits admitsToo : Node → Bool}
    (same : ∀ node twin : Node, node.Alike twin → admits node = admitsToo twin) :
    graph.signalNodesWhere roots admits = other.signalNodesWhere roots admitsToo :=
  signalNodesWhere_congr (fun id _ => (alike.nodes id).mono fun node twin held =>
    ⟨congrArg _ held.signalSources, same node twin held, fun _ _ => trivial⟩) fun _ _ => trivial

theorem signalNodes (roots : List String) : graph.signalNodes roots = other.signalNodes roots :=
  alike.signalNodesWhere fun _ _ _ => rfl

theorem messageNodes (roots : List String) : graph.messageNodes roots = other.messageNodes roots :=
  walkMessages_congr (fun id _ => (alike.nodes id).mono fun _ _ held =>
    ⟨congrArg _ held.messageSinks, fun _ _ => trivial⟩) fun _ _ => trivial

theorem fullTraversal : graph.fullTraversal = other.fullTraversal := by
  unfold Graph.fullTraversal
  rw [alike.pulling, alike.pushing, alike.signalNodes, alike.messageNodes]

end Graph.Alike

end Patchbay
