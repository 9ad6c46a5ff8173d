import Patchbay.Proofs.Graph.SignalOrder
import Patchbay.Proofs.Program.Merge

namespace Patchbay.Graph

/-! Walks over a whole well-formed graph.

Neither the walk along messages nor the walk against signals gets stuck, so the nodes that can have an
effect are always listed, each of them once.
-/

variable {graph : Graph} {id : String} {node : Node}

theorem node?_of_messageSink (wellFormed : graph.WellFormed) (found : graph.node? id = some node)
    {sink : Endpoint} (member : sink ∈ node.messageSinks) :
    ∃ sinkNode, graph.node? sink.node = some sinkNode := by
  simp only [Node.messageSinks, List.mem_flatMap] at member
  obtain ⟨outlet, isOutlet, feeding⟩ := member
  obtain ⟨sinkNode, _, sinkFound, _⟩ :=
    wellFormed.sink_of_outlet found (List.mem_of_mem_filter isOutlet) feeding
  exact ⟨sinkNode, sinkFound⟩

/-- In a well-formed graph a message walk from stored nodes never gets stuck, and it lists what it was
sent to. -/
theorem walkMessages_yields (wellFormed : graph.WellFormed) {pending order : List String}
    (pendingKnown : ∀ id ∈ pending, ∃ node, graph.node? id = some node)
    (orderKnown : ∀ id ∈ order, ∃ node, graph.node? id = some node) :
    Outcome.Yields (graph.walkMessages pending order) fun result =>
      (∀ id ∈ result, ∃ node, graph.node? id = some node) ∧ (∀ id ∈ order, id ∈ result) ∧
        ∀ id ∈ pending, id ∈ result := by
  induction pending, order using walkMessages.induct graph with
  | case1 order =>
      rw [walkMessages]
      exact ⟨order, rfl, orderKnown, fun _ member => member, by simp⟩
  | case2 order id rest listed ih =>
      rw [walkMessages, if_pos listed]
      refine (ih (fun other later => pendingKnown other (List.mem_cons_of_mem _ later))
        orderKnown).mono fun result held => ⟨held.1, held.2.1, ?_⟩
      exact List.forall_mem_cons.mpr ⟨held.2.1 id listed, held.2.2⟩
  | case3 order id rest unlisted missing =>
      obtain ⟨node, found⟩ := pendingKnown id (by simp)
      rw [missing] at found
      cases found
  | case4 order id rest unlisted node found ih =>
      rw [walkMessages, if_neg unlisted]
      split
      · next missing =>
        rw [missing] at found
        cases found
      · next stored lookup =>
        rw [found] at lookup
        cases lookup
        refine (ih ?_ ?_).mono fun result held => ⟨held.1, ?_, ?_⟩
        · intro other member
          rcases List.mem_append.mp member with isSink | later
          · obtain ⟨sink, fed, rfl⟩ := List.mem_map.mp isSink
            exact node?_of_messageSink wellFormed found fed
          · exact pendingKnown other (List.mem_cons_of_mem _ later)
        · intro other member
          rcases List.mem_append.mp member with earlier | last
          · exact orderKnown other earlier
          · exact ⟨node, List.mem_singleton.mp last ▸ found⟩
        · exact fun other member => held.2.1 other (List.mem_append_left _ member)
        · refine List.forall_mem_cons.mpr ⟨held.2.1 id (by simp), fun other later => ?_⟩
          exact held.2.2 other (List.mem_append_right _ later)

theorem mem_pushing_iff : id ∈ graph.pushing ↔
    ∃ node, graph.node? id = some node ∧ node.isPushingMessages = true := by
  simp only [pushing, sortedNodes, List.mem_map, List.mem_filter, List.mem_filterMap,
    Option.map_eq_some_iff, Prod.exists]
  constructor
  · rintro ⟨_, node, ⟨⟨key, _, _, found, same⟩, pushes⟩, rfl⟩
    cases same
    exact ⟨node, found, pushes⟩
  · rintro ⟨node, found, pushes⟩
    exact ⟨id, node, ⟨⟨id, mem_sortedIds_iff.mpr (mem_ids_of_node? found), node, found, rfl⟩,
      pushes⟩, rfl⟩

theorem fullTraversal_yields (wellFormed : graph.WellFormed) :
    Outcome.Yields graph.fullTraversal fun full => full.Nodup ∧
      (∀ id ∈ full, ∃ node, graph.node? id = some node) ∧ ∀ id ∈ graph.pushing, id ∈ full := by
  have pullingKnown : ∀ root ∈ graph.pulling, ∃ node, graph.node? root = some node := by
    intro root isRoot
    obtain ⟨node, found, _⟩ := mem_pulling_iff.mp isRoot
    exact ⟨node, found⟩
  have pushingKnown : ∀ root ∈ graph.pushing, ∃ node, graph.node? root = some node := by
    intro root isRoot
    obtain ⟨node, found, _⟩ := mem_pushing_iff.mp isRoot
    exact ⟨node, found⟩
  unfold fullTraversal signalNodes messageNodes
  refine (signalNodesWhere_succeeds wellFormed pullingKnown).bind fun signal ordered => ?_
  refine (walkMessages_yields wellFormed pushingKnown (by simp)).bind fun message held => ?_
  refine Outcome.yields_pure ⟨Text.nodup_unique _, ?_, ?_⟩
  · intro id member
    rcases List.mem_append.mp (Text.mem_unique.mp member) with onSignal | onMessage
    · exact ordered.known onSignal
    · exact held.1 id onMessage
  · exact fun id isRoot => Text.mem_unique.mpr (List.mem_append_right _ (held.2.2 id isRoot))

end Patchbay.Graph
