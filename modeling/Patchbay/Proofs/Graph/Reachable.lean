import Patchbay.Proofs.Graph.Adjacency
import Patchbay.Proofs.Graph.Verdict
import Patchbay.Proofs.Graph.Walk

namespace Patchbay

/-! Which nodes can have an effect.

A node has an effect when an audio sink depends on it through signals or when a message that some node
pushes can come to it.  The full traversal lists these nodes and no other.  A set of nodes that is closed
under both kinds of steps can be cut out without the walks noticing, so the graph that is left after the
rest was dropped is walked as before.
-/

open Relation (ReflTransGen)

namespace Graph

variable {graph : Graph} {id : String} {node : Node} {pending order result keep : List String}

/-- One step of a message. -/
def Sends (graph : Graph) (source sink : String) : Prop :=
  ∃ node, graph.node? source = some node ∧ ∃ endpoint ∈ node.messageSinks, endpoint.node = sink

/-- An audio sink depends on the node, or a pushed message comes to it. -/
inductive Effective (graph : Graph) (id : String) : Prop where
  | heard {root : String} (isRoot : root ∈ graph.pulling) (feeds : ReflTransGen graph.Feeds id root)
  | told {root : String} (isRoot : root ∈ graph.pushing) (sends : ReflTransGen graph.Sends root id)

/-! ## Members of walks -/

/-- What a walk along messages makes of the nodes that were listed before. -/
structure Spread (graph : Graph) (pending order result : List String) : Prop where
  grown : order ⊆ result
  covers : pending ⊆ result
  reached : ∀ id ∈ result, id ∈ order ∨ ∃ root ∈ pending, ReflTransGen graph.Sends root id
  closed : (∀ id ∈ order, ∀ sink, graph.Sends id sink → sink ∈ order ∨ sink ∈ pending) →
    ∀ id ∈ result, ∀ sink, graph.Sends id sink → sink ∈ result

theorem sends_iff (found : graph.node? id = some node) {sink : String} :
    graph.Sends id sink ↔ sink ∈ node.messageSinks.map Endpoint.node := by
  simp [Sends, found]

theorem walkMessages_spread (walked : graph.walkMessages pending order = .ok result) :
    graph.Spread pending order result := by
  induction pending, order using walkMessages.induct graph with
  | case1 order =>
      rw [walkMessages] at walked
      cases walked
      refine ⟨List.Subset.refl _, List.nil_subset _, fun _ => .inl, fun held id member sink sends => ?_⟩
      exact (held id member sink sends).resolve_right List.not_mem_nil
  | case2 order id rest listed ih =>
      rw [walkMessages, if_pos listed] at walked
      have later := ih walked
      refine ⟨later.grown, List.cons_subset.mpr ⟨later.grown listed, later.covers⟩, ?_, fun held => ?_⟩
      · intro other member
        rcases later.reached other member with known | ⟨root, isRoot, sends⟩
        · exact .inl known
        · exact .inr ⟨root, List.mem_cons_of_mem _ isRoot, sends⟩
      · refine later.closed fun other member sink sends => ?_
        rcases held other member sink sends with known | isPending
        · exact .inl known
        · rcases List.mem_cons.mp isPending with rfl | waits
          · exact .inl listed
          · exact .inr waits
  | case3 order id rest unlisted missing =>
      rw [walkMessages, if_neg unlisted] at walked
      split at walked
      · cases walked
      · next found => rw [missing] at found; cases found
  | case4 order id rest unlisted node found ih =>
      rw [walkMessages, if_neg unlisted] at walked
      split at walked
      · cases walked
      · next stored lookup =>
        cases lookup.symm.trans found
        have later := ih walked
        have known : id ∈ result := later.grown (List.mem_append_right _ (List.mem_singleton_self _))
        refine ⟨fun other member => later.grown (List.mem_append_left _ member),
          List.cons_subset.mpr ⟨known, fun other member => later.covers (List.mem_append_right _ member)⟩,
          ?_, fun held => ?_⟩
        · intro other member
          rcases later.reached other member with isListed | ⟨root, isRoot, sends⟩
          · rcases List.mem_append.mp isListed with earlier | last
            · exact .inl earlier
            · exact .inr ⟨id, List.mem_cons_self .., List.mem_singleton.mp last ▸ .refl⟩
          · rcases List.mem_append.mp isRoot with isSink | waits
            · exact .inr ⟨id, List.mem_cons_self .., .head ((sends_iff found).mpr isSink) sends⟩
            · exact .inr ⟨root, List.mem_cons_of_mem _ waits, sends⟩
        · refine later.closed fun other member sink sends => ?_
          rcases List.mem_append.mp member with earlier | last
          · rcases held other earlier sink sends with isListed | isPending
            · exact .inl (List.mem_append_left _ isListed)
            · rcases List.mem_cons.mp isPending with rfl | waits
              · exact .inl (List.mem_append_right _ (List.mem_singleton_self _))
              · exact .inr (List.mem_append_right _ waits)
          · rw [List.mem_singleton.mp last] at sends
            exact .inr (List.mem_append_left _ ((sends_iff found).mp sends))

theorem mem_messageNodes_iff {roots : List String} (walked : graph.messageNodes roots = .ok result) :
    id ∈ result ↔ ∃ root ∈ roots, ReflTransGen graph.Sends root id := by
  have spread := walkMessages_spread walked
  constructor
  · intro member
    exact (spread.reached id member).resolve_left List.not_mem_nil
  · rintro ⟨root, isRoot, sends⟩
    induction sends with
    | refl => exact spread.covers isRoot
    | tail _ sends ih => exact spread.closed (fun _ member => absurd member List.not_mem_nil) _ ih _ sends

/-- Where every node is admitted, a step against a signal is a connection. -/
theorem WellFormed.upstream_all (wellFormed : graph.WellFormed) :
    graph.Upstream (fun _ => true) = graph.Feeds := by
  funext source sink
  refine propext ⟨fun step => step.1, fun feeds => ⟨feeds, ?_⟩⟩
  obtain ⟨sourceNode, found⟩ := wellFormed.node?_of_feeds_source feeds
  exact ⟨sourceNode, found, rfl⟩

/-- The full traversal lists the nodes that can have an effect. -/
theorem mem_fullTraversal_iff (wellFormed : graph.WellFormed) (walked : graph.fullTraversal = .ok result) :
    id ∈ result ↔ graph.Effective id := by
  unfold fullTraversal at walked
  obtain ⟨signal, heard, walked⟩ := Outcome.bind_eq_ok_iff.mp walked
  obtain ⟨message, told, finished⟩ := Outcome.bind_eq_ok_iff.mp walked
  cases finished
  rw [Text.mem_unique, List.mem_append, (ordered_of_signalNodesWhere heard).mem_iff,
    wellFormed.upstream_all, mem_messageNodes_iff told]
  constructor
  · rintro (⟨root, isRoot, feeds⟩ | ⟨root, isRoot, sends⟩)
    · exact .heard isRoot feeds
    · exact .told isRoot sends
  · rintro (⟨isRoot, feeds⟩ | ⟨isRoot, sends⟩)
    · exact .inl ⟨_, isRoot, feeds⟩
    · exact .inr ⟨_, isRoot, sends⟩

/-! ## What is left of a graph -/

theorem sortedIds_trim : (graph.trim keep).sortedIds = graph.sortedIds.filter fun id => keep.contains id := by
  rw [sortedIds, ids_trim, Text.sortIds_filter]
  rfl

/-- The nodes of some kind, in natural order, when the kind does not depend on connections. -/
theorem filter_sortedNodes_trim {kind : Node → Bool}
    (fixed : ∀ node, kind (restrictNode keep node) = kind node) :
    ((graph.trim keep).sortedNodes.filter fun entry => kind entry.2).map Prod.fst =
      ((graph.sortedNodes.filter fun entry => kind entry.2).map Prod.fst).filter
        fun id => keep.contains id := by
  unfold sortedNodes
  rw [sortedIds_trim]
  induction graph.sortedIds with
  | nil => rfl
  | cons id rest ih =>
      rw [List.filter_cons]
      cases kept : keep.contains id with
      | true =>
          have lookup : (graph.trim keep).node? id = _ := node?_trim
          rw [if_pos (List.contains_iff_mem.mp kept)] at lookup
          rw [if_pos rfl, List.filterMap_cons, List.filterMap_cons, lookup]
          cases graph.node? id with
          | none => exact ih
          | some node =>
              simp only [Option.map_some, List.filter_cons, fixed]
              split
              · simp only [List.map_cons, List.filter_cons, kept, if_true, ih]
              · exact ih
      | false =>
          rw [if_neg Bool.false_ne_true, ih, List.filterMap_cons]
          cases graph.node? id with
          | none => rfl
          | some node =>
              simp only [Option.map_some, List.filter_cons]
              split
              · simp only [List.map_cons, List.filter_cons, kept, Bool.false_eq_true, if_false]
              · rfl

theorem signalSources_restrictNode : (restrictNode keep node).signalSources =
    node.signalSources.filter fun source => keep.contains source.node := by
  unfold Node.signalSources
  rw [List.filter_flatMap]
  exact List.flatMap_congr fun inlet _ => Endpoints.getD_restrict

theorem messageSinks_restrictNode : (restrictNode keep node).messageSinks =
    node.messageSinks.filter fun sink => keep.contains sink.node := by
  unfold Node.messageSinks
  rw [List.filter_flatMap]
  exact List.flatMap_congr fun outlet _ => Endpoints.getD_restrict

theorem alikeAt_trim {related : Node → Node → Prop} (member : id ∈ keep)
    (alike : ∀ node, graph.node? id = some node → related (restrictNode keep node) node) :
    AlikeAt related (graph.trim keep) graph id := by
  rw [AlikeAt, node?_trim, if_pos member]
  cases found : graph.node? id with
  | none => exact .none
  | some node => exact .some (alike node found)

section

variable (kept : ∀ id, graph.Effective id → id ∈ keep)

include kept

theorem pulling_trim : (graph.trim keep).pulling = graph.pulling :=
  (filter_sortedNodes_trim fun _ => rfl).trans
    (List.filter_eq_self.mpr fun id isRoot => List.contains_iff_mem.mpr (kept id (.heard isRoot .refl)))

theorem pushing_trim : (graph.trim keep).pushing = graph.pushing :=
  (filter_sortedNodes_trim fun _ => rfl).trans
    (List.filter_eq_self.mpr fun id isRoot => List.contains_iff_mem.mpr (kept id (.told isRoot .refl)))

theorem signalNodes_trim : (graph.trim keep).signalNodes graph.pulling = graph.signalNodes graph.pulling := by
  refine signalNodesWhere_congr ?_ fun root isRoot =>
    (⟨root, isRoot, .refl⟩ : ∃ other ∈ graph.pulling, ReflTransGen graph.Feeds root other)
  rintro id ⟨root, isRoot, feeds⟩
  refine alikeAt_trim (kept id (.heard isRoot feeds)) fun node found => ?_
  have upstream : ∀ source ∈ node.signalSources, ReflTransGen graph.Feeds source.node root :=
    fun source isSource => .head ((feeds_iff found).mpr ⟨source, isSource, rfl⟩) feeds
  have same : (restrictNode keep node).signalSources = node.signalSources := by
    rw [signalSources_restrictNode]
    exact List.filter_eq_self.mpr fun source isSource =>
      List.contains_iff_mem.mpr (kept _ (.heard isRoot (upstream source isSource)))
  exact ⟨congrArg _ same, rfl, same ▸ fun source isSource => ⟨root, isRoot, upstream source isSource⟩⟩

theorem messageNodes_trim :
    (graph.trim keep).messageNodes graph.pushing = graph.messageNodes graph.pushing := by
  refine walkMessages_congr ?_ fun root isRoot =>
    (⟨root, isRoot, .refl⟩ : ∃ other ∈ graph.pushing, ReflTransGen graph.Sends other root)
  rintro id ⟨root, isRoot, sends⟩
  refine alikeAt_trim (kept id (.told isRoot sends)) fun node found => ?_
  have downstream : ∀ sink ∈ node.messageSinks, ReflTransGen graph.Sends root sink.node :=
    fun sink isSink => .tail sends ((sends_iff found).mpr (List.mem_map_of_mem isSink))
  have same : (restrictNode keep node).messageSinks = node.messageSinks := by
    rw [messageSinks_restrictNode]
    exact List.filter_eq_self.mpr fun sink isSink =>
      List.contains_iff_mem.mpr (kept _ (.told isRoot (downstream sink isSink)))
  exact ⟨congrArg _ same, same ▸ fun sink isSink => ⟨root, isRoot, downstream sink isSink⟩⟩

/-- Dropping nodes that have no effect changes no walk. -/
theorem fullTraversal_trim : (graph.trim keep).fullTraversal = graph.fullTraversal := by
  unfold fullTraversal
  rw [pulling_trim kept, pushing_trim kept, signalNodes_trim kept, messageNodes_trim kept]

end

/-- Every node type that the catalog has to list is one of the graph that was trimmed. -/
theorem issues_trim {catalog : Option Catalog} (clean : graph.issues catalog = []) :
    (graph.trim keep).issues catalog = [] := by
  obtain ⟨wellFormed, listed⟩ := issues_eq_nil_iff.mp clean
  refine issues_eq_nil_iff.mpr ⟨wellFormed.trim keep, fun id node found => ?_⟩
  rw [node?_trim] at found
  split at found
  · obtain ⟨original, originalFound, rfl⟩ := Option.map_eq_some_iff.mp found
    exact listed id original originalFound
  · cases found

/-- A graph that was accepted is walked without a fault.  The walk lists the nodes that can have an effect,
each once; the graph of these nodes is accepted again, has their connections to each other and no other,
and is walked in the same way. -/
theorem fullTraversal_lists_effective {catalog : Option Catalog} {reporter : Reporter}
    (accepted : (graph.check catalog reporter).2 = .ok ()) :
    ∃ full, graph.fullTraversal = .ok full ∧ full.Nodup ∧ (∀ id, id ∈ full ↔ graph.Effective id) ∧
      (∀ id, (graph.trim full).node? id =
        if id ∈ full then (graph.node? id).map (restrictNode full) else none) ∧
      (∀ id, id ∈ (graph.trim full).ids ↔ id ∈ full) ∧
      (∀ source, (graph.trim full).sinksAt source = if source.node ∈ full then
        (graph.sinksAt source).filter fun sink => full.contains sink.node else []) ∧
      (∀ sink, (graph.trim full).sourcesAt sink = if sink.node ∈ full then
        (graph.sourcesAt sink).filter fun source => full.contains source.node else []) ∧
      (∀ again, ((graph.trim full).check catalog again).2 = .ok ()) ∧
      (graph.trim full).fullTraversal = .ok full := by
  have clean := check_eq_ok_iff.mp accepted
  have wellFormed := (issues_eq_nil_iff.mp clean).1
  obtain ⟨full, walked, distinct, known, _⟩ := fullTraversal_yields wellFormed
  have members : ∀ id, id ∈ full ↔ graph.Effective id := fun _ => mem_fullTraversal_iff wellFormed walked
  refine ⟨full, walked, distinct, members, fun _ => node?_trim, fun id => ?_, fun _ => sinksAt_trim,
    fun _ => sourcesAt_trim, fun _ => check_eq_ok_iff.mpr (issues_trim clean), ?_⟩
  · rw [ids_trim, List.mem_filter, List.contains_iff_mem]
    refine ⟨fun member => member.2, fun member => ⟨?_, member⟩⟩
    obtain ⟨node, found⟩ := known id member
    exact mem_ids_of_node? found
  · rw [fullTraversal_trim fun id effective => (members id).mpr effective, walked]

/-! An oscillator `o` drives the output `d`, and a button `b` sets a number `m`.  The source `s` feeds a
signal inlet of `m`, which no audio sink listens to. -/

def strayNodes : List (Option Node) := [
  some { id := "s", type := "noise", outlets := [⟨"0", .signal⟩] },
  some { id := "o", type := "osc", outlets := [⟨"0", .signal⟩] },
  some { id := "d", type := "dac", inlets := [⟨"0", .signal⟩], isPullingSignal := true },
  some { id := "b", type := "button", outlets := [⟨"0", .message⟩], isPushingMessages := true },
  some { id := "m", type := "number", inlets := [⟨"0", .message⟩, ⟨"1", .signal⟩] }]

def strayConnections : List Connection := [
  ⟨⟨"o", "0"⟩, ⟨"d", "0"⟩⟩, ⟨⟨"b", "0"⟩, ⟨"m", "0"⟩⟩, ⟨⟨"s", "0"⟩, ⟨"m", "1"⟩⟩]

theorem stray_built : ∃ graph, build strayNodes strayConnections = .ok graph ∧
    (graph.check none .discarding).2 = .ok () ∧ graph.fullTraversal = .ok ["o", "d", "b", "m"] ∧
    graph.sourcesAt ⟨"m", "0"⟩ = [⟨"b", "0"⟩] ∧ graph.sourcesAt ⟨"m", "1"⟩ = [⟨"s", "0"⟩] := by
  refine ⟨_, rfl, ?_⟩
  cbv

/-- The source that nothing listens to has no effect; with it goes its connection, and the other
connections stay. -/
theorem fullTraversal_drops_stray : ∃ graph, build strayNodes strayConnections = .ok graph ∧
    (graph.check none .discarding).2 = .ok () ∧ graph.fullTraversal = .ok ["o", "d", "b", "m"] ∧
    graph.Effective "m" ∧ ¬graph.Effective "s" ∧
    (graph.trim ["o", "d", "b", "m"]).node? "s" = none ∧
    (graph.trim ["o", "d", "b", "m"]).sourcesAt ⟨"m", "0"⟩ = [⟨"b", "0"⟩] ∧
    (graph.trim ["o", "d", "b", "m"]).sourcesAt ⟨"m", "1"⟩ = [] ∧
    (graph.trim ["o", "d", "b", "m"]).fullTraversal = .ok ["o", "d", "b", "m"] := by
  obtain ⟨graph, built, accepted, walked, told, fed⟩ := stray_built
  obtain ⟨full, listed, _, effective, kept, _, _, sources, _, again⟩ := fullTraversal_lists_effective accepted
  cases walked.symm.trans listed
  refine ⟨graph, built, accepted, walked, (effective "m").mp (by simp), fun stray => ?_, ?_, ?_, ?_, again⟩
  · simpa using (effective "s").mpr stray
  · rw [kept]
    rfl
  · rw [sources, told]
    rfl
  · rw [sources, fed]
    rfl

end Graph

end Patchbay
