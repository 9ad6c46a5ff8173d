import Patchbay.Proofs.Graph.Connections

namespace Patchbay

/-! Graphs restricted to some of their nodes.

Both records of a connection are filtered by one test of membership, each on its own node.  A restriction
therefore depends on nothing but which ids are kept, restricting twice keeps what both keep, and what is
left of every list is a part of it in the same order.
-/

variable {keep first second : List String}

theorem contains_inter (id : String) :
    (first ∩ second).contains id = (first.contains id && second.contains id) := by
  rw [Bool.eq_iff_iff, List.contains_iff_mem, Bool.and_eq_true, List.contains_iff_mem, List.contains_iff_mem,
    List.mem_inter_iff]

theorem contains_congr (same : ∀ id, id ∈ first ↔ id ∈ second) (id : String) :
    first.contains id = second.contains id := by
  rw [Bool.eq_iff_iff, List.contains_iff_mem, List.contains_iff_mem, same]

namespace Endpoints

variable {keeps keepsToo : Endpoint → Bool} {endpoints : List Endpoint} (table : Table (List Endpoint))

theorem keptOf_keptOf (entry : Option (List Endpoint)) :
    keptOf keepsToo (keptOf keeps entry) =
      keptOf (fun endpoint => keeps endpoint && keepsToo endpoint) entry := by
  cases entry with
  | none => rfl
  | some endpoints =>
      unfold keptOf
      have both : endpoints.filter (fun endpoint => keeps endpoint && keepsToo endpoint) =
          (endpoints.filter keeps).filter keepsToo := by
        rw [List.filter_filter]
        simp only [Bool.and_comm]
      rw [Option.map_some, Option.map_some, both, Option.filter_some]
      cases endpoints.filter keeps <;> rfl

/-- A restricted table has the entries that lose not all of their endpoints, in their order. -/
theorem entries_restrict : (restrict keep table).entries = table.entries.filterMap fun entry =>
    (keptOf (fun endpoint => keep.contains endpoint.node) (some entry.2)).map fun left => (entry.1, left) := by
  change (table.entries.map _).filter _ = _
  induction table.entries with
  | nil => rfl
  | cons entry rest ih =>
      rw [List.map_cons, List.filter_cons, List.filterMap_cons, ih]
      unfold keptOf
      rw [Option.map_some, Option.filter_some]
      dsimp only
      split <;> rfl

theorem restrict_restrict : restrict second (restrict first table) = restrict (first ∩ second) table := by
  refine Table.ext ?_
  rw [entries_restrict, entries_restrict, entries_restrict, List.filterMap_filterMap]
  refine List.filterMap_congr fun entry _ => ?_
  simp only [contains_inter, ← keptOf_keptOf]
  cases keptOf (fun endpoint => first.contains endpoint.node) (some entry.2) <;> rfl

theorem restrict_congr (same : ∀ id, id ∈ first ↔ id ∈ second) :
    restrict first table = restrict second table := by
  unfold restrict
  simp only [contains_congr same]

end Endpoints

namespace Graph

variable {graph : Graph} {id : String}

theorem trim_trim (graph : Graph) (first second : List String) :
    (graph.trim first).trim second = graph.trim (first ∩ second) := by
  refine congrArg Graph.mk (Table.ext_get? ?_ fun id => ?_)
  · change ((graph.trim first).trim second).ids = (graph.trim (first ∩ second)).ids
    rw [ids_trim, ids_trim, ids_trim, List.filter_filter]
    simp only [contains_inter, Bool.and_comm]
  · change ((graph.trim first).trim second).slots.get? id = (graph.trim (first ∩ second)).slots.get? id
    have twice : restrictNode second ∘ restrictNode first = restrictNode (first ∩ second) := by
      funext node
      unfold restrictNode
      simp only [Function.comp_apply, Endpoints.restrict_restrict]
    rw [slot_trim, slot_trim, slot_trim]
    simp only [List.mem_inter_iff]
    by_cases inFirst : id ∈ first <;> by_cases inSecond : id ∈ second <;>
      simp [inFirst, inSecond, Function.comp_def, ← twice]

theorem trim_congr (same : ∀ id, id ∈ first ↔ id ∈ second) : graph.trim first = graph.trim second := by
  unfold trim
  simp only [contains_congr same, Endpoints.restrict_congr _ same]

/-- A graph with some of the nodes of another one, and all connections between these. -/
structure RestrictedTo (graph : Graph) (keep : List String) (trimmed : Graph) : Prop where
  ids : trimmed.ids = graph.ids.filter fun id => keep.contains id
  nodes : ∀ id, (trimmed.node? id).map Node.isolated =
    if id ∈ keep then (graph.node? id).map Node.isolated else none
  sinks : ∀ outlet, trimmed.recordedSinks? outlet =
    if outlet.node ∈ keep then
      Endpoints.keptOf (fun sink => keep.contains sink.node) (graph.recordedSinks? outlet)
    else none
  sources : ∀ inlet, trimmed.recordedSources? inlet =
    if inlet.node ∈ keep then
      Endpoints.keptOf (fun source => keep.contains source.node) (graph.recordedSources? inlet)
    else none
  connections : trimmed.connections = graph.connections.filter fun connection =>
    keep.contains connection.source.node && keep.contains connection.sink.node

theorem restrictedTo_trim (graph : Graph) (keep : List String) :
    graph.RestrictedTo keep (graph.trim keep) where
  ids := ids_trim
  nodes id := by
    rw [node?_trim]
    split
    · rw [Option.map_map]
      rfl
    · rfl
  sinks _ := recordedSinks?_trim
  sources _ := recordedSources?_trim
  connections := connections_trim graph keep

/-- Trimming restricts a graph to a set of nodes: lists of the same ids give one graph, and trimming twice is
trimming to the ids that are in both lists. -/
theorem trim_restricts (graph : Graph) (first second : List String) :
    (graph.trim first).trim second = graph.trim (first ∩ second) ∧
    (graph.trim first).trim first = graph.trim first ∧
    ((∀ id, id ∈ first ↔ id ∈ second) → graph.trim first = graph.trim second) ∧
    graph.RestrictedTo first (graph.trim first) := by
  refine ⟨trim_trim graph first second, ?_, trim_congr, restrictedTo_trim graph first⟩
  rw [trim_trim]
  exact trim_congr fun id => by rw [List.mem_inter_iff, and_self]

/-- Trimming to one node leaves its connection to itself, however often and in whatever order ids are
given. -/
theorem trim_restricts_chain : ∃ graph : Graph,
    build chainNodes [⟨⟨"a", "0"⟩, ⟨"b", "0"⟩⟩, ⟨⟨"a", "0"⟩, ⟨"a", "0"⟩⟩] = .ok graph ∧
    (graph.trim ["b", "a"]).trim ["a", "a"] = graph.trim ["a"] ∧
    graph.trim ["a", "a"] = graph.trim ["a"] ∧
    graph.sinksAt ⟨"a", "0"⟩ = [⟨"b", "0"⟩, ⟨"a", "0"⟩] ∧
    (graph.trim ["a"]).sinksAt ⟨"a", "0"⟩ = [⟨"a", "0"⟩] := by
  have built : ∃ graph : Graph,
      build chainNodes [⟨⟨"a", "0"⟩, ⟨"b", "0"⟩⟩, ⟨⟨"a", "0"⟩, ⟨"a", "0"⟩⟩] = .ok graph ∧
      graph.sinksAt ⟨"a", "0"⟩ = [⟨"b", "0"⟩, ⟨"a", "0"⟩] ∧
      (graph.trim ["a"]).sinksAt ⟨"a", "0"⟩ = [⟨"a", "0"⟩] :=
    ⟨_, rfl, by decide +kernel, by decide +kernel⟩
  obtain ⟨graph, built, before, after⟩ := built
  obtain ⟨twice, _⟩ := trim_restricts graph ["b", "a"] ["a", "a"]
  obtain ⟨_, _, anyOrder, _⟩ := trim_restricts graph ["a", "a"] ["a"]
  exact ⟨graph, built, twice, anyOrder (by simp), before, after⟩

end Graph

end Patchbay
