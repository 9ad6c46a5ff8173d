import Patchbay.Proofs.Graph.Signals
import Patchbay.Proofs.Outcome

namespace Patchbay

/-! Changes to a graph that keep it well-formed: taking nodes away, adding a node without
connections, and connecting two portlets.
-/

namespace Endpoints

variable {table : Table (List Endpoint)} {portlet key : String} {endpoint : Endpoint}
  {allowed : List String}

theorem getD_add : (add table portlet endpoint).getD key [] =
    if key = portlet then table.getD key [] ++ [endpoint] else table.getD key [] := by
  unfold add Table.getD
  rw [Table.get?_set]
  split
  · next same => simp [same]
  · rfl

theorem mem_keys_add (bound : key ∈ (add table portlet endpoint).keys) :
    key = portlet ∨ key ∈ table.keys := by
  obtain ⟨endpoints, found⟩ := Table.mem_keys_iff.mp bound
  unfold add at found
  rw [Table.get?_set] at found
  split at found
  · next same => exact .inl same
  · exact .inr (Table.mem_keys_of_get? found)

theorem getD_restrict : (restrict allowed table).getD key [] =
    (table.getD key []).filter fun endpoint => allowed.contains endpoint.node := by
  unfold restrict Table.getD
  rw [Table.get?_filter, Table.get?_map]
  cases table.get? key with
  | none => rfl
  | some endpoints =>
      simp only [Option.map_some, Option.filter_some, Option.getD_some]
      cases kept : endpoints.filter fun endpoint => allowed.contains endpoint.node with
      | nil => rfl
      | cons first rest => rfl

theorem mem_keys_restrict (bound : key ∈ (restrict allowed table).keys) : key ∈ table.keys := by
  obtain ⟨endpoints, found⟩ := Table.mem_keys_iff.mp bound
  unfold restrict at found
  rw [Table.get?_filter, Table.get?_map, Option.filter_eq_some_iff] at found
  obtain ⟨before, original, _⟩ := Option.map_eq_some_iff.mp found.1
  exact Table.mem_keys_of_get? original

end Endpoints

namespace Graph

variable {graph : Graph} {id : String} {node : Node} {source sink : Endpoint}

theorem outletAt?_eq_some_iff {outlet : Portlet} : graph.outletAt? source = some outlet ↔
    ∃ node, graph.node? source.node = some node ∧ node.outlet? source.portlet = some outlet :=
  Option.bind_eq_some_iff

theorem inletAt?_eq_some_iff {inlet : Portlet} : graph.inletAt? sink = some inlet ↔
    ∃ node, graph.node? sink.node = some node ∧ node.inlet? sink.portlet = some inlet :=
  Option.bind_eq_some_iff

theorem sinksAt_eq (found : graph.node? source.node = some node) :
    graph.sinksAt source = node.sinksOf source.portlet := by
  simp [sinksAt, found]

theorem sourcesAt_eq (found : graph.node? sink.node = some node) :
    graph.sourcesAt sink = node.sourcesOf sink.portlet := by
  simp [sourcesAt, found]

theorem inlet_eq_ok_iff {inletId : String} {inlet : Portlet} :
    node.inlet inletId = .ok inlet ↔ node.inlet? inletId = some inlet := by
  unfold Node.inlet
  cases node.inlet? inletId <;> simp

theorem outlet_eq_ok_iff {outletId : String} {outlet : Portlet} :
    node.outlet outletId = .ok outlet ↔ node.outlet? outletId = some outlet := by
  unfold Node.outlet
  cases node.outlet? outletId <;> simp

theorem mem_ids_iff : id ∈ graph.ids ↔ ∃ slot, graph.slots.get? id = some slot :=
  Table.mem_keys_iff

/-! ## Taking nodes away -/

/-- A node without its connections to nodes that are not kept. -/
def restrictNode (keep : List String) (node : Node) : Node :=
  { node with
    sources := Endpoints.restrict keep node.sources
    sinks := Endpoints.restrict keep node.sinks }

theorem slot_trim {keep : List String} : (graph.trim keep).slots.get? id =
    if id ∈ keep then (graph.slots.get? id).map (Option.map (restrictNode keep)) else none := by
  unfold trim
  rw [Table.get?_map, Table.get?_filter]
  by_cases kept : id ∈ keep
  · have passed : keep.contains id = true := List.contains_iff_mem.mpr kept
    rw [if_pos kept]
    cases graph.slots.get? id with
    | none => rfl
    | some slot =>
        rw [Option.filter_some, if_pos passed]
        rfl
  · have dropped : ¬ keep.contains id = true := fun member => kept (List.contains_iff_mem.mp member)
    rw [if_neg kept]
    cases graph.slots.get? id with
    | none => rfl
    | some slot =>
        rw [Option.filter_some, if_neg dropped]
        rfl

theorem node?_trim {keep : List String} : (graph.trim keep).node? id =
    if id ∈ keep then (graph.node? id).map (restrictNode keep) else none := by
  unfold node?
  rw [slot_trim]
  split
  · rcases graph.slots.get? id with _ | _ | _ <;> rfl
  · rfl

theorem mem_ids_trim {keep : List String} (member : id ∈ (graph.trim keep).ids) :
    id ∈ keep ∧ id ∈ graph.ids := by
  obtain ⟨slot, found⟩ := mem_ids_iff.mp member
  rw [slot_trim] at found
  split at found
  · next kept =>
    obtain ⟨before, original, _⟩ := Option.map_eq_some_iff.mp found
    exact ⟨kept, mem_ids_iff.mpr ⟨before, original⟩⟩
  · cases found

theorem fitsIn_trim {keep : List String} (fits : node.FitsIn graph id)
    (kept : id ∈ keep) : (restrictNode keep node).FitsIn (graph.trim keep) id where
  ownId := fits.ownId
  inletsDistinct := fits.inletsDistinct
  outletsDistinct := fits.outletsDistinct
  inletsTyped := fits.inletsTyped
  outletsTyped := fits.outletsTyped
  sources inletId bound := by
    obtain ⟨inlet, found, single, mirrored⟩ :=
      fits.sources inletId (Endpoints.mem_keys_restrict bound)
    have left : (restrictNode keep node).sourcesOf inletId = (node.sourcesOf inletId).filter
        fun endpoint => keep.contains endpoint.node := Endpoints.getD_restrict
    rw [left]
    refine ⟨inlet, found, fun signal => Nat.le_trans (List.length_filter_le ..) (single signal), ?_⟩
    intro source member
    obtain ⟨fed, sourceKept⟩ := List.mem_filter.mp member
    obtain ⟨outlet, outletFound, sameType, recorded⟩ := mirrored source fed
    obtain ⟨sourceNode, sourceFound, own⟩ := outletAt?_eq_some_iff.mp outletFound
    rw [sinksAt_eq sourceFound] at recorded
    have trimmed : (graph.trim keep).node? source.node = some (restrictNode keep sourceNode) := by
      rw [node?_trim, if_pos (by simpa using sourceKept), sourceFound]
      rfl
    refine ⟨outlet, outletAt?_eq_some_iff.mpr ⟨_, trimmed, own⟩, sameType, ?_⟩
    rw [sinksAt_eq trimmed]
    change _ ∈ (Endpoints.restrict keep sourceNode.sinks).getD source.portlet []
    rw [Endpoints.getD_restrict]
    exact List.mem_filter.mpr ⟨recorded, by simpa using kept⟩
  sinks outletId bound := by
    obtain ⟨outlet, found, mirrored⟩ := fits.sinks outletId (Endpoints.mem_keys_restrict bound)
    have left : (restrictNode keep node).sinksOf outletId = (node.sinksOf outletId).filter
        fun endpoint => keep.contains endpoint.node := Endpoints.getD_restrict
    rw [left]
    refine ⟨outlet, found, ?_⟩
    intro sink member
    obtain ⟨feeding, sinkKept⟩ := List.mem_filter.mp member
    obtain ⟨inlet, inletFound, recorded⟩ := mirrored sink feeding
    obtain ⟨sinkNode, sinkFound, own⟩ := inletAt?_eq_some_iff.mp inletFound
    rw [sourcesAt_eq sinkFound] at recorded
    have trimmed : (graph.trim keep).node? sink.node = some (restrictNode keep sinkNode) := by
      rw [node?_trim, if_pos (by simpa using sinkKept), sinkFound]
      rfl
    refine ⟨inlet, inletAt?_eq_some_iff.mpr ⟨_, trimmed, own⟩, ?_⟩
    rw [sourcesAt_eq trimmed]
    change _ ∈ (Endpoints.restrict keep sinkNode.sources).getD sink.portlet []
    rw [Endpoints.getD_restrict]
    exact List.mem_filter.mpr ⟨recorded, by simpa using kept⟩

theorem WellFormed.trim (wellFormed : graph.WellFormed) (keep : List String) :
    (graph.trim keep).WellFormed where
  filled id member := by
    obtain ⟨kept, stored⟩ := mem_ids_trim member
    obtain ⟨node, found⟩ := wellFormed.filled id stored
    exact ⟨restrictNode keep node, by rw [node?_trim, if_pos kept, found]; rfl⟩
  fits {id node} found := by
    rw [node?_trim] at found
    split at found
    · next kept =>
      obtain ⟨original, originalFound, rfl⟩ := Option.map_eq_some_iff.mp found
      exact fitsIn_trim (wellFormed.fits originalFound) kept
    · cases found

/-! ## Adding a node -/

/-- What fits into a graph fits into one that holds more nodes. -/
theorem fitsIn_mono {larger : Graph} (fits : node.FitsIn graph id)
    (included : ∀ {other stored}, graph.node? other = some stored →
      larger.node? other = some stored) : node.FitsIn larger id where
  ownId := fits.ownId
  inletsDistinct := fits.inletsDistinct
  outletsDistinct := fits.outletsDistinct
  inletsTyped := fits.inletsTyped
  outletsTyped := fits.outletsTyped
  sources inletId bound := by
    obtain ⟨inlet, found, single, mirrored⟩ := fits.sources inletId bound
    refine ⟨inlet, found, single, fun source fed => ?_⟩
    obtain ⟨outlet, outletFound, sameType, recorded⟩ := mirrored source fed
    obtain ⟨sourceNode, sourceFound, own⟩ := outletAt?_eq_some_iff.mp outletFound
    refine ⟨outlet, outletAt?_eq_some_iff.mpr ⟨_, included sourceFound, own⟩, sameType, ?_⟩
    rw [sinksAt_eq sourceFound] at recorded
    rw [sinksAt_eq (included sourceFound)]
    exact recorded
  sinks outletId bound := by
    obtain ⟨outlet, found, mirrored⟩ := fits.sinks outletId bound
    refine ⟨outlet, found, fun sink feeding => ?_⟩
    obtain ⟨inlet, inletFound, recorded⟩ := mirrored sink feeding
    obtain ⟨sinkNode, sinkFound, own⟩ := inletAt?_eq_some_iff.mp inletFound
    refine ⟨inlet, inletAt?_eq_some_iff.mpr ⟨_, included sinkFound, own⟩, ?_⟩
    rw [sourcesAt_eq sinkFound] at recorded
    rw [sourcesAt_eq (included sinkFound)]
    exact recorded

/-- A node without connections fits anywhere when its portlets are in order. -/
theorem fitsIn_of_isolated (isolated : node.isolated = node)
    (inletsDistinct : (node.inlets.map Portlet.id).Nodup)
    (outletsDistinct : (node.outlets.map Portlet.id).Nodup)
    (inletsTyped : ∀ inlet ∈ node.inlets, inlet.type = .signal ∨ inlet.type = .message)
    (outletsTyped : ∀ outlet ∈ node.outlets, outlet.type = .signal ∨ outlet.type = .message) :
    node.FitsIn graph node.id where
  ownId := rfl
  inletsDistinct := inletsDistinct
  outletsDistinct := outletsDistinct
  inletsTyped := inletsTyped
  outletsTyped := outletsTyped
  sources inletId bound := by
    rw [← isolated] at bound
    cases bound
  sinks outletId bound := by
    rw [← isolated] at bound
    cases bound

theorem add_eq_ok_iff {added : Graph} : graph.add (some node) = .ok added ↔
    node.id ≠ "" ∧ node.id ∉ graph.ids ∧ added = ⟨graph.slots.set node.id (some node)⟩ := by
  change (if node.id = "" then _ else _) = _ ↔ _
  split
  · next unnamed => simp [unnamed]
  · next named =>
    split
    · next taken => simp [ids, Table.contains_iff.mp taken]
    · next free =>
      have absent : node.id ∉ graph.ids := fun member => free (Table.contains_iff.mpr member)
      simp only [Except.ok.injEq, ne_eq, named, not_false_eq_true, absent, true_and]
      exact eq_comm

theorem node?_set {other : String} :
    (⟨graph.slots.set id (some node)⟩ : Graph).node? other =
      if other = id then some node else graph.node? other := by
  unfold node?
  rw [Table.get?_set]
  split <;> rfl

/-- A node that is added under a new id takes nothing away. -/
theorem node?_set_of_fresh (fresh : id ∉ graph.ids) {other : String} {stored : Node}
    (found : graph.node? other = some stored) :
    (⟨graph.slots.set id (some node)⟩ : Graph).node? other = some stored := by
  have apart : other ≠ id := fun same => fresh (same ▸ mem_ids_of_node? found)
  rw [node?_set, if_neg apart, found]

theorem filled_set (filled : ∀ id ∈ graph.ids, ∃ node, graph.node? id = some node)
    (fresh : id ∉ graph.ids) :
    ∀ other ∈ (⟨graph.slots.set id (some node)⟩ : Graph).ids,
      ∃ stored, (⟨graph.slots.set id (some node)⟩ : Graph).node? other = some stored := by
  intro other member
  by_cases same : other = id
  · exact ⟨node, by rw [node?_set, if_pos same]⟩
  · obtain ⟨slot, bound⟩ := mem_ids_iff.mp member
    rw [Table.get?_set, if_neg same] at bound
    obtain ⟨stored, found⟩ := filled other (mem_ids_iff.mpr ⟨slot, bound⟩)
    exact ⟨stored, node?_set_of_fresh fresh found⟩

theorem WellFormed.add (wellFormed : graph.WellFormed) (fits : node.FitsIn graph node.id)
    {added : Graph} (success : graph.add (some node) = .ok added) : added.WellFormed := by
  obtain ⟨_, fresh, rfl⟩ := add_eq_ok_iff.mp success
  refine ⟨filled_set wellFormed.filled fresh, ?_⟩
  intro id stored found
  rw [node?_set] at found
  split at found
  · next same =>
    cases found
    subst same
    exact fitsIn_mono fits (node?_set_of_fresh fresh)
  · exact fitsIn_mono (wellFormed.fits found) (node?_set_of_fresh fresh)

/-! ## Connecting two portlets -/

/-- A node with its record of a new connection, where it is an end of it. -/
def linkNode (source sink : Endpoint) (id : String) (node : Node) : Node :=
  { node with
    sinks := if id = source.node then Endpoints.add node.sinks source.portlet sink else node.sinks
    sources := if id = sink.node then Endpoints.add node.sources sink.portlet source
      else node.sources }

theorem node?_modifyNode {other : String} {change : Node → Node} :
    (graph.modifyNode other change).node? id =
      if id = other then (graph.node? id).map change else graph.node? id := by
  unfold modifyNode node?
  rw [Table.get?_modify]
  split
  · cases graph.slots.get? id with
    | none => rfl
    | some slot => cases slot <;> rfl
  · rfl

theorem node?_link : (graph.link source sink).node? id =
    (graph.node? id).map (linkNode source sink id) := by
  unfold link
  rw [node?_modifyNode, node?_modifyNode]
  cases graph.node? id with
  | none => simp
  | some node =>
      by_cases atSink : id = sink.node
      · by_cases atSource : id = source.node
        · simp [linkNode, ← atSink, ← atSource]
        · simp [linkNode, ← atSink, atSource]
      · by_cases atSource : id = source.node
        · simp [linkNode, atSink, ← atSource]
        · simp [linkNode, atSink, atSource]

theorem sourcesOf_linkNode {inletId : String} :
    (linkNode source sink id node).sourcesOf inletId =
      node.sourcesOf inletId ++ if ⟨id, inletId⟩ = sink then [source] else [] := by
  obtain ⟨sinkId, sinkPortlet⟩ := sink
  by_cases atSink : id = sinkId
  · by_cases atInlet : inletId = sinkPortlet
    · simp [linkNode, Node.sourcesOf, atSink, atInlet, Endpoints.getD_add]
    · simp [linkNode, Node.sourcesOf, atSink, atInlet, Endpoints.getD_add]
  · simp [linkNode, Node.sourcesOf, atSink]

theorem sinksOf_linkNode {outletId : String} :
    (linkNode source sink id node).sinksOf outletId =
      node.sinksOf outletId ++ if ⟨id, outletId⟩ = source then [sink] else [] := by
  obtain ⟨sourceId, sourcePortlet⟩ := source
  by_cases atSource : id = sourceId
  · by_cases atOutlet : outletId = sourcePortlet
    · simp [linkNode, Node.sinksOf, atSource, atOutlet, Endpoints.getD_add]
    · simp [linkNode, Node.sinksOf, atSource, atOutlet, Endpoints.getD_add]
  · simp [linkNode, Node.sinksOf, atSource]

theorem mem_sinksAt_link {portlet : Endpoint} (found : graph.node? portlet.node = some node)
    {other : Endpoint} : other ∈ (graph.link source sink).sinksAt portlet ↔
      other ∈ graph.sinksAt portlet ∨ portlet = source ∧ other = sink := by
  have linked : (graph.link source sink).node? portlet.node =
      some (linkNode source sink portlet.node node) := by
    rw [node?_link, found]
    rfl
  rw [sinksAt_eq linked, sinksAt_eq found, sinksOf_linkNode, List.mem_append]
  refine or_congr_right ?_
  by_cases atSource : portlet = source <;> simp [atSource]

theorem mem_sourcesAt_link {portlet : Endpoint} (found : graph.node? portlet.node = some node)
    {other : Endpoint} : other ∈ (graph.link source sink).sourcesAt portlet ↔
      other ∈ graph.sourcesAt portlet ∨ portlet = sink ∧ other = source := by
  have linked : (graph.link source sink).node? portlet.node =
      some (linkNode source sink portlet.node node) := by
    rw [node?_link, found]
    rfl
  rw [sourcesAt_eq linked, sourcesAt_eq found, sourcesOf_linkNode, List.mem_append]
  refine or_congr_right ?_
  by_cases atSink : portlet = sink <;> simp [atSink]

theorem outletAt?_link : (graph.link source sink).outletAt? = graph.outletAt? := by
  funext portlet
  unfold outletAt?
  rw [node?_link]
  cases graph.node? portlet.node <;> rfl

theorem inletAt?_link : (graph.link source sink).inletAt? = graph.inletAt? := by
  funext portlet
  unfold inletAt?
  rw [node?_link]
  cases graph.node? portlet.node <;> rfl

/-- What the ends of a new connection must be like. -/
structure Connectable (graph : Graph) (source sink : Endpoint) : Prop where
  portlets : ∃ outlet inlet, graph.outletAt? source = some outlet ∧
    graph.inletAt? sink = some inlet ∧ outlet.type = inlet.type ∧
    (inlet.type = .signal → graph.sourcesAt sink = [])
  unrecorded : source ∉ graph.sourcesAt sink

theorem mem_sinksAt_link_of_mem {outlet : Portlet} {other portlet : Endpoint}
    (found : graph.outletAt? other = some outlet) (recorded : portlet ∈ graph.sinksAt other) :
    portlet ∈ (graph.link source sink).sinksAt other := by
  obtain ⟨otherNode, otherFound, _⟩ := outletAt?_eq_some_iff.mp found
  exact (mem_sinksAt_link otherFound).mpr (.inl recorded)

theorem mem_sourcesAt_link_of_mem {inlet : Portlet} {other portlet : Endpoint}
    (found : graph.inletAt? other = some inlet) (recorded : portlet ∈ graph.sourcesAt other) :
    portlet ∈ (graph.link source sink).sourcesAt other := by
  obtain ⟨otherNode, otherFound, _⟩ := inletAt?_eq_some_iff.mp found
  exact (mem_sourcesAt_link otherFound).mpr (.inl recorded)

theorem mem_keys_sources_of_link {inletId : String} (other : ⟨id, inletId⟩ ≠ sink)
    (bound : inletId ∈ (linkNode source sink id node).sources.keys) :
    inletId ∈ node.sources.keys := by
  change inletId ∈ (if id = sink.node then _ else _ : Table _).keys at bound
  split at bound
  · next atNode =>
    refine (Endpoints.mem_keys_add bound).resolve_left fun atPortlet => other ?_
    rw [atNode, atPortlet]
  · exact bound

theorem mem_keys_sinks_of_link {outletId : String} (other : ⟨id, outletId⟩ ≠ source)
    (bound : outletId ∈ (linkNode source sink id node).sinks.keys) :
    outletId ∈ node.sinks.keys := by
  change outletId ∈ (if id = source.node then _ else _ : Table _).keys at bound
  split at bound
  · next atNode =>
    refine (Endpoints.mem_keys_add bound).resolve_left fun atPortlet => other ?_
    rw [atNode, atPortlet]
  · exact bound

theorem fitsIn_link (connectable : graph.Connectable source sink)
    (found : graph.node? id = some node) (fits : node.FitsIn graph id) :
    (linkNode source sink id node).FitsIn (graph.link source sink) id := by
  obtain ⟨newOutlet, newInlet, atSource, atSink, sameTypes, free⟩ := connectable.portlets
  obtain ⟨sourceNode, sourceFound, ownOutlet⟩ := outletAt?_eq_some_iff.mp atSource
  obtain ⟨sinkNode, sinkFound, ownInlet⟩ := inletAt?_eq_some_iff.mp atSink
  refine ⟨fits.ownId, fits.inletsDistinct, fits.outletsDistinct, fits.inletsTyped,
    fits.outletsTyped, ?_, ?_⟩
  · intro inletId bound
    rw [sourcesOf_linkNode, outletAt?_link]
    by_cases isSink : ⟨id, inletId⟩ = sink
    · subst isSink
      simp only [found, Option.some.injEq] at sinkFound
      subst sinkFound
      rw [if_pos rfl]
      refine ⟨newInlet, ownInlet, fun signal => ?_, fun other member => ?_⟩
      · have none : node.sourcesOf inletId = [] := by
          rw [← free signal, sourcesAt_eq found]
        simp [none]
      · rcases List.mem_append.mp member with earlier | last
        · obtain ⟨inlet, inletFound, _, mirrored⟩ :=
            fits.sources inletId (Node.mem_keys_of_mem_sourcesOf earlier)
          obtain ⟨outlet, outletFound, sameType, recorded⟩ := mirrored other earlier
          rw [ownInlet] at inletFound
          cases inletFound
          exact ⟨outlet, outletFound, sameType, mem_sinksAt_link_of_mem outletFound recorded⟩
        · rw [List.mem_singleton.mp last]
          exact ⟨newOutlet, atSource, sameTypes, (mem_sinksAt_link sourceFound).mpr (.inr ⟨rfl, rfl⟩)⟩
    · rw [if_neg isSink, List.append_nil]
      obtain ⟨inlet, inletFound, single, mirrored⟩ :=
        fits.sources inletId (mem_keys_sources_of_link isSink bound)
      refine ⟨inlet, inletFound, single, fun other fed => ?_⟩
      obtain ⟨outlet, outletFound, sameType, recorded⟩ := mirrored other fed
      exact ⟨outlet, outletFound, sameType, mem_sinksAt_link_of_mem outletFound recorded⟩
  · intro outletId bound
    rw [sinksOf_linkNode, inletAt?_link]
    by_cases isSource : ⟨id, outletId⟩ = source
    · subst isSource
      simp only [found, Option.some.injEq] at sourceFound
      subst sourceFound
      rw [if_pos rfl]
      refine ⟨newOutlet, ownOutlet, fun other member => ?_⟩
      rcases List.mem_append.mp member with earlier | last
      · obtain ⟨_, _, mirrored⟩ := fits.sinks outletId (Node.mem_keys_of_mem_sinksOf earlier)
        obtain ⟨inlet, inletFound, recorded⟩ := mirrored other earlier
        exact ⟨inlet, inletFound, mem_sourcesAt_link_of_mem inletFound recorded⟩
      · rw [List.mem_singleton.mp last]
        exact ⟨newInlet, atSink, (mem_sourcesAt_link sinkFound).mpr (.inr ⟨rfl, rfl⟩)⟩
    · rw [if_neg isSource, List.append_nil]
      obtain ⟨outlet, outletFound, mirrored⟩ :=
        fits.sinks outletId (mem_keys_sinks_of_link isSource bound)
      refine ⟨outlet, outletFound, fun other feeding => ?_⟩
      obtain ⟨inlet, inletFound, recorded⟩ := mirrored other feeding
      exact ⟨inlet, inletFound, mem_sourcesAt_link_of_mem inletFound recorded⟩

theorem WellFormed.link (wellFormed : graph.WellFormed)
    (connectable : graph.Connectable source sink) : (graph.link source sink).WellFormed where
  filled id member := by
    have stored : id ∈ graph.ids := by
      unfold ids Graph.link Graph.modifyNode at member
      rw [Table.keys_modify, Table.keys_modify] at member
      exact member
    obtain ⟨node, found⟩ := wellFormed.filled id stored
    exact ⟨_, by rw [node?_link, found]; rfl⟩
  fits {id node} found := by
    rw [node?_link] at found
    obtain ⟨original, originalFound, rfl⟩ := Option.map_eq_some_iff.mp found
    exact fitsIn_link connectable originalFound (wellFormed.fits originalFound)

/-- Connecting leaves a graph as it is or links two portlets that were free for it. -/
theorem connect_eq_ok {connected : Graph} (success : graph.connect source sink = .ok connected) :
    connected = graph ∨ graph.Connectable source sink ∧ connected = graph.link source sink := by
  unfold connect at success
  obtain ⟨sourceNode, sourceFound, success⟩ := Outcome.bind_eq_ok_iff.mp success
  obtain ⟨sinkNode, sinkFound, success⟩ := Outcome.bind_eq_ok_iff.mp success
  obtain ⟨outlet, ownOutlet, success⟩ := Outcome.bind_eq_ok_iff.mp success
  obtain ⟨inlet, ownInlet, success⟩ := Outcome.bind_eq_ok_iff.mp success
  rw [node_eq_ok_iff] at sourceFound sinkFound
  rw [outlet_eq_ok_iff] at ownOutlet
  rw [inlet_eq_ok_iff] at ownInlet
  have sameId := inlet?_id ownInlet
  simp only [sameId] at success
  split at success
  · cases success
  · next sameTypes =>
    change (if source ∈ _ then _ else _) = _ at success
    split at success
    · cases success
      exact .inl rfl
    · next fresh =>
      change (if _ ∧ _ then _ else _) = _ at success
      split at success
      · cases success
      · next free =>
        cases success
        refine .inr ⟨⟨⟨outlet, inlet, outletAt?_eq_some_iff.mpr ⟨_, sourceFound, ownOutlet⟩,
          inletAt?_eq_some_iff.mpr ⟨_, sinkFound, ownInlet⟩, not_not.mp sameTypes, ?_⟩, ?_⟩, rfl⟩
        · intro signal
          rw [sourcesAt_eq sinkFound]
          by_contra taken
          exact free ⟨signal, taken⟩
        · rwa [sourcesAt_eq sinkFound]

theorem WellFormed.connect (wellFormed : graph.WellFormed) {connected : Graph}
    (success : graph.connect source sink = .ok connected) : connected.WellFormed := by
  rcases connect_eq_ok success with rfl | ⟨connectable, rfl⟩
  · exact wellFormed
  · exact wellFormed.link connectable

end Graph

end Patchbay
