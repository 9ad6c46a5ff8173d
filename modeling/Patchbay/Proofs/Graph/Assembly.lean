import Patchbay.Proofs.Graph.Alike

namespace Patchbay.Graph

/-! Graphs that are assembled from lists.

What an assembled graph holds can be read off the two lists: the nodes without connections of their own,
and for every outlet the sinks that the connections name, in the order in which they are first named.
Listing the nodes in another order, or the connections that leave different outlets, therefore leaves
nothing behind but the order in which the sources of an inlet are recorded.
-/

open Outcome (Yields)

variable {graph bare bareToo next : Graph} {nodes nodesToo done : List (Option Node)} {node : Node}
  {connections connectionsToo joined : List Connection} {connection : Connection} {source sink : Endpoint}

theorem Consistent.nodup_sourcesAt (consistent : graph.Consistent) : (graph.sourcesAt sink).Nodup :=
  List.nodup_iff_count_le_one.mpr fun source => consistent.mirrored source sink ▸ consistent.once source sink

/-! ## Nodes -/

/-- The ids of the nodes of a list. -/
def listedIds (nodes : List (Option Node)) : List String := nodes.filterMap (Option.map Node.id)

/-- Nodes that can be stored together. -/
structure Storable (nodes : List (Option Node)) : Prop where
  named : ∀ candidate ∈ nodes, ∃ node, candidate = some node ∧ node.id ≠ ""
  distinct : (listedIds nodes).Nodup

/-- A graph that stores the nodes of a list, and no connection. -/
structure Stores (nodes : List (Option Node)) (bare : Graph) : Prop where
  ids : bare.ids = listedIds nodes
  node?_iff : ∀ id node, bare.node? id = some node ↔ ∃ own, some own ∈ nodes ∧ own.id = id ∧ own.isolated = node

/-- The graph that stores the nodes of a list. -/
def store (nodes : List (Option Node)) : Outcome Graph :=
  nodes.foldlM (fun graph candidate => graph.add (candidate.map Node.isolated)) empty

theorem listedIds_append_some : listedIds (done ++ [some node]) = listedIds done ++ [node.id] :=
  List.filterMap_append

theorem Storable.perm (storable : Storable nodes) (same : nodes.Perm nodesToo) : Storable nodesToo where
  named candidate member := storable.named candidate (same.mem_iff.mpr member)
  distinct := (same.filterMap _).nodup storable.distinct

theorem Stores.add (stores : Stores done bare) (added : bare.add (some node.isolated) = .ok next) :
    Stores (done ++ [some node]) next := by
  obtain ⟨_, fresh, rfl⟩ := add_eq_ok_iff.mp added
  change node.id ∉ bare.ids at fresh
  refine ⟨?_, fun id stored => ?_⟩
  · change (bare.slots.set ..).keys = _
    rw [Table.keys_set, listedIds_append_some, ← stores.ids]
    exact if_neg fresh
  · have later : (∃ own, some own ∈ done ++ [some node] ∧ own.id = id ∧ own.isolated = stored) ↔
        (∃ own, some own ∈ done ∧ own.id = id ∧ own.isolated = stored) ∨
          node.id = id ∧ node.isolated = stored := by
      simp only [List.mem_append, List.mem_singleton, Option.some.injEq, or_and_right, exists_or,
        exists_eq_left]
    rw [later, ← stores.node?_iff, node?_set]
    change (if id = node.id then some node.isolated else bare.node? id) = some stored ↔ _
    by_cases same : id = node.id
    · subst same
      rw [if_pos rfl, node?_eq_none fresh]
      simp
    · rw [if_neg same]
      exact (or_iff_left fun isNode => same isNode.1.symm).symm

theorem stores_of_store (stored : store nodes = .ok bare) : Storable nodes ∧ Stores nodes bare := by
  refine Outcome.foldlM_invariant (fun done bare => Storable done ∧ Stores done bare) ?_ ?_ stored
  · refine ⟨⟨by simp, List.nodup_nil⟩, rfl, fun id node => ?_⟩
    simp only [List.not_mem_nil, false_and, exists_false, iff_false]
    exact nofun
  · intro done candidate bare next _ ⟨storable, stores⟩ added
    cases candidate with
    | none => cases added
    | some node =>
        obtain ⟨named, fresh, _⟩ := add_eq_ok_iff.mp added
        refine ⟨⟨fun other member => ?_, ?_⟩, stores.add added⟩
        · rcases List.mem_append.mp member with earlier | last
          · exact storable.named other earlier
          · exact ⟨node, List.mem_singleton.mp last, named⟩
        · rw [listedIds_append_some, ← List.concat_eq_append, ← stores.ids]
          exact (stores.ids ▸ storable.distinct).concat fresh

theorem Storable.yields (storable : Storable nodes) : Yields (store nodes) (Stores nodes) := by
  refine Outcome.yields_foldlM Stores ?_ ?_
  · refine ⟨rfl, fun id node => ?_⟩
    simp only [List.not_mem_nil, false_and, exists_false, iff_false]
    exact nofun
  · intro done candidate rest bare split stores
    obtain ⟨node, rfl, named⟩ := storable.named candidate (by simp [split])
    have fresh : node.id ∉ bare.ids := by
      have distinct := storable.distinct
      rw [split, List.append_cons, listedIds, List.filterMap_append] at distinct
      have first := (List.nodup_append.mp distinct).1
      change (listedIds (done ++ [some node])).Nodup at first
      rw [listedIds_append_some, List.nodup_append] at first
      rw [stores.ids]
      exact fun member => first.2.2 _ member _ (List.mem_singleton_self _) rfl
    have added : bare.add (some node.isolated) = .ok _ := add_eq_ok_iff.mpr ⟨named, fresh, rfl⟩
    exact ⟨_, added, stores.add added⟩

theorem Stores.node?_eq (stores : Stores nodes bare) (storesToo : Stores nodesToo bareToo)
    (same : nodes.Perm nodesToo) : bare.node? = bareToo.node? := by
  funext id
  refine Option.ext fun node => ?_
  rw [stores.node?_iff, storesToo.node?_iff]
  simp only [same.mem_iff]

/-! ## Connections -/

/-- The sinks that connections name for an outlet, in the order in which they are first named. -/
def sinksFrom (source : Endpoint) (connections : List Connection) : List Endpoint :=
  ((connections.filter fun connection => connection.source = source).map Connection.sink).eraseDups

theorem mem_sinksFrom : sink ∈ sinksFrom source connections ↔ ⟨source, sink⟩ ∈ connections := by
  simp only [sinksFrom, List.mem_eraseDups, List.mem_map, List.mem_filter, decide_eq_true_eq]
  constructor
  · rintro ⟨connection, ⟨member, rfl⟩, rfl⟩
    exact member
  · exact fun member => ⟨_, ⟨member, rfl⟩, rfl⟩

theorem sinksFrom_append : sinksFrom source (joined ++ [connection]) = sinksFrom source joined ++
    if connection.source = source ∧ connection ∉ joined then [connection.sink] else [] := by
  by_cases leaves : connection.source = source
  · subst leaves
    have known : connection ∈ joined ↔ connection.sink ∈ sinksFrom connection.source joined :=
      mem_sinksFrom.symm
    simp only [known, true_and]
    unfold sinksFrom
    rw [List.filter_append, List.map_append, List.eraseDups_append]
    simp only [List.filter_cons, decide_true, List.filter_nil, List.map_cons, List.map_nil, if_true,
      List.mem_eraseDups]
    split <;> simp_all [List.removeAll, List.eraseDups_cons]
  · simp [sinksFrom, leaves]

/-- A graph whose nodes are joined by the connections of a list. -/
structure Joins (bare : Graph) (connections : List Connection) (graph : Graph) : Prop where
  consistent : graph.Consistent
  ids : graph.ids = bare.ids
  nodes : ∀ id, (graph.node? id).map Node.isolated = (bare.node? id).map Node.isolated
  sinksAt : ∀ source, graph.sinksAt source = sinksFrom source connections

/-- The ends of every connection are there and of one type, and no signal inlet is fed twice. -/
def Joinable (bare : Graph) (connections : List Connection) : Prop :=
  ∀ connection ∈ connections, ∃ outlet inlet, bare.outletAt? connection.source = some outlet ∧
    bare.inletAt? connection.sink = some inlet ∧ outlet.type = inlet.type ∧
    (inlet.type = .signal → ∀ other ∈ connections, other.sink = connection.sink →
      other.source = connection.source)

theorem Joinable.mono (joinable : Joinable bare connections)
    (within : ∀ connection ∈ connectionsToo, connection ∈ connections) : Joinable bare connectionsToo := by
  intro connection member
  obtain ⟨outlet, inlet, atSource, atSink, sameTypes, single⟩ := joinable connection (within _ member)
  exact ⟨outlet, inlet, atSource, atSink, sameTypes, fun signal other isOther =>
    single signal other (within _ isOther)⟩

theorem Joinable.of_nodes (joinable : Joinable bare connections) (same : bare.node? = bareToo.node?) :
    Joinable bareToo connections := by
  have outlets : bare.outletAt? = bareToo.outletAt? := by unfold outletAt?; rw [same]
  have inlets : bare.inletAt? = bareToo.inletAt? := by unfold inletAt?; rw [same]
  unfold Joinable
  rw [← outlets, ← inlets]
  exact joinable

theorem portlets_of_connect (success : graph.connect source sink = .ok next) :
    ∃ outlet inlet, graph.outletAt? source = some outlet ∧ graph.inletAt? sink = some inlet ∧
      outlet.type = inlet.type := by
  unfold connect at success
  obtain ⟨sourceNode, sourceFound, success⟩ := Outcome.bind_eq_ok_iff.mp success
  obtain ⟨sinkNode, sinkFound, success⟩ := Outcome.bind_eq_ok_iff.mp success
  obtain ⟨outlet, ownOutlet, success⟩ := Outcome.bind_eq_ok_iff.mp success
  obtain ⟨inlet, ownInlet, success⟩ := Outcome.bind_eq_ok_iff.mp success
  rw [node_eq_ok_iff] at sourceFound sinkFound
  rw [outlet_eq_ok_iff] at ownOutlet
  rw [inlet_eq_ok_iff] at ownInlet
  split at success
  · cases success
  · next sameTypes =>
    exact ⟨outlet, inlet, outletAt?_eq_some_iff.mpr ⟨_, sourceFound, ownOutlet⟩,
      inletAt?_eq_some_iff.mpr ⟨_, sinkFound, ownInlet⟩, not_not.mp sameTypes⟩

/-- What connecting two portlets of one type depends on. -/
theorem connect_eq {outlet inlet : Portlet} (atSource : graph.outletAt? source = some outlet)
    (atSink : graph.inletAt? sink = some inlet) (sameTypes : outlet.type = inlet.type) :
    graph.connect source sink =
      if source ∈ graph.sourcesAt sink then .ok graph
      else if inlet.type = .signal ∧ graph.sourcesAt sink ≠ [] then .error (.inletTaken sink)
      else .ok (graph.link source sink) := by
  obtain ⟨sourceNode, sourceFound, ownOutlet⟩ := outletAt?_eq_some_iff.mp atSource
  obtain ⟨sinkNode, sinkFound, ownInlet⟩ := inletAt?_eq_some_iff.mp atSink
  unfold connect
  rw [node_eq_ok_iff.mpr sourceFound, node_eq_ok_iff.mpr sinkFound]
  change (sourceNode.outlet _ >>= fun outlet => sinkNode.inlet _ >>= _) = _
  rw [outlet_eq_ok_iff.mpr ownOutlet, inlet_eq_ok_iff.mpr ownInlet, sourcesAt_eq sinkFound,
    ← inlet?_id ownInlet]
  change (if outlet.type ≠ inlet.type then _ else _) = _
  rw [if_neg (not_not.mpr sameTypes)]
  rfl

theorem sinksAt_link (found : graph.node? source.node = some node) {portlet : Endpoint} :
    (graph.link source sink).sinksAt portlet =
      graph.sinksAt portlet ++ if source = portlet then [sink] else [] := by
  unfold sinksAt
  rw [node?_link]
  cases stored : graph.node? portlet.node with
  | none =>
      have apart : source ≠ portlet := by
        rintro rfl
        cases stored.symm.trans found
      simp [apart]
  | some other =>
      simp only [Option.map_some, Option.getD_some, sinksOf_linkNode]
      simp only [eq_comm]

namespace Joins

theorem start (stores : Stores nodes bare) (consistent : bare.Consistent) : Joins bare [] bare where
  consistent
  ids := rfl
  nodes _ := rfl
  sinksAt source := by
    unfold Graph.sinksAt
    cases found : bare.node? source.node with
    | none => rfl
    | some node =>
        obtain ⟨own, _, _, rfl⟩ := (stores.node?_iff ..).mp found
        rfl

variable (joins : Joins bare joined graph)

include joins

theorem mem_sourcesAt_iff : source ∈ graph.sourcesAt sink ↔ ⟨source, sink⟩ ∈ joined := by
  rw [← joins.consistent.mem_sinksAt_iff, joins.sinksAt, mem_sinksFrom]

theorem bind_eq {β : Type} (view : Node → Option β) (unseen : ∀ node : Node, view node.isolated = view node)
    (id : String) : (graph.node? id).bind view = (bare.node? id).bind view := by
  have same := congrArg (·.bind view) (joins.nodes id)
  simpa only [Option.bind_map, Function.comp_def, unseen] using same

theorem outletAt?_eq (source : Endpoint) : graph.outletAt? source = bare.outletAt? source :=
  joins.bind_eq (fun node => node.outlet? source.portlet) (fun _ => rfl) source.node

theorem inletAt?_eq (sink : Endpoint) : graph.inletAt? sink = bare.inletAt? sink :=
  joins.bind_eq (fun node => node.inlet? sink.portlet) (fun _ => rfl) sink.node

/-- One more connection joins what it names, unless it was there. -/
theorem connect (success : graph.connect connection.source connection.sink = .ok next) :
    Joins bare (joined ++ [connection]) next := by
  obtain ⟨outlet, inlet, atSource, atSink, sameTypes⟩ := portlets_of_connect success
  have consistent := joins.consistent.connect success
  rw [connect_eq atSource atSink sameTypes] at success
  simp only [joins.mem_sourcesAt_iff] at success
  split at success
  · next known =>
    change connection ∈ joined at known
    cases success
    refine ⟨consistent, joins.ids, joins.nodes, fun source => ?_⟩
    rw [joins.sinksAt, sinksFrom_append, if_neg (fun new => new.2 known), List.append_nil]
  · next unknown =>
    change connection ∉ joined at unknown
    split at success
    · cases success
    · cases success
      obtain ⟨sourceNode, sourceFound, _⟩ := outletAt?_eq_some_iff.mp atSource
      refine ⟨consistent, ids_link.trans joins.ids, fun id => ?_, fun source => ?_⟩
      · rw [← joins.nodes, node?_link, Option.map_map]
        rfl
      · rw [sinksAt_link sourceFound, joins.sinksAt, sinksFrom_append]
        simp only [unknown, not_false_eq_true, and_true]

theorem connect_yields (joinable : Joinable bare (joined ++ [connection])) :
    Yields (graph.connect connection.source connection.sink) (Joins bare (joined ++ [connection])) := by
  obtain ⟨outlet, inlet, atSource, atSink, sameTypes, single⟩ :=
    joinable connection (List.mem_append_right _ (List.mem_singleton_self _))
  rw [← joins.outletAt?_eq] at atSource
  rw [← joins.inletAt?_eq] at atSink
  have connects : ∃ next, graph.connect connection.source connection.sink = .ok next := by
    rw [connect_eq atSource atSink sameTypes]
    split
    · exact ⟨_, rfl⟩
    · next unknown =>
      refine ⟨_, if_neg fun taken => ?_⟩
      obtain ⟨signal, fed⟩ := taken
      obtain ⟨other, member⟩ := List.exists_mem_of_ne_nil _ fed
      have isOwn := single signal _ (List.mem_append_left _ (joins.mem_sourcesAt_iff.mp member)) rfl
      exact unknown (isOwn ▸ member)
  obtain ⟨next, connected⟩ := connects
  exact ⟨next, connected, joins.connect connected⟩

theorem joinable : Joinable bare joined := by
  intro connection member
  have recorded := joins.mem_sourcesAt_iff.mpr member
  obtain ⟨outlet, inlet, atSource, atSink, sameTypes⟩ := joins.consistent.typed (.inr recorded)
  refine ⟨outlet, inlet, joins.outletAt?_eq _ ▸ atSource, joins.inletAt?_eq _ ▸ atSink, sameTypes, ?_⟩
  intro signal other otherMember sameSink
  have recordedToo := joins.mem_sourcesAt_iff.mpr otherMember
  rw [sameSink] at recordedToo
  obtain ⟨only, isOnly⟩ := List.length_eq_one_iff.mp
    (Nat.le_antisymm (joins.consistent.single atSink signal) (List.length_pos_of_mem recorded))
  rw [isOnly, List.mem_singleton] at recorded recordedToo
  exact recordedToo.trans recorded.symm

end Joins

/-! ## Assembled graphs -/

theorem joins_of_build (built : build nodes connections = .ok graph) :
    ∃ bare, Storable nodes ∧ Stores nodes bare ∧ Joins bare connections graph := by
  obtain ⟨bare, stored, connected⟩ := Outcome.bind_eq_ok_iff.mp built
  obtain ⟨storable, stores⟩ := stores_of_store stored
  have plain : build nodes [] = .ok bare := Outcome.bind_eq_ok_iff.mpr ⟨bare, stored, rfl⟩
  refine ⟨bare, storable, stores, ?_⟩
  refine Outcome.foldlM_invariant (Joins bare) (.start stores (consistent_build plain)) ?_ connected
  exact fun _ connection graph next _ joins success => joins.connect success

theorem Joinable.build_yields (joinable : Joinable bare connections) (stored : store nodes = .ok bare) :
    Yields (build nodes connections) fun _ => True := by
  have plain : build nodes [] = .ok bare := Outcome.bind_eq_ok_iff.mpr ⟨bare, stored, rfl⟩
  have start : Joins bare [] bare := .start (stores_of_store stored).2 (consistent_build plain)
  have steps : ∀ done connection rest graph, connections = done ++ connection :: rest → Joins bare done graph →
      Yields (graph.connect connection.source connection.sink) (Joins bare (done ++ [connection])) := by
    intro done connection rest graph split joins
    have within : ∀ other ∈ done ++ [connection], other ∈ connections := by
      intro other member
      rw [split, List.append_cons]
      exact List.mem_append_left _ member
    exact joins.connect_yields (joinable.mono within)
  obtain ⟨graph, connected, _⟩ := Outcome.yields_foldlM (Joins bare) start steps
  exact ⟨graph, Outcome.bind_eq_ok_iff.mpr ⟨bare, stored, connected⟩, trivial⟩

/-- No signal inlet has two sources. -/
def SingleSourced (graph : Graph) : Prop :=
  ∀ id node, graph.node? id = some node → ∀ inlet ∈ node.inlets, inlet.type = .signal →
    (node.sourcesOf inlet.id).length ≤ 1

theorem WellFormed.singleSourced (wellFormed : graph.WellFormed) : graph.SingleSourced :=
  fun _ _ found _ => (wellFormed.fits found).single_source

theorem eq_of_perm_of_length_le_one {endpoints others : List Endpoint} (same : endpoints.Perm others)
    (short : endpoints.length ≤ 1) : endpoints = others := by
  obtain _ | ⟨first, _ | ⟨second, rest⟩⟩ := endpoints
  · exact (List.nil_perm.mp same).symm
  · exact List.singleton_perm.mp same
  · simp at short

/-- Joining the same nodes by the same connections of every outlet gives alike graphs. -/
theorem Joins.alike (joins : Joins bare connections graph) {graphToo : Graph}
    (joinsToo : Joins bareToo connectionsToo graphToo) (sameSlots : bare.node? = bareToo.node?)
    (order : Text.SameOrder graph.ids graphToo.ids) (sameConnections : connections.Perm connectionsToo)
    (sameFans : ∀ outlet : Endpoint,
      connections.filter (fun connection => connection.source = outlet) =
        connectionsToo.filter fun connection => connection.source = outlet)
    (single : graph.SingleSourced) : graph.Alike graphToo := by
  refine ⟨order, fun id => ?_⟩
  have same : (graph.node? id).map Node.isolated = (graphToo.node? id).map Node.isolated := by
    rw [joins.nodes, joinsToo.nodes, sameSlots]
  unfold AlikeAt
  cases found : graph.node? id with
  | none =>
      rw [found] at same
      rw [Option.map_eq_none_iff.mp same.symm]
      exact .none
  | some node =>
      rw [found] at same
      obtain ⟨twin, foundToo, isolated⟩ := Option.map_eq_some_iff.mp same.symm
      rw [foundToo]
      have sources : ∀ inlet, (node.sourcesOf inlet).Perm (twin.sourcesOf inlet) := by
        intro inlet
        have own : graph.sourcesAt ⟨id, inlet⟩ = node.sourcesOf inlet := sourcesAt_eq found
        have ownToo : graphToo.sourcesAt ⟨id, inlet⟩ = twin.sourcesOf inlet := sourcesAt_eq foundToo
        rw [← own, ← ownToo]
        refine (List.perm_ext_iff_of_nodup joins.consistent.nodup_sourcesAt
          joinsToo.consistent.nodup_sourcesAt).mpr fun source => ?_
        rw [joins.mem_sourcesAt_iff, joinsToo.mem_sourcesAt_iff, sameConnections.mem_iff]
      refine .some ⟨isolated.symm, fun outlet => ?_, sources, fun inlet isInlet signal => ?_⟩
      · have own : graph.sinksAt ⟨id, outlet⟩ = node.sinksOf outlet := sinksAt_eq found
        have ownToo : graphToo.sinksAt ⟨id, outlet⟩ = twin.sinksOf outlet := sinksAt_eq foundToo
        rw [← own, ← ownToo, joins.sinksAt, joinsToo.sinksAt, sinksFrom, sinksFrom, sameFans]
      · exact eq_of_perm_of_length_le_one (sources inlet.id) (single id node found inlet isInlet signal)

section

variable (sameNodes : nodes.Perm nodesToo) (sameConnections : connections.Perm connectionsToo)

include sameNodes sameConnections

/-- Lists in another order are assembled as well. -/
theorem build_perm (built : build nodes connections = .ok graph) :
    ∃ graphToo, build nodesToo connectionsToo = .ok graphToo := by
  obtain ⟨bare, storable, stores, joins⟩ := joins_of_build built
  obtain ⟨bareToo, stored, storesToo⟩ := (storable.perm sameNodes).yields
  have joinable := joins.joinable.mono fun connection => (sameConnections.mem_iff (a := connection)).mpr
  obtain ⟨graphToo, builtToo, _⟩ :=
    (joinable.of_nodes (stores.node?_eq storesToo sameNodes)).build_yields stored
  exact ⟨graphToo, builtToo⟩

/-- Graphs assembled from the same nodes and the same connections of every outlet are alike. -/
theorem alike_of_build (sameFans : ∀ outlet : Endpoint,
      connections.filter (fun connection => connection.source = outlet) =
        connectionsToo.filter fun connection => connection.source = outlet)
    (unambiguous : Text.Unambiguous (listedIds nodes))
    (built : build nodes connections = .ok graph) {graphToo : Graph}
    (builtToo : build nodesToo connectionsToo = .ok graphToo) (single : graph.SingleSourced) :
    graph.Alike graphToo := by
  obtain ⟨bare, _, stores, joins⟩ := joins_of_build built
  obtain ⟨bareToo, _, storesToo, joinsToo⟩ := joins_of_build builtToo
  have order : Text.SameOrder graph.ids graphToo.ids := by
    rw [joins.ids, joinsToo.ids, stores.ids, storesToo.ids]
    exact Text.sameOrder_of_perm unambiguous (sameNodes.filterMap _)
  exact joins.alike joinsToo (stores.node?_eq storesToo sameNodes) order sameConnections sameFans single

end

end Patchbay.Graph
