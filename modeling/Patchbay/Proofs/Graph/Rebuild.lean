import Patchbay.Proofs.Graph.Connections

namespace Patchbay

/-! Graphs that are built again from their own nodes and connections.

The list of all connections names those of one outlet in the order in which they are recorded, but it goes
from outlet to outlet.  Building from it gives every outlet its record back, and every inlet the sources that
it had, in the order in which the list happens to name them.
-/

theorem eraseDups_of_nodup {α : Type u} [DecidableEq α] {items : List α} (distinct : items.Nodup) :
    items.eraseDups = items := by
  induction items with
  | nil => rfl
  | cons first rest ih =>
      obtain ⟨fresh, later⟩ := List.nodup_cons.mp distinct
      have others : rest.filter (fun other => !other == first) = rest := by
        refine List.filter_eq_self.mpr fun other member => ?_
        simpa using fun same : other = first => fresh (same ▸ member)
      rw [List.eraseDups_cons, others, ih later]

namespace Endpoints

/-- Entries that are never empty are related when what can be read of them is. -/
theorem rel_of_getD {related : List Endpoint → List Endpoint → Prop} {entry other : Option (List Endpoint)}
    (lengths : ∀ {left right}, related left right → (left = [] ↔ right = []))
    (busy : entry ≠ some []) (busyToo : other ≠ some []) (held : related (entry.getD []) (other.getD [])) :
    Option.Rel related entry other := by
  cases entry with
  | none =>
      cases other with
      | none => exact .none
      | some right => exact absurd (congrArg some ((lengths held).mp rfl)) busyToo
  | some left =>
      cases other with
      | none => exact absurd (congrArg some ((lengths held).mpr rfl)) busy
      | some right => exact .some held

end Endpoints

namespace Graph

variable {graph other : Graph} {nodes : List (Option Node)} {joined : List Connection} {id : String}
  {node : Node} {outlet inlet : Endpoint}

theorem Alike.connections (alike : graph.Alike other) : graph.connections = other.connections := by
  rw [connections_eq, connections_eq, alike.sortedIds]
  refine List.flatMap_congr fun id _ => ?_
  refine alike.option_congr (fun slot => (slot.map fun node => node.outlets.flatMap fun outlet =>
    (node.sinksOf outlet.id).map fun sink => (⟨⟨id, outlet.id⟩, sink⟩ : Connection)).getD []) ?_ id
  intro node twin held
  have outlets : node.outlets = twin.outlets := held.blind Node.outlets fun _ => rfl
  simp only [Option.map_some, Option.getD_some, outlets, held.sinks]

namespace Consistent

variable (consistent : graph.Consistent)

include consistent

theorem recordedSinks?_ne : graph.recordedSinks? outlet ≠ some [] := by
  intro recorded
  obtain ⟨node, found, entry⟩ := Option.bind_eq_some_iff.mp recorded
  exact (consistent.noneIdle found).2 entry rfl

theorem recordedSources?_ne : graph.recordedSources? inlet ≠ some [] := by
  intro recorded
  obtain ⟨node, found, entry⟩ := Option.bind_eq_some_iff.mp recorded
  exact (consistent.noneIdle found).1 entry rfl

theorem recordedSinks?_congr (consistentToo : other.Consistent)
    (same : graph.sinksAt outlet = other.sinksAt outlet) :
    graph.recordedSinks? outlet = other.recordedSinks? outlet := by
  rw [sinksAt_eq_getD, sinksAt_eq_getD] at same
  have related : Option.Rel Eq (graph.recordedSinks? outlet) (other.recordedSinks? outlet) :=
    Endpoints.rel_of_getD (fun equal => equal ▸ Iff.rfl) consistent.recordedSinks?_ne
      consistentToo.recordedSinks?_ne same
  generalize graph.recordedSinks? outlet = entry at *
  generalize other.recordedSinks? outlet = entryToo at *
  cases related with
  | none => rfl
  | some equal => exact congrArg some equal

theorem recordedSources?_perm (consistentToo : other.Consistent)
    (same : (graph.sourcesAt inlet).Perm (other.sourcesAt inlet)) :
    Option.Rel List.Perm (graph.recordedSources? inlet) (other.recordedSources? inlet) := by
  rw [sourcesAt_eq_getD, sourcesAt_eq_getD] at same
  refine Endpoints.rel_of_getD (fun {left right} perm => ?_) consistent.recordedSources?_ne
    consistentToo.recordedSources?_ne same
  rw [← List.length_eq_zero_iff, ← List.length_eq_zero_iff, perm.length_eq]

/-- Where the two records of connections agree, a node fits as soon as its portlets are in order. -/
theorem fitsIn (found : graph.node? id = some node) (inletsDistinct : (node.inlets.map Portlet.id).Nodup)
    (outletsDistinct : (node.outlets.map Portlet.id).Nodup)
    (inletsTyped : ∀ inlet ∈ node.inlets, inlet.type = .signal ∨ inlet.type = .message)
    (outletsTyped : ∀ outlet ∈ node.outlets, outlet.type = .signal ∨ outlet.type = .message) :
    node.FitsIn graph id where
  ownId := (consistent.ownId found).1
  inletsDistinct
  outletsDistinct
  inletsTyped
  outletsTyped
  sources inletId bound := by
    obtain ⟨endpoints, entry⟩ := Table.mem_keys_iff.mp bound
    have listed : node.sourcesOf inletId = endpoints := by
      rw [Node.sourcesOf, Table.getD, entry, Option.getD_some]
    have own : graph.sourcesAt ⟨id, inletId⟩ = endpoints := (sourcesAt_eq found).trans listed
    have fed : ∀ source ∈ endpoints, source ∈ graph.sourcesAt ⟨id, inletId⟩ := fun _ member => own ▸ member
    obtain ⟨first, isFirst⟩ := List.exists_mem_of_ne_nil _ ((consistent.noneIdle found).1 entry)
    obtain ⟨_, inlet, _, atSink, _⟩ := consistent.typed (.inr (fed first isFirst))
    have isInlet : node.inlet? inletId = some inlet := by
      obtain ⟨stored, storedFound, isOwn⟩ := inletAt?_eq_some_iff.mp atSink
      cases found.symm.trans storedFound
      exact isOwn
    rw [listed]
    refine ⟨inlet, isInlet, fun signal => own ▸ consistent.single atSink signal, fun source member => ?_⟩
    obtain ⟨outlet, again, atSource, isInletToo, sameTypes⟩ := consistent.typed (.inr (fed source member))
    cases atSink.symm.trans isInletToo
    exact ⟨outlet, atSource, sameTypes, consistent.mem_sinksAt_iff.mpr (fed source member)⟩
  sinks outletId bound := by
    obtain ⟨endpoints, entry⟩ := Table.mem_keys_iff.mp bound
    have listed : node.sinksOf outletId = endpoints := by
      rw [Node.sinksOf, Table.getD, entry, Option.getD_some]
    have own : graph.sinksAt ⟨id, outletId⟩ = endpoints := (sinksAt_eq found).trans listed
    have feeding : ∀ sink ∈ endpoints, sink ∈ graph.sinksAt ⟨id, outletId⟩ := fun _ member => own ▸ member
    obtain ⟨first, isFirst⟩ := List.exists_mem_of_ne_nil _ ((consistent.noneIdle found).2 entry)
    obtain ⟨outlet, _, atSource, _, _⟩ := consistent.typed (.inl (feeding first isFirst))
    have isOutlet : node.outlet? outletId = some outlet := by
      obtain ⟨stored, storedFound, isOwn⟩ := outletAt?_eq_some_iff.mp atSource
      cases found.symm.trans storedFound
      exact isOwn
    rw [listed]
    refine ⟨outlet, isOutlet, fun sink member => ?_⟩
    obtain ⟨_, inlet, _, atSink, _⟩ := consistent.typed (.inl (feeding sink member))
    exact ⟨inlet, atSink, consistent.mem_sinksAt_iff.mp (feeding sink member)⟩

end Consistent

/-- A graph whose two records agree is as well-formed as one that it shares its nodes with. -/
theorem WellFormed.of_alike (wellFormed : graph.WellFormed) (alike : graph.Alike other)
    (consistent : other.Consistent) : other.WellFormed where
  filled := consistent.filled
  fits {id twin} foundToo := by
    obtain ⟨node, found⟩ := alike.known_iff.mpr ⟨twin, foundToo⟩
    obtain ⟨again, foundAgain, held⟩ := (alike.nodes id).of_some found
    cases foundToo.symm.trans foundAgain
    have fits := wellFormed.fits found
    have inlets : node.inlets = twin.inlets := held.inlets
    have outlets : node.outlets = twin.outlets := held.blind Node.outlets fun _ => rfl
    exact consistent.fitsIn foundToo (inlets ▸ fits.inletsDistinct) (outlets ▸ fits.outletsDistinct)
      (inlets ▸ fits.inletsTyped) (outlets ▸ fits.outletsTyped)

/-! ## The nodes of a graph -/

/-- The graph without its connections. -/
def isolated (graph : Graph) : Graph := ⟨graph.slots.map fun _ slot => slot.map Node.isolated⟩

theorem node?_isolated : graph.isolated.node? id = (graph.node? id).map Node.isolated := by
  unfold isolated node?
  rw [Table.get?_map]
  rcases graph.slots.get? id with _ | _ | _ <;> rfl

theorem ids_isolated : graph.isolated.ids = graph.ids := Table.keys_map ..

/-- Building drops what nodes record of connections, so it may be dropped before. -/
theorem build_isolated : build (nodes.map (Option.map Node.isolated)) joined = build nodes joined := by
  unfold build
  rw [List.foldlM_map]
  simp only [Option.map_map]
  rfl

namespace Consistent

variable (consistent : graph.Consistent)

include consistent

theorem slot_iff {slot : Option Node} :
    graph.slots.get? id = some slot ↔ ∃ node, graph.node? id = some node ∧ slot = some node := by
  constructor
  · intro stored
    obtain ⟨node, found⟩ := consistent.filled id (mem_ids_iff.mpr ⟨slot, stored⟩)
    refine ⟨node, found, ?_⟩
    unfold node? at found
    rw [stored] at found
    exact found
  · rintro ⟨node, found, rfl⟩
    exact Option.join_eq_some_iff.mp found

theorem mem_values_iff : some node ∈ graph.slots.values ↔ graph.node? node.id = some node := by
  rw [Table.mem_values_iff]
  simp only [consistent.slot_iff]
  constructor
  · rintro ⟨id, stored, found, same⟩
    cases same
    rwa [(consistent.ownId found).1]
  · exact fun found => ⟨node.id, node, found, rfl⟩

theorem listedIds_values : listedIds graph.slots.values = graph.ids := by
  unfold listedIds ids Table.values Table.keys
  rw [List.filterMap_map, ← List.filterMap_eq_map]
  refine List.filterMap_congr fun entry member => ?_
  obtain ⟨node, found, filled⟩ := consistent.slot_iff.mp (Table.mem_entries_iff.mp member)
  rw [Function.comp_apply, Function.comp_apply, filled, Option.map_some, (consistent.ownId found).1]

theorem storable : Storable graph.slots.values where
  named candidate member := by
    obtain ⟨id, stored⟩ := Table.mem_values_iff.mp member
    obtain ⟨node, found, rfl⟩ := consistent.slot_iff.mp stored
    obtain ⟨own, named⟩ := consistent.ownId found
    exact ⟨node, rfl, own ▸ named⟩
  distinct := by
    rw [consistent.listedIds_values]
    exact graph.slots.distinct

theorem stores : Stores graph.slots.values graph.isolated where
  ids := ids_isolated.trans consistent.listedIds_values.symm
  node?_iff id node := by
    rw [node?_isolated, Option.map_eq_some_iff]
    simp only [consistent.mem_values_iff]
    constructor
    · rintro ⟨own, found, rfl⟩
      obtain ⟨ownId, _⟩ := consistent.ownId found
      exact ⟨own, ownId.symm ▸ found, ownId, rfl⟩
    · rintro ⟨own, found, rfl, rfl⟩
      exact ⟨own, found, rfl⟩

/-- The nodes of a graph are joined by its connections. -/
theorem joins (distinct : graph.OutletsDistinct) : Joins graph.isolated graph.connections graph where
  consistent
  ids := ids_isolated.symm
  nodes id := by
    rw [node?_isolated, Option.map_map]
    rfl
  sinksAt source := by
    unfold sinksFrom
    rw [consistent.filter_connections distinct, List.map_map]
    change _ = (List.map id _).eraseDups
    rw [List.map_id, eraseDups_of_nodup consistent.nodup_sinksAt]

end Consistent

/-- A graph with the same nodes, the same records at all outlets, and at every inlet the same sources in any
order. -/
structure Rebuilds (graph rebuilt : Graph) : Prop where
  ids : rebuilt.ids.Perm graph.ids
  nodes : ∀ id, (rebuilt.node? id).map Node.isolated = (graph.node? id).map Node.isolated
  sinks : ∀ outlet, rebuilt.recordedSinks? outlet = graph.recordedSinks? outlet
  sources : ∀ inlet, Option.Rel List.Perm (rebuilt.recordedSources? inlet) (graph.recordedSources? inlet)
  connections : rebuilt.connections = graph.connections

/-- The nodes and the connections that a graph lists are built to a graph that is alike. -/
theorem Consistent.rebuild (consistent : graph.Consistent) (wellFormed : graph.WellFormed)
    (unambiguous : Text.Unambiguous graph.ids) (listed : nodes.Perm graph.slots.values) :
    ∃ rebuilt, build nodes graph.connections = .ok rebuilt ∧ rebuilt.Consistent ∧ graph.Alike rebuilt ∧
      graph.Rebuilds rebuilt := by
  have joins := consistent.joins wellFormed.outletsDistinct
  obtain ⟨bare, stored, stores⟩ := (consistent.storable.perm listed.symm).yields
  have sameSlots : graph.isolated.node? = bare.node? := consistent.stores.node?_eq stores listed.symm
  obtain ⟨rebuilt, built, _⟩ := (joins.joinable.of_nodes sameSlots).build_yields stored
  obtain ⟨bareToo, _, storesToo, joinsToo⟩ := joins_of_build built
  have sameSlotsToo : graph.isolated.node? = bareToo.node? := consistent.stores.node?_eq storesToo listed.symm
  have sameIds : graph.ids.Perm rebuilt.ids := by
    rw [joinsToo.ids, storesToo.ids, ← consistent.listedIds_values]
    exact (listed.filterMap _).symm
  have alike : graph.Alike rebuilt := joins.alike joinsToo sameSlotsToo
    (Text.sameOrder_of_perm unambiguous sameIds) (.refl _) (fun _ => rfl) wellFormed.singleSourced
  refine ⟨rebuilt, built, joinsToo.consistent, alike, sameIds.symm, fun id => ?_, fun outlet => ?_,
    fun inlet => ?_, alike.connections.symm⟩
  · rw [joinsToo.nodes, ← sameSlotsToo, ← joins.nodes]
  · refine joinsToo.consistent.recordedSinks?_congr consistent ?_
    rw [joinsToo.sinksAt, joins.sinksAt]
  · refine joinsToo.consistent.recordedSources?_perm consistent ?_
    refine (List.perm_ext_iff_of_nodup joinsToo.consistent.nodup_sourcesAt
      consistent.nodup_sourcesAt).mpr fun source => ?_
    rw [joinsToo.mem_sourcesAt_iff, joins.mem_sourcesAt_iff]

end Graph

end Patchbay
