import Mathlib.Data.List.Nodup
import Patchbay.Proofs.Graph.Edit

namespace Patchbay

/-! The two records of a connection over whole histories of a graph.

`Graph.Consistent` is what every operation on graphs relies on and keeps: a connection stands at its
source as often as at its sink, which is at most once, and its ends are portlets of one type.  Each
operation is described by how often an endpoint stands in the lists that it leaves behind, so that
both records are seen to change alike, also where a node feeds itself.
-/

namespace Endpoints

variable {table : Table (List Endpoint)} {portlet key : String} {endpoint : Endpoint}
  {allowed : List String}

/-- Whether a portlet is only listed when something is connected to it. -/
def NoneIdle (table : Table (List Endpoint)) : Prop :=
  ∀ {key endpoints}, table.get? key = some endpoints → endpoints ≠ []

theorem noneIdle_empty : NoneIdle ∅ := by
  intro key endpoints found
  cases found

theorem NoneIdle.add (busy : NoneIdle table) : NoneIdle (add table portlet endpoint) := by
  intro key endpoints found
  unfold Endpoints.add at found
  rw [Table.get?_set] at found
  split at found
  · cases found
    simp
  · exact busy found

theorem NoneIdle.remove (busy : NoneIdle table) : NoneIdle (remove table portlet endpoint) := by
  intro key endpoints found
  unfold Endpoints.remove at found
  dsimp only at found
  split at found
  · unfold Table.erase at found
    rw [Table.get?_filter, Option.filter_eq_some_iff] at found
    exact busy found.1
  · next left =>
    rw [Table.get?_set] at found
    split at found
    · cases found
      simpa using left
    · exact busy found

theorem noneIdle_restrict : NoneIdle (restrict allowed table) := by
  intro key endpoints found
  unfold restrict at found
  rw [Table.get?_filter, Option.filter_eq_some_iff] at found
  simpa using found.2

theorem getD_remove : (remove table portlet endpoint).getD key [] =
    if key = portlet then (table.getD key []).filter (· ≠ endpoint) else table.getD key [] := by
  unfold remove
  by_cases same : key = portlet
  · subst same
    rw [if_pos rfl]
    dsimp only
    split
    · next left =>
      rw [List.isEmpty_iff.mp left]
      simp [Table.erase, Table.getD, Option.filter_eq_none_iff.mpr]
    · simp [Table.getD, Table.get?_set]
  · rw [if_neg same]
    dsimp only
    split
    · unfold Table.erase Table.getD
      rw [Table.get?_filter]
      have passed : (key != portlet) = true := bne_iff_ne.mpr same
      cases table.get? key with
      | none => rfl
      | some endpoints => rw [Option.filter_some, if_pos passed]
    · simp [Table.getD, Table.get?_set, same]

end Endpoints

namespace Graph

variable {graph : Graph} {id : String} {node : Node} {source sink portlet other : Endpoint}

/-- The two records of all connections agree, and what they name is there. -/
structure Consistent (graph : Graph) : Prop where
  filled : ∀ id ∈ graph.ids, ∃ node, graph.node? id = some node
  ownId : ∀ {id node}, graph.node? id = some node → node.id = id ∧ id ≠ ""
  mirrored : ∀ source sink,
    (graph.sinksAt source).count sink = (graph.sourcesAt sink).count source
  once : ∀ source sink, (graph.sinksAt source).count sink ≤ 1
  typed : ∀ {source sink}, sink ∈ graph.sinksAt source ∨ source ∈ graph.sourcesAt sink →
    ∃ outlet inlet, graph.outletAt? source = some outlet ∧ graph.inletAt? sink = some inlet ∧
      outlet.type = inlet.type
  single : ∀ {sink inlet}, graph.inletAt? sink = some inlet → inlet.type = .signal →
    (graph.sourcesAt sink).length ≤ 1
  noneIdle : ∀ {id node}, graph.node? id = some node →
    Endpoints.NoneIdle node.sources ∧ Endpoints.NoneIdle node.sinks

theorem Consistent.mem_sinksAt_iff (consistent : graph.Consistent) :
    sink ∈ graph.sinksAt source ↔ source ∈ graph.sourcesAt sink := by
  rw [← List.count_pos_iff, consistent.mirrored, List.count_pos_iff]

theorem Consistent.nodup_sinksAt (consistent : graph.Consistent) : (graph.sinksAt source).Nodup :=
  List.nodup_iff_count_le_one.mpr (consistent.once source)

/-- The type of a connection needs to be checked at one of its records only. -/
theorem typed_of_mirrored
    (mirrored : (graph.sinksAt source).count sink = (graph.sourcesAt sink).count source)
    (typed : sink ∈ graph.sinksAt source → ∃ outlet inlet, graph.outletAt? source = some outlet ∧
      graph.inletAt? sink = some inlet ∧ outlet.type = inlet.type)
    (recorded : sink ∈ graph.sinksAt source ∨ source ∈ graph.sourcesAt sink) :
    ∃ outlet inlet, graph.outletAt? source = some outlet ∧ graph.inletAt? sink = some inlet ∧
      outlet.type = inlet.type := by
  refine typed (recorded.elim (fun member => member) fun member => ?_)
  rwa [← List.count_pos_iff, mirrored, List.count_pos_iff]

theorem consistent_empty : empty.Consistent where
  filled id member := by cases member
  ownId found := by cases found
  mirrored _ _ := rfl
  once _ _ := Nat.zero_le 1
  typed recorded := by rcases recorded with member | member <;> cases member
  single _ _ := Nat.zero_le 1
  noneIdle found := by cases found

/-! ## Adding a node -/

theorem node?_eq_none (fresh : id ∉ graph.ids) : graph.node? id = none := by
  cases found : graph.node? id with
  | none => rfl
  | some stored => exact absurd (mem_ids_of_node? found) fresh

theorem sinksAt_set (bare : node.sinks = ∅) (fresh : id ∉ graph.ids) :
    (⟨graph.slots.set id (some node)⟩ : Graph).sinksAt = graph.sinksAt := by
  funext portlet
  unfold sinksAt
  rw [node?_set]
  split
  · next same =>
    rw [same, node?_eq_none fresh]
    simp [Node.sinksOf, bare, Table.getD]
  · rfl

theorem sourcesAt_set (bare : node.sources = ∅) (fresh : id ∉ graph.ids) :
    (⟨graph.slots.set id (some node)⟩ : Graph).sourcesAt = graph.sourcesAt := by
  funext portlet
  unfold sourcesAt
  rw [node?_set]
  split
  · next same =>
    rw [same, node?_eq_none fresh]
    simp [Node.sourcesOf, bare, Table.getD]
  · rfl

theorem Consistent.add (consistent : graph.Consistent) (noSources : node.sources = ∅)
    (noSinks : node.sinks = ∅) {added : Graph} (success : graph.add (some node) = .ok added) :
    added.Consistent := by
  obtain ⟨named, fresh, rfl⟩ := add_eq_ok_iff.mp success
  have sinks := sinksAt_set noSinks fresh
  have sources := sourcesAt_set noSources fresh
  refine ⟨filled_set consistent.filled fresh, ?_, ?_, ?_, ?_, ?_, ?_⟩
  · intro id stored found
    rw [node?_set] at found
    split at found
    · next same =>
      cases found
      exact ⟨same.symm, same ▸ named⟩
    · exact consistent.ownId found
  · rw [sinks, sources]
    exact consistent.mirrored
  · rw [sinks]
    exact consistent.once
  · rw [sinks, sources]
    intro source sink recorded
    obtain ⟨outlet, inlet, atSource, atSink, sameType⟩ := consistent.typed recorded
    obtain ⟨sourceNode, sourceFound, ownOutlet⟩ := outletAt?_eq_some_iff.mp atSource
    obtain ⟨sinkNode, sinkFound, ownInlet⟩ := inletAt?_eq_some_iff.mp atSink
    exact ⟨outlet, inlet,
      outletAt?_eq_some_iff.mpr ⟨_, node?_set_of_fresh fresh sourceFound, ownOutlet⟩,
      inletAt?_eq_some_iff.mpr ⟨_, node?_set_of_fresh fresh sinkFound, ownInlet⟩, sameType⟩
  · rw [sources]
    intro sink inlet atSink signal
    obtain ⟨sinkNode, sinkFound, ownInlet⟩ := inletAt?_eq_some_iff.mp atSink
    rw [node?_set] at sinkFound
    split at sinkFound
    · next same =>
      simp [sourcesAt, same, node?_eq_none fresh]
    · exact consistent.single (inletAt?_eq_some_iff.mpr ⟨_, sinkFound, ownInlet⟩) signal
  · intro id stored found
    rw [node?_set] at found
    split at found
    · cases found
      rw [noSources, noSinks]
      exact ⟨Endpoints.noneIdle_empty, Endpoints.noneIdle_empty⟩
    · exact consistent.noneIdle found

/-! ## Connecting two portlets -/

theorem ids_link : (graph.link source sink).ids = graph.ids := by
  unfold ids link modifyNode
  rw [Table.keys_modify, Table.keys_modify]

theorem count_sinksAt_link (found : graph.node? source.node = some node) :
    ((graph.link source sink).sinksAt portlet).count other =
      (graph.sinksAt portlet).count other + if portlet = source ∧ other = sink then 1 else 0 := by
  unfold sinksAt
  rw [node?_link]
  cases stored : graph.node? portlet.node with
  | none =>
      have apart : portlet ≠ source := by
        rintro rfl
        rw [stored] at found
        cases found
      simp [apart]
  | some storedNode =>
      simp only [Option.map_some, Option.getD_some, sinksOf_linkNode, List.count_append]
      by_cases atSource : portlet = source <;> by_cases isSink : sink = other <;>
        simp [atSource, isSink, eq_comm]

theorem count_sourcesAt_link (found : graph.node? sink.node = some node) :
    ((graph.link source sink).sourcesAt portlet).count other =
      (graph.sourcesAt portlet).count other + if portlet = sink ∧ other = source then 1 else 0 := by
  unfold sourcesAt
  rw [node?_link]
  cases stored : graph.node? portlet.node with
  | none =>
      have apart : portlet ≠ sink := by
        rintro rfl
        rw [stored] at found
        cases found
      simp [apart]
  | some storedNode =>
      simp only [Option.map_some, Option.getD_some, sourcesOf_linkNode, List.count_append]
      by_cases atSink : portlet = sink <;> by_cases isSource : source = other <;>
        simp [atSink, isSource, eq_comm]

theorem Consistent.link (consistent : graph.Consistent)
    (connectable : graph.Connectable source sink) : (graph.link source sink).Consistent := by
  obtain ⟨newOutlet, newInlet, atSource, atSink, sameTypes, free⟩ := connectable.portlets
  obtain ⟨sourceNode, sourceFound, _⟩ := outletAt?_eq_some_iff.mp atSource
  obtain ⟨sinkNode, sinkFound, _⟩ := inletAt?_eq_some_iff.mp atSink
  have mirrored : ∀ portlet other, ((graph.link source sink).sinksAt portlet).count other =
      ((graph.link source sink).sourcesAt other).count portlet := by
    intro portlet other
    rw [count_sinksAt_link sourceFound, count_sourcesAt_link sinkFound, consistent.mirrored]
    simp only [and_comm]
  refine ⟨?_, ?_, mirrored, ?_, ?_, ?_, ?_⟩
  · intro id member
    rw [ids_link] at member
    obtain ⟨node, found⟩ := consistent.filled id member
    exact ⟨_, by rw [node?_link, found]; rfl⟩
  · intro id node found
    rw [node?_link] at found
    obtain ⟨original, originalFound, rfl⟩ := Option.map_eq_some_iff.mp found
    obtain ⟨own, named⟩ := consistent.ownId originalFound
    exact ⟨own, named⟩
  · intro portlet other
    rw [count_sinksAt_link sourceFound]
    split
    · next isNew =>
      obtain ⟨rfl, rfl⟩ := isNew
      refine Nat.le_of_eq ?_
      rw [consistent.mirrored, List.count_eq_zero.mpr connectable.unrecorded]
    · exact consistent.once portlet other
  · intro portlet other recorded
    refine typed_of_mirrored (mirrored portlet other) (fun member => ?_) recorded
    rw [outletAt?_link, inletAt?_link]
    rw [← List.count_pos_iff, count_sinksAt_link sourceFound] at member
    split at member
    · next isNew =>
      obtain ⟨rfl, rfl⟩ := isNew
      exact ⟨newOutlet, newInlet, atSource, atSink, sameTypes⟩
    · exact consistent.typed (.inl (List.count_pos_iff.mp member))
  · intro portlet inlet found signal
    rw [inletAt?_link] at found
    obtain ⟨node, stored, _⟩ := inletAt?_eq_some_iff.mp found
    have before := consistent.single found signal
    rw [sourcesAt_eq stored] at before
    have linked : (graph.link source sink).node? portlet.node =
        some (linkNode source sink portlet.node node) := by
      rw [node?_link, stored]
      rfl
    rw [sourcesAt_eq linked, sourcesOf_linkNode]
    split
    · next isSink =>
      change portlet = sink at isSink
      subst isSink
      rw [atSink] at found
      cases found
      have none : node.sourcesOf portlet.portlet = [] := by
        rw [← sourcesAt_eq stored]
        exact free signal
      simp [none]
    · simpa using before
  · intro id node found
    rw [node?_link] at found
    obtain ⟨original, originalFound, rfl⟩ := Option.map_eq_some_iff.mp found
    obtain ⟨sources, sinks⟩ := consistent.noneIdle originalFound
    unfold linkNode
    refine ⟨?_, ?_⟩
    · dsimp only
      split
      · exact sources.add
      · exact sources
    · dsimp only
      split
      · exact sinks.add
      · exact sinks

theorem Consistent.connect (consistent : graph.Consistent) {connected : Graph}
    (success : graph.connect source sink = .ok connected) : connected.Consistent := by
  rcases connect_eq_ok success with rfl | ⟨connectable, rfl⟩
  · exact consistent
  · exact consistent.link connectable

/-! ## Removing a connection -/

/-- A node without its record of a connection, where it is an end of it. -/
def unlinkNode (source sink : Endpoint) (id : String) (node : Node) : Node :=
  { node with
    sinks := if id = source.node then Endpoints.remove node.sinks source.portlet sink
      else node.sinks
    sources := if id = sink.node then Endpoints.remove node.sources sink.portlet source
      else node.sources }

/-- The graph that is left when a connection is removed. -/
def unlink (graph : Graph) (source sink : Endpoint) : Graph :=
  (graph.modifyNode source.node fun node =>
      { node with sinks := Endpoints.remove node.sinks source.portlet sink })
    |>.modifyNode sink.node fun node =>
      { node with sources := Endpoints.remove node.sources sink.portlet source }

theorem disconnect_eq_ok {left : Graph} (success : graph.disconnect source sink = .ok left) :
    left = graph.unlink source sink := by
  unfold disconnect at success
  obtain ⟨_, _, success⟩ := Outcome.bind_eq_ok_iff.mp success
  obtain ⟨_, _, success⟩ := Outcome.bind_eq_ok_iff.mp success
  cases success
  rfl

theorem node?_unlink : (graph.unlink source sink).node? id =
    (graph.node? id).map (unlinkNode source sink id) := by
  unfold unlink
  rw [node?_modifyNode, node?_modifyNode]
  cases graph.node? id with
  | none => simp
  | some node =>
      by_cases atSink : id = sink.node <;> by_cases atSource : id = source.node
      · simp [unlinkNode, ← atSink, ← atSource]
      · simp [unlinkNode, ← atSink, atSource]
      · simp [unlinkNode, atSink, ← atSource]
      · simp [unlinkNode, atSink, atSource]

theorem ids_unlink : (graph.unlink source sink).ids = graph.ids := by
  unfold ids unlink modifyNode
  rw [Table.keys_modify, Table.keys_modify]

theorem outletAt?_unlink : (graph.unlink source sink).outletAt? = graph.outletAt? := by
  funext portlet
  unfold outletAt?
  rw [node?_unlink]
  cases graph.node? portlet.node <;> rfl

theorem inletAt?_unlink : (graph.unlink source sink).inletAt? = graph.inletAt? := by
  funext portlet
  unfold inletAt?
  rw [node?_unlink]
  cases graph.node? portlet.node <;> rfl

theorem sinksAt_unlink : (graph.unlink source sink).sinksAt portlet =
    if portlet = source then (graph.sinksAt portlet).filter (· ≠ sink)
    else graph.sinksAt portlet := by
  unfold sinksAt
  rw [node?_unlink]
  obtain ⟨sourceId, sourcePortlet⟩ := source
  obtain ⟨portletId, portletName⟩ := portlet
  cases graph.node? portletId with
  | none => simp
  | some node =>
      by_cases atNode : portletId = sourceId
      · simp [unlinkNode, Node.sinksOf, atNode, Endpoints.getD_remove]
      · simp [unlinkNode, Node.sinksOf, atNode]

theorem sourcesAt_unlink : (graph.unlink source sink).sourcesAt portlet =
    if portlet = sink then (graph.sourcesAt portlet).filter (· ≠ source)
    else graph.sourcesAt portlet := by
  unfold sourcesAt
  rw [node?_unlink]
  obtain ⟨sinkId, sinkPortlet⟩ := sink
  obtain ⟨portletId, portletName⟩ := portlet
  cases graph.node? portletId with
  | none => simp
  | some node =>
      by_cases atNode : portletId = sinkId
      · simp [unlinkNode, Node.sourcesOf, atNode, Endpoints.getD_remove]
      · simp [unlinkNode, Node.sourcesOf, atNode]

theorem count_filter_ne {endpoints : List Endpoint} {removed : Endpoint} :
    (endpoints.filter (· ≠ removed)).count other =
      if other = removed then 0 else endpoints.count other := by
  split
  · next same => simp [same, List.count_eq_zero]
  · next apart => exact List.count_filter (by simpa using apart)

theorem Consistent.unlink (consistent : graph.Consistent) :
    (graph.unlink source sink).Consistent := by
  have mirrored : ∀ portlet other, ((graph.unlink source sink).sinksAt portlet).count other =
      ((graph.unlink source sink).sourcesAt other).count portlet := by
    intro portlet other
    rw [sinksAt_unlink, sourcesAt_unlink]
    by_cases atSource : portlet = source <;> by_cases atSink : other = sink <;>
      simp only [atSource, atSink, if_true, if_false, count_filter_ne, consistent.mirrored]
  have fewer : ∀ portlet, ((graph.unlink source sink).sinksAt portlet).Sublist
      (graph.sinksAt portlet) := by
    intro portlet
    rw [sinksAt_unlink]
    split
    · exact List.filter_sublist
    · exact .refl _
  refine ⟨?_, ?_, mirrored, ?_, ?_, ?_, ?_⟩
  · intro id member
    rw [ids_unlink] at member
    obtain ⟨node, found⟩ := consistent.filled id member
    exact ⟨_, by rw [node?_unlink, found]; rfl⟩
  · intro id node found
    rw [node?_unlink] at found
    obtain ⟨original, originalFound, rfl⟩ := Option.map_eq_some_iff.mp found
    obtain ⟨own, named⟩ := consistent.ownId originalFound
    exact ⟨own, named⟩
  · intro portlet other
    exact Nat.le_trans ((fewer portlet).count_le other) (consistent.once portlet other)
  · intro portlet other recorded
    refine typed_of_mirrored (mirrored portlet other) (fun member => ?_) recorded
    rw [outletAt?_unlink, inletAt?_unlink]
    exact consistent.typed (.inl ((fewer portlet).subset member))
  · intro portlet inlet found signal
    rw [inletAt?_unlink] at found
    have before := consistent.single found signal
    rw [sourcesAt_unlink]
    split
    · exact Nat.le_trans (List.length_filter_le ..) before
    · exact before
  · intro id node found
    rw [node?_unlink] at found
    obtain ⟨original, originalFound, rfl⟩ := Option.map_eq_some_iff.mp found
    obtain ⟨sources, sinks⟩ := consistent.noneIdle originalFound
    unfold unlinkNode
    refine ⟨?_, ?_⟩
    · dsimp only
      split
      · exact sources.remove
      · exact sources
    · dsimp only
      split
      · exact sinks.remove
      · exact sinks

/-! ## Taking nodes away -/

theorem sinksAt_trim {keep : List String} : (graph.trim keep).sinksAt portlet =
    if portlet.node ∈ keep then
      (graph.sinksAt portlet).filter fun endpoint => keep.contains endpoint.node
    else [] := by
  unfold sinksAt
  rw [node?_trim]
  split
  · cases graph.node? portlet.node with
    | none => rfl
    | some node => exact Endpoints.getD_restrict
  · rfl

theorem sourcesAt_trim {keep : List String} : (graph.trim keep).sourcesAt portlet =
    if portlet.node ∈ keep then
      (graph.sourcesAt portlet).filter fun endpoint => keep.contains endpoint.node
    else [] := by
  unfold sourcesAt
  rw [node?_trim]
  split
  · cases graph.node? portlet.node with
    | none => rfl
    | some node => exact Endpoints.getD_restrict
  · rfl

theorem outletAt?_trim {keep : List String} : (graph.trim keep).outletAt? portlet =
    if portlet.node ∈ keep then graph.outletAt? portlet else none := by
  unfold outletAt?
  rw [node?_trim]
  split
  · cases graph.node? portlet.node <;> rfl
  · rfl

theorem inletAt?_trim {keep : List String} : (graph.trim keep).inletAt? portlet =
    if portlet.node ∈ keep then graph.inletAt? portlet else none := by
  unfold inletAt?
  rw [node?_trim]
  split
  · cases graph.node? portlet.node <;> rfl
  · rfl

theorem count_filter_kept {keep : List String} {endpoints : List Endpoint} :
    (endpoints.filter fun endpoint => keep.contains endpoint.node).count other =
      if other.node ∈ keep then endpoints.count other else 0 := by
  split
  · next kept => exact List.count_filter (by simpa using kept)
  · next dropped => simp [List.count_eq_zero, dropped]

theorem Consistent.trim (consistent : graph.Consistent) (keep : List String) :
    (graph.trim keep).Consistent := by
  have mirrored : ∀ portlet other, ((graph.trim keep).sinksAt portlet).count other =
      ((graph.trim keep).sourcesAt other).count portlet := by
    intro portlet other
    rw [sinksAt_trim, sourcesAt_trim]
    by_cases sourceKept : portlet.node ∈ keep <;> by_cases sinkKept : other.node ∈ keep <;>
      simp only [sourceKept, sinkKept, if_true, if_false, count_filter_kept, List.count_nil,
        consistent.mirrored]
  refine ⟨?_, ?_, mirrored, ?_, ?_, ?_, ?_⟩
  · intro id member
    obtain ⟨kept, stored⟩ := mem_ids_trim member
    obtain ⟨node, found⟩ := consistent.filled id stored
    exact ⟨restrictNode keep node, by rw [node?_trim, if_pos kept, found]; rfl⟩
  · intro id node found
    rw [node?_trim] at found
    split at found
    · obtain ⟨original, originalFound, rfl⟩ := Option.map_eq_some_iff.mp found
      obtain ⟨own, named⟩ := consistent.ownId originalFound
      exact ⟨own, named⟩
    · cases found
  · intro portlet other
    rw [sinksAt_trim]
    split
    · exact Nat.le_trans (List.filter_sublist.count_le other) (consistent.once portlet other)
    · exact Nat.zero_le 1
  · intro portlet other recorded
    refine typed_of_mirrored (mirrored portlet other) (fun member => ?_) recorded
    rw [sinksAt_trim] at member
    split at member
    · next sourceKept =>
      obtain ⟨before, sinkKept⟩ := List.mem_filter.mp member
      rw [outletAt?_trim, inletAt?_trim, if_pos sourceKept, if_pos (by simpa using sinkKept)]
      exact consistent.typed (.inl before)
    · cases member
  · intro portlet inlet found signal
    rw [inletAt?_trim] at found
    split at found
    · next kept =>
      rw [sourcesAt_trim, if_pos kept]
      exact Nat.le_trans (List.length_filter_le ..) (consistent.single found signal)
    · cases found
  · intro id node found
    rw [node?_trim] at found
    split at found
    · obtain ⟨original, _, rfl⟩ := Option.map_eq_some_iff.mp found
      exact ⟨Endpoints.noneIdle_restrict, Endpoints.noneIdle_restrict⟩
    · cases found

/-! ## Building a graph -/

theorem consistent_build {nodes : List (Option Node)} {connections : List Connection}
    {built : Graph} (success : build nodes connections = .ok built) : built.Consistent := by
  unfold build at success
  obtain ⟨unconnected, adding, connecting⟩ := Outcome.bind_eq_ok_iff.mp success
  have start : unconnected.Consistent := by
    refine Outcome.foldlM_invariant (fun _ graph => graph.Consistent) consistent_empty ?_ adding
    intro _ candidate graph after _ consistent added
    cases candidate with
    | none => cases added
    | some node => exact consistent.add rfl rfl added
  refine Outcome.foldlM_invariant (fun _ graph => graph.Consistent) start ?_ connecting
  exact fun _ connection graph after _ consistent connected => consistent.connect connected

/-! ## Histories -/

/-- A call that changes a graph. -/
inductive Edit where
  | build (nodes : List (Option Node)) (connections : List Connection)
  | add (candidate : Option Node)
  | connect (source sink : Endpoint)
  | disconnect (source sink : Endpoint)
  | trim (keep : List String)

namespace Edit

def apply (graph : Graph) : Edit → Outcome Graph
  | .build nodes connections => Graph.build nodes connections
  | .add candidate => graph.add candidate
  | .connect source sink => graph.connect source sink
  | .disconnect source sink => graph.disconnect source sink
  | .trim keep => .ok (graph.trim keep)

/-- The graph after a call; a call that fails leaves the graph as it was.  The nodes given to `build` are
taken to be no nodes of the current graph: their connections are cleared before the call can fail, so a
failing call on stored nodes would clear those. -/
def attempt (graph : Graph) (edit : Edit) : Graph :=
  match edit.apply graph with
  | .ok changed => changed
  | .error _ => graph

/-- Whether a call adds no node that has connections of its own. -/
def AddsBare : Edit → Prop
  | .add (some node) => node.sources = ∅ ∧ node.sinks = ∅
  | _ => True

end Edit

theorem Consistent.apply (consistent : graph.Consistent) {edit : Edit} (bare : edit.AddsBare)
    {changed : Graph} (success : edit.apply graph = .ok changed) : changed.Consistent := by
  cases edit with
  | build nodes connections => exact consistent_build success
  | add candidate =>
      cases candidate with
      | none => cases success
      | some node =>
          obtain ⟨noSources, noSinks⟩ := bare
          exact consistent.add noSources noSinks success
  | connect source sink => exact consistent.connect success
  | disconnect source sink =>
      rw [disconnect_eq_ok success]
      exact consistent.unlink
  | trim keep =>
      cases success
      exact consistent.trim keep

theorem Consistent.attempt (consistent : graph.Consistent) {edit : Edit} (bare : edit.AddsBare) :
    (edit.attempt graph).Consistent := by
  unfold Edit.attempt
  split
  · next success => exact consistent.apply bare success
  · exact consistent

/-- Whatever calls are made on a graph that was empty at first, its connections stay recorded at both
of their ends.  Graphs are assembled from nodes that are not in the current graph. -/
theorem consistent_after_edits {edits : List Edit} (bare : ∀ edit ∈ edits, edit.AddsBare) :
    (edits.foldl Edit.attempt empty).Consistent := by
  suffices general : ∀ graph : Graph, graph.Consistent →
      (edits.foldl Edit.attempt graph).Consistent from general empty consistent_empty
  induction edits with
  | nil => exact fun graph consistent => consistent
  | cons edit rest ih =>
      obtain ⟨first, later⟩ := List.forall_mem_cons.mp bare
      exact fun graph consistent => ih later _ (consistent.attempt first)

/-- A node that feeds itself and another one: two of the calls fail, and one connection is removed and
made again. -/
def loopEdits : List Edit :=
  let node (id : String) : Node :=
    { id, type := "float", inlets := [⟨"0", .message⟩], outlets := [⟨"0", .message⟩] }
  [.add (some (node "a")), .add (some (node "a")), .connect ⟨"a", "0"⟩ ⟨"a", "0"⟩,
    .connect ⟨"a", "0"⟩ ⟨"b", "0"⟩, .add (some (node "b")), .add (some (node "c")),
    .connect ⟨"a", "0"⟩ ⟨"b", "0"⟩, .connect ⟨"b", "0"⟩ ⟨"c", "0"⟩,
    .disconnect ⟨"a", "0"⟩ ⟨"a", "0"⟩, .connect ⟨"a", "0"⟩ ⟨"a", "0"⟩, .trim ["a", "b"]]

theorem consistent_after_edits_loop :
    (∀ edit ∈ loopEdits, edit.AddsBare) ∧ (loopEdits.foldl Edit.attempt empty).Consistent ∧
      (loopEdits.foldl Edit.attempt empty).sinksAt ⟨"a", "0"⟩ = [⟨"b", "0"⟩, ⟨"a", "0"⟩] ∧
      (loopEdits.foldl Edit.attempt empty).sinksAt ⟨"b", "0"⟩ = [] := by
  have bare : ∀ edit ∈ loopEdits, edit.AddsBare := by
    simp [loopEdits, Edit.AddsBare]
  exact ⟨bare, consistent_after_edits bare, by decide +kernel, by decide +kernel⟩

end Graph

end Patchbay
