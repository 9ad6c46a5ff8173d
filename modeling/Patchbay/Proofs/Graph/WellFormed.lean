import Patchbay.Graph.Check
import Patchbay.Proofs.Table

namespace Patchbay

/-! Well-formed graphs: what the check of a graph promises.

Every slot holds a node under the node's own id, portlet ids are unambiguous, and the two records of
a connection mirror each other.  The check accepts a graph exactly when this holds and the catalog,
if there is one, lists every node type.
-/

/-- What a node that is stored under an id owes to the graph around it. -/
structure Node.FitsIn (node : Node) (graph : Graph) (id : String) : Prop where
  ownId : node.id = id
  inletsDistinct : (node.inlets.map Portlet.id).Nodup
  outletsDistinct : (node.outlets.map Portlet.id).Nodup
  inletsTyped : ∀ inlet ∈ node.inlets, inlet.type = .signal ∨ inlet.type = .message
  outletsTyped : ∀ outlet ∈ node.outlets, outlet.type = .signal ∨ outlet.type = .message
  sources : ∀ inletId ∈ node.sources.keys, ∃ inlet, node.inlet? inletId = some inlet ∧
    (inlet.type = .signal → (node.sourcesOf inletId).length ≤ 1) ∧
    ∀ source ∈ node.sourcesOf inletId, ∃ outlet, graph.outletAt? source = some outlet ∧
      outlet.type = inlet.type ∧ ⟨id, inletId⟩ ∈ graph.sinksAt source
  sinks : ∀ outletId ∈ node.sinks.keys, ∃ outlet, node.outlet? outletId = some outlet ∧
    ∀ sink ∈ node.sinksOf outletId, ∃ inlet, graph.inletAt? sink = some inlet ∧
      ⟨id, outletId⟩ ∈ graph.sourcesAt sink

structure Graph.WellFormed (graph : Graph) : Prop where
  filled : ∀ id ∈ graph.ids, ∃ node, graph.node? id = some node
  fits : ∀ {id node}, graph.node? id = some node → node.FitsIn graph id

namespace Graph

variable {graph : Graph} {id : String} {node : Node}

theorem node_eq_ok_iff : graph.node id = .ok node ↔ graph.node? id = some node := by
  unfold Graph.node
  cases graph.node? id <;> simp

/-! ## What the check finds -/

theorem mem_sortedIds_iff : id ∈ graph.sortedIds ↔ id ∈ graph.ids :=
  (List.mergeSort_perm _ _).mem_iff

theorem mem_sortIds_iff {ids : List String} : id ∈ Text.sortIds ids ↔ id ∈ ids :=
  (List.mergeSort_perm _ _).mem_iff

theorem walk_cons {side : Side} {seen : List String} {portlet : Portlet} {rest : List Portlet} :
    portletProblems.walk side seen (portlet :: rest) =
      portletProblems.walk side seen [portlet] ++
        portletProblems.walk side (portlet.id :: seen) rest := by
  simp [portletProblems.walk]

theorem walk_singleton_eq_nil_iff {side : Side} {seen : List String} {portlet : Portlet} :
    portletProblems.walk side seen [portlet] = [] ↔
      portlet.id ∉ seen ∧ (portlet.type = .signal ∨ portlet.type = .message) := by
  simp only [portletProblems.walk, List.append_nil, List.append_eq_nil_iff]
  cases portlet.type with
  | signal => simp
  | message => simp
  | unknown type => simp

theorem walk_eq_nil_iff {side : Side} {seen : List String} {portlets : List Portlet} :
    portletProblems.walk side seen portlets = [] ↔
      (portlets.map Portlet.id).Nodup ∧ (∀ portlet ∈ portlets, portlet.id ∉ seen) ∧
        ∀ portlet ∈ portlets, portlet.type = .signal ∨ portlet.type = .message := by
  induction portlets generalizing seen with
  | nil => simp [portletProblems.walk]
  | cons portlet rest ih =>
      rw [walk_cons, List.append_eq_nil_iff, walk_singleton_eq_nil_iff, ih]
      simp only [List.map_cons, List.nodup_cons, List.mem_map, List.mem_cons, forall_eq_or_imp, not_or]
      constructor
      · intro given
        obtain ⟨⟨unseen, own⟩, distinct, apart, others⟩ := given
        refine ⟨⟨?_, distinct⟩, ⟨unseen, fun other member => (apart other member).2⟩, own, others⟩
        intro given
        obtain ⟨other, member, same⟩ := given
        exact (apart other member).1 same
      · intro given
        obtain ⟨⟨unique, distinct⟩, ⟨unseen, later⟩, own, others⟩ := given
        refine ⟨⟨unseen, own⟩, distinct, ?_, others⟩
        intro other member
        exact ⟨fun same => unique ⟨other, member, same⟩, later other member⟩

theorem portletProblems_eq_nil_iff {side : Side} {portlets : List Portlet} :
    portletProblems side portlets = [] ↔
      (portlets.map Portlet.id).Nodup ∧
        ∀ portlet ∈ portlets, portlet.type = .signal ∨ portlet.type = .message := by
  unfold portletProblems
  rw [walk_eq_nil_iff]
  simp

theorem sourceProblems_eq_nil_iff {inlet : Portlet} {source : Endpoint} :
    graph.sourceProblems id inlet source = [] ↔
      ∃ outlet, graph.outletAt? source = some outlet ∧ outlet.type = inlet.type ∧
        ⟨id, inlet.id⟩ ∈ graph.sinksAt source := by
  unfold sourceProblems
  cases graph.outletAt? source with
  | none => simp
  | some outlet => simp

theorem inlet?_id {inletId : String} {inlet : Portlet} (found : node.inlet? inletId = some inlet) :
    inlet.id = inletId := by
  simpa using List.find?_some found

theorem outlet?_id {outletId : String} {outlet : Portlet}
    (found : node.outlet? outletId = some outlet) : outlet.id = outletId := by
  simpa using List.find?_some found

theorem inletProblems_eq_nil_iff {inletId : String} :
    graph.inletProblems id node inletId = [] ↔
      ∃ inlet, node.inlet? inletId = some inlet ∧
        (inlet.type = .signal → (node.sourcesOf inletId).length ≤ 1) ∧
        ∀ source ∈ node.sourcesOf inletId, ∃ outlet, graph.outletAt? source = some outlet ∧
          outlet.type = inlet.type ∧ ⟨id, inletId⟩ ∈ graph.sinksAt source := by
  unfold inletProblems
  cases found : node.inlet? inletId with
  | none => simp
  | some inlet =>
      have sameId := inlet?_id found
      simp only [List.append_eq_nil_iff, List.flatMap_eq_nil_iff, sourceProblems_eq_nil_iff, sameId,
        Option.some.injEq, exists_eq_left']
      refine and_congr_left fun _ => ?_
      by_cases signal : inlet.type = .signal
      · simp [signal]
      · simp [signal]

theorem sinkProblems_eq_nil_iff {source sink : Endpoint} :
    graph.sinkProblems source sink = [] ↔
      ∃ inlet, graph.inletAt? sink = some inlet ∧ source ∈ graph.sourcesAt sink := by
  unfold sinkProblems
  cases graph.inletAt? sink with
  | none => simp
  | some inlet => simp

theorem outletProblems_eq_nil_iff {outletId : String} :
    graph.outletProblems id node outletId = [] ↔
      ∃ outlet, node.outlet? outletId = some outlet ∧
        ∀ sink ∈ node.sinksOf outletId, ∃ inlet, graph.inletAt? sink = some inlet ∧
          ⟨id, outletId⟩ ∈ graph.sourcesAt sink := by
  unfold outletProblems
  cases node.outlet? outletId with
  | none => simp
  | some outlet => simp [List.flatMap_eq_nil_iff, sinkProblems_eq_nil_iff]

/-- Whether a catalog, if there is one, lists a type. -/
def Lists (catalog : Option Catalog) (type : String) : Prop :=
  ∀ known, catalog = some known → known.contains type = true

theorem slotIssues_eq_nil_iff {catalog : Option Catalog} :
    graph.slotIssues catalog id = [] ↔
      ∃ node, graph.node? id = some node ∧ node.FitsIn graph id ∧ Lists catalog node.type := by
  unfold slotIssues
  cases found : graph.node? id with
  | none => simp
  | some node =>
      simp only [List.append_eq_nil_iff, List.map_eq_nil_iff, List.flatMap_eq_nil_iff,
        portletProblems_eq_nil_iff, inletProblems_eq_nil_iff, outletProblems_eq_nil_iff,
        mem_sortIds_iff, Option.some.injEq, exists_eq_left']
      constructor
      · intro given
        obtain ⟨⟨own, known⟩, ⟨⟨inlets, outlets⟩, sources⟩, sinks⟩ := given
        have ownId : node.id = id := by simpa using own
        have listed : Lists catalog node.type := by
          cases catalog with
          | none => simp [Lists]
          | some catalog => simpa [Lists] using known
        exact ⟨⟨ownId, inlets.1, outlets.1, inlets.2, outlets.2, sources, sinks⟩, listed⟩
      · intro given
        obtain ⟨fits, listed⟩ := given
        refine ⟨⟨by simp [fits.ownId], ?_⟩,
          ⟨⟨⟨fits.inletsDistinct, fits.inletsTyped⟩, ⟨fits.outletsDistinct, fits.outletsTyped⟩⟩,
            fits.sources⟩, fits.sinks⟩
        cases catalog with
        | none => rfl
        | some catalog => simp [listed catalog rfl]

theorem issues_eq_nil_iff {catalog : Option Catalog} :
    graph.issues catalog = [] ↔
      graph.WellFormed ∧ ∀ id node, graph.node? id = some node → Lists catalog node.type := by
  unfold issues
  simp only [List.flatMap_eq_nil_iff, mem_sortedIds_iff, slotIssues_eq_nil_iff]
  constructor
  · intro clean
    refine ⟨⟨?_, ?_⟩, ?_⟩
    · intro id member
      obtain ⟨node, found, _⟩ := clean id member
      exact ⟨node, found⟩
    · intro id node found
      obtain ⟨stored, same, fits, _⟩ := clean id (mem_ids_of_node? found)
      rw [found] at same
      cases same
      exact fits
    · intro id node found
      obtain ⟨stored, same, _, listed⟩ := clean id (mem_ids_of_node? found)
      rw [found] at same
      cases same
      exact listed
  · intro given id member
    obtain ⟨wellFormed, listed⟩ := given
    obtain ⟨node, found⟩ := wellFormed.filled id member
    exact ⟨node, found, wellFormed.fits found, listed id node found⟩

theorem issues_of_check {catalog : Option Catalog} {reporter : Reporter}
    (accepted : (graph.check catalog reporter).2 = .ok ()) : graph.issues catalog = [] := by
  unfold check at accepted
  cases found : graph.issues catalog with
  | nil => rfl
  | cons issue rest => simp [found, verdict] at accepted

theorem wellFormed_of_check {catalog : Option Catalog} {reporter : Reporter}
    (accepted : (graph.check catalog reporter).2 = .ok ()) : graph.WellFormed :=
  (issues_eq_nil_iff.mp (issues_of_check accepted)).1

theorem lists_of_check {catalog : Option Catalog} {reporter : Reporter}
    (accepted : (graph.check catalog reporter).2 = .ok ()) (found : graph.node? id = some node) :
    Lists catalog node.type :=
  (issues_eq_nil_iff.mp (issues_of_check accepted)).2 id node found

end Graph

end Patchbay
