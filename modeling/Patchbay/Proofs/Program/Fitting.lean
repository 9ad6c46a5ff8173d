import Patchbay.Proofs.Program.Grafting
import Patchbay.Proofs.Text.Identifier

namespace Patchbay

/-! Ports of the host that fit a graph.

A port fits when it names a message portlet and nothing stands under the id of its adapter.  The ids of
adapters tell the portlets and the side apart, so grafting the ports one by one never gets in the way of
a later one.
-/

namespace Settings

/-- The ports of one side list a portlet of a node. -/
def Listed (ports : Option Ports) (id portlet : String) : Prop :=
  ∃ table portlets, ports = some table ∧ table.get? id = some (some portlets) ∧ portlet ∈ portlets

/-- Every port of one side is listed once and fits the graph. -/
structure SideFits (graph : Graph) (portlet? : Node → String → Option Portlet)
    (adapterId : String → String → String) (ports : Option Ports) : Prop where
  found : ∀ id portlet, Listed ports id portlet → ∃ node own, graph.node? id = some node ∧
    portlet? node portlet = some own ∧ own.type = .message
  free : ∀ id portlet, Listed ports id portlet → adapterId id portlet ∉ graph.ids
  once : ∀ table id portlets, ports = some table → table.get? id = some (some portlets) →
    portlets.Nodup

structure PortsFit (settings : Settings) (graph : Graph) : Prop where
  receivers : SideFits graph Node.inlet? Program.receiverId settings.receivers
  senders : SideFits graph Node.outlet? Program.senderId settings.senders

variable {graph : Graph} {portlet? : Node → String → Option Portlet}
  {adapterId : String → String → String}

/-- Without ports of the host there is nothing to fit. -/
theorem sideFits_none : SideFits graph portlet? adapterId none where
  found := by rintro _ _ ⟨_, _, ⟨⟩, _⟩
  free := by rintro _ _ ⟨_, _, ⟨⟩, _⟩
  once := by rintro _ _ _ ⟨⟩

theorem sideFits_singleton {id portlet : String} {node : Node} (found : graph.node? id = some node)
    (isOwn : portlet? node portlet = some ⟨portlet, .message⟩) (free : adapterId id portlet ∉ graph.ids) :
    SideFits graph portlet? adapterId (some (.ofList [(id, some [portlet])])) := by
  have only : ∀ {other portlets}, (Table.ofList [(id, some [portlet])]).get? other = some (some portlets) →
      other = id ∧ portlets = [portlet] := by
    intro other portlets held
    cases Table.mem_of_get?_ofList held with
    | head => exact ⟨rfl, rfl⟩
    | tail _ later => cases later
  refine ⟨?_, ?_, ?_⟩
  · rintro other asked ⟨_, _, ⟨⟩, held, member⟩
    obtain ⟨rfl, rfl⟩ := only held
    cases List.mem_singleton.mp member
    exact ⟨node, _, found, isOwn, rfl⟩
  · rintro other asked ⟨_, _, ⟨⟩, held, member⟩
    obtain ⟨rfl, rfl⟩ := only held
    cases List.mem_singleton.mp member
    exact free
  · rintro _ other portlets ⟨⟩ held
    obtain ⟨rfl, rfl⟩ := only held
    exact List.nodup_singleton _

end Settings

namespace Program

open Settings (Listed SideFits)

variable {base program : Program} {ports : Option Ports} {request other : String × String}

theorem mem_portOrder_iff {entry : String × List String} : entry ∈ portOrder ports ↔
    ∃ table portlets, ports = some table ∧ table.get? entry.1 = some portlets ∧
      entry.2 = portlets.getD [] := by
  cases ports with
  | none => simp [portOrder]
  | some table =>
      have listed : ∀ id, id ∈ Text.sortIds (Text.sortTexts table.keys) ↔ id ∈ table.keys := fun id =>
        Graph.mem_sortIds_iff.trans (List.mergeSort_perm _ _).mem_iff
      simp only [portOrder, List.mem_map, listed, Table.mem_keys_iff]
      constructor
      · rintro ⟨id, ⟨portlets, found⟩, rfl⟩
        exact ⟨table, portlets, rfl, found, by simp [found]⟩
      · rintro ⟨_, portlets, ⟨⟩, found, same⟩
        exact ⟨entry.1, ⟨portlets, found⟩, by simp [found, ← same]⟩

theorem mem_requests_iff : request ∈ requests ports ↔ Listed ports request.1 request.2 := by
  simp only [requests, List.mem_flatMap, mem_portOrder_iff, List.mem_map]
  constructor
  · rintro ⟨⟨id, own⟩, ⟨table, portlets, given, found, rfl⟩, portlet, member, rfl⟩
    cases portlets with
    | none => cases member
    | some portlets => exact ⟨table, portlets, given, found, member⟩
  · rintro ⟨table, portlets, given, found, member⟩
    exact ⟨(request.1, portlets), ⟨table, some portlets, given, found, rfl⟩, request.2, member, rfl⟩

theorem nodup_requests (once : ∀ table id portlets, ports = some table →
    table.get? id = some (some portlets) → portlets.Nodup) : (requests ports).Nodup := by
  refine List.nodup_flatMap.mpr ⟨fun entry member => ?_, ?_⟩
  · refine List.Nodup.map (fun _ _ same => (Prod.mk.inj same).2) ?_
    obtain ⟨table, portlets, given, found, same⟩ := mem_portOrder_iff.mp member
    rw [same]
    cases portlets with
    | none => exact .nil
    | some portlets => exact once table entry.1 portlets given found
  · cases ports with
    | none => exact .nil
    | some table =>
        have distinct : (Text.sortIds (Text.sortTexts table.keys)).Nodup :=
          (List.mergeSort_perm _ _).nodup_iff.mpr ((List.mergeSort_perm _ _).nodup_iff.mpr table.distinct)
        refine List.pairwise_map.mpr (distinct.imp fun apart => List.disjoint_left.mpr ?_)
        intro request isFirst isSecond
        obtain ⟨_, _, rfl⟩ := List.mem_map.mp isFirst
        obtain ⟨_, _, same⟩ := List.mem_map.mp isSecond
        exact apart (Prod.mk.inj same).1.symm

/-! ## Ids of adapters -/

theorem pair_of_join_eq (same : Text.join [request.1, request.2] = Text.join [other.1, other.2]) :
    request = other := by
  have parts := Text.join_injective (by simp) (by simp) same
  simp only [List.cons.injEq, and_true] at parts
  exact Prod.ext parts.1 parts.2

theorem key_inj {one two : PortRequest} (sameKind : one.kind = two.kind)
    (same : one.key = two.key) : one = two := by
  obtain ⟨kind, node, portlet⟩ := one
  obtain ⟨otherKind, otherNode, otherPortlet⟩ := two
  cases sameKind
  cases @pair_of_join_eq (node, portlet) (otherNode, otherPortlet) same
  rfl

theorem receiverId_inj (same : receiverId request.1 request.2 = receiverId other.1 other.2) :
    request = other :=
  pair_of_join_eq (by simpa [receiverId] using same)

theorem senderId_inj (same : senderId request.1 request.2 = senderId other.1 other.2) :
    request = other :=
  pair_of_join_eq (by simpa [senderId] using same)

theorem receiverId_ne_senderId (node inlet other outlet : String) :
    receiverId node inlet ≠ senderId other outlet := by
  intro same
  have texts := congrArg String.toList same
  simp [receiverId, senderId] at texts

theorem adapterId_inj {one two : PortRequest} (same : one.adapterId = two.adapterId) :
    one = two := by
  obtain ⟨kind, node, portlet⟩ := one
  obtain ⟨otherKind, otherNode, otherPortlet⟩ := two
  cases kind <;> cases otherKind
  case receiver.receiver =>
    cases @receiverId_inj (node, portlet) (otherNode, otherPortlet) same
    rfl
  case sender.sender =>
    cases @senderId_inj (node, portlet) (otherNode, otherPortlet) same
    rfl
  case receiver.sender => exact (receiverId_ne_senderId _ _ _ _ same).elim
  case sender.receiver => exact (receiverId_ne_senderId _ _ _ _ same.symm).elim

/-! ## Requests in their turn -/

variable {settings : Settings} {done : List PortRequest} {request : PortRequest}

theorem mem_portRequests_iff : request ∈ portRequests settings ↔
    (request.node, request.portlet) ∈ requests (portsOf settings request.kind) := by
  obtain ⟨kind, node, portlet⟩ := request
  cases kind <;> simp [portRequests, portsOf]

theorem nodup_portRequests : (portRequests settings).Nodup ↔
    (requests settings.receivers).Nodup ∧ (requests settings.senders).Nodup := by
  unfold portRequests
  rw [List.nodup_append', List.nodup_map_iff fun _ _ same => by simpa [Prod.ext_iff] using same,
    List.nodup_map_iff fun _ _ same => by simpa [Prod.ext_iff] using same]
  refine and_congr_right fun _ => and_iff_left (List.disjoint_left.mpr fun request isFirst isSecond => ?_)
  obtain ⟨_, _, rfl⟩ := List.mem_map.mp isFirst
  obtain ⟨_, _, same⟩ := List.mem_map.mp isSecond
  cases same

theorem target_of_portsFit {graph : Graph} (fits : settings.PortsFit graph)
    (asked : request ∈ portRequests settings) :
    (∃ node portlet, graph.node? request.node = some node ∧ request.portlet? node = some portlet ∧
      portlet.type = .message) ∧ request.adapterId ∉ graph.ids := by
  have listed := mem_requests_iff.mp (mem_portRequests_iff.mp asked)
  obtain ⟨kind, node, portlet⟩ := request
  cases kind with
  | receiver => exact ⟨fits.receivers.found _ _ listed, fits.receivers.free _ _ listed⟩
  | sender => exact ⟨fits.senders.found _ _ listed, fits.senders.free _ _ listed⟩

namespace Grafted

/-- Where nothing was stored before, only an adapter can be stored now. -/
theorem adapter_of_mem_ids (grafted : Grafted base done program) {id : String}
    (member : id ∈ program.graph.ids) (fresh : id ∉ base.graph.ids) :
    ∃ request ∈ done, id = request.adapterId := by
  obtain ⟨now, found⟩ := grafted.wellFormed.filled id member
  have ownId := (grafted.wellFormed.fits found).ownId
  rcases grafted.origin found with ⟨node, earlier, _⟩ | ⟨request, isRequest, _, _, rfl⟩
  · exact absurd (Graph.mem_ids_of_node? earlier) fresh
  · exact ⟨request, isRequest, ownId.symm.trans (PortRequest.id_adapter _)⟩

/-- A port that fits before any port is grafted fits in its turn. -/
theorem fitsPort (grafted : Grafted base done program)
    (target : ∃ node portlet, base.graph.node? request.node = some node ∧
      request.portlet? node = some portlet ∧ portlet.type = .message)
    (free : request.adapterId ∉ base.graph.ids) (fresh : request ∉ done) : program.FitsPort request where
  target := by
    obtain ⟨node, portlet, found, own, isMessage⟩ := target
    obtain ⟨now, held, rewired⟩ := grafted.kept found
    exact ⟨now, portlet, held, (PortRequest.portlet?_rewired rewired).trans own, isMessage⟩
  free member := by
    obtain ⟨other, isOther, same⟩ := grafted.adapter_of_mem_ids member free
    exact fresh (adapterId_inj same ▸ isOther)
  fresh member := by
    obtain ⟨other, isOther, sameKind, same⟩ := grafted.mem_keys_iff.mp member
    exact fresh (key_inj sameKind same ▸ isOther)

end Grafted

/-- When all ports fit a graph, grafting them is not refused. -/
theorem not_portRefused (fits : base.settings.PortsFit base.graph) : ¬ base.PortRefused := by
  rintro ⟨program, done, request, rest, isSplit, grafted, refused⟩
  have asked : request ∈ portRequests base.settings := by simp [isSplit]
  obtain ⟨target, free⟩ := target_of_portsFit fits asked
  have distinct := nodup_portRequests.mpr
    ⟨nodup_requests fits.receivers.once, nodup_requests fits.senders.once⟩
  rw [isSplit] at distinct
  exact refused (grafted.fitsPort target free fun earlier =>
    (List.nodup_append.mp distinct).2.2 request earlier request (List.mem_cons_self ..) rfl)

end Program

end Patchbay
