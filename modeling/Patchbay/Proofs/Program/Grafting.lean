import Patchbay.Proofs.Program.Frame

namespace Patchbay

/-! Host ports are grafted on, and what cannot have an effect is dropped.

Grafting adds one adapter for each requested port and changes nothing about the other nodes but their
connections.  What is reachable then makes up the frame of the program.
-/

open Outcome (Ends)

namespace Program

variable {program base after : Program} {id : String} {node : Node} {settings : Settings}
  {request : PortRequest} {done : List PortRequest}

/-! ## Ports that were grafted -/

/-- The port that a request for an inlet or an outlet is registered as. -/
def receiverPort (names : NameIndex) (request : String × String) : HostPort :=
  ⟨request.1, request.2, names.nameOf (.hostReceivers request.1) request.2,
    receiverId request.1 request.2⟩

def senderPort (names : NameIndex) (request : String × String) : HostPort :=
  ⟨request.1, request.2, names.nameOf (.hostSenders request.1) request.2,
    senderId request.1 request.2⟩

/-- A program with some ports grafted on. -/
structure Grafted (base : Program) (done : List PortRequest) (program : Program) : Prop where
  frame : ∃ graph names hostReceivers hostSenders, program =
    { base with graph, names, hostReceivers, hostSenders }
  wellFormed : program.graph.WellFormed
  kept : ∀ {id node}, base.graph.node? id = some node →
    ∃ now, program.graph.node? id = some now ∧ node.Rewired now
  adapters : ∀ request ∈ done, ∃ now, program.graph.node? request.adapterId = some now ∧
    (request.adapter (base.names.nameOf request.space request.portlet)).Rewired now
  origin : ∀ {id now}, program.graph.node? id = some now →
    (∃ node, base.graph.node? id = some node ∧ node.Rewired now) ∨
    ∃ request ∈ done, (request.adapter (base.names.nameOf request.space request.portlet)).Rewired now
  names : base.names.Took program.names (done.map fun request => (request.space, request.portlet))
  ports : ∀ kind, (program.hostPorts kind).entries.entries =
    (done.filter fun request => request.kind = kind).map fun request =>
      (request.key, namedPort base.names request)

namespace Grafted

/-- Before any port is grafted. -/
theorem ungrafted (wellFormed : base.graph.WellFormed) (noReceivers : base.hostReceivers.entries = ∅)
    (noSenders : base.hostSenders.entries = ∅) : Grafted base [] base := by
  refine ⟨⟨_, _, _, _, rfl⟩, wellFormed, fun found => ⟨_, found, .refl _⟩, by simp,
    fun found => .inl ⟨_, found, .refl _⟩, .refl _, fun kind => ?_⟩
  cases kind with
  | receiver => exact congrArg Table.entries noReceivers
  | sender => exact congrArg Table.entries noSenders

theorem graft (grafted : Grafted base done program) (grafts : Grafts program request after) :
    Grafted base (done ++ [request]) after := by
  have sameName := grafted.names.nameOf
  refine ⟨?_, grafts.wellFormed grafted.wellFormed, ?_, ?_, ?_, ?_, fun kind => ?_⟩
  · obtain ⟨_, _, _, _, rfl⟩ := grafted.frame
    obtain ⟨_, _, _, _, rfl⟩ := grafts.frame
    exact ⟨_, _, _, _, rfl⟩
  · intro id node earlier
    obtain ⟨now, held, rewired⟩ := grafted.kept earlier
    obtain ⟨later, heldLater, rewiredLater⟩ := grafts.kept held
    exact ⟨later, heldLater, rewired.trans rewiredLater⟩
  · intro other member
    rcases List.mem_append.mp member with earlier | last
    · obtain ⟨now, held, rewired⟩ := grafted.adapters other earlier
      obtain ⟨later, heldLater, rewiredLater⟩ := grafts.kept held
      exact ⟨later, heldLater, rewired.trans rewiredLater⟩
    · rw [List.mem_singleton.mp last, ← sameName]
      exact grafts.placed
  · intro id now held
    rcases grafts.origin held with ⟨node, earlier, rewired⟩ | rewired
    · rcases grafted.origin earlier with ⟨first, original, before⟩ | ⟨other, member, before⟩
      · exact .inl ⟨first, original, before.trans rewired⟩
      · exact .inr ⟨other, List.mem_append_left _ member, before.trans rewired⟩
    · rw [sameName] at rewired
      exact .inr ⟨request, by simp, rewired⟩
  · simpa using grafted.names.trans grafts.names
  · rw [grafts.ports, grafted.ports, List.filter_append, List.map_append]
    refine congrArg (_ ++ ·) ?_
    unfold namedPort
    rw [sameName]
    by_cases own : request.kind = kind <;> simp [own]

theorem mem_keys_iff (grafted : Grafted base done program) {kind : PortKind} {key : String} :
    key ∈ (program.hostPorts kind).keys ↔ ∃ request ∈ done, request.kind = kind ∧ request.key = key := by
  change key ∈ (program.hostPorts kind).entries.entries.map Prod.fst ↔ _
  rw [grafted.ports, List.map_map, List.mem_map]
  simp [and_assoc]

end Grafted

/-- A program that no node was registered in yet. -/
structure Unlisted (program : Program) : Prop where
  nodes : program.nodes.entries = ∅
  types : program.types.entries = ∅
  labels : ∀ {name implementation}, program.catalog.implementation? name = some implementation →
    program.names.labels.contains name = true

/-- Some requested port could not be grafted onto what was there at its turn. -/
def PortRefused (base : Program) : Prop :=
  ∃ program done request rest, portRequests base.settings = done ++ request :: rest ∧
    Grafted base done program ∧ ¬ program.FitsPort request

theorem graftHostPorts_ends (wellFormed : base.graph.WellFormed)
    (noReceivers : base.hostReceivers.entries = ∅) (noSenders : base.hostSenders.entries = ∅) :
    Ends base.graftHostPorts (fun _ => base.PortRefused) (Grafted base (portRequests base.settings)) := by
  rw [graftHostPorts_eq]
  refine Outcome.ends_foldlM (fun done state => Grafted base done state)
    (.ungrafted wellFormed noReceivers noSenders) ?_
  intro done request rest state split grafted
  exact graft_ends.mono (fun _ refused => ⟨state, done, request, rest, split, grafted, refused⟩)
    fun _ _ grafts => grafted.graft grafts

/-- No graph takes a port twice. -/
theorem requests_nodup_of_graft (noReceivers : base.hostReceivers.keys = [])
    (noSenders : base.hostSenders.keys = []) (run : base.graftHostPorts = .ok after) :
    (requests base.settings.receivers).Nodup ∧ (requests base.settings.senders).Nodup := by
  rw [graftHostPorts_eq] at run
  have registered : ∀ kind, (after.hostPorts kind).keys =
      ((portRequests base.settings).filter fun request => request.kind = kind).map PortRequest.key := by
    refine Outcome.foldlM_invariant (fun done (state : Program) => ∀ kind, (state.hostPorts kind).keys =
      (done.filter fun request => request.kind = kind).map PortRequest.key) ?_ ?_ run
    · exact fun kind => by cases kind <;> assumption
    · intro done request state next _ held grafted kind
      rw [(graft_ends.of_ok grafted).keys, held, List.filter_append, List.map_append]
      by_cases own : request.kind = kind <;> simp [own]
  have distinct : ∀ kind, (requests (portsOf base.settings kind)).Nodup := by
    intro kind
    have keys : (after.hostPorts kind).keys.Nodup := (after.hostPorts kind).entries.distinct
    rw [registered, filter_portRequests] at keys
    exact .of_map _ (.of_map _ keys)
  exact ⟨distinct .receiver, distinct .sender⟩

theorem Grafted.unlisted (grafted : Grafted base done program) (unlisted : base.Unlisted) :
    program.Unlisted := by
  have labels := grafted.names.labels
  obtain ⟨graph, names, hostReceivers, hostSenders, rfl⟩ := grafted.frame
  refine ⟨unlisted.nodes, unlisted.types, fun found => ?_⟩
  change names.labels.contains _ = true
  rw [labels]
  exact unlisted.labels found

namespace Grafted

variable (grafted : Grafted base (portRequests settings) program)

include grafted

theorem receiverAdapter {request : String × String} (asked : request ∈ requests settings.receivers) :
    ∃ now, program.graph.node? (receiverId request.1 request.2) = some now ∧
      (receiverNode request.1 request.2).Rewired now :=
  grafted.adapters ⟨.receiver, request.1, request.2⟩
    (List.mem_append_left _ (List.mem_map_of_mem asked))

theorem senderAdapter {request : String × String} (asked : request ∈ requests settings.senders) :
    ∃ now, program.graph.node? (senderId request.1 request.2) = some now ∧
      (senderNode request.1 request.2
        (base.names.nameOf (.hostSenders request.1) request.2)).Rewired now :=
  grafted.adapters ⟨.sender, request.1, request.2⟩
    (List.mem_append_right _ (List.mem_map_of_mem asked))

theorem hostReceivers : program.hostReceivers.entries.entries =
    (requests settings.receivers).map fun request =>
      (Text.join [request.1, request.2], receiverPort base.names request) := by
  refine (grafted.ports .receiver).trans ?_
  rw [filter_portRequests, List.map_map]
  rfl

theorem hostSenders : program.hostSenders.entries.entries =
    (requests settings.senders).map fun request =>
      (Text.join [request.1, request.2], senderPort base.names request) := by
  refine (grafted.ports .sender).trans ?_
  rw [filter_portRequests, List.map_map]
  rfl

end Grafted

/-! ## What is reachable -/

/-- The program with some of its nodes registered, together with their types. -/
structure Enlisted (base : Program) (done : List String) (program : Program) : Prop where
  frame : ∃ nodes types, program = { base with nodes, types }
  nodes : program.nodes.keys = done
  entries : ∀ {id entry}, program.nodes.entries.get? id = some entry →
    ∃ node, base.graph.node? id = some node ∧ entry = NodeCode.new id node.type
  types : ∀ {id node}, id ∈ done → base.graph.node? id = some node →
    ∃ type, program.types.entries.get? node.type = some type
  typed : ∀ {name type}, program.types.entries.get? name = some type →
    base.catalog.implementation? name = some type.implementation ∧
      type = { type := name, implementation := type.implementation } ∧
      ∃ id ∈ done, ∃ node, base.graph.node? id = some node ∧ node.type = name

/-- A type is registered, if it is not yet. -/
theorem addType_eq (registered : Register TypeCode) (name : String)
    (implementation : Implementation) :
    ∃ types, (if registered.contains name then pure registered
        else registered.add name { type := name, implementation }) = .ok types ∧
      (∀ other type, registered.entries.get? other = some type →
        types.entries.get? other = some type) ∧
      (∃ type, types.entries.get? name = some type) ∧
      ∀ other type, types.entries.get? other = some type →
        registered.entries.get? other = some type ∨
          other = name ∧ type = { type := name, implementation } := by
  by_cases known : registered.contains name = true
  · refine ⟨registered, by rw [if_pos known]; rfl, fun _ _ found => found, ?_,
      fun _ _ found => .inl found⟩
    exact Table.mem_keys_iff.mp (Table.contains_iff.mp known)
  · refine ⟨_, (if_neg known).trans (if_neg known), ?_, ?_, ?_⟩
    · intro other type found
      have apart : other ≠ name := fun same =>
        known (Table.contains_iff.mpr (same ▸ Table.mem_keys_of_get? found))
      exact (Table.get?_set ..).trans ((if_neg apart).trans found)
    · exact ⟨_, (Table.get?_set ..).trans (if_pos rfl)⟩
    · intro other type found
      rw [Table.get?_set] at found
      split at found
      · next same => exact .inr ⟨same, (Option.some.inj found).symm⟩
      · exact .inl found

theorem Enlisted.enlist_ends {done : List String} (enlisted : Enlisted base done program)
    (found : base.graph.node? id = some node) (fresh : id ∉ done) :
    Ends (program.enlist id)
      (fun fault => base.catalog.implementation? node.type = none ∧
        fault = .unknownNodeType node.type id)
      (Enlisted base (done ++ [id])) := by
  have graph : program.graph = base.graph := by
    obtain ⟨_, _, rfl⟩ := enlisted.frame
    rfl
  have catalog : program.catalog = base.catalog := by
    obtain ⟨_, _, rfl⟩ := enlisted.frame
    rfl
  unfold enlist
  refine .step (Graph.node_eq_ok_iff.mpr (graph ▸ found)) ?_
  rw [catalog]
  cases implemented : base.catalog.implementation? node.type with
  | none => exact ⟨rfl, rfl⟩
  | some implementation =>
      obtain ⟨types, adding, grown, own, origin⟩ := addType_eq program.types node.type implementation
      dsimp only
      rw [Outcome.ite_bind]
      refine .step adding ?_
      have unbound : ¬ program.nodes.entries.contains id = true := fun bound =>
        fresh (enlisted.nodes ▸ Table.contains_iff.mp bound)
      refine .step (show program.nodes.add id _ = .ok _ from if_neg unbound) ?_
      refine Outcome.ends_pure ⟨?_, ?_, ?_, ?_, ?_⟩
      · obtain ⟨_, _, rfl⟩ := enlisted.frame
        exact ⟨_, _, rfl⟩
      · change (program.nodes.entries.set id _).keys = _
        rw [Table.keys_set, if_neg fun member => unbound (Table.contains_iff.mpr member)]
        exact congrArg (· ++ [id]) enlisted.nodes
      · intro other entry stored
        rw [Table.get?_set] at stored
        split at stored
        · next same =>
          cases stored
          exact ⟨node, same ▸ found, by rw [same]⟩
        · exact enlisted.entries stored
      · intro other otherNode member otherFound
        rcases List.mem_append.mp member with earlier | last
        · obtain ⟨type, stored⟩ := enlisted.types earlier otherFound
          exact ⟨type, grown _ _ stored⟩
        · rw [List.mem_singleton.mp last, found] at otherFound
          cases otherFound
          exact own
      · intro name type stored
        rcases origin name type stored with earlier | ⟨rfl, rfl⟩
        · obtain ⟨implemented, same, other, member, used⟩ := enlisted.typed earlier
          exact ⟨implemented, same, other, List.mem_append_left _ member, used⟩
        · exact ⟨implemented, rfl, id, by simp, node, found, rfl⟩

/-- What is left of a program when dead code is gone. -/
structure Reachable (before after : Program) : Prop where
  frame : ∃ full nodes types catalog, after = { before with
    graph := before.graph.trim full
    names := before.names.setGraph (before.graph.trim full)
    fullTraversal := full
    nodes, types, catalog }
  pushing : ∀ id ∈ before.graph.pushing, id ∈ after.fullTraversal
  entries : ∀ {id entry}, after.nodes.entries.get? id = some entry →
    ∃ node, after.graph.node? id = some node ∧ entry = NodeCode.new id node.type
  typed : ∀ {name type}, after.types.entries.get? name = some type →
    before.catalog.implementation? name = some type.implementation ∧
      type = { type := name, implementation := type.implementation }

theorem keepReachable_ends (wellFormed : program.graph.WellFormed) (unlisted : program.Unlisted) :
    Ends program.keepReachable
      (fun fault => ∃ id node, program.graph.node? id = some node ∧
        program.catalog.implementation? node.type = none ∧ fault = .unknownNodeType node.type id)
      fun after => after.Framed ∧ Reachable program after := by
  unfold keepReachable
  refine (Graph.fullTraversal_yields wellFormed).ends.bind fun full _ given => ?_
  obtain ⟨distinct, known, pushing⟩ := given
  have trimmed : ∀ {id}, id ∈ full ↔ ∃ node, (program.graph.trim full).node? id = some node := by
    intro id
    rw [Graph.node?_trim]
    constructor
    · intro member
      obtain ⟨node, found⟩ := known id member
      exact ⟨_, by rw [if_pos member, found]; rfl⟩
    · intro ⟨node, found⟩
      by_contra absent
      rw [if_neg absent] at found
      cases found
  let start : Program := { program with
    graph := program.graph.trim full
    names := program.names.setGraph (program.graph.trim full)
    fullTraversal := full }
  refine (Outcome.ends_foldlM (fun done state => Enlisted start done state)
    ⟨⟨_, _, rfl⟩, ?_, ?_, by simp, ?_⟩ ?_).bind fun listed _ enlisted => ?_
  · change program.nodes.entries.keys = []
    rw [unlisted.nodes]
    rfl
  · intro id entry stored
    change program.nodes.entries.get? id = some entry at stored
    rw [unlisted.nodes] at stored
    cases stored
  · intro name type stored
    change program.types.entries.get? name = some type at stored
    rw [unlisted.types] at stored
    cases stored
  · intro done id rest state split enlisted
    have member : id ∈ full := by simp [split]
    obtain ⟨node, found⟩ := trimmed.mp member
    have fresh : id ∉ done := by
      rw [split] at distinct
      intro earlier
      exact (List.nodup_append.mp distinct).2.2 id earlier id (by simp) rfl
    refine (enlisted.enlist_ends found fresh).mono (fun fault refused => ?_) fun _ _ held => held
    obtain ⟨original, stored⟩ := known id member
    rw [Graph.node?_trim, if_pos member, stored] at found
    cases found
    exact ⟨id, original, stored, refused⟩
  · obtain ⟨nodes, types, rfl⟩ := enlisted.frame
    refine Outcome.ends_pure ⟨⟨wellFormed.trim full, trimmed, distinct, enlisted.nodes, ?_, ?_, rfl, ?_⟩,
      ⟨_, _, _, _, rfl⟩, pushing, enlisted.entries, ?_⟩
    · intro id node found
      exact enlisted.types (trimmed.mpr ⟨node, found⟩) found
    · intro name type stored
      obtain ⟨implemented, same, id, _, node, found, used⟩ := enlisted.typed stored
      refine ⟨by rw [same], ?_, id, node, found, used⟩
      change ((types.entries.map _).get? name).join = _
      rw [Table.get?_map, show types.entries.get? name = some type from stored]
      rfl
    · intro id node found
      obtain ⟨type, stored⟩ := enlisted.types (trimmed.mpr ⟨node, found⟩) found
      exact unlisted.labels (enlisted.typed stored).1
    · intro name type stored
      obtain ⟨implemented, same, _⟩ := enlisted.typed stored
      exact ⟨implemented, same⟩

end Program

end Patchbay
