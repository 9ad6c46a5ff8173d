import Patchbay.Program.Precompile
import Patchbay.Proofs.Graph.Edit
import Patchbay.Proofs.Names

namespace Patchbay

/-! Ports of the host and their adapters.

The host can send to message inlets and listen to message outlets.  For both kinds of ports one adapter
is added to the graph, connected and registered in the same steps; what differs is on which side of the
connection the adapter stands, and what it is called.  So what one step does is said once, for requests
of either kind.
-/

open Outcome (Ends)

/-- The second node is the first one with other connections. -/
def Node.Rewired (before after : Node) : Prop :=
  ∃ sources sinks, after = { before with sources, sinks }

theorem Node.Rewired.refl (node : Node) : node.Rewired node := ⟨node.sources, node.sinks, rfl⟩

theorem Node.Rewired.trans {first second third : Node} (one : first.Rewired second)
    (two : second.Rewired third) : first.Rewired third := by
  obtain ⟨_, _, rfl⟩ := one
  obtain ⟨sources, sinks, rfl⟩ := two
  exact ⟨sources, sinks, rfl⟩

/-- Connecting changes the connections of nodes and nothing else. -/
theorem Graph.node?_connect {graph connected : Graph} {source sink : Endpoint}
    (success : graph.connect source sink = .ok connected) (id : String) :
    Option.Rel Node.Rewired (graph.node? id) (connected.node? id) := by
  rcases connect_eq_ok success with rfl | ⟨_, rfl⟩
  · cases connected.node? id with
    | none => exact .none
    | some node => exact .some (.refl node)
  · rw [node?_link]
    cases graph.node? id with
    | none => exact .none
    | some node => exact .some ⟨_, _, rfl⟩

theorem Graph.exists_connected {graph connected : Graph} {source sink : Endpoint} {id : String}
    {node : Node} (success : graph.connect source sink = .ok connected)
    (found : graph.node? id = some node) : ∃ now, connected.node? id = some now ∧ node.Rewired now := by
  have related := node?_connect success id
  rw [found] at related
  generalize connected.node? id = slot at related
  cases related with
  | some rewired => exact ⟨_, rfl, rewired⟩

theorem Graph.exists_before_connect {graph connected : Graph} {source sink : Endpoint} {id : String}
    {now : Node} (success : graph.connect source sink = .ok connected)
    (found : connected.node? id = some now) : ∃ node, graph.node? id = some node ∧ node.Rewired now := by
  have related := node?_connect success id
  rw [found] at related
  generalize graph.node? id = slot at related
  cases related with
  | some rewired => exact ⟨_, rfl, rewired⟩

/-! ## Look-ups and entries that can fail -/

theorem Register.add_ends {α : Type u} {register : Register α} {key : String} {value : α} :
    Ends (register.add key value) (fun _ => key ∈ register.keys) fun added =>
      key ∉ register.keys ∧ added = { register with entries := register.entries.set key value } := by
  unfold Register.add
  split
  · next taken => exact Table.contains_iff.mp taken
  · next free => exact ⟨fun member => free (Table.contains_iff.mpr member), rfl⟩

theorem Graph.node_ends {graph : Graph} {id : String} :
    Ends (graph.node id) (fun _ => graph.node? id = none) fun node => graph.node? id = some node := by
  unfold Graph.node
  cases found : graph.node? id with
  | none => rfl
  | some node => rfl

theorem Graph.add_ends {graph : Graph} {node : Node} (named : node.id ≠ "") :
    Ends (graph.add (some node)) (fun _ => node.id ∈ graph.ids) fun added =>
      node.id ∉ graph.ids ∧ added = ⟨graph.slots.set node.id (some node)⟩ := by
  change Ends (if node.id = "" then _ else _) _ _
  rw [if_neg named]
  split
  · next taken => exact Table.contains_iff.mp taken
  · next free => exact ⟨fun member => free (Table.contains_iff.mpr member), rfl⟩

/-- Two message portlets can always be connected. -/
theorem Graph.connect_messages {graph : Graph} {source sink : Endpoint} {outlet inlet : Portlet}
    (atSource : graph.outletAt? source = some outlet) (outletType : outlet.type = .message)
    (atSink : graph.inletAt? sink = some inlet) (inletType : inlet.type = .message) :
    ∃ connected, graph.connect source sink = .ok connected := by
  obtain ⟨sourceNode, sourceFound, ownOutlet⟩ := outletAt?_eq_some_iff.mp atSource
  obtain ⟨sinkNode, sinkFound, ownInlet⟩ := inletAt?_eq_some_iff.mp atSink
  unfold connect
  rw [node_eq_ok_iff.mpr sourceFound, node_eq_ok_iff.mpr sinkFound]
  change ∃ connected, (sourceNode.outlet _ >>= _) = .ok connected
  rw [outlet_eq_ok_iff.mpr ownOutlet]
  change ∃ connected, (sinkNode.inlet _ >>= _) = .ok connected
  rw [inlet_eq_ok_iff.mpr ownInlet]
  simp only [bind, Except.bind, outletType, inletType, ne_eq, not_true_eq_false, if_false]
  split
  · exact ⟨_, rfl⟩
  · exact ⟨_, rfl⟩

/-! ## Requests -/

namespace Program

def receiverId (node inlet : String) : String := "_ioRcv_" ++ Text.join [node, inlet]

def senderId (node outlet : String) : String := "_ioSnd_" ++ Text.join [node, outlet]

def receiverNode (node inlet : String) : Node where
  id := receiverId node inlet
  type := receiverType
  outlets := [⟨"0", .message⟩]
  isPushingMessages := true
  args := some (.ofList [("nodeId", .text node), ("portletId", .text inlet)])

def senderNode (node outlet functionName : String) : Node where
  id := senderId node outlet
  type := senderType
  inlets := [⟨"0", .message⟩]
  args := some (.ofList [("nodeId", .text node), ("portletId", .text outlet),
    ("functionName", .text functionName)])

/-- The requested ports of one kind, in the order in which they are grafted. -/
def requests (ports : Option Ports) : List (String × String) :=
  (portOrder ports).flatMap fun entry => entry.2.map fun portlet => (entry.1, portlet)

end Program

/-- The host sends to a receiver and listens to a sender. -/
inductive PortKind where
  | receiver
  | sender
deriving DecidableEq

/-- A port that the host asks for. -/
structure PortRequest where
  kind : PortKind
  node : String
  portlet : String

/-- The ports of one kind that are registered. -/
def Program.hostPorts (program : Program) : PortKind → Register HostPort
  | .receiver => program.hostReceivers
  | .sender => program.hostSenders

def Program.withHostPorts (program : Program) (ports : Register HostPort) : PortKind → Program
  | .receiver => { program with hostReceivers := ports }
  | .sender => { program with hostSenders := ports }

theorem Program.hostPorts_withHostPorts (program : Program) (ports : Register HostPort)
    (kind other : PortKind) : (withHostPorts program ports kind).hostPorts other =
      if kind = other then ports else program.hostPorts other := by
  cases kind <;> cases other <;> rfl

namespace PortRequest

variable (request : PortRequest)

def key : String := Text.join [request.node, request.portlet]

def adapterId : String :=
  match request.kind with
  | .receiver => Program.receiverId request.node request.portlet
  | .sender => Program.senderId request.node request.portlet

/-- The function that the host calls, or that it provides, is named in this space. -/
def space : NameSpace :=
  match request.kind with
  | .receiver => .hostReceivers request.node
  | .sender => .hostSenders request.node

/-- Only the adapter of a sender is told what its function is called. -/
def adapter (functionName : String) : Node :=
  match request.kind with
  | .receiver => Program.receiverNode request.node request.portlet
  | .sender => Program.senderNode request.node request.portlet functionName

def portlet? (target : Node) : Option Portlet :=
  match request.kind with
  | .receiver => target.inlet? request.portlet
  | .sender => target.outlet? request.portlet

def lookup (target : Node) : Outcome Portlet :=
  match request.kind with
  | .receiver => target.inlet request.portlet
  | .sender => target.outlet request.portlet

def refusal : Fault :=
  match request.kind with
  | .receiver => .notMessageInlet request.node request.portlet
  | .sender => .notMessageOutlet request.node request.portlet

def source : Endpoint :=
  match request.kind with
  | .receiver => ⟨request.adapterId, "0"⟩
  | .sender => ⟨request.node, request.portlet⟩

def sink : Endpoint :=
  match request.kind with
  | .receiver => ⟨request.node, request.portlet⟩
  | .sender => ⟨request.adapterId, "0"⟩

/-- The port that the request is registered as. -/
def port (functionName : String) : HostPort :=
  ⟨request.node, request.portlet, functionName, request.adapterId⟩

variable {request}

theorem id_adapter (functionName : String) : (request.adapter functionName).id = request.adapterId := by
  unfold adapter adapterId
  cases request.kind <;> rfl

theorem adapterId_ne : request.adapterId ≠ "" := by
  unfold adapterId
  cases request.kind with
  | receiver => exact fun same => by simpa [Program.receiverId] using congrArg String.length same
  | sender => exact fun same => by simpa [Program.senderId] using congrArg String.length same

theorem adapter_sources (functionName : String) : (request.adapter functionName).sources = ∅ := by
  unfold adapter
  cases request.kind <;> rfl

theorem adapter_sinks (functionName : String) : (request.adapter functionName).sinks = ∅ := by
  unfold adapter
  cases request.kind <;> rfl

/-- An adapter fits into every graph, as it is not connected yet. -/
theorem adapter_fits (functionName : String) (graph : Graph) :
    (request.adapter functionName).FitsIn graph (request.adapter functionName).id := by
  unfold adapter
  cases request.kind with
  | receiver =>
      exact Graph.fitsIn_of_isolated rfl (by simp [Program.receiverNode]) (by simp [Program.receiverNode])
        (by simp [Program.receiverNode]) (by simp [Program.receiverNode])
  | sender =>
      exact Graph.fitsIn_of_isolated rfl (by simp [Program.senderNode]) (by simp [Program.senderNode])
        (by simp [Program.senderNode]) (by simp [Program.senderNode])

theorem lookup_ends {target : Node} : Ends (request.lookup target)
    (fun _ => request.portlet? target = none) fun portlet => request.portlet? target = some portlet := by
  unfold lookup portlet?
  cases request.kind with
  | receiver =>
      unfold Node.inlet
      cases target.inlet? request.portlet <;> rfl
  | sender =>
      unfold Node.outlet
      cases target.outlet? request.portlet <;> rfl

theorem portlet?_rewired {before after : Node} (rewired : before.Rewired after) :
    request.portlet? after = request.portlet? before := by
  obtain ⟨_, _, rfl⟩ := rewired
  unfold portlet?
  cases request.kind <;> rfl

/-- An adapter that was added can be connected to the portlet that it stands for. -/
theorem connectable {graph : Graph} {target : Node} {portlet : Portlet} (functionName : String)
    (free : request.adapterId ∉ graph.ids) (found : graph.node? request.node = some target)
    (own : request.portlet? target = some portlet) (isMessage : portlet.type = .message) :
    ∃ connected, (⟨graph.slots.set request.adapterId (some (request.adapter functionName))⟩ :
      Graph).connect request.source request.sink = .ok connected := by
  generalize isAdded : (⟨graph.slots.set _ _⟩ : Graph) = added
  have kept : added.node? request.node = some target := isAdded ▸ Graph.node?_set_of_fresh free found
  have placed : added.node? request.adapterId = some (request.adapter functionName) :=
    isAdded ▸ Graph.node?_set.trans (if_pos rfl)
  unfold source sink
  unfold adapter at placed
  unfold portlet? at own
  cases isKind : request.kind with
  | receiver =>
      simp only [isKind] at own placed
      have atSource : added.outletAt? ⟨request.adapterId, "0"⟩ = some ⟨"0", .message⟩ :=
        Graph.outletAt?_eq_some_iff.mpr ⟨_, placed, rfl⟩
      exact Graph.connect_messages atSource rfl (Graph.inletAt?_eq_some_iff.mpr ⟨_, kept, own⟩) isMessage
  | sender =>
      simp only [isKind] at own placed
      have atSink : added.inletAt? ⟨request.adapterId, "0"⟩ = some ⟨"0", .message⟩ :=
        Graph.inletAt?_eq_some_iff.mpr ⟨_, placed, rfl⟩
      exact Graph.connect_messages (Graph.outletAt?_eq_some_iff.mpr ⟨_, kept, own⟩) isMessage atSink rfl

end PortRequest

/-! ## Grafting one port -/

namespace Program

variable {program before after : Program} {request : PortRequest}

/-- Adds the adapter of a port, connects it and registers the port. -/
def graft (program : Program) (request : PortRequest) : Outcome Program := do
  let target ← program.graph.node request.node
  let portlet ← request.lookup target
  if portlet.type ≠ .message then throw request.refusal
  let (functionName, named) ← program.readName request.space request.portlet
  let graph ← program.graph.add (some (request.adapter functionName))
  let graph ← graph.connect request.source request.sink
  let ports ← (program.hostPorts request.kind).add request.key (request.port functionName)
  return withHostPorts { named with graph } ports request.kind

/-- The name of the function is read after the adapter was connected, but reading it cannot fail. -/
theorem addHostReceiver_eq (node inlet : String) :
    program.addHostReceiver node inlet = program.graft ⟨.receiver, node, inlet⟩ := rfl

theorem addHostSender_eq (node outlet : String) :
    program.addHostSender node outlet = program.graft ⟨.sender, node, outlet⟩ := rfl

theorem foldlM_requests {step : Program → String → String → Outcome Program} {ports : Option Ports} :
    (portOrder ports).foldlM (fun program (node, portlets) =>
      portlets.foldlM (fun program portlet => step program node portlet) program) program =
      (requests ports).foldlM (fun program request => step program request.1 request.2) program := by
  unfold requests
  induction portOrder ports generalizing program with
  | nil => rfl
  | cons entry rest ih =>
      rw [List.foldlM_cons, List.flatMap_cons, List.foldlM_append, List.foldlM_map]
      exact bind_congr fun _ => ih

/-- All requests of the settings, those for receivers first. -/
def portRequests (settings : Settings) : List PortRequest :=
  (requests settings.receivers).map (fun request => ⟨.receiver, request.1, request.2⟩) ++
    (requests settings.senders).map fun request => ⟨.sender, request.1, request.2⟩

def portsOf (settings : Settings) : PortKind → Option Ports
  | .receiver => settings.receivers
  | .sender => settings.senders

theorem filter_portRequests (settings : Settings) (kind : PortKind) :
    (portRequests settings).filter (fun request => request.kind = kind) =
      (requests (portsOf settings kind)).map fun request => ⟨kind, request.1, request.2⟩ := by
  cases kind <;> simp [portRequests, portsOf, List.filter_map, Function.comp_def]

theorem graftHostPorts_eq (program : Program) :
    program.graftHostPorts = (portRequests program.settings).foldlM graft program := by
  unfold graftHostPorts portRequests
  rw [List.foldlM_append, List.foldlM_map, foldlM_requests]
  simp only [addHostReceiver_eq]
  refine bind_congr fun received => ?_
  rw [List.foldlM_map, foldlM_requests]
  simp only [addHostSender_eq]

theorem readName_eq (program : Program) {space : NameSpace} (open_ : program.names.Opens space)
    (key : String) :
    ∃ names, program.readName space key =
        .ok (program.names.nameOf space key, { program with names }) ∧
      program.names.Took names [(space, key)] := by
  obtain ⟨names, read, took⟩ := NameIndex.read_eq_ok key open_
  exact ⟨names, by simp [readName, read, bind, Except.bind, pure, Except.pure], took⟩

/-- What a request needs so that the port can be grafted. -/
structure FitsPort (program : Program) (request : PortRequest) : Prop where
  target : ∃ node portlet, program.graph.node? request.node = some node ∧
    request.portlet? node = some portlet ∧ portlet.type = .message
  free : request.adapterId ∉ program.graph.ids
  fresh : request.key ∉ (program.hostPorts request.kind).keys

/-- The port of a request, named after its function. -/
def namedPort (names : NameIndex) (request : PortRequest) : HostPort :=
  request.port (names.nameOf request.space request.portlet)

/-- What grafting a port has done. -/
structure Grafts (before : Program) (request : PortRequest) (after : Program) : Prop extends
    FitsPort before request where
  steps : ∃ added connected names,
    before.graph.add (some (request.adapter (before.names.nameOf request.space request.portlet))) =
      .ok added ∧
    added.connect request.source request.sink = .ok connected ∧
    before.names.Took names [(request.space, request.portlet)] ∧
    after = Program.withHostPorts { before with graph := connected, names }
      { before.hostPorts request.kind with
        entries := (before.hostPorts request.kind).entries.set request.key
          (namedPort before.names request) } request.kind

/-- Grafting a port fails only if the port does not fit. -/
theorem graft_ends : Ends (program.graft request) (fun _ => ¬ program.FitsPort request)
    (Grafts program request) := by
  unfold graft
  refine (Graph.node_ends.mono (fun _ missing fits => ?_) fun _ _ held => held).bind
    fun target _ found => ?_
  · obtain ⟨_, _, stored, _⟩ := fits.target
    cases missing.symm.trans stored
  refine (PortRequest.lookup_ends.mono (fun _ missing fits => ?_) fun _ _ held => held).bind
    fun portlet _ own => ?_
  · obtain ⟨_, _, stored, isOwn, _⟩ := fits.target
    cases found.symm.trans stored
    cases missing.symm.trans isOwn
  dsimp only
  split
  · next notMessage =>
    intro fits
    obtain ⟨_, _, stored, isOwn, isMessage⟩ := fits.target
    cases found.symm.trans stored
    cases own.symm.trans isOwn
    exact notMessage isMessage
  · next isMessage =>
    have isMessage := not_not.mp isMessage
    have opens : program.names.Opens request.space := by
      unfold PortRequest.space
      cases request.kind <;> trivial
    obtain ⟨names, reading, took⟩ := program.readName_eq opens request.portlet
    refine .step reading ?_
    generalize isName : program.names.nameOf request.space request.portlet = functionName
    refine ((Graph.add_ends ?_).mono (fun _ taken fits => ?_) fun _ _ held => held).bind
      fun added adding given => ?_
    · rw [PortRequest.id_adapter]
      exact PortRequest.adapterId_ne
    · rw [PortRequest.id_adapter] at taken
      exact fits.free taken
    rw [PortRequest.id_adapter] at given
    obtain ⟨free, rfl⟩ := given
    obtain ⟨connected, connecting⟩ := PortRequest.connectable functionName free found own isMessage
    refine .step connecting ?_
    refine (Register.add_ends.mono (fun _ taken fits => fits.fresh taken) fun _ _ held => held).bind
      fun ports _ given => ?_
    obtain ⟨fresh, rfl⟩ := given
    subst isName
    exact Outcome.ends_pure ⟨⟨⟨target, portlet, found, own, isMessage⟩, free, fresh⟩,
      _, connected, names, adding, connecting, took, rfl⟩

namespace Grafts

variable (grafts : Grafts before request after)

include grafts

theorem frame : ∃ graph names hostReceivers hostSenders, after =
    { before with graph, names, hostReceivers, hostSenders } := by
  obtain ⟨_, _, _, _, _, _, rfl⟩ := grafts.steps
  unfold withHostPorts
  cases request.kind <;> exact ⟨_, _, _, _, rfl⟩

theorem names : before.names.Took after.names [(request.space, request.portlet)] := by
  obtain ⟨_, _, _, _, _, took, rfl⟩ := grafts.steps
  unfold withHostPorts
  cases request.kind <;> exact took

/-- The port is registered behind the other ports of its kind. -/
theorem ports (kind : PortKind) : (after.hostPorts kind).entries.entries =
    (before.hostPorts kind).entries.entries ++
      if request.kind = kind then [(request.key, namedPort before.names request)] else [] := by
  obtain ⟨_, _, _, _, _, _, rfl⟩ := grafts.steps
  rw [hostPorts_withHostPorts]
  split
  · next same =>
    subst same
    exact Table.entries_set_of_fresh grafts.fresh
  · cases kind <;> exact (List.append_nil _).symm

theorem keys (kind : PortKind) : (after.hostPorts kind).keys =
    (before.hostPorts kind).keys ++ if request.kind = kind then [request.key] else [] := by
  have ports := congrArg (List.map Prod.fst) (grafts.ports kind)
  rw [List.map_append] at ports
  refine ports.trans (congrArg (_ ++ ·) ?_)
  split <;> rfl

/-- The adapter is a new node, and only the two ends of its connection are changed. -/
theorem graph : ∃ added, before.graph.add
      (some (request.adapter (before.names.nameOf request.space request.portlet))) = .ok added ∧
    added.connect request.source request.sink = .ok after.graph := by
  obtain ⟨added, connected, _, adding, connecting, _, rfl⟩ := grafts.steps
  refine ⟨added, adding, ?_⟩
  unfold withHostPorts
  cases request.kind <;> exact connecting

theorem wellFormed (wellFormed : before.graph.WellFormed) : after.graph.WellFormed := by
  obtain ⟨added, adding, connecting⟩ := grafts.graph
  exact (wellFormed.add (PortRequest.adapter_fits _ _) adding).connect connecting

theorem kept {id : String} {node : Node} (found : before.graph.node? id = some node) :
    ∃ now, after.graph.node? id = some now ∧ node.Rewired now := by
  obtain ⟨added, adding, connecting⟩ := grafts.graph
  obtain ⟨_, fresh, rfl⟩ := Graph.add_eq_ok_iff.mp adding
  exact Graph.exists_connected connecting (Graph.node?_set_of_fresh fresh found)

theorem placed : ∃ now, after.graph.node? request.adapterId = some now ∧
    (request.adapter (before.names.nameOf request.space request.portlet)).Rewired now := by
  obtain ⟨added, adding, connecting⟩ := grafts.graph
  obtain ⟨_, fresh, rfl⟩ := Graph.add_eq_ok_iff.mp adding
  rw [PortRequest.id_adapter] at connecting
  exact Graph.exists_connected connecting (Graph.node?_set.trans (if_pos rfl))

theorem origin {id : String} {now : Node} (found : after.graph.node? id = some now) :
    (∃ node, before.graph.node? id = some node ∧ node.Rewired now) ∨
      (request.adapter (before.names.nameOf request.space request.portlet)).Rewired now := by
  obtain ⟨added, adding, connecting⟩ := grafts.graph
  obtain ⟨_, fresh, rfl⟩ := Graph.add_eq_ok_iff.mp adding
  obtain ⟨node, stored, rewired⟩ := Graph.exists_before_connect connecting found
  rw [Graph.node?_set] at stored
  split at stored
  · cases stored
    exact .inr rewired
  · exact .inl ⟨node, stored, rewired⟩

end Grafts

end Program

end Patchbay
