import Patchbay.Proofs.NodeType.Suited
import Patchbay.Proofs.Program.DeclaredPorts

namespace Patchbay.Program

/-! What passes between the host and a patch.

The host sends into a requested inlet through a function that calls the sender of an adapter, and it
receives from a requested outlet through an adapter whose receiver calls a function of the host.  Both are
followed from the request to the functions in the regions.
-/

open Code (Function Part)

variable {graph : Graph} {catalog : Catalog} {library : Library} {settings : Settings}
  {program : Program} {regions : Regions} {groups : List DspGroup} {id inlet outlet : String}
  {node : Node} {request : String × String}

/-! ## Functions in the regions -/

/-- A message at an outlet runs some receivers in order, then the functions of some cold groups, and
nothing else.  All that takes part is declared. -/
structure Performs (program : Program) (regions : Regions) (id outlet : String) (sender : Sender)
    (receivers : List Function) (triggered : List ColdGroup) : Prop where
  sending : program.sender? id outlet = some sender
  runs : Runs (program.names.nameOf (.module "msg") "nullMessageReceiver") sender
    (receivers.map (fun receiver => receiver.name) ++ triggered.map fun group => group.functionName)
  dispatcher : ∀ dispatcher, sender.dispatcher = some dispatcher →
    Part.ofFunction dispatcher ∈ Code.declarations regions.portlets
  receivers : ∀ receiver ∈ receivers, Part.ofFunction receiver ∈ Code.declarations regions.portlets
  triggered : ∀ group ∈ triggered, program.coldFunction group ∈ Code.declarations regions.coldDsp

/-- The function that hands a message on to another one. -/
def forwarder (name callee : String) : Function :=
  ⟨name, [messageArg], "void", [.text (callee ++ "(m)")]⟩

theorem code_call (callee : String) : Code.code [callee, "(m)"] = [.text (callee ++ "(m)")] := by
  have written : String.join [callee, "(m)"] ≠ "" := by simp [String.join_cons]
  have merged := Code.code_texts written
  simpa [String.join_cons] using merged

theorem func_forwarder (name callee : String) :
    Code.func name [messageArg] "void" [callee, "(m)"] = forwarder name callee := by
  rw [Code.func, code_call, forwarder]

theorem body_receiverTemplate_call (scope : Code.Scope) (naming : Code.Naming) (callee : String) :
    ((receiverTemplate [.text callee, .text "(m)"]).resolve scope naming).body =
      [.text (callee ++ "(m)")] :=
  code_call callee

theorem portletParts_isDeclaration {entry : NodeCode} {part : Part}
    (member : part ∈ portletParts entry) : part.isDeclaration = true := by
  simp only [portletParts, outletParts, List.mem_append, List.mem_map, List.mem_filterMap] at member
  rcases member with (⟨_, _, rfl⟩ | ⟨_, _, rfl⟩) | ⟨sender, _, isPart⟩
  · rfl
  · rfl
  · obtain ⟨_, _, rfl⟩ := Option.map_eq_some_iff.mp isPart
    rfl

namespace Laying

variable (laying : Laying graph catalog library settings program)

include laying

/-- What the regions of a program declare. -/
theorem regions_declare (built : program.regions = .ok regions) :
    Code.declarations regions.portlets =
        program.fullTraversal.flatMap (program.contribution portletParts) ∧
      Code.declarations regions.coldDsp = program.coldDsp.values.map program.coldFunction ∧
      Code.declarations regions.hostReceivers =
        program.hostReceivers.values.map program.receiverFunction := by
  unfold Program.regions at built
  obtain ⟨_, _, built⟩ := Outcome.bind_eq_ok_iff.mp built
  obtain ⟨portlets, wiring, built⟩ := Outcome.bind_eq_ok_iff.mp built
  obtain ⟨coldDsp, cooling, built⟩ := Outcome.bind_eq_ok_iff.mp built
  obtain ⟨hostReceivers, receiving, built⟩ := Outcome.bind_eq_ok_iff.mp built
  obtain ⟨_, _, built⟩ := Outcome.bind_eq_ok_iff.mp built
  obtain ⟨_, _, built⟩ := Outcome.bind_eq_ok_iff.mp built
  obtain ⟨_, _, built⟩ := Outcome.bind_eq_ok_iff.mp built
  cases built
  cases laying.framed.portletsRegion_eq.symm.trans wiring
  cases laying.coldDspRegion_eq.symm.trans cooling
  cases laying.hostReceiversRegion_eq.symm.trans receiving
  refine ⟨Code.declarations_lines_of_all ?_, Code.declarations_lines_of_all ?_,
    Code.declarations_lines_of_all ?_⟩
  · intro part member
    obtain ⟨id, _, member⟩ := List.mem_flatMap.mp member
    cases stored : program.nodes.entries.get? id with
    | none => simp [contribution, stored] at member
    | some entry => exact portletParts_isDeclaration (contribution_eq stored ▸ member)
  · intro part member
    obtain ⟨_, _, rfl⟩ := List.mem_map.mp member
    rfl
  · intro part member
    obtain ⟨_, _, rfl⟩ := List.mem_map.mp member
    rfl

theorem declares_of_portletParts (built : program.regions = .ok regions) {entry : NodeCode}
    (stored : program.nodes.entries.get? id = some entry) {part : Part}
    (member : part ∈ portletParts entry) : part ∈ Code.declarations regions.portlets := by
  obtain ⟨found, isFound⟩ := laying.framed.known stored
  rw [(laying.regions_declare built).1]
  exact List.mem_flatMap.mpr
    ⟨id, laying.framed.listed.mpr ⟨found, isFound⟩, contribution_eq stored ▸ member⟩

/-- What an outlet delivers is performed by functions of the regions. -/
theorem performs (built : program.regions = .ok regions) (found : program.graph.node? id = some node)
    {portlet : Portlet} (isOutlet : portlet ∈ node.outletsOfType .message) {sinks : List Endpoint}
    (sinks_eq : program.graph.sinksAt ⟨id, portlet.id⟩ = sinks) :
    ∃ sender receivers triggered, program.Performs regions id portlet.id sender receivers triggered ∧
      sinks.map (fun sink => program.receiver? sink.node sink.portlet) = receivers.map some ∧
      triggered.Sublist program.coldDsp.values ∧
      ∀ group ∈ program.coldDsp.values, group ∈ triggered ↔
        ∃ sink ∈ sinks, program.MemberBefore laying.groups sink.node (some group.id) := by
  have delivers := laying.delivers found isOutlet
  rw [Graph.sinksAt_eq found] at sinks_eq
  rw [sinks_eq] at delivers
  obtain ⟨sender, receivers, triggered, sending, received, sublist, triggers, runs⟩ := delivers
  refine ⟨sender, receivers, triggered, ⟨sending, runs, ?_, ?_, ?_⟩, received, sublist, triggers⟩
  · intro dispatcher isDispatcher
    obtain ⟨entry, stored, held⟩ := Option.bind_eq_some_iff.mp sending
    refine laying.declares_of_portletParts built stored (List.mem_append_right _ ?_)
    refine List.mem_filterMap.mpr ⟨sender, ?_, by rw [isDispatcher, Option.map_some]⟩
    exact Library.mem_values_of_get? held
  · intro receiver member
    have listed : some receiver ∈ sinks.map fun sink => program.receiver? sink.node sink.portlet := by
      rw [received]
      exact List.mem_map_of_mem member
    obtain ⟨sink, _, isReceiver⟩ := List.mem_map.mp listed
    obtain ⟨entry, stored, held⟩ := Option.bind_eq_some_iff.mp isReceiver
    refine laying.declares_of_portletParts built stored (List.mem_append_left _ ?_)
    exact List.mem_append_right _ (List.mem_map_of_mem (Library.mem_values_of_get? held))
  · intro group member
    rw [(laying.regions_declare built).2.1]
    exact List.mem_map_of_mem (sublist.subset member)

/-! ## Adapters -/

/-- A node that a message can come to keeps the sinks of its message outlets. -/
theorem sinksAt_of_told (told : laying.grafted.graph.Told id)
    (found : laying.grafted.graph.node? id = some node) {portlet : Portlet}
    (isOutlet : portlet ∈ node.outletsOfType .message) : ∃ now,
      program.graph.node? id = some now ∧ portlet ∈ now.outletsOfType .message ∧
        program.graph.sinksAt ⟨id, portlet.id⟩ = laying.grafted.graph.sinksAt ⟨id, portlet.id⟩ := by
  obtain ⟨walked, trimmed⟩ := laying.walks_grafted
  have wellFormed := laying.setup.grafting.wellFormed
  have ⟨root, isRoot, sends⟩ := told
  have kept : id ∈ program.fullTraversal :=
    (Graph.mem_fullTraversal_iff wellFormed walked).mpr (.told isRoot sends)
  refine ⟨Graph.restrictNode program.fullTraversal node, ?_, isOutlet, ?_⟩
  · rw [trimmed, Graph.node?_trim, if_pos kept, found]
    rfl
  · rw [trimmed]
    exact wellFormed.sinksAt_trim_of_told walked told found isOutlet

/-- The adapter of a receiver pushes messages. -/
theorem told_receiver (asked : request ∈ requests settings.receivers) : ∃ now,
    laying.grafted.graph.node? (receiverId request.1 request.2) = some now ∧
      (⟨"0", .message⟩ : Portlet) ∈ now.outletsOfType .message ∧
      laying.grafted.graph.Told (receiverId request.1 request.2) := by
  obtain ⟨now, isAdapter, _, _, rfl⟩ := laying.setup.grafting.receiverAdapter asked
  refine ⟨_, isAdapter, List.mem_filter.mpr ⟨List.mem_singleton_self _, rfl⟩, _, ?_, .refl⟩
  exact Graph.mem_pushing_iff.mpr ⟨_, isAdapter, rfl⟩

/-- The adapter of a sender is never computed, as it has no outlet. -/
theorem senderAdapter_not_cold (asked : request ∈ requests settings.senders) (key : String) :
    ¬ program.MemberBefore laying.groups (senderId request.1 request.2) (some key) := by
  rintro ⟨group, _, indexed, _, inGroup⟩
  have split := laying.divided.splitInto
  have isCold := split.coldGroupsOf.group group (List.fst_mem_of_mem_zipIdx indexed)
  obtain ⟨node, found⟩ := (isCold.cold split.wellFormed inGroup).known
  have feeds : ∃ sink, laying.split.graph.Feeds (senderId request.1 request.2) sink := by
    obtain ⟨out, isOut, reaches⟩ := (isCold.mem_iff split.wellFormed).mp inGroup
    obtain ⟨sink, feeds, _⟩ := (isCold.outs out isOut).2.2
    rcases reaches.cases_head with rfl | ⟨next, feedsNext, _⟩
    · exact ⟨sink, feeds⟩
    · exact ⟨next, feedsNext⟩
  obtain ⟨sink, feeds⟩ := feeds
  obtain ⟨endpoint, member, _⟩ := (split.wellFormed.feeds_iff_signalSinks found).mp feeds
  obtain ⟨before, stored, rewired⟩ := laying.node?_grafted (laying.keeps.graph ▸ found)
  obtain ⟨now, isAdapter, grafted⟩ := laying.setup.grafting.senderAdapter asked
  cases stored.symm.trans isAdapter
  obtain ⟨_, _, rfl⟩ := grafted.trans rewired
  cases member

/-- The adapter of a sender calls the function of the host. -/
theorem receiver?_senderAdapter (asked : request ∈ requests settings.senders) {receiver : Function}
    (given : program.receiver? (senderId request.1 request.2) "0" = some receiver) :
    receiver = forwarder receiver.name (Text.join ["IOSND", request.1, request.2]) := by
  obtain ⟨entry, stored, _⟩ := Option.bind_eq_some_iff.mp given
  obtain ⟨node, found⟩ := laying.framed.known stored
  obtain ⟨before, isBefore, rewired⟩ := laying.node?_grafted found
  obtain ⟨now, isAdapter, grafted⟩ := laying.setup.grafting.senderAdapter asked
  cases isBefore.symm.trans isAdapter
  have receives := laying.receivesAt found given
  obtain ⟨scope, opened, implementation, templates, template, function, filled, opening, implemented,
    isTemplates, isTemplate, filling, _, sameBody⟩ := receives.generated
  obtain ⟨known, names, _, openingNow, _⟩ := laying.framed.scopeOf_eq found
  cases openingNow.symm.trans opening
  have own := laying.implementation?_eq found
  have same : program.catalog.implementation? node.type = some senderAdapter := by
    obtain ⟨_, _, rfl⟩ := grafted.trans rewired
    exact own.trans (implementation?_adapters catalog).2
  cases same.symm.trans implemented
  cases isTemplates
  cases isTemplate
  have filled := (fillReads_ends { program with names } _
    (Code.FunctionTemplate.fill_fills _ _)).of_ok filling
  obtain ⟨_, _, written, _⟩ := filled
  cases written
  have callee : node.textArg "functionName" "" = Text.join ["IOSND", request.1, request.2] := by
    obtain ⟨_, _, rfl⟩ := grafted.trans rewired
    rfl
  have body : receiver.body = [.text (Text.join ["IOSND", request.1, request.2] ++ "(m)")] := by
    rw [sameBody, body_receiverTemplate_call, ← callee]
    rfl
  have args := receives.args
  have result := receives.result
  obtain ⟨_, _, _, _⟩ := receiver
  cases args
  cases result
  cases body
  rfl

end Laying

theorem Runs.sinkFunctions_eq {idle : String} {sender : Sender} {functions : List String}
    (runs : Runs idle sender functions) : sender.sinkFunctions = functions := by
  cases runs <;> rfl

/-! ## Ports -/

/-- A message of the host runs the receiver of the inlet, then that of the adapter of a sender if one was
asked for at the adapter of the port, then the cold group of the node if it is in one. -/
def ReachesInlet (program : Program) (regions : Regions) (groups : List DspGroup)
    (senders : List (String × String)) (id inlet : String) : Prop :=
  ∃ (sender : Sender) (receiver : Function) (forwarding : List Function) (triggered : Option ColdGroup),
    Part.ofFunction (forwarder (Text.join ["IORCV", id, inlet]) sender.name) ∈
      Code.declarations regions.hostReceivers ∧
    program.Performs regions (receiverId id inlet) "0" sender (receiver :: forwarding)
      triggered.toList ∧
    program.receiver? id inlet = some receiver ∧
    forwarding.map some = (if (receiverId id inlet, "0") ∈ senders then
      [program.receiver? (senderId (receiverId id inlet) "0") "0"] else []) ∧
    ∀ group : ColdGroup, triggered = some group ↔
      group ∈ program.coldDsp.values ∧ program.MemberBefore groups id (some group.id)

/-- A message at an outlet runs the receivers of some earlier sinks, then the receiver of an adapter,
which calls the function that the host provides, then cold groups of the earlier sinks. -/
def ReachesHost (program : Program) (regions : Regions) (groups : List DspGroup)
    (earlier : List Endpoint) (id outlet : String) : Prop :=
  ∃ (sender : Sender) (receivers : List Function) (last : Function) (triggered : List ColdGroup),
    program.Performs regions id outlet sender (receivers ++ [last]) triggered ∧
    earlier.map (fun sink => program.receiver? sink.node sink.portlet) = receivers.map some ∧
    program.receiver? (senderId id outlet) "0" = some last ∧
    last = forwarder last.name (Text.join ["IOSND", id, outlet]) ∧
    Code.func (Text.join ["IOSND", id, outlet]) [messageArg] "void" ∈ program.hostSenderFunctions ∧
    triggered.Sublist program.coldDsp.values ∧
    ∀ group ∈ program.coldDsp.values, group ∈ triggered ↔
      ∃ sink ∈ earlier, program.MemberBefore groups sink.node (some group.id)

/-- The sinks of an outlet that come before the adapter of its sender: those of the patch, or the inlet
that the host sends to when the outlet is that of an adapter. -/
def earlierSinks (graph : Graph) (receivers : List (String × String)) (portlet : Endpoint) :
    List Endpoint :=
  graph.sinksAt portlet ++ graftedSinks receivers [] portlet

/-- The requested ports are registered, each with an adapter and a function of its own. -/
structure PortsApart (program : Program) (settings : Settings) : Prop where
  receivers : program.hostReceivers.entries.entries = (requests settings.receivers).map fun request =>
    (Text.join [request.1, request.2], ⟨request.1, request.2,
      Text.join ["IORCV", request.1, request.2], receiverId request.1 request.2⟩)
  senders : program.hostSenders.entries.entries = (requests settings.senders).map fun request =>
    (Text.join [request.1, request.2], ⟨request.1, request.2,
      Text.join ["IOSND", request.1, request.2], senderId request.1 request.2⟩)
  receiverKeys : program.hostReceivers.keys.Nodup
  senderKeys : program.hostSenders.keys.Nodup
  adapters : ((program.hostReceivers.values ++ program.hostSenders.values).map
    HostPort.adapter).Nodup
  functions : ((program.hostReceivers.values ++ program.hostSenders.values).map
    HostPort.functionName).Nodup

/-- A list of at most one item. -/
theorem exists_toList_of_unique {α : Type} {items : List α} (distinct : items.Nodup)
    (unique : ∀ item ∈ items, ∀ other ∈ items, item = other) : ∃ item : Option α, items = item.toList := by
  cases items with
  | nil => exact ⟨none, rfl⟩
  | cons item rest =>
      have none : rest = [] := List.eq_nil_iff_forall_not_mem.mpr fun other later => by
        have same := unique item (by simp) other (by simp [later])
        exact (List.nodup_cons.mp distinct).1 (same ▸ later)
      exact ⟨some item, by rw [none]; rfl⟩

namespace Laying

variable (laying : Laying graph catalog library settings program)

include laying

/-- A node triggers at most the one cold group that it is a member of. -/
theorem triggers_once {triggered : List ColdGroup} (sublist : triggered.Sublist program.coldDsp.values)
    (triggers : ∀ group ∈ program.coldDsp.values, group ∈ triggered ↔
      program.MemberBefore laying.groups id (some group.id)) :
    ∃ own : Option ColdGroup, triggered = own.toList ∧ ∀ group, own = some group ↔
      group ∈ program.coldDsp.values ∧ program.MemberBefore laying.groups id (some group.id) := by
  have split := laying.divided.splitInto
  have ids : (program.coldDsp.values.map fun group => group.id).Nodup :=
    laying.sameGroups.1 ▸ split.coldIds_nodup
  have once : ∃ own : Option ColdGroup, triggered = own.toList := by
    refine exists_toList_of_unique (sublist.nodup (.of_map _ ids)) fun group member other isOther => ?_
    refine List.inj_on_of_nodup_map ids (sublist.subset member) (sublist.subset isOther) ?_
    have inGroup : laying.split.MemberBefore laying.groups id (some group.id) :=
      (triggers group (sublist.subset member)).mp member
    have inOther : laying.split.MemberBefore laying.groups id (some other.id) :=
      (triggers other (sublist.subset isOther)).mp isOther
    exact Option.some_inj.mp (split.memberBefore_unique inGroup inOther)
  obtain ⟨own, rfl⟩ := once
  refine ⟨own, rfl, fun group => ⟨?_, fun ⟨registered, inGroup⟩ => ?_⟩⟩
  · rintro rfl
    have member : group ∈ (some group).toList := by simp
    exact ⟨sublist.subset member, (triggers group (sublist.subset member)).mp member⟩
  · simpa using (triggers group registered).mpr inGroup

theorem reachesInlet (wellFormed : graph.WellFormed) (built : program.regions = .ok regions)
    (asked : request ∈ requests settings.receivers) : program.ReachesInlet regions laying.groups
      (requests settings.senders) request.1 request.2 := by
  obtain ⟨now, isAdapter, isOutlet, told⟩ := laying.told_receiver asked
  obtain ⟨node, found, isOutletNow, same⟩ := laying.sinksAt_of_told told isAdapter isOutlet
  have connected := laying.connected wellFormed
  have distinct := laying.requests_distinct
  have bare : (start graph catalog library settings).graph.sinksAt
      ⟨receiverId request.1 request.2, "0"⟩ = [] := by
    simp [Graph.sinksAt, connected.fresh_receiver asked]
  rw [connected.sinks_eq, bare, List.nil_append,
    graftedSinks_receiver distinct.1 distinct.2 asked] at same
  obtain ⟨sender, receivers, triggered, performs, received, sublist, triggers⟩ :=
    laying.performs built found isOutletNow same
  obtain ⟨receiver, forwarding, rfl, given, forwarded⟩ := List.map_eq_cons_iff.mp received.symm
  have cold : ∀ group ∈ program.coldDsp.values, group ∈ triggered ↔
      program.MemberBefore laying.groups request.1 (some group.id) := by
    intro group registered
    rw [triggers group registered]
    constructor
    · rintro ⟨sink, member, inGroup⟩
      rcases List.mem_cons.mp member with rfl | later
      · exact inGroup
      · split at later
        · next forwards =>
          rw [List.mem_singleton.mp later] at inGroup
          exact (laying.senderAdapter_not_cold forwards _ inGroup).elim
        · cases later
    · exact fun inGroup => ⟨_, List.mem_cons_self .., inGroup⟩
  obtain ⟨own, rfl, isOwn⟩ := laying.triggers_once sublist cold
  refine ⟨sender, receiver, forwarding, own, ?_, performs, given.symm, ?_, isOwn⟩
  · rw [(laying.regions_declare built).2.2, laying.hostReceivers_eq, List.map_map]
    refine List.mem_map.mpr ⟨request, asked, ?_⟩
    have sending : program.sender? (receiverPort (start graph catalog library settings).names
        request).adapter "0" = some sender := performs.sending
    simp only [Function.comp_apply, receiverFunction, sending, Option.map_some, Option.getD_some]
    exact congrArg Part.ofFunction (func_forwarder _ _)
  · rw [forwarded]
    split <;> rfl

theorem reachesHost (wellFormed : graph.WellFormed) (built : program.regions = .ok regions)
    (asked : request ∈ requests settings.senders) (told : laying.grafted.graph.Told request.1) :
    program.ReachesHost regions laying.groups
      (earlierSinks graph (requests settings.receivers) ⟨request.1, request.2⟩) request.1 request.2 := by
  have connected := laying.connected wellFormed
  have distinct := laying.requests_distinct
  obtain ⟨now, ⟨outlet, _⟩, isTarget, isOwn, rfl⟩ := connected.target_sender asked
  obtain rfl : outlet = request.2 := Graph.outlet?_id isOwn
  have isOutlet : ⟨request.2, .message⟩ ∈ now.outletsOfType .message :=
    List.mem_filter.mpr ⟨List.mem_of_find?_eq_some isOwn, by simp⟩
  obtain ⟨node, found, isOutletNow, same⟩ := laying.sinksAt_of_told told isTarget isOutlet
  have own : (start graph catalog library settings).graph.sinksAt ⟨request.1, request.2⟩ =
      graph.sinksAt ⟨request.1, request.2⟩ := wellFormed.sinksAt_trim_sortedIds _
  rw [connected.sinks_eq, graftedSinks_sender distinct.2 asked, own, ← List.append_assoc] at same
  obtain ⟨sender, all, triggered, performs, received, sublist, triggers⟩ :=
    laying.performs built found isOutletNow same
  rw [List.map_append] at received
  obtain ⟨receivers, last, rfl, given, isLast⟩ := List.append_eq_map_iff.mp received
  obtain ⟨last, rfl, givenLast⟩ := List.map_eq_singleton_iff.mp isLast
  refine ⟨sender, receivers, last, triggered, performs, given.symm, givenLast.symm,
    laying.receiver?_senderAdapter asked givenLast.symm, ?_, sublist, ?_⟩
  · unfold hostSenderFunctions
    rw [laying.hostSenders_eq, List.map_map]
    exact List.mem_map.mpr ⟨request, asked, rfl⟩
  · intro group registered
    rw [triggers group registered]
    constructor
    · rintro ⟨sink, member, inGroup⟩
      rcases List.mem_append.mp member with earlier | isAdapter
      · exact ⟨sink, earlier, inGroup⟩
      · rw [List.mem_singleton.mp isAdapter] at inGroup
        exact (laying.senderAdapter_not_cold asked _ inGroup).elim
    · rintro ⟨sink, earlier, inGroup⟩
      exact ⟨sink, List.mem_append_left _ earlier, inGroup⟩

theorem portsApart : program.PortsApart settings := by
  have grafting := laying.setup.grafting
  have distinct := laying.requests_distinct
  refine ⟨?_, ?_, program.hostReceivers.entries.distinct, program.hostSenders.entries.distinct, ?_, ?_⟩
  · rw [laying.hostPorts.1, grafting.hostReceivers]
    rfl
  · rw [laying.hostPorts.2, grafting.hostSenders]
    rfl
  · rw [List.map_append, laying.hostReceivers_eq, laying.hostSenders_eq, List.map_map, List.map_map]
    refine List.nodup_append.mpr ⟨distinct.1.map fun _ _ => receiverId_inj,
      distinct.2.map fun _ _ => senderId_inj, ?_⟩
    intro adapter isReceiver other isSender
    obtain ⟨request, _, rfl⟩ := List.mem_map.mp isReceiver
    obtain ⟨request', _, rfl⟩ := List.mem_map.mp isSender
    exact receiverId_ne_senderId _ _ _ _
  · rw [List.map_append, laying.hostReceivers_eq, laying.hostSenders_eq, List.map_map, List.map_map]
    have inj : ∀ {side other : String} {one two : String × String},
        Text.join [side, one.1, one.2] = Text.join [other, two.1, two.2] → side = other ∧ one = two := by
      intro side other one two same
      have parts := Text.join_injective (by simp) (by simp) same
      simp only [List.cons.injEq, and_true] at parts
      exact ⟨parts.1, Prod.ext parts.2.1 parts.2.2⟩
    refine List.nodup_append.mpr ⟨distinct.1.map fun _ _ same => (inj same).2,
      distinct.2.map fun _ _ same => (inj same).2, ?_⟩
    intro name isReceiver other isSender same
    obtain ⟨request, _, rfl⟩ := List.mem_map.mp isReceiver
    obtain ⟨request', _, rfl⟩ := List.mem_map.mp isSender
    exact absurd (inj same).1 (by decide)

end Laying

/-- Ports of the host are connected end to end.  What the host sends to an inlet goes to its receiver, to
the host again where the settings ask for the outlet of the adapter, and to the cold group of the node;
what leaves an outlet that messages can come to goes to all earlier sinks, then once to the host and to
cold groups.  No two ports share anything, and no graph takes a port twice. -/
theorem host_ports_connected (catalog : Catalog) (library : Library) (settings : Settings) :
    (∀ {graph : Graph} {known : Option Catalog} {reporter : Reporter} {program : Program}
      {regions : Regions}, (graph.check known reporter).2 = .ok () →
      precompile graph catalog library settings = .ok program → program.regions = .ok regions →
      ∃ groups grafted, program.coldGroups = .ok groups ∧
        (start graph catalog library settings).graftHostPorts = .ok grafted ∧
        (∀ request ∈ requests settings.receivers, program.ReachesInlet regions groups
          (requests settings.senders) request.1 request.2) ∧
        (∀ request ∈ requests settings.senders, grafted.graph.Told request.1 →
          program.ReachesHost regions groups (earlierSinks graph (requests settings.receivers)
            ⟨request.1, request.2⟩) request.1 request.2) ∧
        (∀ id node outlet, graph.node? id = some node →
          earlierSinks graph (requests settings.receivers) ⟨id, outlet⟩ = graph.sinksAt ⟨id, outlet⟩) ∧
        program.PortsApart settings) ∧
    (AsksTwice settings.receivers ∨ AsksTwice settings.senders → ∀ graph : Graph,
      ∃ fault, precompile graph catalog library settings = .error fault) := by
  constructor
  · intro graph known reporter program regions accepted compiled built
    have wellFormed := Graph.wellFormed_of_check accepted
    obtain ⟨laying⟩ := laying_of_precompile wellFormed compiled
    refine ⟨laying.groups, laying.grafted,
      laying.sameGroups.2.2.trans laying.divided.splitInto.coldGroups, laying.setup.graftRan,
      fun request asked => laying.reachesInlet wellFormed built asked,
      fun request asked told => laying.reachesHost wellFormed built asked told, ?_,
      laying.portsApart⟩
    intro id node outlet found
    have started : ∃ now, (start graph catalog library settings).graph.node? id = some now ∧
        node.Rewired now := node?_start found
    obtain ⟨now, isNow, _⟩ := started
    have none : graftedSinks (requests settings.receivers) [] ⟨id, outlet⟩ = [] := by
      simp only [graftedSinks, List.filter_nil, List.map_nil, List.append_nil, List.map_eq_nil_iff]
      refine List.filter_eq_nil_iff.mpr fun request asked same => ?_
      rw [decide_eq_true_iff, Endpoint.mk.injEq] at same
      have fresh := (laying.connected wellFormed).fresh_receiver asked
      rw [same.1, isNow] at fresh
      cases fresh
    rw [earlierSinks, none, List.append_nil]
  · intro twice graph
    cases ran : precompile graph catalog library settings with
    | error fault => exact ⟨fault, rfl⟩
    | ok program =>
        unfold precompile precompileWithTrace passes at ran
        simp only [runPasses_cons_eq_ok_iff] at ran
        obtain ⟨grafted, grafting, _⟩ := ran
        have distinct := requests_nodup_of_graft rfl rfl grafting
        rcases twice with receivers | senders
        · exact (not_asksTwice_of_nodup distinct.1 receivers).elim
        · exact (not_asksTwice_of_nodup distinct.2 senders).elim

/-! A signal whose level the host sets.  The host also listens to what it sends to the inlet. -/

def levelNode : Node := { id := "n", type := "sig~", inlets := [⟨"0", .message⟩] }

def levelGraph : Graph := ⟨.ofList [("n", some levelNode)]⟩

def levelPorts : Settings where
  receivers := some (.ofList [("n", some ["0"])])
  senders := some (.ofList [("_ioRcv_n_0", some ["0"])])

/-- The inlet asked for twice. -/
def levelTwice : Settings where
  receivers := some (.ofList [("n", some ["0", "0"])])

theorem level_accepted : (levelGraph.check (some .standard) .discarding).2 = .ok () := by cbv

theorem level_requests : ("n", "0") ∈ requests levelPorts.receivers ∧
    ("_ioRcv_n_0", "0") ∈ requests levelPorts.senders := by
  rw [mem_requests_iff, mem_requests_iff]
  exact ⟨⟨_, _, rfl, rfl, by simp⟩, ⟨_, _, rfl, rfl, by simp⟩⟩

section

-- the ids of the adapters are long, so their comparison is left to the evaluation
attribute [local irreducible] String.decEq String.toList

theorem level_grafted : ∃ grafted,
    (start levelGraph .standard .standard levelPorts).graftHostPorts = .ok grafted ∧
      grafted.graph.pushing = ["_ioRcv_n_0"] := by
  have evaluated : (do
      let grafted ← (start levelGraph .standard .standard levelPorts).graftHostPorts
      return grafted.graph.pushing) = Except.ok ["_ioRcv_n_0"] := by
    cbv
  obtain ⟨grafted, grafting, evaluated⟩ := Outcome.bind_eq_ok_iff.mp evaluated
  exact ⟨grafted, grafting, Except.ok.inj evaluated⟩

end

theorem level_compiled : ∃ program regions,
    precompile levelGraph .standard .standard levelPorts = .ok program ∧
      program.regions = .ok regions := by
  have wellFormed := Graph.wellFormed_of_check level_accepted
  obtain ⟨grafted, grafting, _⟩ := level_grafted
  have isLevel : ∀ {id node}, levelGraph.node? id = some node → node = levelNode := by
    intro id node found
    obtain ⟨slot, held, given⟩ := Option.bind_eq_some_iff.mp found
    cases Table.mem_of_get?_ofList held with
    | head => exact (Option.some_inj.mp given).symm
    | tail _ later => cases later
  have suits : ∀ now, levelNode.Rewired now → NodeType.sig.Suits levelPorts now := by
    rintro now ⟨_, _, rfl⟩
    exact NodeType.sig_suits (by simp [Node.inletsOfType, levelNode]) nofun
  obtain ⟨program, laidOut, _⟩ := suited_graphs_are_laid_out wellFormed
    (fun found => ⟨NodeType.sig, by rw [isLevel found]; rfl⟩) ⟨grafted, grafting, trivial⟩
    Catalog.standard_sound Library.standard_sound fun found isImplemented now rewired => by
      cases isLevel found
      have isSig : NodeType.sig = _ := Option.some_inj.mp isImplemented
      exact isSig ▸ suits now rewired
  obtain ⟨laying⟩ := laying_of_precompile wellFormed laidOut
  obtain ⟨regions, generated, _⟩ := laying.regions_yields
    (laying.setup.supported Catalog.standard_sound Library.standard_sound)
  exact ⟨program, regions, laidOut, generated⟩

theorem level_adapter : receiverId "n" "0" = "_ioRcv_n_0" := by cbv

theorem host_ports_connected_level : ∃ program regions groups,
    (levelGraph.check (some .standard) .discarding).2 = .ok () ∧
      precompile levelGraph .standard .standard levelPorts = .ok program ∧
      program.regions = .ok regions ∧ program.coldGroups = .ok groups ∧
      program.ReachesInlet regions groups (requests levelPorts.senders) "n" "0" ∧
      program.ReachesHost regions groups
        (earlierSinks levelGraph (requests levelPorts.receivers) ⟨"_ioRcv_n_0", "0"⟩) "_ioRcv_n_0" "0" ∧
      AsksTwice levelTwice.receivers ∧
      ∃ fault, precompile levelGraph .standard .standard levelTwice = .error fault := by
  obtain ⟨program, regions, compiled, built⟩ := level_compiled
  obtain ⟨groups, grafted, grouped, grafting, received, sent, _, _⟩ :=
    (host_ports_connected .standard .standard levelPorts).1 level_accepted compiled built
  obtain ⟨again, graftedAgain, pushing⟩ := level_grafted
  cases grafting.symm.trans graftedAgain
  have told : grafted.graph.Told "_ioRcv_n_0" := ⟨_, by rw [pushing]; simp, .refl⟩
  have twice : AsksTwice levelTwice.receivers := ⟨_, "n", ["0", "0"], rfl, rfl, by simp⟩
  have receives := received _ level_requests.1
  have sends := sent _ level_requests.2 told
  have fails : ∃ fault, precompile levelGraph .standard .standard levelTwice = .error fault :=
    (host_ports_connected .standard .standard levelTwice).2 (.inl twice) levelGraph
  exact ⟨program, regions, groups, level_accepted, compiled, built, grouped, receives, sends, twice,
    fails⟩

/-- Where a sender was asked for at the adapter, a message of the host runs more than the receiver of
the inlet and a cold group. -/
theorem ReachesInlet.not_alone {senders : List (String × String)}
    (reaches : program.ReachesInlet regions groups senders id inlet)
    (asked : (receiverId id inlet, "0") ∈ senders) :
    ¬ program.ReachesInlet regions groups [] id inlet := by
  rintro ⟨sender, receiver, none, own, _, performs, given, isNone, isOwn⟩
  obtain ⟨_, _, forwarding, _, _, performsAll, givenAll, isForwarding, isOwnAll⟩ := reaches
  rw [if_pos asked] at isForwarding
  rw [if_neg List.not_mem_nil, List.map_eq_nil_iff] at isNone
  cases given.symm.trans givenAll
  cases performs.sending.symm.trans performsAll.sending
  subst isNone
  have same := Option.ext fun group => (isOwn group).trans (isOwnAll group).symm
  subst same
  have runs := performs.runs.sinkFunctions_eq.symm.trans performsAll.runs.sinkFunctions_eq
  have lengths := congrArg List.length runs
  have one := congrArg List.length isForwarding
  simp only [List.length_append, List.length_map, List.length_cons, List.length_nil] at lengths one
  omega

theorem level_is_forwarded : ∃ program regions groups,
    (levelGraph.check (some .standard) .discarding).2 = .ok () ∧
      precompile levelGraph .standard .standard levelPorts = .ok program ∧
      program.regions = .ok regions ∧ program.coldGroups = .ok groups ∧
      ("n", "0") ∈ requests levelPorts.receivers ∧
      ¬ program.ReachesInlet regions groups [] "n" "0" := by
  have wellFormed := Graph.wellFormed_of_check level_accepted
  obtain ⟨program, regions, compiled, built⟩ := level_compiled
  obtain ⟨laying⟩ := laying_of_precompile wellFormed compiled
  refine ⟨program, regions, laying.groups, level_accepted, compiled, built,
    laying.sameGroups.2.2.trans laying.divided.splitInto.coldGroups, level_requests.1, ?_⟩
  have reaches := laying.reachesInlet wellFormed built level_requests.1
  have asked : (receiverId "n" "0", "0") ∈ requests levelPorts.senders := by
    rw [level_adapter]
    exact level_requests.2
  exact reaches.not_alone asked

end Patchbay.Program
