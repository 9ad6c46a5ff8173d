import Patchbay.Proofs.Program.Naming

namespace Patchbay.Program

/-! The names that were handed out are those of what the program has.

Each pass adds to the index what it names on purpose and what the holes of its templates resolve to.
Following the index from the start to the end gives one list; nothing on it is beside what the program
has names for, and nothing is missing.
-/

open Code (Ask handlesOf)

variable {graph : Graph} {catalog : Catalog} {library : Library} {settings : Settings}
  {program grafted reachable embedded declared ready before after : Program} {id : String} {node : Node}
  {handle : NameSpace × String} {subject : Subject}

/-- Which nodes have state depends on the frame of a program only. -/
theorem KeepsFrame.stateTemplate? (kept : KeepsFrame before after) :
    after.stateTemplate? = before.stateTemplate? := by
  funext id
  unfold Program.stateTemplate?
  rw [kept.graph]
  cases before.graph.node? id with
  | none => rfl
  | some node =>
      have same := congrArg (Option.map Prod.snd) (kept.types node.type)
      simp only [Option.map_map, Function.comp_def] at same
      have bound := congrArg (fun given => given.bind Implementation.state) same
      simpa [Option.bind_map, Function.comp_def] using bound

/-! ## What each pass names -/

/-- The names that declaring the types hands out. -/
def typeHandles (program : Program) : List (NameSpace × String) :=
  program.types.values.flatMap fun type => program.coreHandles type ++ program.shapeHandles type

namespace Setup

variable (setup : Setup graph catalog library settings grafted reachable embedded declared ready)

include setup

theorem keepsDeclared : KeepsSupport embedded declared := setup.declaring.keepsSupport

theorem handed_reachable_iff : handle ∈ reachable.names.handed ↔
    (∃ request ∈ requests settings.receivers, handle = (.hostReceivers request.1, request.2)) ∨
      ∃ request ∈ requests settings.senders, handle = (.hostSenders request.1, request.2) := by
  have same : reachable.names.handed = grafted.names.handed := by
    obtain ⟨_, _, _, _, rfl⟩ := setup.keeping.frame
    rfl
  have fresh : (start graph catalog library settings).names.handed = [] := rfl
  rw [same, setup.grafting.names.mem_handed_iff, fresh]
  simp [portRequests, PortRequest.space, eq_comm]

theorem handed_embedded_iff : handle ∈ embedded.names.handed ↔
    handle ∈ reachable.moduleAsks.filterMap Ask.handle? ∨ handle ∈ reachable.names.handed := by
  obtain ⟨names, rfl, took⟩ := setup.embedding
  obtain ⟨_, registered⟩ := reachable.registered_eq
  have same : reachable.registered.handed = reachable.names.handed := by
    rw [registered]
    rfl
  rw [← same]
  exact took.mem_handed_iff

theorem backed_of_moduleAsks (supported : embedded.Supported)
    (member : handle ∈ reachable.moduleAsks.filterMap Ask.handle?) :
    embedded.Backed handle.1 handle.2 := by
  obtain ⟨ask, asked, isHandle⟩ := List.mem_filterMap.mp member
  obtain ⟨module, linked, asked⟩ := List.mem_flatMap.mp asked
  exact supported.backed_of_asks (setup.embedding.modules_eq ▸ linked) asked isHandle

theorem mem_moduleAsks (supported : embedded.Supported) {module : Module} {key : String}
    (linked : module ∈ embedded.dependencies.modules) (isKey : key ∈ module.keys) :
    (.module module.namespaceName, key) ∈ reachable.moduleAsks.filterMap Ask.handle? := by
  have sound := supported.library.modules (supported.modules module linked)
  exact List.mem_filterMap.mpr ⟨.name (.module module.namespaceName) key,
    List.mem_flatMap.mpr ⟨module, setup.embedding.modules_eq ▸ linked, sound.asks_key isKey⟩, rfl⟩

end Setup

/-- A type that is registered is listed under its own name. -/
theorem Framed.registered_of_mem (framed : program.Framed) {type : TypeCode}
    (listed : type ∈ program.types.values) :
    program.types.entries.get? type.type = some type := by
  obtain ⟨name, found⟩ := Table.mem_values_iff.mp listed
  rw [(framed.typed found).1]
  exact found

theorem Framed.backed_of_typeHandles (framed : program.Framed) (supported : program.Supported)
    (member : handle ∈ program.typeHandles) : program.Backed handle.1 handle.2 := by
  obtain ⟨type, listed, member⟩ := List.mem_flatMap.mp member
  have registered := framed.registered_of_mem listed
  rcases List.mem_append.mp member with core | shape
  · exact supported.backed_of_coreHandles registered core
  · obtain ⟨template, given, shape⟩ := List.mem_flatMap.mp shape
    obtain ⟨first, node, _, isFirst, found, typed, _⟩ := framed.firstOfType_eq registered
    rw [isFirst, Option.toList_some, List.flatMap_singleton] at shape
    exact supported.backed_of_recordHandles found (typed ▸ registered) (Option.mem_toList.mp given) shape

theorem Framed.mem_typeHandles (framed : program.Framed) (supported : program.Supported) {name key : String}
    {type : TypeCode} (registered : program.types.entries.get? name = some type)
    (isKey : key ∈ type.implementation.keys) : (.nodeType name, key) ∈ program.typeHandles := by
  have ownName := (framed.typed registered).1
  refine List.mem_flatMap.mpr ⟨type, Table.mem_values_iff.mpr ⟨name, registered⟩, ?_⟩
  rcases List.mem_append.mp isKey with isState | isCore
  · obtain ⟨template, given, rfl⟩ := List.mem_map.mp isState
    obtain ⟨first, node, entry, isFirst, found, typed, stored⟩ := framed.firstOfType_eq registered
    refine List.mem_append_right _ (List.mem_flatMap.mpr ⟨template, given, ?_⟩)
    rw [ownName, isFirst, Option.toList_some, List.flatMap_singleton, ← typed]
    exact supported.mem_recordHandles found stored (typed ▸ registered) (Option.mem_toList.mp given)
  · refine List.mem_append_left _ ?_
    rw [← ownName]
    exact supported.mem_coreHandles registered isCore

theorem Supported.backed_of_ownHandles (supported : program.Supported)
    (member : handle ∈ program.ownHandles id) : program.Backed handle.1 handle.2 := by
  obtain ⟨template, given, member⟩ := List.mem_flatMap.mp member
  obtain ⟨node, found, given⟩ := Option.bind_eq_some_iff.mp (Option.mem_toList.mp given)
  obtain ⟨type, registered, given⟩ := Option.bind_eq_some_iff.mp given
  exact supported.backed_of_recordHandles found registered given member

theorem senderHandles_of_several {outlet : String} {functions : List String}
    (several : 2 ≤ functions.length) : senderHandles id outlet functions = [(.senders id, outlet)] := by
  unfold senderHandles
  split
  · simp at several
  · simp at several
  · rfl

theorem mem_senderHandles_of_few {outlet : String} {functions : List String}
    (few : ¬ 2 ≤ functions.length) (member : handle ∈ senderHandles id outlet functions) :
    functions = [] ∧ handle = (.module "msg", "nullMessageReceiver") := by
  cases functions with
  | nil => exact ⟨rfl, List.mem_singleton.mp member⟩
  | cons first rest =>
      cases rest with
      | nil => cases member
      | cons second rest => simp at few

/-- What wiring names: the connected portlets, the variables and, on the side, one key of the message
module. -/
theorem Supported.named_of_wiringHandles (supported : program.Supported)
    (member : handle ∈ program.wiringHandles) : program.Named (.handle handle.1 handle.2) := by
  simp only [wiringHandles, List.mem_append, List.mem_flatMap] at member
  rcases member with ⟨id, _, member⟩ | ⟨id, _, member⟩ | ⟨id, looped, member⟩
  · cases found : program.graph.node? id with
    | none => simp [receiverHandles, found] at member
    | some node =>
        simp only [receiverHandles, found, Option.map_some, Option.getD_some] at member
        obtain ⟨inlet, connected, rfl⟩ := List.mem_map.mp member
        exact .receiver found connected
  · cases found : program.graph.node? id with
    | none => simp [messageHandles, found] at member
    | some node =>
        simp only [messageHandles, found, Option.map_some, Option.getD_some] at member
        obtain ⟨outlet, isOutlet, member⟩ := List.mem_flatMap.mp member
        by_cases several : 2 ≤ (program.functionsOf (node.sinksOf outlet.id)).length
        · rw [senderHandles_of_several several, List.mem_singleton] at member
          subst member
          exact .sender found isOutlet several
        · obtain ⟨_, rfl⟩ := mem_senderHandles_of_few several member
          exact .backed (supported.essential ("msg", "nullMessageReceiver")
            (by simp [Library.essential]))
  · cases found : program.graph.node? id with
    | none => simp [variableHandles, signalOutlets, found] at member
    | some node =>
        simp only [variableHandles, signalOutlets, found, Option.map_some, Option.getD_some] at member
        obtain ⟨outlet, isOutlet, rfl⟩ := List.mem_map.mp member
        exact .outlet looped found isOutlet

/-! ## All passes -/

namespace Laying

variable (laying : Laying graph catalog library settings program)

include laying

/-- Wiring, generating and completing leave the groups, the modules and the ports of the host. -/
theorem same_split : program.library = laying.split.library ∧
    program.dependencies = laying.split.dependencies ∧
    program.loopNodes = laying.split.loopNodes ∧ program.coldDsp = laying.split.coldDsp ∧
    program.functionsOf = laying.split.functionsOf ∧
    program.hostReceivers = laying.split.hostReceivers ∧
    program.hostSenders = laying.split.hostSenders := by
  have akin := laying.emitting.akin.trans laying.completing.names.toAkin
  obtain ⟨names, nodes, same⟩ := laying.frame
  generalize laying.split = split at same akin
  subst same
  exact ⟨rfl, rfl, rfl, rfl, functionsOf_congr akin rfl rfl, rfl, rfl⟩

theorem keepsSupport : KeepsSupport laying.split program :=
  .of_keeps laying.keeps laying.same_split.1 laying.same_split.2.1
    (laying.emitting.akin.trans laying.completing.names.toAkin)

/-- From the embedding of the modules to the end. -/
theorem keepsEmbedded : KeepsSupport laying.embedded program :=
  laying.setup.keepsDeclared.trans (laying.setup.instantiating.keepsSupport.trans
    (laying.divided.keepsSupport.trans laying.keepsSupport))

/-- The types of a program are those that it was started with. -/
theorem implementation?_eq (found : program.graph.node? id = some node) :
    program.catalog.implementation? node.type = (withAdapters catalog).implementation? node.type := by
  obtain ⟨type, registered⟩ := laying.framed.types found
  obtain ⟨_, implemented, _⟩ := laying.framed.typed registered
  obtain ⟨old, isOld, same⟩ := laying.keepsEmbedded.type registered
  obtain ⟨_, embedded, _⟩ := laying.setup.embedding
  rw [embedded] at isOld
  rw [implemented, laying.setup.keeping.implemented laying.setup.grafting isOld, same]

theorem keepsFrameSplit : KeepsFrame laying.ready laying.split := by
  obtain ⟨_, _, _, _, _, _, _, same⟩ := laying.divided.frame
  have took := laying.divided.names
  refine ⟨?_, ?_, ?_, ?_, ?_, fun name => ?_, took.graph, took.labels⟩ <;> rw [same]

/-- The ports of the host stay as they were grafted on. -/
theorem hostPorts : program.hostReceivers = laying.grafted.hostReceivers ∧
    program.hostSenders = laying.grafted.hostSenders := by
  obtain ⟨_, _, _, _, _, receivers, senders⟩ := laying.same_split
  obtain ⟨_, _, _, _, _, _, _, split⟩ := laying.divided.frame
  obtain ⟨_, _, ready⟩ := laying.setup.instantiating.frame
  obtain ⟨_, _, declared⟩ := laying.setup.declaring.frame
  obtain ⟨_, embedded, _⟩ := laying.setup.embedding
  obtain ⟨_, _, _, _, reachable⟩ := laying.setup.keeping.frame
  rw [receivers, senders, split, ready, declared, embedded, reachable]
  exact ⟨rfl, rfl⟩

theorem hostReceivers_eq : program.hostReceivers.values = (requests settings.receivers).map
    (receiverPort (start graph catalog library settings).names) := by
  rw [laying.hostPorts.1]
  unfold Register.values Table.values
  rw [laying.setup.grafting.hostReceivers, List.map_map]
  rfl

theorem hostSenders_eq : program.hostSenders.values = (requests settings.senders).map
    (senderPort (start graph catalog library settings).names) := by
  rw [laying.hostPorts.2]
  unfold Register.values Table.values
  rw [laying.setup.grafting.hostSenders, List.map_map]
  rfl

/-- The names handed out, pass by pass. -/
theorem handed_iff : handle ∈ program.names.handed ↔
    (∃ id ∈ laying.emitted.fullTraversal, handle ∈ laying.emitted.completionHandles id) ∨
    (∃ event ∈ laying.events, handle ∈ laying.wired.eventHandles event) ∨
    handle ∈ laying.split.wiringHandles ∨
    (∃ id ∈ laying.split.coldDsp.keys, handle = (.coldGroups, id)) ∨
    (∃ id ∈ laying.declared.fullTraversal, handle ∈ laying.declared.ownHandles id) ∨
    handle ∈ laying.embedded.typeHandles ∨
    handle ∈ laying.reachable.moduleAsks.filterMap Ask.handle? ∨
    (∃ request ∈ requests settings.receivers, handle = (.hostReceivers request.1, request.2)) ∨
    ∃ request ∈ requests settings.senders, handle = (.hostSenders request.1, request.2) := by
  rw [laying.completing.names.handed, laying.emitting.names.handed, laying.wiring.names.handed,
    laying.divided.names.mem_handed_iff, laying.setup.instantiating.names.handed,
    laying.setup.declaring.names.handed, laying.setup.handed_embedded_iff,
    laying.setup.handed_reachable_iff]
  simp only [List.mem_flatMap, List.mem_map, eq_comm (b := handle), typeHandles]

/-- Reading a name again leaves the index as it is, so nothing is listed twice. -/
theorem tidy : program.names.Tidy := by
  have grafted : laying.grafted.names.Tidy :=
    laying.setup.grafting.names.tidy ⟨.nil, by simp [start], .nil⟩
  have reachable : laying.reachable.names.Tidy := by
    obtain ⟨_, _, _, _, same⟩ := laying.setup.keeping.frame
    rw [same]
    exact ⟨grafted.spaces, grafted.keys, grafted.states⟩
  have embedded : laying.embedded.names.Tidy := by
    obtain ⟨names, same, took⟩ := laying.setup.embedding
    obtain ⟨_, registered⟩ := laying.reachable.registered_eq
    rw [same]
    refine took.tidy ?_
    rw [registered]
    exact ⟨reachable.spaces, reachable.keys, reachable.states⟩
  have ready := laying.setup.instantiating.names.tidy (laying.setup.declaring.names.tidy embedded)
  exact laying.completing.names.tidy <| laying.emitting.names.tidy <| laying.wiring.names.tidy <|
    laying.divided.names.tidy ready

/-- The nodes that have a state variable. -/
theorem states_iff : id ∈ program.names.states ↔
    (∃ other ∈ laying.declared.fullTraversal, id ∈ laying.declared.ownStates other) ∨
      ∃ type ∈ laying.embedded.types.values, id ∈ laying.embedded.shapeStates type := by
  have fresh : laying.embedded.names.states = [] := by
    obtain ⟨names, same, took⟩ := laying.setup.embedding
    obtain ⟨_, registered⟩ := laying.reachable.registered_eq
    obtain ⟨_, _, _, _, reachable⟩ := laying.setup.keeping.frame
    rw [same]
    change names.states = []
    rw [took.states, registered, reachable]
    exact laying.setup.grafting.names.states
  rw [laying.completing.names.states, laying.emitting.names.states, laying.wiring.names.states,
    laying.divided.names.states, laying.setup.instantiating.names.states,
    laying.setup.declaring.names.states, fresh]
  simp

theorem keepsReady : KeepsSupport laying.embedded laying.ready :=
  laying.setup.keepsDeclared.trans laying.setup.instantiating.keepsSupport

theorem stateTemplate? : program.stateTemplate? = laying.declared.stateTemplate? ∧
    program.stateTemplate? = laying.embedded.stateTemplate? := by
  have fromDeclared := laying.setup.instantiating.keeps.trans
    (laying.keepsFrameSplit.trans laying.keeps)
  exact ⟨fromDeclared.stateTemplate?, (laying.setup.declaring.keeps.trans fromDeclared).stateTemplate?⟩

/-- A node whose type has state has a state variable. -/
theorem mem_states_of_template {template : Site → Option Code.RecordTemplate}
    (given : program.stateTemplate? id = some template) : id ∈ program.names.states := by
  refine laying.states_iff.mpr (.inl ⟨id, ?_, ?_⟩)
  · rw [laying.stateTemplate?.1] at given
    obtain ⟨node, found, _⟩ := Option.bind_eq_some_iff.mp given
    exact laying.setup.framedDeclared.listed.mpr ⟨node, found⟩
  · rw [ownStates, ← laying.stateTemplate?.1, given]
    simp

/-- Whatever was handed out is the name of something that the program has. -/
theorem named_of_handed (supported : laying.embedded.Supported)
    (member : handle ∈ program.names.handed) : program.Named (.handle handle.1 handle.2) := by
  have toSplit := laying.keepsReady.trans laying.divided.keepsSupport
  have backed : ∀ {stage : Program}, KeepsSupport laying.embedded stage →
      stage.Backed handle.1 handle.2 → program.Named (.handle handle.1 handle.2) :=
    fun kept held => .backed (laying.keepsEmbedded.symm.backed (kept.backed held))
  rcases laying.handed_iff.mp member with ⟨id, listed, member⟩ | ⟨event, isEvent, member⟩ | member |
    ⟨id, isGroup, rfl⟩ | ⟨id, _, member⟩ | member | member | ⟨request, isRequest, rfl⟩ |
    ⟨request, isRequest, rfl⟩
  · have framed := laying.divided.framed.of_keeps laying.emitting.keeps
    have kept := toSplit.trans laying.emitting.toRunning.keepsSupport
    obtain ⟨node, found⟩ := framed.listed.mp listed
    obtain ⟨entry, stored⟩ := framed.entry found
    exact backed kept ((kept.supported supported).backed_of_completionHandles found stored member)
  · have kept := toSplit.trans laying.wiring.toRunning.keepsSupport
    cases event with
    | write writer inlet code => cases member
    | generate id scope dsp =>
        obtain ⟨node, entry, found, _, isScope⟩ := (laying.emitting.generates isEvent).placed
        have space : scope.space = .nodeType node.type := by
          rw [isScope]
          rfl
        exact backed kept ((kept.supported supported).backed_of_dspHandles found space member)
  · have named := (toSplit.supported supported).named_of_wiringHandles member
    obtain ⟨_, _, loopNodes, _, functions, _⟩ := laying.same_split
    generalize handle.1 = space at named backed ⊢
    generalize handle.2 = key at named backed ⊢
    cases named with
    | backed held => exact backed toSplit held
    | outlet looped found isOutlet =>
        exact .outlet (loopNodes ▸ looped) (laying.keeps.graph ▸ found) isOutlet
    | receiver found connected => exact .receiver (laying.keeps.graph ▸ found) connected
    | sender found isOutlet several =>
        exact .sender (laying.keeps.graph ▸ found) isOutlet (functions ▸ several)
    | coldGroup registered =>
        exact .coldGroup (laying.same_split.2.2.2.1 ▸ registered)
    | hostReceiver registered =>
        exact .hostReceiver (laying.same_split.2.2.2.2.2.1 ▸ registered)
    | hostSender registered =>
        exact .hostSender (laying.same_split.2.2.2.2.2.2 ▸ registered)
  · exact .coldGroup (laying.same_split.2.2.2.1 ▸ isGroup)
  · have kept := laying.setup.keepsDeclared
    exact backed kept ((kept.supported supported).backed_of_ownHandles member)
  · exact .backed (laying.keepsEmbedded.symm.backed
      (laying.setup.framedEmbedded.backed_of_typeHandles supported member))
  · exact .backed (laying.keepsEmbedded.symm.backed
      (laying.setup.backed_of_moduleAsks supported member))
  · have listed : receiverPort (start graph catalog library settings).names request ∈
        program.hostReceivers.values := by
      rw [laying.hostReceivers_eq]
      exact List.mem_map_of_mem isRequest
    exact .hostReceiver listed
  · have listed : senderPort (start graph catalog library settings).names request ∈
        program.hostSenders.values := by
      rw [laying.hostSenders_eq]
      exact List.mem_map_of_mem isRequest
    exact .hostSender listed

/-- The name of everything that the program has was handed out. -/
theorem handedOut_of_named (supported : laying.embedded.Supported) (named : program.Named subject) :
    program.names.HandedOut subject := by
  obtain ⟨_, _, loopNodes, coldDsp, functions, _, _⟩ := laying.same_split
  have sameGraph := laying.keeps.graph
  cases named with
  | backed held =>
      refine laying.handed_iff.mpr ?_
      have before := laying.keepsEmbedded.backed held
      cases before with
      | module linked isKey =>
          exact .inr <| .inr <| .inr <| .inr <| .inr <| .inr <| .inl
            (laying.setup.mem_moduleAsks supported linked isKey)
      | nodeType registered isKey =>
          exact .inr <| .inr <| .inr <| .inr <| .inr <| .inl
            (laying.setup.framedEmbedded.mem_typeHandles supported registered isKey)
  | state given => exact laying.mem_states_of_template given
  | @outlet id node outlet looped found isOutlet =>
      rw [loopNodes] at looped
      rw [sameGraph] at found
      refine laying.handed_iff.mpr (.inr (.inr (.inl ?_)))
      refine List.mem_append_right _ (List.mem_append_right _ (List.mem_flatMap.mpr ⟨id, looped, ?_⟩))
      simp only [variableHandles, signalOutlets, found, Option.map_some, Option.getD_some]
      exact List.mem_map_of_mem isOutlet
  | @receiver id node inlet found connected =>
      rw [sameGraph] at found
      refine laying.handed_iff.mpr (.inr (.inr (.inl ?_)))
      refine List.mem_append_left _ (List.mem_flatMap.mpr
        ⟨id, laying.divided.framed.listed.mpr ⟨node, found⟩, ?_⟩)
      simp only [receiverHandles, found, Option.map_some, Option.getD_some]
      exact List.mem_map_of_mem connected
  | @sender id node outlet found isOutlet several =>
      rw [sameGraph] at found
      rw [functions] at several
      refine laying.handed_iff.mpr (.inr (.inr (.inl ?_)))
      refine List.mem_append_right _ (List.mem_append_left _ (List.mem_flatMap.mpr
        ⟨id, laying.divided.framed.listed.mpr ⟨node, found⟩, ?_⟩))
      simp only [messageHandles, found, Option.map_some, Option.getD_some]
      refine List.mem_flatMap.mpr ⟨outlet, isOutlet, ?_⟩
      rw [senderHandles_of_several several]
      exact List.mem_singleton_self _
  | @coldGroup id registered =>
      rw [coldDsp] at registered
      exact laying.handed_iff.mpr (.inr (.inr (.inr (.inl ⟨id, registered, rfl⟩))))
  | @hostReceiver hostPort registered =>
      rw [laying.hostReceivers_eq] at registered
      obtain ⟨request, isRequest, rfl⟩ := List.mem_map.mp registered
      exact laying.handed_iff.mpr <| .inr <| .inr <| .inr <| .inr <| .inr <| .inr <| .inr <| .inl
        ⟨request, isRequest, rfl⟩
  | @hostSender hostPort registered =>
      rw [laying.hostSenders_eq] at registered
      obtain ⟨request, isRequest, rfl⟩ := List.mem_map.mp registered
      exact laying.handed_iff.mpr <| .inr <| .inr <| .inr <| .inr <| .inr <| .inr <| .inr <| .inr
        ⟨request, isRequest, rfl⟩

theorem named_of_states (member : id ∈ program.names.states) : program.Named (.state id) := by
  rcases laying.states_iff.mp member with ⟨other, _, isOwn⟩ | ⟨type, listed, isShape⟩
  · obtain ⟨template, given, rfl⟩ := List.mem_map.mp isOwn
    rw [← laying.stateTemplate?.1] at given
    exact .state (Option.mem_toList.mp given)
  · have framed := laying.setup.framedEmbedded
    have registered := framed.registered_of_mem listed
    obtain ⟨first, node, _, isFirst, found, typed, _⟩ := framed.firstOfType_eq registered
    obtain ⟨template, given, isShape⟩ := List.mem_flatMap.mp isShape
    rw [isFirst, Option.toList_some, List.mem_singleton] at isShape
    subst isShape
    suffices own : program.stateTemplate? id = some template from .state own
    rw [laying.stateTemplate?.2, Program.stateTemplate?, found]
    simp [typed, registered, Option.mem_toList.mp given]

theorem handedOut_iff (supported : laying.embedded.Supported) :
    program.names.HandedOut subject ↔ program.Named subject := by
  refine ⟨fun handedOut => ?_, laying.handedOut_of_named supported⟩
  cases subject with
  | handle space key =>
      have isHanded : (space, key) ∈ program.names.handed := handedOut
      exact laying.named_of_handed supported isHanded
  | state node => exact laying.named_of_states handedOut

end Laying

end Patchbay.Program
