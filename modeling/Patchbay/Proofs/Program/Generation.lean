import Patchbay.Proofs.Code.Writable
import Patchbay.Proofs.Program.Delivery
import Patchbay.Proofs.Program.HandedOut
import Patchbay.Proofs.Program.InletStatements

namespace Patchbay

/-! The regions of a program that was laid out can be generated.

Most regions go through nodes that are there anyway.  A state record needs a value for every member, a
port of the host the sender of its adapter, and the loop and the triggers a runtime module each.
-/

open Code (Part Sequence Template)
open Outcome (Yields)

namespace Program

variable {graph : Graph} {catalog : Catalog} {library : Library} {settings : Settings}
  {program grafted reachable embedded declared ready : Program} {id : String} {node : Node}
  {entry : NodeCode}

/-! ## State records -/

/-- Whether a member of a state record has a value in an instance. -/
def HasValue (member : Code.Slot) : Prop :=
  (∃ value, zeroValue? member.1.type = some value) ∨
    ∃ value, member.2 = some value ∧ value.isEmpty = false

theorem hasValue_of_isInitialized {scope : Code.Scope} {naming : Code.Naming} :
    {members : List (Template × Template × List Template)} →
    members.all Implementation.isInitialized = true →
    ∀ member ∈ Code.resolveMembers scope naming members, HasValue member
  | [], _ => by simp [Code.resolveMembers]
  | (type, name, value) :: rest, all => by
      obtain ⟨first, later⟩ := Bool.and_eq_true_iff.mp all
      intro member isMember
      rw [Code.resolveMembers] at isMember
      rcases List.mem_cons.mp isMember with rfl | isLater
      · rcases Bool.or_eq_true_iff.mp first with hasZero | hasText
        · obtain ⟨zero, isZero⟩ := Option.isSome_iff_exists.mp hasZero
          obtain ⟨text, isText, isValue⟩ := Option.bind_eq_some_iff.mp isZero
          refine .inl ⟨zero, ?_⟩
          cases type with
          | text written =>
              cases isText
              simpa [Code.member, Template.resolve, Part.plainText, Part.pieces] using isValue
          | _ => cases isText
        · obtain ⟨part, isPart, solid⟩ := List.any_eq_true.mp hasText
          have resolved : part.resolve scope naming ∈ Code.resolveAll scope naming value :=
            Code.mem_resolveAll isPart
          have given := Code.valueOf_of_solid resolved (Code.isSolid_resolve solid)
          exact .inr ⟨_, given, Code.isEmpty_code_of_solid resolved (Code.isSolid_resolve solid)⟩
      · exact hasValue_of_isInitialized later member isLater

theorem memberValue_yields {stateName : String} {member : Code.Slot} (valued : HasValue member) :
    Yields (memberValue stateName member) fun value => ∀ dialect,
      Code.SlotsSound dialect [member] → (Part.sequence value).Sound dialect := by
  have zero : ∀ value, zeroValue? member.1.type = some value →
      Yields (memberValue.zero stateName member.1) fun value => ∀ dialect,
        Code.SlotsSound dialect [member] → (Part.sequence value).Sound dialect := by
    intro value isZero
    refine ⟨Code.code [value], by simp [memberValue.zero, isZero], fun dialect _ => ?_⟩
    exact Code.sound_sequence_code (by simpa using Code.sound_text value)
  have given : ∀ value, member.2 = some value → ∀ dialect,
      Code.SlotsSound dialect [member] → (Part.sequence value).Sound dialect := by
    intro value isValue dialect sound
    obtain ⟨parts, rfl, all⟩ := sound member (List.mem_singleton_self _) value isValue
    exact Code.sound_sequence_code all
  unfold memberValue
  cases own : member.2 with
  | none =>
      rcases valued with ⟨value, isZero⟩ | ⟨value, isValue, _⟩
      · exact zero value isZero
      · cases own.symm.trans isValue
  | some written =>
      dsimp only
      split
      · next empty =>
        rcases valued with ⟨value, isZero⟩ | ⟨value, isValue, solid⟩
        · exact zero value isZero
        · cases own.symm.trans isValue
          rw [empty] at solid
          cases solid
      · exact ⟨written, rfl, given written own⟩

/-- A state variable, with some literal for its record. -/
def stateConst (entry : NodeCode) (record : Code.Record) (literal : Sequence) : Part :=
  .sequence (Code.code [Code.const record.name entry.stateName [.sequence literal]])

/-- The members of a state variable can be written when those of the record can. -/
def MembersSound (record : Code.Record) (members : List Sequence) : Prop :=
  ∀ dialect, Code.SlotsSound dialect record.members →
    ∀ member ∈ members, (Part.sequence member).Sound dialect

theorem stateInstance_yields {record : Code.Record} (valued : ∀ member ∈ record.members, HasValue member) :
    Yields (stateInstance entry record) fun part => ∃ members : List Sequence,
      MembersSound record members ∧ part = stateConst entry record
        (Code.code ["\x7b", .list .parts (separateMembers members), "\n\x7d"]) := by
  have written : ∀ member ∈ record.members, Yields (do
      let value ← memberValue entry.stateName member
      return Code.code ["\n", member.1.name, ": ", .sequence value] : Outcome Sequence)
      fun content => ∀ dialect, Code.SlotsSound dialect [member] →
        (Part.sequence content).Sound dialect := by
    intro member isMember
    refine (memberValue_yields (valued member isMember)).bind fun value sound => ⟨_, rfl, ?_⟩
    intro dialect slots
    exact Code.sound_sequence_code (by simp [Code.sound_text, sound dialect slots])
  refine (Outcome.yields_mapM written).bind fun members all => ⟨_, rfl, members, ?_, rfl⟩
  intro dialect slots content isContent
  obtain ⟨member, isMember, sound⟩ := Outcome.exists_item all isContent
  exact sound dialect fun slot isSlot => slots slot (List.mem_singleton.mp isSlot ▸ isMember)

/-- The states of a program have a value for every member. -/
def Initialized (program : Program) : Prop :=
  ∀ ⦃id entry record⦄, program.nodes.entries.get? id = some entry → entry.state = some record →
    ∀ member ∈ record.members, HasValue member

/-- The state variable of a node, if it has one. -/
def stateParts (entry : NodeCode) : Outcome (List Part) :=
  match entry.state with
  | none => return []
  | some record => do return [← stateInstance entry record]

/-- What a node with state contributes to the region of the state instances. -/
def IsInstance (program : Program) (id : String) (parts : List Part) : Prop :=
  ∃ entry, program.nodes.entries.get? id = some entry ∧
    (entry.state = none ∧ parts = [] ∨ ∃ record members, entry.state = some record ∧
      MembersSound record members ∧ parts = [stateConst entry record
        (Code.code ["\x7b", .list .parts (separateMembers members), "\n\x7d"])])

theorem Framed.stateInstancesRegion_yields (framed : program.Framed)
    (initialized : program.Initialized) :
    Yields program.stateInstancesRegion fun region => ∃ parts,
      region = Code.lines parts.flatten ∧
        List.Forall₂ program.IsInstance program.fullTraversal parts := by
  suffices instances : ∀ id ∈ program.fullTraversal, Yields (do
      let entry ← program.nodes.get id
      stateParts entry) (program.IsInstance id) from
    (Outcome.yields_mapM instances).bind fun parts all => ⟨_, rfl, parts, rfl, all⟩
  intro id listed
  obtain ⟨node, found⟩ := framed.listed.mp listed
  obtain ⟨entry, stored⟩ := framed.entry found
  rw [register_get_eq_ok_iff.mpr stored]
  change Yields (stateParts entry) _
  unfold stateParts
  cases given : entry.state with
  | none => exact ⟨_, rfl, entry, stored, .inl ⟨given, rfl⟩⟩
  | some record =>
      refine (stateInstance_yields (initialized stored given)).bind fun part isInstance => ?_
      obtain ⟨members, sound, rfl⟩ := isInstance
      exact ⟨_, rfl, entry, stored, .inr ⟨record, members, given, sound, rfl⟩⟩

/-- The state record of a node under the template of its type. -/
theorem Supported.stateRecordOf_eq (supported : program.Supported) {type : TypeCode}
    (found : program.graph.node? id = some node)
    (stored : program.nodes.entries.get? id = some entry)
    (registered : program.types.entries.get? node.type = some type)
    {template : Site → Option Code.RecordTemplate} (given : type.implementation.state = some template) :
    ∃ members : List (Template × Template × List Template),
      members.all Implementation.isInitialized = true ∧
      Code.membersWritable members = true ∧
      program.stateRecordOf id template = some (Code.RecordTemplate.resolve (stateScope node entry)
        ⟨.own "State", members⟩ program.names.nameOf) := by
  obtain ⟨members, isRecord, supports, _, initialized⟩ := (supported.types registered).state template
    given ⟨node, program.settings⟩
  have writable := (Bool.and_eq_true_iff.mp supports).1
  rw [Template.isWritable] at writable
  refine ⟨members, initialized, writable, ?_⟩
  simp [stateRecordOf, found, stored, isRecord]

/-- The state of a node, as it is instantiated. -/
theorem Supported.ownState?_eq (supported : program.Supported)
    (found : program.graph.node? id = some node)
    (stored : program.nodes.entries.get? id = some entry)
    {template : Site → Option Code.RecordTemplate} (given : program.stateTemplate? id = some template) :
    ∃ members : List (Template × Template × List Template),
      members.all Implementation.isInitialized = true ∧
      Code.membersWritable members = true ∧
      program.ownState? id = some (Code.RecordTemplate.resolve (stateScope node entry)
        ⟨.own "State", members⟩ program.names.nameOf) := by
  have isTemplate := given
  obtain ⟨_, isNode, given⟩ := Option.bind_eq_some_iff.mp given
  cases found.symm.trans isNode
  obtain ⟨type, registered, given⟩ := Option.bind_eq_some_iff.mp given
  rw [ownState?, isTemplate, Option.bind_some]
  exact supported.stateRecordOf_eq found stored registered given

/-- A state record is called by a name of the type of the node. -/
theorem name_stateRecord {naming : Code.Naming} {members : List (Template × Template × List Template)} :
    (Code.RecordTemplate.resolve (stateScope node entry) ⟨.own "State", members⟩ naming).name =
      naming (.nodeType node.type) "State" := by
  simp [Code.RecordTemplate.resolve, Template.resolve, stateScope, Code.Part.plainText,
    Code.Part.pieces]

/-- The state of a node, with the name of its variable. -/
def stateOf (entry : NodeCode) : Option Code.Record × String := (entry.state, entry.stateName)

namespace Laying

variable (laying : Laying graph catalog library settings program)

include laying

/-- The code of a node, from the split over wiring and generating to completion. -/
theorem stages (stored : program.nodes.entries.get? id = some entry) :
    ∃ before emitted, laying.split.nodes.entries.get? id = some before ∧
      entry = laying.emitted.completed id emitted ∧
      (emitted.solid = laying.split.wiredEntry id before.solid ∨
        ∃ node scope dsp, laying.split.graph.node? id = some node ∧
          .generate id scope dsp ∈ laying.events ∧
          emitted.solid = withLoop node dsp (laying.split.wiredEntry id before.solid)) := by
  have framed := laying.divided.framed.of_keeps laying.emitting.keeps
  have listed := laying.framed.known stored
  rw [laying.completing.keeps.graph] at listed
  obtain ⟨node, found⟩ := listed
  obtain ⟨emitted, isEmitted⟩ := framed.entry found
  have same := laying.entry_eq isEmitted
  rw [stored, Option.some_inj] at same
  have isSolid := solid?_of_entry isEmitted
  have fromSplit : ∀ result, laying.wired.solid? id = some result →
      ∃ before, laying.split.nodes.entries.get? id = some before ∧
        result = laying.split.wiredEntry id before.solid := by
    intro result isWired
    rw [laying.wiring.nodes] at isWired
    obtain ⟨old, isOld, rfl⟩ := Option.map_eq_some_iff.mp isWired
    obtain ⟨before, isBefore, rfl⟩ := exists_of_solid? isOld
    exact ⟨before, isBefore, rfl⟩
  by_cases isLoop : id ∈ laying.split.loopNodes
  · obtain ⟨node, scope, dsp, found, generated, isLooped⟩ := laying.emitting.looped isLoop
    rw [isLooped] at isSolid
    obtain ⟨result, isWired, isResult⟩ := Option.map_eq_some_iff.mp isSolid
    obtain ⟨before, isBefore, rfl⟩ := fromSplit result isWired
    exact ⟨before, emitted, isBefore, same, .inr ⟨node, scope, dsp, found, generated, isResult.symm⟩⟩
  · rw [laying.emitting.untouched isLoop] at isSolid
    obtain ⟨before, isBefore, isResult⟩ := fromSplit _ isSolid
    exact ⟨before, emitted, isBefore, same, .inl isResult⟩

/-- What neither wiring nor the generated code of a node touches is as it was at the split. -/
theorem view_eq {β : Type} (view : NodeCode → β) (solid : ∀ entry, view entry.solid = view entry)
    (wired : ∀ id entry, view (laying.split.wiredEntry id entry) = view entry)
    (looped : ∀ node dsp entry, view (withLoop node dsp entry) = view entry)
    (completed : ∀ id entry, view (laying.emitted.completed id entry) = view entry)
    (stored : program.nodes.entries.get? id = some entry) :
    ∃ before, laying.split.nodes.entries.get? id = some before ∧ view entry = view before := by
  obtain ⟨before, emitted, isBefore, rfl, isSolid⟩ := laying.stages stored
  refine ⟨before, isBefore, ?_⟩
  rw [completed, ← solid emitted]
  rcases isSolid with isWired | ⟨node, _, dsp, _, _, isLooped⟩
  · rw [isWired, wired, solid]
  · rw [isLooped, looped, wired, solid]

theorem split_entry {before : NodeCode} (stored : laying.split.nodes.entries.get? id = some before) :
    ∃ node, program.graph.node? id = some node ∧
      before = laying.declared.withState id (NodeCode.new id node.type) := by
  obtain ⟨_, _, _, _, _, _, _, same⟩ := laying.divided.frame
  rw [same] at stored
  obtain ⟨node, found, isEntry⟩ := laying.setup.entry stored
  refine ⟨node, ?_, isEntry⟩
  rw [laying.keeps.graph, laying.keepsFrameSplit.graph]
  exact found

/-- The state of a node is the one that was instantiated. -/
theorem state_eq (stored : program.nodes.entries.get? id = some entry) :
    entry.state = laying.declared.ownState? id ∧
      ∀ record, entry.state = some record → entry.stateName = NameIndex.stateName id := by
  have wired : ∀ id entry, stateOf (laying.split.wiredEntry id entry) = stateOf entry := by
    intro id entry
    unfold wiredEntry withSenders withReceivers
    dsimp only
    split <;> rfl
  have looped : ∀ node dsp entry, stateOf (withLoop node dsp entry) = stateOf entry := by
    intro node dsp entry
    unfold withLoop
    cases dsp.expression with
    | none => rfl
    | some expression => cases node.outletsOfType .signal <;> rfl
  have completed : ∀ id entry, stateOf (laying.emitted.completed id entry) = stateOf entry := by
    intro id entry
    unfold Program.completed withBodies withSetup
    split <;> rfl
  obtain ⟨before, isBefore, same⟩ := laying.view_eq stateOf (fun _ => rfl) wired looped completed
    stored
  obtain ⟨node, _, rfl⟩ := laying.split_entry isBefore
  obtain ⟨sameState, sameName⟩ := Prod.mk.inj same
  rw [sameState, sameName]
  unfold withState
  cases laying.declared.ownState? id with
  | none => exact ⟨rfl, fun _ given => by cases given⟩
  | some record => exact ⟨rfl, fun _ _ => rfl⟩

theorem declared_entry (found : program.graph.node? id = some node) :
    laying.declared.graph.node? id = some node ∧
      ∃ entry, laying.declared.nodes.entries.get? id = some entry := by
  have same : laying.declared.graph = program.graph := by
    rw [laying.keeps.graph, laying.keepsFrameSplit.graph, laying.setup.instantiating.keeps.graph]
  have before := same ▸ found
  exact ⟨before, laying.setup.framedDeclared.entry before⟩

theorem initialized (supported : laying.declared.Supported) : program.Initialized := by
  intro id entry record stored given member isMember
  obtain ⟨node, found⟩ := laying.framed.known stored
  obtain ⟨foundBefore, before, storedBefore⟩ := laying.declared_entry found
  rw [(laying.state_eq stored).1] at given
  obtain ⟨template, isTemplate, _⟩ := Option.bind_eq_some_iff.mp given
  obtain ⟨members, initialized, _, isRecord⟩ :=
    supported.ownState?_eq foundBefore storedBefore isTemplate
  cases isRecord.symm.trans given
  exact hasValue_of_isInitialized initialized member isMember

/-! ## Regions of the host and the modules -/

/-- The adapter of a receiver is a node of the program, and its only outlet has a sender. -/
theorem adapter_sender {hostPort : HostPort} (registered : hostPort ∈ program.hostReceivers.values) :
    ∃ entry sender, program.nodes.entries.get? hostPort.adapter = some entry ∧
      entry.senders.entries.get? "0" = some sender := by
  rw [laying.hostReceivers_eq] at registered
  obtain ⟨request, isRequest, rfl⟩ := List.mem_map.mp registered
  obtain ⟨now, isAdapter, rewired⟩ := laying.setup.grafting.receiverAdapter isRequest
  have pushing : receiverId request.1 request.2 ∈ laying.grafted.graph.pushing := by
    obtain ⟨_, _, rfl⟩ := rewired
    exact Graph.mem_pushing_iff.mpr ⟨_, isAdapter, rfl⟩
  have listed := laying.setup.keeping.pushing _ pushing
  obtain ⟨full, _, _, _, reachable⟩ := laying.setup.keeping.frame
  have found : program.graph.node? (receiverId request.1 request.2) =
      some (Graph.restrictNode full now) := by
    obtain ⟨_, embedded, _⟩ := laying.setup.embedding
    rw [laying.keeps.graph, laying.keepsFrameSplit.graph, laying.setup.instantiating.keeps.graph,
      laying.setup.declaring.keeps.graph, embedded, reachable]
    rw [reachable] at listed
    change (laying.grafted.graph.trim full).node? _ = _
    rw [Graph.node?_trim, if_pos listed, isAdapter]
    rfl
  obtain ⟨entry, stored, _, senders⟩ := laying.portlets found
  have isOutlet : ⟨"0", .message⟩ ∈ (Graph.restrictNode full now).outletsOfType .message := by
    obtain ⟨_, _, rfl⟩ := rewired
    simp [Node.outletsOfType, Graph.restrictNode, receiverNode]
  have distinct : (((Graph.restrictNode full now).outletsOfType .message).map Portlet.id).Nodup :=
    (laying.framed.wellFormed.fits found).outletsDistinct.sublist (List.filter_sublist.map _)
  obtain ⟨sender, bound⟩ := get?_sendersFor program (receiverId request.1 request.2) _ distinct isOutlet
  exact ⟨entry, sender, stored, by rw [senders, bound]⟩

end Laying

/-- The function of a host receiver calls the sender of its adapter. -/
def receiverFunction (program : Program) (hostPort : HostPort) : Part :=
  Part.ofFunction (Code.func hostPort.functionName [messageArg] "void"
    [((program.sender? hostPort.adapter "0").map Sender.name).getD "", "(m)"])

/-- The setup code of a node. -/
def setupParts (entry : NodeCode) : List Part :=
  if rendersNothing entry.initialization then [] else [Part.ofSequence? entry.initialization]

theorem Framed.initializationsRegion_eq (framed : program.Framed) : program.initializationsRegion =
    .ok (Code.lines (program.fullTraversal.flatMap (program.contribution setupParts))) := by
  unfold initializationsRegion
  have listed := framed.mapM_entries setupParts
  unfold setupParts at listed
  rw [listed]
  rfl

theorem Laying.hostReceiversRegion_eq (laying : Laying graph catalog library settings program) :
    program.hostReceiversRegion =
      .ok (Code.lines (program.hostReceivers.values.map program.receiverFunction)) := by
  unfold hostReceiversRegion
  suffices functions : program.hostReceivers.values.mapM _ =
      Except.ok (program.hostReceivers.values.map program.receiverFunction) by
    rw [functions]
    rfl
  refine Outcome.mapM_eq_ok fun hostPort registered => ?_
  obtain ⟨entry, sender, stored, sending⟩ := laying.adapter_sender registered
  rw [register_get_eq_ok_iff.mpr stored]
  change (entry.senders.get "0" >>= _) = _
  rw [register_get_eq_ok_iff.mpr sending]
  simp [receiverFunction, sender?, stored, sending, bind, Except.bind, pure, Except.pure]

theorem Supported.opens (supported : program.Supported) (use : String × String)
    (isEssential : use ∈ Library.essential) : program.names.Opens (.module use.1) := by
  have backed := supported.essential use isEssential
  generalize use.1 = namespaceName at backed ⊢
  cases backed with
  | module linked _ => exact supported.opened _ linked

theorem Supported.coldDspTriggers_yields (supported : program.Supported) :
    Yields program.coldDspTriggers fun triggers => ∀ content, triggers = some content →
      content = Code.lines (program.coldDsp.values.map fun group => .sequence (Code.code
        [group.functionName, "(", program.names.nameOf (.module "msg") "emptyMessage", ")"])) := by
  unfold coldDspTriggers
  split
  · exact ⟨none, rfl, fun _ given => by cases given⟩
  · obtain ⟨_, entering, _⟩ := NameIndex.enter_eq_ok
      (supported.opens ("msg", "emptyMessage") (by simp [Library.essential]))
    rw [entering]
    refine ⟨_, rfl, fun content given => ?_⟩
    exact (Option.some.inj given).symm

/-! ## All regions -/

/-- The regions of a program, each with what it is put together from. -/
structure Generated (program : Program) (regions : Regions) : Prop where
  dependencies : regions.dependencies = program.dependencies.code
  nodeTypes : regions.nodeTypes = program.nodeTypesRegion
  stateInstances : ∃ parts, regions.stateInstances = Code.lines parts.flatten ∧
    List.Forall₂ program.IsInstance program.fullTraversal parts
  portlets : regions.portlets =
    Code.lines (program.fullTraversal.flatMap (program.contribution portletParts))
  coldDsp : regions.coldDsp = Code.lines (program.coldDsp.values.map program.coldFunction)
  hostReceivers : regions.hostReceivers =
    Code.lines (program.hostReceivers.values.map program.receiverFunction)
  arrays : regions.arrays = program.arraysRegion
  initializations : regions.initializations =
    Code.lines (program.fullTraversal.flatMap (program.contribution setupParts))
  coldDspTriggers : ∀ content, regions.coldDspTriggers = some content →
    content = Code.lines (program.coldDsp.values.map fun group => .sequence (Code.code
      [group.functionName, "(", program.names.nameOf (.module "msg") "emptyMessage", ")"]))
  loop : regions.loop = program.loopCode

/-- All regions of a program that was laid out can be generated. -/
theorem Laying.regions_yields (laying : Laying graph catalog library settings program)
    (supported : laying.embedded.Supported) : Yields program.regions program.Generated := by
  have supportedNow := laying.keepsEmbedded.supported supported
  have initialized := laying.initialized (laying.setup.keepsDeclared.supported supported)
  obtain ⟨stateInstances, generating, isStates⟩ :=
    laying.framed.stateInstancesRegion_yields initialized
  obtain ⟨triggers, triggering, isTriggers⟩ := supportedNow.coldDspTriggers_yields
  obtain ⟨_, entering, _⟩ := NameIndex.enter_eq_ok
    (supportedNow.opens ("commonsFrames", "emitFrame") (by simp [Library.essential]))
  have looping : program.loopRegion = .ok program.loopCode := by
    rw [laying.loopRegion_eq, entering]
    rfl
  refine ⟨⟨program.dependencies.code, program.nodeTypesRegion, stateInstances, _, _, _,
    program.arraysRegion, _, triggers, program.loopCode⟩, ?_, rfl, rfl, isStates, rfl, rfl, rfl, rfl,
    rfl, isTriggers, rfl⟩
  unfold regions
  rw [generating, laying.framed.portletsRegion_eq, laying.coldDspRegion_eq,
    laying.hostReceiversRegion_eq, laying.framed.initializationsRegion_eq, looping, triggering]
  rfl

end Program

end Patchbay
