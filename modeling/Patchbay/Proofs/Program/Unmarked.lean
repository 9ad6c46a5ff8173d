import Patchbay.Proofs.Module.Linking
import Patchbay.Proofs.Module.Unmarked
import Patchbay.Proofs.NodeType.Unmarked
import Patchbay.Proofs.Program.Grafting
import Patchbay.Proofs.Program.States

namespace Patchbay

/-! Programs without marker lines.

A program is unmarked when every text is that can get into its code: names, the wiring of nodes, the code
of nodes, types and modules, and what the types of its catalog and the modules of its library contribute.
A pass puts together what is there with names, which are identifiers, and with filled templates, so it
takes unmarked programs to unmarked ones.
-/

open Code (AllUnmarked Function Naming Part SlotsUnmarked Template)
open Outcome (Ends Ensures ends_pure ensures_bind)
open Text (isUnmarked)

namespace Code

theorem unmarked_missing {kind : ElementKind} : (Part.missing kind).Unmarked := by
  rw [Part.Unmarked]
  trivial

/-- All texts of a function. -/
structure Function.Unmarked (function : Function) : Prop where
  name : isUnmarked function.name = true
  args : SlotsUnmarked function.args
  result : isUnmarked function.result = true
  body : AllUnmarked function.body

theorem Function.unmarked_part_iff {function : Function} :
    (Part.ofFunction function).Unmarked ↔ function.Unmarked := by
  rw [Part.ofFunction, Part.Unmarked]
  exact ⟨fun held => ⟨held.1, held.2.1, held.2.2.1, held.2.2.2⟩,
    fun held => ⟨held.name, held.args, held.result, held.body⟩⟩

/-- A function that takes one message. -/
theorem Function.unmarked_message {name : String} {body : List Part} (named : isUnmarked name = true)
    (unmarked : AllUnmarked body) : (func name [arg "Message" "m"] "void" body).Unmarked where
  name := named
  args := by
    change SlotsUnmarked [(⟨"m", "Message"⟩, none)]
    rw [SlotsUnmarked, SlotsUnmarked]
    exact ⟨⟨by decide, by decide⟩, trivial⟩
  result := by
    change isUnmarked "void" = true
    decide
  body := unmarked_code unmarked

end Code

theorem NameIndex.nameOf_unmarked (index : NameIndex) : Naming.Unmarked index.nameOf :=
  fun _ _ => Text.isUnmarked_identifier _

theorem NameIndex.stateOf_unmarked (index : NameIndex) (id : String) :
    isUnmarked (index.stateOf id) = true := by
  unfold stateOf
  split
  · exact Text.isUnmarked_identifier _
  · rfl

/-! ## What is unmarked -/

structure Sender.Unmarked (sender : Sender) : Prop where
  name : isUnmarked sender.name = true
  dispatcher : ∀ function, sender.dispatcher = some function → function.Unmarked

/-- All code of a node. -/
structure NodeCode.Unmarked (entry : NodeCode) : Prop where
  receivers : entry.receivers.entries.Every fun _ receiver => receiver.Unmarked
  senders : entry.senders.entries.Every fun _ sender => sender.Unmarked
  signalOuts : entry.signalOuts.Every fun _ code => isUnmarked code = true
  signalIns : entry.signalIns.Every fun _ code => isUnmarked code = true
  initialization : (Part.ofSequence? entry.initialization).Unmarked
  loop : (Part.ofSequence? entry.loop).Unmarked
  inlets : entry.inlets.Every fun _ statement => AllUnmarked statement
  state : ∀ record, entry.state = some record → (Part.ofRecord record).Unmarked
  stateName : isUnmarked entry.stateName = true

/-- The code that the nodes of a type share, and what the type contributes to each of them. -/
structure TypeCode.Unmarked (name : String) (type : TypeCode) : Prop where
  implementation : type.implementation.Unmarked name
  stateRecord : ∀ record, type.stateRecord = some record → (Part.ofRecord record).Unmarked
  core : (Part.ofSequence? type.core).Unmarked

structure Dependencies.Unmarked (dependencies : Dependencies) : Prop where
  code : (Part.ofSequence? dependencies.code).Unmarked
  imports : ∀ entry ∈ dependencies.imports, entry.function.Unmarked
  exports : ∀ entry ∈ dependencies.exports, isUnmarked entry.name = true

/-- The adapters of a graph forward to functions with unmarked names. -/
def Graph.ForwardsUnmarked (graph : Graph) : Prop :=
  ∀ id node, graph.node? id = some node → node.ForwardsUnmarked

namespace Program

structure Unmarked (program : Program) : Prop where
  adapters : program.graph.ForwardsUnmarked
  catalog : program.catalog.Unmarked
  library : program.library.Unmarked
  nodes : program.nodes.entries.Every fun _ entry => entry.Unmarked
  types : program.types.entries.Every TypeCode.Unmarked
  coldGroups : program.coldDsp.entries.Every fun _ group => isUnmarked group.functionName = true
  dependencies : program.dependencies.Unmarked
  hostReceivers : program.hostReceivers.entries.Every fun _ hostPort => isUnmarked hostPort.functionName = true
  hostSenders : program.hostSenders.entries.Every fun _ hostPort => isUnmarked hostPort.functionName = true

/-- An unmarked result, and the program it was made by. -/
def UnmarkedWith {β : Type} (holds : β → Prop) (result : β × Program) : Prop :=
  holds result.1 ∧ result.2.Unmarked

namespace Unmarked

variable {program : Program} (unmarked : program.Unmarked)

include unmarked

theorem withNames (names : NameIndex) : Unmarked { program with names } := { unmarked with }

theorem refineNode (id : String) {change : NodeCode → NodeCode}
    (kept : ∀ entry : NodeCode, entry.Unmarked → (change entry).Unmarked) :
    (program.refineNode id change).Unmarked :=
  { unmarked with nodes := unmarked.nodes.modify id fun _ => kept }

theorem setType (type : String) {change : TypeCode → TypeCode}
    (kept : ∀ name (entry : TypeCode), entry.Unmarked name → (change entry).Unmarked name) :
    (program.setType type change).Unmarked :=
  { unmarked with types := unmarked.types.modify type kept }

theorem nodeGet {id : String} {entry : NodeCode} (stored : program.nodes.get id = .ok entry) :
    entry.Unmarked :=
  unmarked.nodes id entry (register_get_eq_ok_iff.mp stored)

theorem typeGet {name : String} {type : TypeCode} (registered : program.types.get name = .ok type) :
    type.Unmarked name :=
  unmarked.types name type (register_get_eq_ok_iff.mp registered)

theorem readName (space : NameSpace) (key : String) : Ensures (program.readName space key)
    (UnmarkedWith fun name => isUnmarked name = true) := by
  refine ensures_bind fun result reading => ?_
  obtain ⟨entered, _, taken⟩ := Outcome.bind_eq_ok_iff.mp reading
  cases taken
  exact ⟨entered.nameOf_unmarked space key, unmarked.withNames _⟩

/-- What a computation over templates gives, when that is unmarked under unmarked names. -/
theorem fill {β : Type} {holds : β → Prop} {filling : Code.Fill β} {asks : Naming → List Code.Ask}
    {value : Naming → β} (context : String) (fills : Code.Fills filling asks value)
    (given : ∀ naming : Naming, naming.Unmarked → holds (value naming)) :
    Ensures (program.fill context filling) (UnmarkedWith holds) := by
  refine (fill_ends program context fills).mono (fun _ _ => trivial) fun result _ held => ?_
  obtain ⟨_, names, rfl, _⟩ := held
  exact ⟨given _ program.names.nameOf_unmarked, unmarked.withNames names⟩

/-- Whatever a hole of the code of a node is replaced by is unmarked. -/
theorem scopeOf (id : String) : Ensures (program.scopeOf id)
    (UnmarkedWith fun scope => scope.Unmarked ∧ scope.node.ForwardsUnmarked) := by
  refine ensures_bind fun node found => ensures_bind fun entry stored => ensures_bind fun _ _ =>
    ensures_bind fun _ _ => ensures_bind fun names _ => ?_
  have own := unmarked.nodeGet stored
  refine ⟨⟨⟨NameIndex.stateOf_unmarked _ _, fun wiring => ?_⟩, unmarked.adapters id node
    (Graph.node_eq_ok_iff.mp found)⟩, unmarked.withNames names⟩
  cases wiring with
  | ins => exact own.signalIns
  | outs => exact own.signalOuts
  | snds =>
      change (entry.senders.entries.map fun _ sender => sender.name).Every _
      exact own.senders.map fun _ _ held => held.name
  | rcvs =>
      change (entry.receivers.entries.map fun _ receiver => receiver.name).Every _
      exact own.receivers.map fun _ _ held => held.name

end Unmarked

end Program

/-! ## Ports of the host -/

theorem Program.textArg_senderNode (node outlet functionName fallback : String) :
    (senderNode node outlet functionName).textArg "functionName" fallback = functionName := by
  simp [senderNode, Node.textArg, Node.arg?, Table.ofList, Table.get?_set]

/-- Only the adapter of a sender is told a name. -/
theorem PortRequest.adapter_forwardsUnmarked (request : PortRequest) {functionName : String}
    
    (named : isUnmarked functionName = true) : (request.adapter functionName).ForwardsUnmarked := by
  unfold adapter
  cases request.kind with
  | receiver => exact fun isSender => absurd (show Program.receiverType = _ from isSender) (by decide)
  | sender => exact fun _ => (Program.textArg_senderNode ..).symm ▸ named

namespace Graph.ForwardsUnmarked

variable {graph changed : Graph} (adapters : graph.ForwardsUnmarked)

include adapters

theorem add {node : Node} (own : node.ForwardsUnmarked) (added : graph.add (some node) = .ok changed) :
    changed.ForwardsUnmarked := by
  obtain ⟨_, _, rfl⟩ := add_eq_ok_iff.mp added
  intro id other found
  rw [node?_set] at found
  split at found
  · cases found
    exact own
  · exact adapters id other found

theorem connect {source sink : Endpoint} (connected : graph.connect source sink = .ok changed) :
    changed.ForwardsUnmarked := by
  intro id node found
  have rewired := node?_connect connected id
  rw [found] at rewired
  generalize before : graph.node? id = slot at rewired
  cases rewired with
  | some rewired =>
      obtain ⟨sources, sinks, rfl⟩ := rewired
      exact (adapters id _ before :)

theorem trim (keep : List String) : (graph.trim keep).ForwardsUnmarked := by
  intro id node found
  rw [node?_trim] at found
  split at found
  · obtain ⟨before, stored, rfl⟩ := Option.map_eq_some_iff.mp found
    exact adapters id before stored
  · cases found

end Graph.ForwardsUnmarked

namespace Program.Unmarked

variable {program : Program} (unmarked : program.Unmarked)

include unmarked

theorem graft (request : PortRequest) : Ensures (program.graft request) Unmarked := by
  refine graft_ends.mono (fun _ _ => trivial) fun after _ grafts => ?_
  have named := program.names.nameOf_unmarked request.space request.portlet
  obtain ⟨added, connected, names, adding, connecting, _, rfl⟩ := grafts.steps
  have adapters : connected.ForwardsUnmarked :=
    (unmarked.adapters.add (request.adapter_forwardsUnmarked named) adding).connect connecting
  have unmarked := unmarked.withNames names
  unfold withHostPorts
  cases request.kind with
  | receiver => exact { unmarked with adapters, hostReceivers := unmarked.hostReceivers.set named }
  | sender => exact { unmarked with adapters, hostSenders := unmarked.hostSenders.set named }

theorem graftHostPorts : Ensures program.graftHostPorts Unmarked := by
  rw [graftHostPorts_eq]
  exact Ensures.foldlM unmarked fun _ request _ unmarked => unmarked.graft request

/-! ## Dead code -/

theorem enlist (id : String) : Ensures (program.enlist id) Unmarked := by
  refine ensures_bind fun node _ => ?_
  dsimp only
  cases found : program.catalog.implementation? node.type with
  | none => trivial
  | some implementation =>
      simp only [Outcome.ite_bind]
      refine ensures_bind fun types listing => ensures_bind fun nodes registering => ?_
      have typed : types.entries.Every TypeCode.Unmarked := by
        split at listing
        · cases listing
          exact unmarked.types
        · obtain ⟨_, rfl⟩ := Register.add_ends.of_ok listing
          exact unmarked.types.set ⟨unmarked.catalog _ _ found, nofun, Code.unmarked_missing⟩
      obtain ⟨_, rfl⟩ := Register.add_ends.of_ok registering
      refine ends_pure { unmarked with types := typed, nodes := unmarked.nodes.set ?_ }
      exact {
        receivers := Table.every_empty
        senders := Table.every_empty
        signalOuts := Table.every_empty
        signalIns := Table.every_empty
        initialization := Code.unmarked_missing
        loop := Code.unmarked_missing
        inlets := Table.every_empty
        state := nofun
        stateName := rfl }

theorem keepReachable : Ensures program.keepReachable Unmarked := by
  refine ensures_bind fun full _ => ?_
  have trimmed : Unmarked { program with
      graph := program.graph.trim full, names := program.names.setGraph (program.graph.trim full),
      fullTraversal := full } :=
    { unmarked with adapters := unmarked.adapters.trim full }
  have enlisted : Ensures (full.foldlM Program.enlist _) Unmarked :=
    Ensures.foldlM trimmed fun _ id _ held => held.enlist id
  refine enlisted.bind fun listed _ unmarked => ends_pure { unmarked with catalog := ?_ }
  intro name implementation found
  obtain ⟨slot, stored, rfl⟩ := Option.bind_eq_some_iff.mp found
  rw [Table.get?_map] at stored
  obtain ⟨type, registered, same⟩ := Option.map_eq_some_iff.mp stored
  cases same
  exact (unmarked.types name type registered).implementation

end Program.Unmarked

/-! ## Runtime modules -/

/-- A scope that has nothing but a name space. -/
theorem Code.Scope.unmarked_bare (space : NameSpace) : Scope.Unmarked { space } where
  state := rfl
  portlets wiring := by cases wiring <;> exact Table.every_empty

theorem Code.unmarked_resolved {template : Template} {scope : Scope} {naming : Naming}
    (wired : scope.Unmarked) (named : naming.Unmarked) (unmarked : template.isUnmarked scope.node = true) :
    AllUnmarked (template.resolve scope naming).toSequence :=
  unmarked_toSequence (template.unmarked_resolve wired named unmarked)

namespace Module

variable {module : Module} {naming : Naming} {dependencies : Dependencies}

theorem unmarked_addImport {function : Function} (named : naming.Unmarked) (before : dependencies.Unmarked)
    (unmarked : function.Unmarked) : (module.addImport naming dependencies function).Unmarked := by
  unfold addImport
  dsimp only
  split
  · exact before
  · refine { before with imports := ?_ }
    exact List.forall_mem_append.mpr ⟨before.imports, List.forall_mem_singleton.mpr
      { unmarked with name := named _ _ }⟩

theorem unmarked_addExport (named : naming.Unmarked) (before : dependencies.Unmarked) (key : String) :
    (module.addExport naming dependencies key).Unmarked := by
  unfold addExport
  dsimp only
  split
  · exact before
  · refine { before with exports := ?_ }
    exact List.forall_mem_append.mpr ⟨before.exports, List.forall_mem_singleton.mpr (named _ _)⟩

theorem Unmarked.share {settings : Settings} (unmarked : module.Unmarked) (named : naming.Unmarked)
    (before : dependencies.Unmarked) : (module.share settings naming dependencies).Unmarked := by
  refine List.foldlRecOn (motive := Dependencies.Unmarked) module.exports _ ?_
    fun dependencies before key _ => unmarked_addExport named before key
  refine List.foldlRecOn (motive := Dependencies.Unmarked) _ _ before
    fun dependencies before function imported => unmarked_addImport named before ?_
  obtain ⟨template, isTemplate, rfl⟩ := List.mem_map.mp imported
  exact Code.Function.unmarked_part_iff.mp (Code.FunctionTemplate.unmarked_resolve (Code.Scope.unmarked_bare _) named
    (unmarked.imports settings _ template isTemplate))

end Module

namespace Program

theorem unmarked_link {settings : Settings} {naming : Naming} {modules : List Module}
    (named : naming.Unmarked) (all : ∀ module ∈ modules, module.Unmarked) :
    (link settings naming modules [] { modules }).Unmarked := by
  have begun : Dependencies.Unmarked { modules } := ⟨Code.unmarked_missing, by simp, by simp⟩
  have shared : (modules.foldl (fun (dependencies : Dependencies) (module : Module) =>
      module.share settings naming dependencies) { modules }).Unmarked :=
    List.foldlRecOn (motive := Dependencies.Unmarked) modules _ begun
      fun dependencies before module linked => (all module linked).share named before
  refine { shared with code := Code.unmarked_sequence_iff.mpr (Code.unmarked_lines ?_) }
  rw [List.nil_append, Code.allUnmarked_iff]
  refine List.forall_mem_map.mpr fun content isContent => Code.unmarked_sequence_iff.mpr ?_
  obtain ⟨module, linked, isContent⟩ := List.mem_flatMap.mp isContent
  obtain ⟨template, isCode, rfl⟩ := Option.map_eq_some_iff.mp (Option.mem_toList.mp isContent)
  exact Code.unmarked_resolved (Code.Scope.unmarked_bare _) named ((all module linked).code template isCode settings _)

namespace Unmarked

variable {program : Program} (unmarked : program.Unmarked)

include unmarked

theorem embedModules : Ensures program.embedModules Unmarked := by
  refine program.embedModules_ends.mono (fun _ _ => trivial) fun after _ held => ?_
  obtain ⟨_, names, rfl, _⟩ := held
  refine { unmarked with
    dependencies := unmarked_link program.names.nameOf_unmarked fun module linked => ?_ }
  obtain ⟨definition, found⟩ := (program.library.flatten_linked _).known module linked
  exact unmarked.library definition module found

/-! ## Types and states -/

theorem fillState (id : String) {template : Site → Option Code.RecordTemplate}
    (given : ∀ site, Implementation.IfGiven (template site) fun record =>
      record.isUnmarked site.node = true) :
    Ensures (program.fillState id template)
      (UnmarkedWith fun record => ∀ own, record = some own → (Part.ofRecord own).Unmarked) := by
  refine ensures_bind fun names _ => ?_
  refine ((unmarked.withNames (names.enableState id)).scopeOf id).bind fun result _ held => ?_
  obtain ⟨scope, program⟩ := result
  obtain ⟨⟨wired, _⟩, unmarked⟩ := held
  dsimp only at wired unmarked ⊢
  cases isGiven : template ⟨scope.node, program.settings⟩ with
  | none => exact ends_pure ⟨nofun, unmarked⟩
  | some record =>
      have filled : Ensures (program.fill (contextOf "state" scope.node) (record.fill scope))
          (UnmarkedWith fun own => (Part.ofRecord own).Unmarked) :=
        unmarked.fill _ (record.fill_fills scope) fun naming named =>
          Code.RecordTemplate.unmarked_resolve wired named (given _ record isGiven)
      refine filled.bind fun result _ held => ends_pure ⟨?_, held.2⟩
      rintro _ ⟨⟩
      exact held.1

theorem declareCore {name : String} {entry : TypeCode} (own : entry.Unmarked name) :
    Ensures (program.declareCore entry) Unmarked := by
  unfold Program.declareCore
  cases given : entry.implementation.core with
  | none => exact ends_pure unmarked
  | some template =>
      refine (unmarked.fill _ (Code.Template.fillSequence_fills _ _) fun naming named =>
        Code.unmarked_resolved (Code.Scope.unmarked_bare _) named (own.implementation.core template given _ _)).bind
        fun result _ held => ends_pure ?_
      exact held.2.setType _ fun _ entry before =>
        { before with core := Code.unmarked_sequence_iff.mpr held.1 }

theorem declareRecord {name : String} {entry : TypeCode} (own : entry.Unmarked name) :
    Ensures (program.declareRecord entry) Unmarked := by
  unfold Program.declareRecord
  cases given : entry.implementation.state with
  | none => exact ends_pure unmarked
  | some template =>
      cases program.firstOfType entry.type with
      | none => exact ends_pure unmarked
      | some first =>
          refine (unmarked.fillState first (own.implementation.state template given)).bind
            fun result _ held => ?_
          obtain ⟨record, program⟩ := result
          obtain ⟨written, unmarked⟩ := held
          cases record with
          | none => trivial
          | some record =>
              refine ends_pure (unmarked.setType _ fun _ entry before => { before with stateRecord := ?_ })
              rintro _ ⟨⟩
              exact written record rfl

theorem declareType {name : String} {entry : TypeCode} (own : entry.Unmarked name) :
    Ensures (program.declareType entry) Unmarked := by
  rw [declareType_eq]
  refine ensures_bind fun names _ => ?_
  exact ((unmarked.withNames names).declareCore own).bind fun _ _ unmarked => unmarked.declareRecord own

theorem declareTypes : Ensures program.declareTypes Unmarked := by
  refine .foldlM unmarked fun _ entry member held => ?_
  obtain ⟨name, own⟩ := unmarked.types.of_mem member
  exact held.declareType own

theorem instantiateState (id : String) : Ensures (program.instantiateState id) Unmarked := by
  refine ensures_bind fun node _ => ensures_bind fun type registered => ?_
  have own := unmarked.typeGet registered
  cases given : type.implementation.state with
  | none => exact ends_pure unmarked
  | some template =>
      cases type.stateRecord with
      | none => trivial
      | some shape =>
          refine (unmarked.fillState id (own.implementation.state template given)).bind
            fun result _ held => ?_
          obtain ⟨record, program⟩ := result
          obtain ⟨written, unmarked⟩ := held
          cases record with
          | none => trivial
          | some record =>
              dsimp only
              split
              · trivial
              · refine ends_pure (unmarked.refineNode id fun entry before => { before with
                  state := ?_, stateName := program.names.stateOf_unmarked id })
                rintro _ ⟨⟩
                exact written record rfl

theorem instantiateStates : Ensures program.instantiateStates Unmarked :=
  .foldlM unmarked fun _ id _ unmarked => unmarked.instantiateState id

end Unmarked

end Program

end Patchbay
