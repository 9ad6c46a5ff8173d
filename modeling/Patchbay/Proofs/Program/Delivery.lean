import Patchbay.Proofs.Program.InletWiring

namespace Patchbay

/-! What a message runs.

A call of the sender of a message outlet runs the receivers of its sinks in the order of the
connections and then the cold groups that one of the sinks belongs to.  A sender is chosen when the
receivers are only reserved; what completion adds to a receiver is the body that its type generates.
-/

namespace Code

/-! ## Texts in code -/

theorem mergeTexts_texts (values : List String) : mergeTexts (values.map Part.text) =
    if String.join values = "" then [] else [.text (String.join values)] := by
  induction values with
  | nil => rfl
  | cons value rest ih =>
      rw [List.map_cons, mergeTexts, ih, String.join_cons]
      by_cases empty : value = ""
      · simp [empty]
      · rw [if_neg empty]
        by_cases last : String.join rest = ""
        · simp [last, empty, prependText]
        · rw [if_neg last, prependText, if_neg]
          simp [empty]

theorem code_texts {values : List String} (written : String.join values ≠ "") :
    code (values.map Part.text) = [.text (String.join values)] := by
  have flat : ∀ part ∈ values.map Part.text, part.pieces = [part] := by
    intro part member
    obtain ⟨value, _, rfl⟩ := List.mem_map.mp member
    rfl
  rw [code, piecesOf_eq_self flat, mergeTexts_texts, if_neg written]

/-- Texts that stand one below the other. -/
theorem piecesOf_separate_texts (values : List String) :
    ∃ texts : List String,
      piecesOf (separate (values.map fun value => .sequence [.text value])) = texts.map Part.text ∧
      String.join texts = "\n".intercalate values := by
  induction values with
  | nil => exact ⟨[], rfl, rfl⟩
  | cons value rest ih =>
      cases rest with
      | nil => exact ⟨[value], rfl, by simp [String.join_cons]⟩
      | cons next rest =>
          obtain ⟨texts, pieces, joined⟩ := ih
          refine ⟨value :: "\n" :: texts, ?_, ?_⟩
          · rw [List.map_cons] at pieces
            simp only [List.map_cons, separate, piecesOf, pieces]
            rfl
          · rw [String.join_cons, String.join_cons, joined, String.intercalate_cons_cons,
              String.append_assoc]

theorem lines_texts {values : List String} (written : "\n".intercalate values ≠ "") :
    lines (values.map fun value => .sequence [.text value]) = [.text ("\n".intercalate values)] := by
  obtain ⟨texts, pieces, joined⟩ := piecesOf_separate_texts values
  have present : (values.map fun value => Part.sequence [.text value]).filter
      (fun part => !part.isAbsent) = values.map fun value => .sequence [.text value] := by
    refine List.filter_eq_self.mpr fun part member => ?_
    obtain ⟨value, _, rfl⟩ := List.mem_map.mp member
    rfl
  rw [lines, present, code, pieces, mergeTexts_texts, joined, if_neg written]

end Code

namespace Program

open Code (Function Part)
open Outcome (Yields)

variable {graph : Graph} {catalog : Catalog} {library : Library} {settings : Settings}
  {program : Program} {id : String} {node : Node} {entry : NodeCode}

/-! ## Senders -/

/-- Calls of some functions with a message, one below the other. -/
def messageCalls (functions : List String) : String :=
  "\n".intercalate (functions.map fun function => function ++ "(m)")

/-- The functions that one call of a sender runs, in order: none with the function that does nothing,
the only one without a dispatcher, else the calls of the dispatcher. -/
inductive Runs (idle : String) : Sender → List String → Prop where
  | nothing : Runs idle ⟨idle, [], none⟩ []
  | direct (function : String) : Runs idle ⟨function, [function], none⟩ [function]
  | dispatched (name : String) {functions : List String} (several : 2 ≤ functions.length) :
      Runs idle ⟨name, functions,
        some ⟨name, [Code.arg "Message" "m"], "void", [.text (messageCalls functions)]⟩⟩ functions

theorem messageCalls_ne_empty (function : String) (rest : List String) :
    messageCalls (function :: rest) ≠ "" := by
  unfold messageCalls
  cases rest with
  | nil => simp
  | cons next rest => simp [String.intercalate_cons_cons]

theorem dispatcher_eq (name : String) {functions : List String} (several : functions ≠ []) :
    dispatcher name functions =
      ⟨name, [Code.arg "Message" "m"], "void", [.text (messageCalls functions)]⟩ := by
  have call : ∀ function : String, Code.code [.text function, .text "(m)"] =
      [.text (function ++ "(m)")] := by
    intro function
    have written : String.join [function, "(m)"] ≠ "" := by simp [String.join_cons]
    have merged := Code.code_texts written
    simpa [String.join_cons] using merged
  obtain ⟨first, rest, rfl⟩ := List.exists_cons_of_ne_nil several
  have body : Code.lines ((first :: rest).map fun function =>
      Part.sequence (Code.code [.text function, .text "(m)"])) =
        [.text (messageCalls (first :: rest))] := by
    simp only [call]
    have lines := Code.lines_texts (messageCalls_ne_empty first rest)
    rwa [List.map_map] at lines
  have flat : Code.code ([messageCalls (first :: rest)].map Part.text) = _ :=
    Code.code_texts (by simpa [String.join_cons] using messageCalls_ne_empty first rest)
  unfold dispatcher Code.func
  dsimp only
  rw [body]
  have nested : ∀ content, Code.code [.sequence content] = Code.code content := by
    intro content
    simp [Code.code, Code.piecesOf, Part.pieces]
  rw [nested]
  simpa [String.join_cons] using flat

theorem runs_senderOf (program : Program) (id outlet : String) (functions : List String) :
    Runs (program.names.nameOf (.module "msg") "nullMessageReceiver")
      (program.senderOf id outlet functions) functions := by
  match functions with
  | [] => exact .nothing
  | [function] => exact .direct function
  | first :: second :: rest =>
      have several : 2 ≤ (first :: second :: rest).length := by simp
      simp only [senderOf]
      rw [dispatcher_eq _ (List.cons_ne_nil _ _)]
      exact .dispatched _ several

/-! ## Wired portlets -/

theorem withLoop_portlets (node : Node) (dsp : Dsp) (entry : NodeCode) :
    (withLoop node dsp entry).receivers = entry.receivers ∧
      (withLoop node dsp entry).senders = entry.senders := by
  unfold withLoop
  cases dsp.expression with
  | none => exact ⟨rfl, rfl⟩
  | some expression => cases node.outletsOfType .signal <;> exact ⟨rfl, rfl⟩

theorem wiredEntry_portlets (found : program.graph.node? id = some node) (entry : NodeCode) :
    (program.wiredEntry id entry).receivers.entries =
        reservedFor program.names id (connectedInlets node) ∧
      (program.wiredEntry id entry).senders.entries =
        program.sendersFor id node (node.outletsOfType .message) := by
  unfold wiredEntry withSenders withReceivers
  simp only [found, Option.map_some, Option.getD_some]
  split <;> exact ⟨rfl, rfl⟩

theorem WiredFrom.portlets {base wired : Program} {log : List WiringEvent}
    (wiring : WiredFrom base wired log) (found : base.graph.node? id = some node)
    (current : wired.solid? id = some entry) :
    entry.receivers.entries = reservedFor base.names id (connectedInlets node) ∧
      entry.senders.entries = base.sendersFor id node (node.outletsOfType .message) := by
  rw [wiring.nodes] at current
  obtain ⟨old, _, rfl⟩ := Option.map_eq_some_iff.mp current
  exact wiredEntry_portlets found old

/-- Audio code leaves receivers and senders as they were wired. -/
theorem EmittedFrom.portlets {base wired emitted : Program} {log events : List WiringEvent}
    (framed : base.Framed) (wiring : WiredFrom base wired log)
    (emitting : EmittedFrom base wired emitted events) (found : base.graph.node? id = some node) :
    ∃ entry, emitted.nodes.entries.get? id = some entry ∧
      entry.receivers.entries = reservedFor base.names id (connectedInlets node) ∧
      entry.senders.entries = base.sendersFor id node (node.outletsOfType .message) := by
  have framedNow := framed.of_keeps emitting.keeps
  obtain ⟨entry, stored⟩ := framedNow.entry (emitting.keeps.graph.symm ▸ found)
  refine ⟨entry, stored, ?_⟩
  have solid := solid?_of_entry stored
  by_cases looped : id ∈ base.loopNodes
  · obtain ⟨_, _, dsp, _, _, same⟩ := emitting.looped looped
    rw [same] at solid
    obtain ⟨before, isWired, isEntry⟩ := Option.map_eq_some_iff.mp solid
    obtain ⟨receivers, senders⟩ := withLoop_portlets _ dsp before
    rw [isEntry] at receivers senders
    have kept := wiring.portlets found isWired
    rw [← receivers, ← senders] at kept
    exact kept
  · rw [emitting.untouched looped] at solid
    have kept := wiring.portlets found solid
    exact kept

namespace Laying

variable (laying : Laying graph catalog library settings program)

include laying

theorem akin : laying.split.names.Akin program.names :=
  laying.emitting.akin.trans laying.completing.names.toAkin

/-- The code of a node when all is done. -/
theorem entry_eq {before : NodeCode} (stored : laying.emitted.nodes.entries.get? id = some before) :
    program.nodes.entries.get? id = some (laying.emitted.completed id before) := by
  have framed := laying.divided.framed.of_keeps laying.emitting.keeps
  rw [laying.completing.nodes, if_pos (framed.listed.mpr (framed.known stored)), stored,
    Option.map_some]

end Laying

theorem completed_receivers (entry : NodeCode) :
    (program.completed id entry).receivers.entries =
      entry.receivers.entries.map (withBody (program.generatedReceivers id)) := by
  unfold completed withBodies
  rw [withSetup_receivers]
  refine Table.ext (List.map_congr_left fun pair member => ?_)
  obtain ⟨inlet, receiver⟩ := pair
  have listed : inlet ∈ entry.receivers.keys := List.mem_map_of_mem (f := Prod.fst) member
  simp [listed]

theorem completed_senders (entry : NodeCode) :
    (program.completed id entry).senders = entry.senders := by
  unfold completed withBodies withSetup
  split <;> rfl

/-- Completion leaves alone what the code of a node can refer to. -/
theorem Laying.nodeScope_eq (laying : Laying graph catalog library settings program)
    {before : NodeCode} (stored : laying.emitted.nodes.entries.get? id = some before) :
    program.nodeScope id = laying.emitted.nodeScope id := by
  have states : program.names.stateOf = laying.emitted.names.stateOf := by
    have adds := laying.completing.names
    rw [noStates] at adds
    exact adds.stateOf
  have ins : (laying.emitted.completed id before).signalIns = before.signalIns :=
    signalIns_withSetup laying.emitted id before
  have outs : (laying.emitted.completed id before).signalOuts = before.signalOuts :=
    signalOuts_withSetup laying.emitted id before
  have names : ((laying.emitted.completed id before).receivers.entries.map
      fun _ receiver => receiver.name) = before.receivers.entries.map fun _ receiver => receiver.name := by
    rw [completed_receivers]
    exact Table.ext List.map_map
  unfold nodeScope scopeAt
  rw [laying.entry_eq stored, stored, laying.completing.keeps.graph]
  simp only [Option.map_some, Option.getD_some]
  rw [states, ins, outs, names, completed_senders]

/-- The receiver of a message inlet. -/
def receiver? (program : Program) (id inlet : String) : Option Function :=
  (program.nodes.entries.get? id).bind fun entry => entry.receivers.entries.get? inlet

namespace Laying

variable (laying : Laying graph catalog library settings program)

include laying

/-- Wiring and completing leave the cold groups as the split made them. -/
theorem sameGroups : program.coldDsp = laying.split.coldDsp ∧
    program.coldOf = laying.split.coldOf ∧ program.coldGroups = laying.split.coldGroups := by
  obtain ⟨names, nodes, same⟩ := laying.frame
  generalize laying.split = split at same
  subst same
  exact ⟨rfl, rfl, rfl⟩

/-- The portlets of a node in the finished program. -/
theorem portlets (found : program.graph.node? id = some node) :
    ∃ entry, program.nodes.entries.get? id = some entry ∧
      entry.receivers.entries = (reservedFor program.names id (connectedInlets node)).map
        (withBody (laying.emitted.generatedReceivers id)) ∧
      entry.senders.entries = program.sendersFor id node (node.outletsOfType .message) := by
  rw [laying.keeps.graph] at found
  obtain ⟨before, stored, receivers, senders⟩ := laying.emitting.portlets laying.divided.framed
    laying.wiring found
  have sameNames : program.names.nameOf = laying.split.names.nameOf := laying.akin.nameOf
  have sameFunctions : program.functionsOf = laying.split.functionsOf :=
    functionsOf_congr laying.akin laying.sameGroups.1 laying.sameGroups.2.1
  refine ⟨_, laying.entry_eq stored, ?_, ?_⟩
  · rw [completed_receivers, receivers]
    simp only [reservedFor, sameNames]
  · rw [completed_senders, senders]
    simp only [sendersFor, sameFunctions, senderOf_congr laying.akin]

theorem reserved : program.Reserved := by
  intro id node entry found stored
  obtain ⟨again, storedAgain, receivers, _⟩ := laying.portlets found
  rw [stored] at storedAgain
  cases storedAgain
  have distinct := connectedInlets_distinct (laying.framed.wellFormed.fits found)
  refine ⟨?_, fun {inlet receiver} bound => ?_⟩
  · unfold Register.keys
    rw [receivers, Table.keys_map, reservedFor, Table.keys_ofList_map distinct]
  · rw [receivers, Table.get?_map] at bound
    obtain ⟨placeholder, isReserved, rfl⟩ := Option.map_eq_some_iff.mp bound
    obtain ⟨portlet, _, rfl, rfl⟩ := (Table.get?_ofList_map_iff distinct).mp isReserved
    rfl

end Laying

/-! ## Delivery -/

/-- A call of the sender of an outlet runs the receivers of its sinks in the order of the connections
and then, in the order of the groups and each once, the cold groups that one of the sinks belonged to
before inlining. -/
def Delivers (program : Program) (groups : List DspGroup) (id outlet : String)
    (sinks : List Endpoint) : Prop :=
  ∃ (sender : Sender) (receivers : List Function) (triggered : List ColdGroup),
    program.sender? id outlet = some sender ∧
    sinks.map (fun sink => program.receiver? sink.node sink.portlet) = receivers.map some ∧
    triggered.Sublist program.coldDsp.values ∧
    (∀ group ∈ program.coldDsp.values, group ∈ triggered ↔
      ∃ sink ∈ sinks, program.MemberBefore groups sink.node (some group.id)) ∧
    Runs (program.names.nameOf (.module "msg") "nullMessageReceiver") sender
      (receivers.map (fun receiver => receiver.name) ++ triggered.map (fun group => group.functionName))

/-- The body of a receiver is that of the function which the type of its node generates for the inlet
in the scope of the node; both take and give the same. -/
def IsGenerated (program : Program) (id inlet : String) (receiver : Function) : Prop :=
  ∃ scope opened implementation templates template function filled,
    program.scopeOf id = .ok (scope, opened) ∧
    program.catalog.implementation? scope.node.type = some implementation ∧
    implementation.receivers = some templates ∧
    (templates ⟨scope.node, program.settings⟩).lookup inlet = some (some template) ∧
    opened.fill (contextOf "message receivers" scope.node) (template.fill scope) =
      .ok (function, filled) ∧
    receiver.sameSignature function = true ∧ receiver.body = function.body

/-- The receiver of an inlet: its canonical name, the signature it was reserved with and the generated
body. -/
structure ReceivesAt (program : Program) (id inlet : String) (receiver : Function) : Prop where
  name : receiver.name = program.names.nameOf (.receivers id) inlet
  args : receiver.args = [Code.arg "Message" "m"]
  result : receiver.result = "void"
  generated : program.IsGenerated id inlet receiver

theorem mem_receiverReads {templates : List (String × Option Code.FunctionTemplate)} {inlet : String}
    {template : Code.FunctionTemplate} {read : Code.Read}
    (isReceiver : receiverOf templates inlet = some template) (asked : read ∈ template.reads) :
    read ∈ receiverReads templates := by
  refine List.mem_flatMap.mpr ⟨inlet, mem_receiverIds isReceiver, ?_⟩
  rw [isReceiver]
  simpa using asked

namespace Laying

variable (laying : Laying graph catalog library settings program)

include laying

/-- The scope of a node in the finished program, as it is opened. -/
theorem scopeOf_eq (found : program.graph.node? id = some node) :
    ∃ opened, program.scopeOf id = .ok (laying.emitted.nodeScope id, opened) ∧
      program.names.Akin opened.names := by
  obtain ⟨entry, names, stored, opening, took⟩ := laying.framed.scopeOf_eq found
  have foundBefore : laying.emitted.graph.node? id = some node :=
    laying.completing.keeps.graph ▸ found
  obtain ⟨before, storedBefore⟩ :=
    (laying.divided.framed.of_keeps laying.emitting.keeps).entry foundBefore
  refine ⟨{ program with names }, ?_, took.toAkin⟩
  rw [opening, ← laying.nodeScope_eq storedBefore, nodeScope, stored, found]
  rfl

/-- The template of a receiver, and what it was filled to. -/
theorem isGenerated {before : NodeCode} {inlet : String} {placeholder : Function}
    (found : program.graph.node? id = some node)
    (stored : laying.emitted.nodes.entries.get? id = some before)
    (held : before.receivers.entries.get? inlet = some placeholder) :
    program.IsGenerated id inlet (withBody (laying.emitted.generatedReceivers id) inlet placeholder) := by
  have foundBefore : laying.emitted.graph.node? id = some node :=
    laying.completing.keeps.graph ▸ found
  have framed := laying.divided.framed.of_keeps laying.emitting.keeps
  obtain ⟨_, template, isTemplate, isBody, granted, isGenerated, same⟩ :=
    laying.served id (framed.listed.mpr ⟨node, foundBefore⟩) stored held
  obtain ⟨type, isType, isTemplate⟩ := Option.bind_eq_some_iff.mp isTemplate
  obtain ⟨templates, given, rfl⟩ := Option.map_eq_some_iff.mp isTemplate
  rw [nodeType?, foundBefore, Option.bind_some] at isType
  obtain ⟨_, implemented, _⟩ := framed.typed isType
  obtain ⟨opened, opening, kept⟩ := laying.scopeOf_eq found
  have own : (laying.emitted.nodeScope id).node = node := by
    rw [Program.nodeScope_eq foundBefore stored]
    rfl
  have site : (⟨node, program.settings⟩ : Site) = laying.emitted.siteOf id := by
    simp [siteOf, foundBefore, laying.completing.keeps.settings]
  have akin := laying.completing.names.toAkin.trans kept
  have filled := (fillReads_ends opened (contextOf "message receivers" node)
    (template.fill_fills (laying.emitted.nodeScope id))).yields (by
      rintro _ ⟨read, asked, notGranted, _⟩
      exact notGranted ((Code.Ask.granted_iff_of_akin akin).mpr
        (granted read (mem_receiverReads isBody asked))))
  obtain ⟨_, filling, _, after, rfl, _⟩ := filled
  refine ⟨_, opened, type.implementation, templates, template, _, _, opening, ?_, given, ?_,
    own.symm ▸ filling, ?_, ?_⟩
  · rw [own, laying.completing.keeps.catalog]
    exact implemented
  · rw [own, site]
    exact Option.join_eq_some_iff.mp isBody
  · rw [akin.nameOf]
    exact same
  · rw [akin.nameOf, withBody, isGenerated]
    rfl

theorem receivesAt (found : program.graph.node? id = some node) {inlet : String} {receiver : Function}
    (given : program.receiver? id inlet = some receiver) : program.ReceivesAt id inlet receiver := by
  obtain ⟨before, stored, receivers, _⟩ := laying.emitting.portlets laying.divided.framed
    laying.wiring (laying.keeps.graph ▸ found)
  have distinct := connectedInlets_distinct (laying.framed.wellFormed.fits found)
  obtain ⟨_, bound, isReceiver⟩ := Option.bind_eq_some_iff.mp given
  rw [laying.entry_eq stored] at bound
  cases bound
  rw [completed_receivers, Table.get?_map] at isReceiver
  obtain ⟨placeholder, held, rfl⟩ := Option.map_eq_some_iff.mp isReceiver
  have isGenerated := laying.isGenerated found stored held
  rw [receivers] at held
  obtain ⟨portlet, _, rfl, rfl⟩ := (Table.get?_ofList_map_iff distinct).mp held
  exact ⟨congrFun (congrFun laying.akin.nameOf.symm _) _, rfl, rfl, isGenerated⟩

theorem receiver?_isSome_iff (found : program.graph.node? id = some node) {inlet : String} :
    (program.receiver? id inlet).isSome = true ↔
      ∃ portlet ∈ node.inletsOfType .message, portlet.id = inlet ∧ node.sourcesOf inlet ≠ [] := by
  obtain ⟨entry, stored, receivers, _⟩ := laying.portlets found
  have distinct := connectedInlets_distinct (laying.framed.wellFormed.fits found)
  have listed : (program.receiver? id inlet).isSome = true ↔
      inlet ∈ (connectedInlets node).map Portlet.id := by
    rw [receiver?, stored, Option.bind_some, receivers, ← Table.contains, Table.contains_iff,
      Table.keys_map, reservedFor, Table.keys_ofList_map distinct]
  rw [listed, List.mem_map]
  constructor
  · rintro ⟨portlet, member, rfl⟩
    obtain ⟨isMessage, connected⟩ := List.mem_filter.mp member
    exact ⟨portlet, isMessage, rfl, by simpa using connected⟩
  · rintro ⟨portlet, isMessage, rfl, connected⟩
    exact ⟨portlet, List.mem_filter.mpr ⟨isMessage, by simpa using connected⟩, rfl⟩

theorem delivers (found : program.graph.node? id = some node) {outlet : Portlet}
    (isOutlet : outlet ∈ node.outletsOfType .message) :
    program.Delivers laying.groups id outlet.id (node.sinksOf outlet.id) := by
  obtain ⟨entry, stored, _, senders⟩ := laying.portlets found
  have distinct : ((node.outletsOfType .message).map Portlet.id).Nodup :=
    (laying.framed.wellFormed.fits found).outletsDistinct.sublist (List.filter_sublist.map _)
  have sending : program.sender? id outlet.id =
      some (program.senderOf id outlet.id (program.functionsOf (node.sinksOf outlet.id))) := by
    rw [sender?, stored, Option.bind_some, senders]
    exact (Table.get?_ofList_map_iff distinct).mpr ⟨outlet, isOutlet, rfl, rfl⟩
  have receiving : ∀ sinks : List Endpoint, (∀ sink ∈ sinks, sink ∈ node.sinksOf outlet.id) →
      ∃ receivers : List Function,
        sinks.map (fun sink => program.receiver? sink.node sink.portlet) = receivers.map some ∧
        receivers.map (fun receiver => receiver.name) =
          sinks.map fun sink => program.names.nameOf (.receivers sink.node) sink.portlet := by
    intro sinks within
    induction sinks with
    | nil => exact ⟨[], rfl, rfl⟩
    | cons sink rest ih =>
        obtain ⟨receivers, given, named⟩ := ih fun other later => within other (by simp [later])
        obtain ⟨sinkEntry, receiver, sinkStored, held, isName⟩ :=
          laying.framed.receiver_of_sink laying.reserved found isOutlet (within sink (by simp))
        refine ⟨receiver :: receivers, ?_, ?_⟩
        · rw [List.map_cons, given, receiver?, sinkStored, Option.bind_some, held, List.map_cons]
        · simp [isName, named]
  obtain ⟨receivers, given, named⟩ := receiving _ fun _ member => member
  obtain ⟨sameCold, sameOf, _⟩ := laying.sameGroups
  refine ⟨_, receivers, program.coldDsp.values.filter fun group =>
      (node.sinksOf outlet.id).any fun sink => program.coldOf.get? sink.node == some group.id,
    sending, given, List.filter_sublist, fun group member => ?_, ?_⟩
  · rw [List.mem_filter, List.any_eq_true]
    simp only [member, true_and, beq_iff_eq]
    refine exists_congr fun sink => and_congr_right fun _ => ?_
    rw [sameOf]
    exact laying.divided.splitInto.coldOf sink.node group.id
  · rw [named]
    exact runs_senderOf program id outlet.id _

end Laying

/-- Message delivery is wired completely and in order: for every node of the traversal, each message
outlet runs what its connections say, and exactly the message inlets that have a source in the trimmed
graph have a receiver. -/
theorem messages_delivered_in_order {known : Option Catalog} {reporter : Reporter}
    (accepted : (graph.check known reporter).2 = .ok ())
    (compiled : precompile graph catalog library settings = .ok program) :
    ∃ groups, program.coldGroups = .ok groups ∧
      (program.coldDsp.values.map fun group => group.id).Nodup ∧
      ∀ id ∈ program.fullTraversal, ∃ node, program.graph.node? id = some node ∧
        (∀ outlet ∈ node.outletsOfType .message,
          program.Delivers groups id outlet.id (node.sinksOf outlet.id)) ∧
        ∀ inlet,
          ((program.receiver? id inlet).isSome = true ↔
            ∃ portlet ∈ node.inletsOfType .message, portlet.id = inlet ∧ node.sourcesOf inlet ≠ []) ∧
          ∀ receiver, program.receiver? id inlet = some receiver →
            program.ReceivesAt id inlet receiver := by
  obtain ⟨laying⟩ := laying_of_precompile (Graph.wellFormed_of_check accepted) compiled
  obtain ⟨sameCold, _, sameGroups⟩ := laying.sameGroups
  have split := laying.divided.splitInto
  refine ⟨laying.groups, sameGroups.trans split.coldGroups, sameCold ▸ split.coldIds_nodup,
    fun id listed => ?_⟩
  obtain ⟨node, found⟩ := laying.framed.listed.mp listed
  exact ⟨node, found, fun outlet isOutlet => laying.delivers found isOutlet,
    fun inlet => ⟨laying.receiver?_isSome_iff found, fun receiver => laying.receivesAt found⟩⟩

/-- The box of the tone sets the number and then has its group computed. -/
theorem messages_delivered_in_order_tone :
    ∃ program groups, (toneGraph.check (some toneCatalog) .discarding).2 = .ok () ∧
      precompile toneGraph toneCatalog toneLibrary {} = .ok program ∧
      program.coldGroups = .ok groups ∧ "b" ∈ program.fullTraversal ∧
      program.Delivers groups "b" "0" [⟨"n", "0"⟩] ∧
      (program.sender? "b" "0").map (fun sender => sender.sinkFunctions) =
        some ["N_n_rcvs_0", "DSP_0"] := by
  have evaluated : (do
      let program ← precompile toneGraph toneCatalog toneLibrary {}
      return (decide ("b" ∈ program.fullTraversal),
        (program.graph.node? "b").map fun node => (node.outletsOfType .message, node.sinksOf "0"),
        (program.sender? "b" "0").map fun sender => sender.sinkFunctions)) =
      Except.ok (true, some ([⟨"0", .message⟩], [⟨"n", "0"⟩]), some ["N_n_rcvs_0", "DSP_0"]) := by
    cbv
  obtain ⟨program, compiled, evaluated⟩ := Outcome.bind_eq_ok_iff.mp evaluated
  have facts := Except.ok.inj evaluated
  simp only [Prod.mk.injEq, decide_eq_true_eq] at facts
  obtain ⟨listed, ports, sends⟩ := facts
  obtain ⟨groups, grouped, _, all⟩ := messages_delivered_in_order tone_accepted compiled
  obtain ⟨node, found, delivers, _⟩ := all "b" listed
  rw [found, Option.map_some, Option.some_inj, Prod.mk.injEq] at ports
  obtain ⟨outlets, sinks⟩ := ports
  have delivered := delivers ⟨"0", .message⟩ (by simp [outlets])
  rw [sinks] at delivered
  exact ⟨program, groups, tone_accepted, compiled, grouped, listed, delivered, sends⟩

end Program

end Patchbay
