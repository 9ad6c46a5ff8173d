import Patchbay.Proofs.Program.InletWiring
import Patchbay.Proofs.Program.Support
import Patchbay.Proofs.Subjects

namespace Patchbay

/-! What a program has names for.

Names are handed out by nearly every pass: on purpose, where a portlet or a group is named, and on the
side, where the hole of a template is resolved.  Taken together they are the names of what the program
has: the keys of its modules and types, the states of its nodes, their portlets, the cold groups and the
ports of the host.
-/

open Code (Ask Read Template handlesOf)

namespace Code

theorem mem_handlesOf_iff {scope : Scope} {reads : List Read} {handle : NameSpace × String} :
    handle ∈ handlesOf scope reads ↔ ∃ read ∈ reads, (read.ask scope).handle? = some handle := by
  simp [handlesOf]

/-- A name of the own name space that is declared is also asked for. -/
theorem Template.own_mem_reads {template : Template} {key : String}
    (declared : Template.own key ∈ template.declared) : Read.own key ∈ template.reads :=
  template.reads_of_declared _ declared _ (by simp [Template.reads])

end Code

theorem DspTemplate.exists_of_mem_reads {template : DspTemplate} {read : Read}
    (asked : read ∈ template.reads) : ∃ part ∈ template.templates, read ∈ part.reads := by
  simp only [reads, List.mem_append, List.mem_flatMap] at asked
  unfold templates
  rcases asked with ⟨part, isPart, asked⟩ | ⟨part, isPart, asked⟩ | ⟨inlet, _, asked⟩
  · exact ⟨part, List.mem_append_left _ isPart, asked⟩
  · exact ⟨part, List.mem_append_right _ (List.mem_append_left _ isPart), asked⟩
  · unfold statementOf at asked
    cases found : template.inlets.lookup inlet with
    | none => simp [found, Template.reads, Code.readsOf] at asked
    | some part =>
        rw [found, Option.getD_some] at asked
        obtain ⟨earlier, later, same, _⟩ := List.lookup_eq_some_iff.mp found
        refine ⟨part, List.mem_append_right _ (List.mem_append_right _ ?_), asked⟩
        rw [same]
        simp

/-- A module asks for every key that it declares. -/
theorem Module.Sound.asks_key {library : Library} {module : Module} (sound : module.Sound library)
    {settings : Settings} {naming : Code.Naming} {key : String} (isKey : key ∈ module.keys) :
    .name (.module module.namespaceName) key ∈ module.asks settings naming := by
  unfold asks
  rcases List.mem_append.mp isKey with isCode | isImport
  · have declared : Template.own key ∈
        (module.templates settings).flatMap Template.declared := by
      rw [sound.declares]
      exact List.mem_map_of_mem isCode
    obtain ⟨template, isTemplate, declared⟩ := List.mem_flatMap.mp declared
    obtain ⟨code, isCode, rfl⟩ := List.mem_map.mp isTemplate
    refine List.mem_append_left _ (List.mem_map.mpr ⟨.own key, ?_, rfl⟩)
    exact List.mem_append_left _
      (List.mem_flatMap.mpr ⟨code, isCode, Template.own_mem_reads declared⟩)
  · have named : Template.text key ∈ (module.importTemplates settings).map (·.name) := by
      rw [sound.imports]
      exact List.mem_map_of_mem isImport
    obtain ⟨template, isTemplate, isName⟩ := List.mem_map.mp named
    refine List.mem_append_right _ (List.mem_append_left _ (List.mem_map.mpr
      ⟨template.resolve module.scope naming, List.mem_map_of_mem isTemplate, ?_⟩))
    simp [Code.FunctionTemplate.resolve, Code.func, isName, Template.resolve, Code.Part.plainText,
      Code.Part.pieces]

namespace Program

variable {program : Program} {id : String} {node : Node} {type : TypeCode}
  {handle : NameSpace × String}

/-- What a program has names for. -/
inductive Named (program : Program) : Subject → Prop where
  | backed {space : NameSpace} {key : String} (backed : program.Backed space key) :
      Named program (.handle space key)
  | state {id : String} {template : Site → Option Code.RecordTemplate}
      (given : program.stateTemplate? id = some template) : Named program (.state id)
  | outlet {id : String} {node : Node} {outlet : Portlet} (looped : id ∈ program.loopNodes)
      (found : program.graph.node? id = some node) (isOutlet : outlet ∈ node.outletsOfType .signal) :
      Named program (.handle (.outlets id) outlet.id)
  | receiver {id : String} {node : Node} {inlet : Portlet}
      (found : program.graph.node? id = some node) (connected : inlet ∈ connectedInlets node) :
      Named program (.handle (.receivers id) inlet.id)
  | sender {id : String} {node : Node} {outlet : Portlet}
      (found : program.graph.node? id = some node) (isOutlet : outlet ∈ node.outletsOfType .message)
      (several : 2 ≤ (program.functionsOf (node.sinksOf outlet.id)).length) :
      Named program (.handle (.senders id) outlet.id)
  | coldGroup {id : String} (registered : id ∈ program.coldDsp.keys) :
      Named program (.handle .coldGroups id)
  | hostReceiver {hostPort : HostPort} (registered : hostPort ∈ program.hostReceivers.values) :
      Named program (.handle (.hostReceivers hostPort.node) hostPort.portlet)
  | hostSender {hostPort : HostPort} (registered : hostPort ∈ program.hostSenders.values) :
      Named program (.handle (.hostSenders hostPort.node) hostPort.portlet)

/-! ## The names of templates -/

/-- The receiver of an inlet has one of the bodies. -/
theorem exists_of_receiverOf {bodies : List (String × List Template)} {inlet : String}
    {template : Code.FunctionTemplate}
    (isReceiver : receiverOf (bodies.map fun entry => (entry.1, some (receiverTemplate entry.2))) inlet =
      some template) : ∃ body ∈ bodies, template = receiverTemplate body.2 := by
  obtain ⟨earlier, later, same, _⟩ :=
    List.lookup_eq_some_iff.mp (Option.join_eq_some_iff.mp isReceiver)
  have listed : (inlet, some template) ∈ bodies.map fun entry =>
      (entry.1, some (receiverTemplate entry.2)) := by simp [same]
  obtain ⟨body, isBody, isTemplate⟩ := List.mem_map.mp listed
  cases isTemplate
  exact ⟨body, isBody, rfl⟩

/-- Receivers of messages ask for what their bodies ask for. -/
theorem exists_of_mem_receiverReads {bodies : List (String × List Template)} {read : Read}
    (asked : read ∈ receiverReads (bodies.map fun entry =>
      (entry.1, some (receiverTemplate entry.2)))) :
    ∃ body ∈ bodies, read ∈ (Template.code body.2).reads := by
  obtain ⟨inlet, _, asked⟩ := List.mem_flatMap.mp asked
  obtain ⟨template, isReceiver, asked⟩ := List.mem_flatMap.mp asked
  obtain ⟨body, isBody, rfl⟩ := exists_of_receiverOf (Option.mem_toList.mp isReceiver)
  exact ⟨body, isBody, asked⟩

theorem space_nodeScope {entry : NodeCode} (found : program.graph.node? id = some node)
    (stored : program.nodes.entries.get? id = some entry) :
    (program.nodeScope id).space = .nodeType node.type := by
  rw [nodeScope_eq found stored]
  rfl

namespace Supported

variable (supported : program.Supported)

include supported

theorem backed_of_asks {module : Module} {settings : Settings} {naming : Code.Naming} {ask : Ask}
    (linked : module ∈ program.dependencies.modules) (asked : ask ∈ module.asks settings naming)
    (isHandle : ask.handle? = some handle) : program.Backed handle.1 handle.2 := by
  have sound := supported.library.modules (supported.modules module linked)
  have own : ∀ key ∈ module.keys, program.Backed (.module module.namespaceName) key :=
    fun key isKey => .module linked isKey
  simp only [Module.asks, List.mem_append, List.mem_map] at asked
  rcases asked with ⟨read, isRead, rfl⟩ | ⟨function, isImport, rfl⟩ | ⟨key, isExport, rfl⟩
  · have isBacked := (Bool.and_eq_true_iff.mp (List.all_eq_true.mp (sound.backed settings) read
      isRead)).2
    exact supported.backed_of_isBacked rfl isBacked (fun _ => .module linked) own isHandle
  · cases isHandle
    obtain ⟨template, isTemplate, rfl⟩ := List.mem_map.mp isImport
    have named : template.name ∈ (module.importTemplates settings).map (·.name) :=
      List.mem_map_of_mem isTemplate
    rw [sound.imports] at named
    obtain ⟨key, isKey, isName⟩ := List.mem_map.mp named
    have sameName : (template.resolve module.scope naming).name = key := by
      simp [Code.FunctionTemplate.resolve, Code.func, ← isName, Template.resolve,
        Code.Part.plainText, Code.Part.pieces]
    rw [sameName]
    exact own key (List.mem_append_right _ isKey)
  · cases isHandle
    exact own key (List.contains_iff_mem.mp (List.all_eq_true.mp sound.exports key isExport))

theorem backed_of_coreHandles (registered : program.types.entries.get? type.type = some type)
    (member : handle ∈ program.coreHandles type) : program.Backed handle.1 handle.2 := by
  obtain ⟨template, given, member⟩ := List.mem_flatMap.mp member
  obtain ⟨read, asked, isHandle⟩ := Code.mem_handlesOf_iff.mp member
  obtain ⟨supports, _⟩ := (supported.types registered).core template (Option.mem_toList.mp given)
    program.settings
  exact supported.backed_of_supports registered rfl supports asked isHandle

theorem mem_coreHandles {name key : String} (registered : program.types.entries.get? name = some type)
    (isKey : key ∈ type.implementation.coreKeys) :
    (.nodeType type.type, key) ∈ program.coreHandles type := by
  obtain ⟨template, given, _⟩ := List.mem_flatMap.mp isKey
  obtain ⟨_, _, declares⟩ := (supported.types registered).core template (Option.mem_toList.mp given)
    program.settings
  have declared : Template.own key ∈ (template program.settings).declared := by
    rw [declares]
    exact List.mem_map_of_mem isKey
  exact List.mem_flatMap.mpr ⟨template, given, Code.mem_handlesOf_iff.mpr
    ⟨.own key, Template.own_mem_reads declared, rfl⟩⟩

theorem backed_of_recordHandles {template : Site → Option Code.RecordTemplate}
    (found : program.graph.node? id = some node)
    (registered : program.types.entries.get? node.type = some type)
    (given : type.implementation.state = some template)
    (member : handle ∈ program.recordHandles id template) : program.Backed handle.1 handle.2 := by
  obtain ⟨_, isNode, member⟩ := List.mem_flatMap.mp member
  cases found.symm.trans (Option.mem_toList.mp isNode)
  obtain ⟨code, _, member⟩ := List.mem_flatMap.mp member
  obtain ⟨record, isRecord, member⟩ := List.mem_flatMap.mp member
  obtain ⟨read, asked, isHandle⟩ := Code.mem_handlesOf_iff.mp member
  obtain ⟨members, same, supports, _⟩ := (supported.types registered).state template given
    ⟨node, program.settings⟩
  cases same.symm.trans (Option.mem_toList.mp isRecord)
  refine supported.backed_of_supports registered rfl supports ?_ isHandle
  rw [Template.reads]
  exact asked

theorem mem_recordHandles {entry : NodeCode} {template : Site → Option Code.RecordTemplate}
    (found : program.graph.node? id = some node)
    (stored : program.nodes.entries.get? id = some entry)
    (registered : program.types.entries.get? node.type = some type)
    (given : type.implementation.state = some template) :
    (.nodeType node.type, "State") ∈ program.recordHandles id template := by
  obtain ⟨members, same, _⟩ := (supported.types registered).state template given
    ⟨node, program.settings⟩
  simp only [recordHandles, found, stored, same, Option.toList_some, List.flatMap_singleton]
  refine Code.mem_handlesOf_iff.mpr ⟨.own "State", ?_, rfl⟩
  simp [Code.RecordTemplate.reads, Template.reads]

/-- The audio code of a node is supported by its type. -/
theorem supports_dsp {template : DspTemplate} (found : program.graph.node? id = some node)
    (given : program.dspTemplate? id = some template) :
    ∃ type, program.types.entries.get? node.type = some type ∧
      ∀ part ∈ template.templates, type.implementation.supports program.library part = true := by
  rw [dspTemplate?, found, Option.bind_some] at given
  obtain ⟨type, registered, given⟩ := Option.bind_eq_some_iff.mp given
  obtain ⟨generator, isGenerator, rfl⟩ := Option.map_eq_some_iff.mp given
  exact ⟨type, registered, List.all_eq_true.mp
    ((supported.types registered).dsp generator isGenerator ⟨node, program.settings⟩)⟩

/-- The setup code of a node is supported by its type. -/
theorem supports_setup {template : Template} (found : program.graph.node? id = some node)
    (given : program.setupTemplate? id = some template) :
    ∃ type, program.types.entries.get? node.type = some type ∧
      type.implementation.supports program.library template = true := by
  obtain ⟨type, registered, given⟩ := Option.bind_eq_some_iff.mp given
  rw [nodeType?, found, Option.bind_some] at registered
  obtain ⟨setup, isSetup, rfl⟩ := Option.map_eq_some_iff.mp given
  exact ⟨type, registered, (supported.types registered).setup setup isSetup (program.siteOf id)⟩

/-- The receivers of a node take a message, and their bodies are supported by its type. -/
theorem supports_receivers {templates : List (String × Option Code.FunctionTemplate)}
    (found : program.graph.node? id = some node)
    (given : program.receiverTemplates? id = some templates) :
    ∃ (type : TypeCode) (bodies : List (String × List Template)),
      program.types.entries.get? node.type = some type ∧
      templates = bodies.map (fun entry => (entry.1, some (receiverTemplate entry.2))) ∧
      ∀ body ∈ bodies, type.implementation.supports program.library (.code body.2) = true := by
  obtain ⟨type, registered, given⟩ := Option.bind_eq_some_iff.mp given
  rw [nodeType?, found, Option.bind_some] at registered
  obtain ⟨receivers, isReceivers, rfl⟩ := Option.map_eq_some_iff.mp given
  obtain ⟨bodies, same, supports⟩ := (supported.types registered).receivers receivers isReceivers
    (program.siteOf id)
  exact ⟨type, bodies, registered, same, List.all_eq_true.mp supports⟩

theorem backed_of_dspHandles {scope : Code.Scope} (found : program.graph.node? id = some node)
    (space : scope.space = .nodeType node.type) (member : handle ∈ program.dspHandles id scope) :
    program.Backed handle.1 handle.2 := by
  unfold dspHandles at member
  cases given : program.dspTemplate? id with
  | none => simp [given] at member
  | some template =>
      rw [given, Option.map_some, Option.getD_some] at member
      obtain ⟨read, asked, isHandle⟩ := Code.mem_handlesOf_iff.mp member
      obtain ⟨type, registered, supports⟩ := supported.supports_dsp found given
      obtain ⟨part, isPart, asked⟩ := DspTemplate.exists_of_mem_reads asked
      exact supported.backed_of_supports registered space (supports part isPart) asked isHandle

theorem backed_of_completionHandles {entry : NodeCode} (found : program.graph.node? id = some node)
    (stored : program.nodes.entries.get? id = some entry)
    (member : handle ∈ program.completionHandles id) : program.Backed handle.1 handle.2 := by
  have space := space_nodeScope found stored
  rcases List.mem_append.mp member with inSetup | inBody
  · unfold setupHandles at inSetup
    cases given : program.setupTemplate? id with
    | none => simp [given] at inSetup
    | some template =>
        rw [given, Option.map_some, Option.getD_some] at inSetup
        obtain ⟨read, asked, isHandle⟩ := Code.mem_handlesOf_iff.mp inSetup
        obtain ⟨type, registered, supports⟩ := supported.supports_setup found given
        exact supported.backed_of_supports registered space supports asked isHandle
  · unfold bodyHandles at inBody
    split at inBody
    · cases given : program.receiverTemplates? id with
      | none => simp [given] at inBody
      | some templates =>
          rw [given, Option.map_some, Option.getD_some] at inBody
          obtain ⟨read, asked, isHandle⟩ := Code.mem_handlesOf_iff.mp inBody
          obtain ⟨type, bodies, registered, rfl, supports⟩ := supported.supports_receivers found given
          obtain ⟨body, isBody, asked⟩ := exists_of_mem_receiverReads asked
          exact supported.backed_of_supports registered space (supports body isBody) asked isHandle
    · cases inBody

end Supported

end Program

end Patchbay
