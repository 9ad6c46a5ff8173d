import Patchbay.Proofs.Program.Closed

namespace Patchbay

/-! Everything that a program holds can be written.

Code is put together from texts and from templates whose constants have values, so rendering it cannot
fail, for whatever language.  Each pass leaves such code behind, node by node, and the regions only put
what is there below each other.
-/

open Code (Dialect Function Part Sequence SlotsSound Template)

namespace Code

variable {dialect : Dialect}

/-- The arguments and the body of a function can be written. -/
structure Function.Sound (dialect : Dialect) (function : Function) : Prop where
  args : SlotsSound dialect function.args
  body : ∀ part ∈ function.body, part.Writable dialect

theorem Function.Sound.part {function : Function} (sound : function.Sound dialect) :
    (Part.ofFunction function).Sound dialect :=
  sound_of_writable rfl (writable_func sound.args sound.body)

theorem slotsSound_arg (type name : String) : SlotsSound dialect [arg type name] := by
  simp [SlotsSound, arg]

/-- A function that takes one message. -/
theorem Function.Sound.func {type name result : String} {body : List Part}
    (all : ∀ part ∈ body, part.Sound dialect) (slot : String) :
    (Code.func name [arg type slot] result body).Sound dialect :=
  ⟨slotsSound_arg type slot, writable_code all⟩

theorem isSolid_sequence_code {parts : List Part} {part : Part} (member : part ∈ parts)
    (solid : part.isSolid = true) : (Part.sequence (code parts)).isSolid = true := by
  have written := isEmpty_code_of_solid member solid
  unfold Part.isSolid
  rw [Part.pieces, piecesOf_code]
  unfold Sequence.isEmpty at written
  simpa using written

theorem sound_texts (values : List String) :
    (Part.sequence (code (values.map Part.text))).Sound dialect := by
  refine sound_sequence_code fun part isPart => ?_
  obtain ⟨value, _, rfl⟩ := List.mem_map.mp isPart
  exact sound_text value

end Code

/-! ## Code of nodes -/

/-- All code of a node can be written. -/
structure NodeCode.Sound (dialect : Dialect) (entry : NodeCode) : Prop where
  receivers : ∀ {inlet receiver}, entry.receivers.entries.get? inlet = some receiver →
    receiver.Sound dialect
  dispatchers : ∀ {outlet sender function}, entry.senders.entries.get? outlet = some sender →
    sender.dispatcher = some function → function.Sound dialect
  initialization : (Part.ofSequence? entry.initialization).Sound dialect
  loop : (Part.ofSequence? entry.loop).Sound dialect
  inlets : ∀ {inlet statement}, entry.inlets.get? inlet = some statement →
    (Part.sequence statement).Sound dialect
  state : ∀ record, entry.state = some record → SlotsSound dialect record.members

/-- The arguments of every function of the host can be written. -/
def Dependencies.Sound (dialect : Dialect) (dependencies : Dependencies) : Prop :=
  ∀ entry ∈ dependencies.imports, SlotsSound dialect entry.function.args

namespace Program

variable {graph : Graph} {catalog : Catalog} {library : Library} {settings : Settings}
  {program base : Program} {id : String} {node : Node} {entry : NodeCode} {dialect : Dialect}

structure Dsp.Sound (dialect : Dialect) (dsp : Dsp) : Prop where
  expression : (Part.ofSequence? dsp.expression).Sound dialect
  loop : (Part.ofSequence? dsp.loop).Sound dialect
  inlets : ∀ {inlet statement}, dsp.inlets.get? inlet = some statement →
    (Part.sequence statement).Sound dialect

theorem sound_missing {kind : Code.ElementKind} : (Part.missing kind).Sound dialect := by
  simp [Part.Sound, Part.pieces]

theorem sound_resolved {template : Template} {scope : Code.Scope} {naming : Code.Naming}
    (writable : template.isWritable = true) :
    (Part.sequence (template.resolve scope naming).toSequence).Sound dialect :=
  Code.sound_toSequence (template.sound_resolve writable)

theorem sound_mapped {template : Option Template} {scope : Code.Scope} {naming : Code.Naming}
    (writable : ∀ part, template = some part → part.isWritable = true) :
    (Part.ofSequence? (template.map fun part => (part.resolve scope naming).toSequence)).Sound dialect := by
  cases template with
  | none => exact sound_missing
  | some part => exact sound_resolved (writable part rfl)

theorem sound_dsp {template : DspTemplate} {scope : Code.Scope} {naming : Code.Naming}
    (writable : ∀ part ∈ template.templates, part.isWritable = true) :
    (template.resolve scope naming).Sound dialect where
  expression := sound_mapped fun part given => writable part (by simp [DspTemplate.templates, given])
  loop := sound_mapped fun part given => writable part (by simp [DspTemplate.templates, given])
  inlets := by
    intro inlet statement given
    obtain ⟨id, _, isStatement⟩ := List.mem_map.mp (Table.mem_of_get?_ofList given)
    cases isStatement
    refine sound_resolved ?_
    unfold DspTemplate.statementOf
    cases stated : template.inlets.lookup inlet with
    | none => rfl
    | some part =>
        obtain ⟨earlier, later, same, _⟩ := List.lookup_eq_some_iff.mp stated
        refine writable part ?_
        simp [DspTemplate.templates, same]

theorem sound_new (id type : String) : (NodeCode.new id type).Sound dialect where
  receivers := by simp [NodeCode.new, EmptyCollection.emptyCollection]
  dispatchers := by simp [NodeCode.new, EmptyCollection.emptyCollection]
  initialization := sound_missing
  loop := sound_missing
  inlets := by simp [NodeCode.new, EmptyCollection.emptyCollection]
  state := by simp [NodeCode.new]

theorem solid_sound_iff : entry.solid.Sound dialect ↔ entry.Sound dialect :=
  ⟨fun sound => ⟨sound.receivers, sound.dispatchers, sound.initialization, sound.loop, sound.inlets,
    sound.state⟩,
    fun sound => ⟨sound.receivers, sound.dispatchers, sound.initialization, sound.loop, sound.inlets,
    sound.state⟩⟩

/-! ### From pass to pass -/

theorem Supported.sound_withState (supported : program.Supported)
    (found : program.graph.node? id = some node)
    (stored : ∃ code, program.nodes.entries.get? id = some code) (sound : entry.Sound dialect) :
    (program.withState id entry).Sound dialect := by
  unfold withState
  cases given : program.ownState? id with
  | none => exact sound
  | some record =>
      obtain ⟨template, isTemplate, _⟩ := Option.bind_eq_some_iff.mp given
      obtain ⟨code, stored⟩ := stored
      obtain ⟨members, _, writable, isRecord⟩ := supported.ownState?_eq found stored isTemplate
      cases given.symm.trans isRecord
      refine { sound with state := fun record isState => ?_ }
      cases isState
      exact Code.slotsSound_resolveMembers members writable

theorem sound_placeholder (name : String) : (receiverPlaceholder name).Sound dialect :=
  .func (by simp) "m"

theorem sound_dispatcher (name : String) (functions : List String) :
    (dispatcher name functions).Sound dialect := by
  refine .func ?_ "m"
  simp only [List.mem_singleton, forall_eq]
  refine Code.sound_sequence_lines fun part isCall => ?_
  obtain ⟨function, _, rfl⟩ := List.mem_map.mp isCall
  exact Code.sound_texts [function, "(m)"]

theorem sound_senderOf {outlet : String} {functions : List String} {function : Function}
    (given : (program.senderOf id outlet functions).dispatcher = some function) :
    function.Sound dialect := by
  unfold senderOf at given
  split at given
  · cases given
  · cases given
  · cases given
    exact sound_dispatcher _ _

theorem sound_wiredEntry (sound : entry.Sound dialect) :
    (program.wiredEntry id entry).Sound dialect := by
  have received : (program.withReceivers id entry).Sound dialect := by
    refine { sound with receivers := fun {inlet receiver} held => ?_ }
    obtain ⟨portlet, _, isReceiver⟩ := List.mem_map.mp (Table.mem_of_get?_ofList held)
    cases isReceiver
    exact sound_placeholder _
  have sent : (program.withSenders id (program.withReceivers id entry)).Sound dialect := by
    refine { received with dispatchers := fun {outlet sender function} held given => ?_ }
    cases found : program.graph.node? id with
    | none => simp [withSenders, found, EmptyCollection.emptyCollection] at held
    | some node =>
        simp only [withSenders, found, Option.map_some, Option.getD_some] at held
        obtain ⟨portlet, _, isSender⟩ := List.mem_map.mp (Table.mem_of_get?_ofList held)
        cases isSender
        exact sound_senderOf given
  unfold wiredEntry
  dsimp only
  split
  · exact { sent with }
  · exact sent

theorem sound_withLoop {dsp : Dsp} (sound : entry.Sound dialect) (generated : dsp.Sound dialect) :
    (withLoop node dsp entry).Sound dialect := by
  unfold withLoop
  cases expression : dsp.expression with
  | none => exact { sound with loop := generated.loop, inlets := generated.inlets }
  | some content =>
      cases node.outletsOfType .signal with
      | nil => exact sound
      | cons outlet rest =>
          have flat := generated.expression
          rw [expression] at flat
          change (Part.sequence content).Sound dialect at flat
          refine { sound with loop := ?_, inlets := ?_ }
          · exact Code.sound_sequence_code (by simpa [Code.sound_text] using flat)
          · simp [EmptyCollection.emptyCollection]

/-- What was generated for a receiver can be written. -/
theorem Supported.sound_generatedReceivers (supported : program.Supported)
    (found : program.graph.node? id = some node) {inlet : String} {function : Function}
    (generated : (program.generatedReceivers id).get? inlet = some function) :
    function.Sound dialect := by
  unfold generatedReceivers at generated
  cases given : program.receiverTemplates? id with
  | none => simp [given, EmptyCollection.emptyCollection] at generated
  | some templates =>
      rw [given, Option.map_some, Option.getD_some] at generated
      obtain ⟨template, isReceiver, rfl⟩ := receiverOf_of_resolve generated
      obtain ⟨type, bodies, _, rfl, supports⟩ := supported.supports_receivers found given
      obtain ⟨body, isBody, rfl⟩ := exists_of_receiverOf isReceiver
      have writable := (Bool.and_eq_true_iff.mp (supports body isBody)).1
      exact .func (Code.sound_resolveAll body.2 writable) "m"

theorem Supported.sound_completed (supported : program.Supported)
    (found : program.graph.node? id = some node) (sound : entry.Sound dialect) :
    (program.completed id entry).Sound dialect := by
  have setUp : (program.withSetup id entry).Sound dialect := by
    unfold withSetup
    cases given : program.setupTemplate? id with
    | none => exact sound
    | some template =>
        obtain ⟨type, _, supports⟩ := supported.supports_setup found given
        exact { sound with initialization := sound_resolved (Bool.and_eq_true_iff.mp supports).1 }
  refine { setUp with receivers := fun {inlet receiver} held => ?_ }
  rw [completed_receivers, Table.get?_map] at held
  obtain ⟨reserved, isReserved, rfl⟩ := Option.map_eq_some_iff.mp held
  have before := sound.receivers isReserved
  unfold withBody
  cases generated : (program.generatedReceivers id).get? inlet with
  | none => exact before
  | some function => exact ⟨before.args, (supported.sound_generatedReceivers found generated).body⟩

/-- All code of all nodes of a program can be written. -/
theorem Laying.sound_entry (laying : Laying graph catalog library settings program)
    (supported : laying.embedded.Supported) (stored : program.nodes.entries.get? id = some entry) :
    entry.Sound dialect := by
  have supportedDeclared := laying.setup.keepsDeclared.supported supported
  have supportedSplit := laying.divided.keepsSupport.supported
    (laying.setup.instantiating.keepsSupport.supported supportedDeclared)
  have supportedEmitted := laying.emitting.keepsSupport.supported supportedSplit
  obtain ⟨node, found⟩ := laying.framed.known stored
  obtain ⟨before, emitted, isBefore, rfl, stages⟩ := laying.stages stored
  obtain ⟨_, foundAgain, rfl⟩ := laying.split_entry isBefore
  cases found.symm.trans foundAgain
  obtain ⟨foundDeclared, storedDeclared⟩ := laying.declared_entry found
  have first : (laying.declared.withState id (NodeCode.new id node.type)).Sound dialect :=
    supportedDeclared.sound_withState foundDeclared storedDeclared (sound_new id node.type)
  have foundEmitted : laying.emitted.graph.node? id = some node :=
    laying.completing.keeps.graph ▸ found
  refine supportedEmitted.sound_completed foundEmitted (solid_sound_iff.mp ?_)
  have wired : (laying.split.wiredEntry id (laying.declared.withState id (NodeCode.new id node.type)).solid)
      |>.Sound dialect := sound_wiredEntry (solid_sound_iff.mpr first)
  rcases stages with isWired | ⟨_, scope, dsp, _, generated, isLooped⟩
  · rw [isWired]
    exact wired
  · rw [isLooped]
    refine sound_withLoop wired ?_
    obtain ⟨template, given, _, rfl⟩ := (laying.emitting.generates generated).filled
    have foundWired : laying.wired.graph.node? id = some node := by
      rw [laying.wiring.keeps.graph, ← laying.emitting.keeps.graph]
      exact foundEmitted
    obtain ⟨type, _, supports⟩ := (laying.wiring.keepsSupport.supported supportedSplit).supports_dsp
      foundWired given
    exact sound_dsp fun part isPart => (Bool.and_eq_true_iff.mp (supports part isPart)).1

/-! ## Regions -/

theorem sound_unlessNothing {content : Option Sequence} (sound : (Part.ofSequence? content).Sound dialect) :
    ∀ part ∈ (if rendersNothing content then [] else [Part.ofSequence? content]), part.Sound dialect := by
  intro part isPart
  split at isPart
  · cases isPart
  · rw [List.mem_singleton.mp isPart]
    exact sound

theorem sound_contribution {parts : NodeCode → List Part} {ids : List String}
    (entries : ∀ {id entry}, program.nodes.entries.get? id = some entry →
      ∀ part ∈ parts entry, part.Sound dialect) :
    (Part.sequence (Code.lines (ids.flatMap (program.contribution parts)))).Sound dialect := by
  refine Code.sound_sequence_lines fun part isPart => ?_
  obtain ⟨id, _, isPart⟩ := List.mem_flatMap.mp isPart
  unfold contribution at isPart
  cases stored : program.nodes.entries.get? id with
  | none => simp [stored] at isPart
  | some entry => exact entries stored part (by simpa [stored] using isPart)

theorem sound_portletParts (sound : entry.Sound dialect) :
    ∀ part ∈ portletParts entry, part.Sound dialect := by
  intro part isPart
  rcases List.mem_append.mp isPart with isPart | isDispatcher
  rcases List.mem_append.mp isPart with isOutlet | isReceiver
  · obtain ⟨outlet, _, rfl⟩ := List.mem_map.mp isOutlet
    exact Code.sound_var "Float" _ (by simpa using Code.sound_text "0")
  · obtain ⟨receiver, listed, rfl⟩ := List.mem_map.mp isReceiver
    obtain ⟨inlet, held⟩ := Table.mem_values_iff.mp listed
    exact (sound.receivers held).part
  · obtain ⟨sender, listed, given⟩ := List.mem_filterMap.mp isDispatcher
    obtain ⟨function, isFunction, rfl⟩ := Option.map_eq_some_iff.mp given
    obtain ⟨outlet, held⟩ := Table.mem_values_iff.mp listed
    exact (sound.dispatchers held isFunction).part

/-- Members of a state variable stand one after the other. -/
theorem sound_separateMembers {members : List Sequence}
    (all : ∀ member ∈ members, (Part.sequence member).Sound dialect) :
    ∀ part ∈ separateMembers members, part.Sound dialect := by
  induction members with
  | nil => simp [separateMembers]
  | cons member rest ih =>
      obtain ⟨first, later⟩ := List.forall_mem_cons.mp all
      cases rest with
      | nil => simpa [separateMembers] using first
      | cons next others =>
          rw [separateMembers]
          · exact List.forall_mem_cons.mpr ⟨first, List.forall_mem_cons.mpr ⟨Code.sound_text ",", ih later⟩⟩
          · simp

theorem sound_instance {parts : List Part} (entries : ∀ {id entry},
      program.nodes.entries.get? id = some entry → entry.Sound dialect)
    (isInstance : program.IsInstance id parts) : ∀ part ∈ parts, part.Sound dialect := by
  obtain ⟨entry, stored, ⟨_, rfl⟩ | ⟨record, members, isState, sound, rfl⟩⟩ := isInstance
  · simp
  · have written := sound dialect ((entries stored).state record isState)
    have solid : (Part.sequence (Code.code ["\x7b", .list .parts (separateMembers members),
        "\n\x7d"])).isSolid = true :=
      Code.isSolid_sequence_code (List.mem_cons_self ..) (by decide)
    simp only [List.mem_singleton, forall_eq]
    refine Code.sound_sequence_code ?_
    simp only [List.mem_singleton, forall_eq]
    refine Code.sound_const _ _ ?_ (List.mem_singleton_self _) solid
    simp only [List.mem_singleton, forall_eq]
    refine Code.sound_sequence_code ?_
    simp only [List.mem_cons, List.not_mem_nil, or_false, forall_eq_or_imp, forall_eq]
    exact ⟨Code.sound_text _, Code.sound_list (sound_separateMembers written), Code.sound_text _⟩

theorem sound_partsOf (entries : ∀ {id entry}, program.nodes.entries.get? id = some entry →
      entry.Sound dialect) (step : Step) : ∀ part ∈ program.partsOf step, part.Sound dialect := by
  cases step with
  | inlet inlet =>
      intro part isPart
      obtain ⟨statement, stated, rfl⟩ := List.mem_map.mp isPart
      obtain ⟨entry, stored, given⟩ := Option.bind_eq_some_iff.mp (Option.mem_toList.mp stated)
      exact (entries stored).inlets given
  | loop id =>
      refine sound_unlessNothing ?_
      cases stored : program.nodes.entries.get? id with
      | none => exact sound_missing
      | some entry => exact (entries stored).loop

theorem sound_steps (entries : ∀ {id entry}, program.nodes.entries.get? id = some entry →
      entry.Sound dialect) (steps : List Step) :
    (Part.sequence (Code.lines (steps.flatMap program.partsOf))).Sound dialect := by
  refine Code.sound_sequence_lines fun part isPart => ?_
  obtain ⟨step, _, isPart⟩ := List.mem_flatMap.mp isPart
  exact sound_partsOf entries step part isPart

/-- The code of the modules of a program can be written. -/
theorem Laying.sound_dependencies (laying : Laying graph catalog library settings program)
    (supported : program.Supported) : (Part.ofSequence? program.dependencies.code).Sound dialect := by
  rw [laying.linking]
  refine Code.sound_sequence_lines fun part isPart => ?_
  obtain ⟨content, isContent, rfl⟩ := List.mem_map.mp isPart
  obtain ⟨module, linked, isContent⟩ := List.mem_flatMap.mp isContent
  have sound := supported.library.modules (supported.modules module linked)
  obtain ⟨template, isCode, rfl⟩ := Option.map_eq_some_iff.mp (Option.mem_toList.mp isContent)
  refine sound_resolved (List.all_eq_true.mp (sound.writable program.settings) _ ?_)
  simp [Module.templates, isCode]

/-- What sound modules ask of the host can be written. -/
theorem sound_link {modules : List Module} {naming : Code.Naming}
    (sound : ∀ module ∈ modules, module.Sound library) :
    (link settings naming modules [] { modules }).Sound dialect := by
  have addExport (module : Module) (dependencies : Dependencies) (key : String) :
      (module.addExport naming dependencies key).imports = dependencies.imports := by
    unfold Module.addExport
    dsimp only
    split <;> rfl
  refine List.foldlRecOn (motive := Dependencies.Sound dialect) modules _
    (by simp [Dependencies.Sound]) fun dependencies before module linked => ?_
  refine List.foldlRecOn (motive := Dependencies.Sound dialect) module.exports _ ?_
    fun dependencies before key _ => by rwa [Dependencies.Sound, addExport]
  refine List.foldlRecOn (motive := Dependencies.Sound dialect) _ _ before
    fun dependencies before function imported => ?_
  unfold Module.addImport
  dsimp only
  split
  · exact before
  · obtain ⟨template, isTemplate, rfl⟩ := List.mem_map.mp imported
    refine List.forall_mem_append.mpr ⟨before, List.forall_mem_singleton.mpr ?_⟩
    exact Code.slotsSound_resolveArgs template.args (List.all_eq_true.mp
      ((sound module linked).plainImports settings) template isTemplate)

/-- The code of the types of a program can be written. -/
theorem Laying.sound_types (laying : Laying graph catalog library settings program)
    (supported : laying.embedded.Supported) :
    (Part.sequence program.nodeTypesRegion).Sound dialect := by
  refine Code.sound_sequence_lines fun part isPart => ?_
  obtain ⟨type, listed, isPart⟩ := List.mem_flatMap.mp isPart
  rw [laying.types_eq] at listed
  obtain ⟨name, registered⟩ := Table.mem_values_iff.mp listed
  obtain ⟨old, found, same, core, stateRecord⟩ :=
    laying.setup.declaring.type_eq laying.setup.framedEmbedded laying.setup.undeclared registered
  rcases List.mem_append.mp isPart with isRecord | isCore
  · obtain ⟨record, given, rfl⟩ := List.mem_map.mp isRecord
    rw [Option.mem_toList, stateRecord] at given
    obtain ⟨template, isState, given⟩ := Option.bind_eq_some_iff.mp given
    obtain ⟨first, node, entry, isFirst, isNode, rfl, stored⟩ :=
      laying.setup.framedEmbedded.firstOfType_eq found
    obtain ⟨members, _, writable, isResolved⟩ := supported.stateRecordOf_eq isNode stored found isState
    rw [isFirst, Option.bind_some, isResolved] at given
    cases given
    exact Code.sound_of_writable rfl
      (Code.writable_record (Code.slotsSound_resolveMembers members writable))
  · refine sound_unlessNothing ?_ part isCore
    rw [core]
    cases isCore : old.implementation.core with
    | none => exact sound_missing
    | some template =>
        obtain ⟨supports, _⟩ := (supported.types found).core template isCore _
        exact sound_resolved (Bool.and_eq_true_iff.mp supports).1

theorem sound_setupParts (sound : entry.Sound dialect) : ∀ part ∈ setupParts entry, part.Sound dialect :=
  sound_unlessNothing sound.initialization

theorem sound_coldFunction (entries : ∀ {id entry}, program.nodes.entries.get? id = some entry →
      entry.Sound dialect) (group : ColdGroup) : (program.coldFunction group).Sound dialect :=
  (Function.Sound.func (by simpa using sound_steps entries _) "m").part

theorem sound_receiverFunction (hostPort : HostPort) :
    (program.receiverFunction hostPort).Sound dialect :=
  (Function.Sound.func (by simp [Code.sound_text]) "m").part

/-- Setting up an array makes one of its length, fills and registers it. -/
theorem sound_arrayBlock (setArray name : String) (values : List Float) :
    (arrayBlock setArray name values).Sound dialect := by
  have first : (Code.const "FloatArray" "array" [
      "new FloatArray(", .integer values.length, ")"]).Sound dialect :=
    Code.sound_const _ _ (by simp [Code.sound_text, Code.sound_integer]) (List.mem_cons_self ..)
      (by decide)
  have writes : ∀ entry ∈ values.zipIdx, (Part.sequence (Code.code ["array[", .integer entry.2, "] = ",
      .number entry.1])).Sound dialect := fun entry _ =>
    Code.sound_sequence_code (by simp [Code.sound_text, Code.sound_integer, Code.sound_number])
  have last : (Part.sequence (Code.code [setArray, "(", Text.literal name, ", array)"])).Sound dialect :=
    Code.sound_sequence_code (by simp [Code.sound_text])
  have block := Code.sound_sequence_lines (List.forall_mem_cons.mpr ⟨first,
    List.forall_mem_append.mpr ⟨List.forall_mem_map.mpr writes, List.forall_mem_singleton.mpr last⟩⟩)
  exact Code.sound_sequence_code (by simpa [Code.sound_text] using block)

theorem sound_arraysRegion : (Part.ofSequence? program.arraysRegion).Sound dialect := by
  unfold arraysRegion
  split
  · exact sound_missing
  · exact Code.sound_sequence_lines (List.forall_mem_map.mpr fun _ _ => sound_arrayBlock _ _ _)

theorem sound_loopCode (entries : ∀ {id entry}, program.nodes.entries.get? id = some entry →
      entry.Sound dialect) : (Part.sequence program.loopCode).Sound dialect :=
  Code.sound_sequence_code (by simpa [Code.sound_text] using sound_steps entries _)

end Program

open Program (sound_missing)

namespace Regions

variable {dialect : Dialect} {regions : Regions}

/-- The declarations, the initialization and the loop can be written. -/
structure Sound (dialect : Dialect) (regions : Regions) : Prop where
  declarations : ∀ content ∈ regions.declarations, (Part.sequence content).Sound dialect
  initializeBody : (Part.sequence regions.initializeBody).Sound dialect
  loop : (Part.sequence regions.loop).Sound dialect

theorem sound_ifAny {region : Option Sequence} (sound : (Part.ofSequence? region).Sound dialect) :
    (ifAny region).Sound dialect := by
  unfold ifAny
  split
  · exact sound_missing
  · exact sound

theorem sound_declarations {all : List (Option Sequence)}
    (sound : ∀ region ∈ all, (Part.ofSequence? region).Sound dialect) :
    ∀ content ∈ (all.filter fun region => !rendersNothing region).filterMap id,
      (Part.sequence content).Sound dialect := by
  intro content listed
  obtain ⟨region, isRegion, rfl⟩ := List.mem_filterMap.mp listed
  exact sound _ (List.mem_filter.mp isRegion).1

theorem sound_initializeBody (arrays : (Part.ofSequence? regions.arrays).Sound dialect)
    (initializations : (Part.sequence regions.initializations).Sound dialect)
    (triggers : (Part.ofSequence? regions.coldDspTriggers).Sound dialect) :
    (Part.sequence regions.initializeBody).Sound dialect := by
  refine Code.sound_sequence_lines ?_
  simp only [List.mem_cons, List.not_mem_nil, or_false, forall_eq_or_imp, forall_eq]
  refine ⟨Code.sound_sequence_code ?_, Code.sound_sequence_code ?_, sound_ifAny arrays,
    sound_ifAny initializations, sound_ifAny triggers⟩ <;> simp [Code.sound_text]

end Regions

/-- The regions of a program that was laid out can be written. -/
theorem Program.Laying.sound_regions {graph : Graph} {catalog : Catalog} {library : Library}
    {settings : Settings} {program : Program} {regions : Regions} {dialect : Dialect}
    (laying : Laying graph catalog library settings program) (supported : laying.embedded.Supported)
    (generated : program.Generated regions) : regions.Sound dialect := by
  have supportedNow := laying.keepsEmbedded.supported supported
  have entries {id entry} (stored : program.nodes.entries.get? id = some entry) :
      entry.Sound dialect := laying.sound_entry supported stored
  obtain ⟨dependencies, nodeTypes, ⟨parts, stateInstances, isInstance⟩, portlets, coldDsp, hostReceivers,
    arrays, initializations, triggers, loop⟩ := generated
  refine ⟨Regions.sound_declarations ?_, Regions.sound_initializeBody ?_ ?_ ?_, ?_⟩
  · simp only [List.mem_cons, List.not_mem_nil, or_false, forall_eq_or_imp, forall_eq]
    rw [dependencies, nodeTypes, stateInstances, portlets, coldDsp, hostReceivers]
    refine ⟨laying.sound_dependencies supportedNow, laying.sound_types supported, ?_,
      sound_contribution fun stored => sound_portletParts (entries stored), ?_, ?_⟩
    · refine Code.sound_sequence_lines fun part listed => ?_
      obtain ⟨own, isOwn, isPart⟩ := List.mem_flatten.mp listed
      obtain ⟨id, _, instantiated⟩ := Outcome.exists_item isInstance isOwn
      exact sound_instance entries instantiated part isPart
    · exact Code.sound_sequence_lines (List.forall_mem_map.mpr fun group _ =>
        sound_coldFunction entries group)
    · exact Code.sound_sequence_lines (List.forall_mem_map.mpr fun hostPort _ =>
        sound_receiverFunction hostPort)
  · rw [arrays]
    exact sound_arraysRegion
  · rw [initializations]
    exact sound_contribution fun stored => sound_setupParts (entries stored)
  · refine Code.sound_ofSequence? fun content given => ?_
    rw [triggers content given]
    exact Code.sound_sequence_lines (List.forall_mem_map.mpr fun group _ =>
      Code.sound_sequence_code (by simp [Code.sound_text]))
  · rw [loop]
    exact sound_loopCode entries

end Patchbay
