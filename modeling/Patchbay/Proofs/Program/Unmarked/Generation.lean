import Patchbay.Proofs.Compile
import Patchbay.Proofs.Program.Unmarked

namespace Patchbay

/-! Layouts without marker lines.

The audio part is split, portlets are wired, and the code of nodes is generated.  What a template is filled
with is a name, a constant, or an expression in parentheses that was composed of filled templates before, so
a program that starts unmarked is unmarked when it is laid out.
-/

open Code (AllUnmarked Function Naming Part Template)
open Outcome (Ends Ensures ends_pure ensures_bind)
open Text (isUnmarked isUnmarked_append)

/-- All texts of the audio code of a node. -/
structure Program.Dsp.Unmarked (dsp : Dsp) : Prop where
  expression : ∀ code, dsp.expression = some code → AllUnmarked code
  loop : (Part.ofSequence? dsp.loop).Unmarked
  inlets : dsp.inlets.Every fun _ statement => AllUnmarked statement

theorem DspTemplate.unmarked_resolve {template : DspTemplate} {scope : Code.Scope} {naming : Naming}
    (wired : scope.Unmarked) (named : naming.Unmarked)
    (all : template.templates.all (Template.isUnmarked scope.node) = true) :
    (template.resolve scope naming).Unmarked := by
  rw [List.all_eq_true] at all
  have resolved : ∀ part ∈ template.templates, AllUnmarked (part.resolve scope naming).toSequence :=
    fun part member => Code.unmarked_resolved wired named (all part member)
  refine ⟨?_, ?_, ?_⟩
  · intro code given
    obtain ⟨part, isExpression, rfl⟩ := Option.map_eq_some_iff.mp given
    exact resolved part (by simp [templates, isExpression])
  · change (Part.ofSequence? (template.loop.map _)).Unmarked
    cases given : template.loop with
    | none => exact Code.unmarked_missing
    | some part => exact Code.unmarked_sequence_iff.mpr (resolved part (by simp [templates, given]))
  · intro id statement found
    obtain ⟨inlet, _, same⟩ := List.mem_map.mp (Table.mem_of_get?_ofList found)
    cases same
    unfold statementOf
    cases given : template.inlets.lookup id with
    | none => exact Code.unmarked_resolved wired named rfl
    | some part =>
        obtain ⟨earlier, later, same, _⟩ := List.lookup_eq_some_iff.mp given
        exact resolved part (by simp [templates, same])

namespace Program

theorem unmarked_flatText {code : Code.Sequence} (unmarked : AllUnmarked code) :
    Ensures (flatText code) fun text => isUnmarked text = true := by
  induction code with
  | nil => exact ends_pure rfl
  | cons part rest ih =>
      rw [AllUnmarked] at unmarked
      cases part with
      | text value =>
          rw [Part.Unmarked] at unmarked
          exact (ih unmarked.2).bind fun others _ later => ends_pure (isUnmarked_append unmarked.1 later)
      | _ => trivial

/-- An expression that is put in the place of a variable. -/
theorem unmarked_parenthesised {expression : String} (unmarked : isUnmarked expression = true) :
    isUnmarked ("(" ++ expression ++ ")") = true :=
  isUnmarked_append (isUnmarked_append (by decide) unmarked) (by decide)

theorem dispatcher_unmarked {name : String} {functions : List String} (named : isUnmarked name = true)
    (all : ∀ function ∈ functions, isUnmarked function = true) : (dispatcher name functions).Unmarked := by
  refine Function.unmarked_message named (Code.allUnmarked_iff.mpr (List.forall_mem_singleton.mpr ?_))
  refine Code.unmarked_sequence_iff.mpr (Code.unmarked_lines (Code.allUnmarked_iff.mpr ?_))
  refine List.forall_mem_map.mpr fun function member => Code.unmarked_sequence_iff.mpr (Code.unmarked_code ?_)
  simp only [AllUnmarked, Part.Unmarked, all function member, and_true, true_and]
  decide

theorem resolveReceivers_unmarked {templates : List (String × Option Code.FunctionTemplate)}
    {scope : Code.Scope} {naming : Naming} (wired : scope.Unmarked) (named : naming.Unmarked)
    (all : ∀ entry ∈ templates, Implementation.IfGiven entry.2 fun template =>
      template.isUnmarked scope.node = true) :
    (resolveReceivers templates scope naming).Every fun _ function => function.Unmarked := by
  intro inlet function found
  obtain ⟨template, given, rfl⟩ := receiverOf_of_resolve found
  obtain ⟨earlier, later, same, _⟩ := List.lookup_eq_some_iff.mp (Option.join_eq_some_iff.mp given)
  have unmarked := all (inlet, some template) (by simp [same]) template rfl
  exact Function.unmarked_part_iff.mp (Code.FunctionTemplate.unmarked_resolve wired named unmarked)

namespace Unmarked

variable {program : Program} (unmarked : program.Unmarked)

include unmarked

/-! ## Groups -/

theorem addColdGroup (position : Nat) (group : DspGroup) :
    Ensures (program.addColdGroup position group) Unmarked := by
  refine (unmarked.readName _ _).bind fun result _ held => ?_
  obtain ⟨name, program⟩ := result
  obtain ⟨named, unmarked⟩ := held
  refine ensures_bind fun coldDsp adding => ?_
  obtain ⟨_, rfl⟩ := Register.add_ends.of_ok adding
  exact ends_pure { unmarked with coldGroups := unmarked.coldGroups.set named }

theorem extractInline (parent : DspGroup) :
    Ensures (program.extractInline parent) fun result => result.2.Unmarked :=
  ensures_bind fun _ _ => ends_pure { unmarked with }

theorem extractInlineFromCold (id : String) : Ensures (program.extractInlineFromCold id) Unmarked := by
  refine ensures_bind fun group _ => (unmarked.extractInline _).bind fun result _ unmarked => ?_
  exact ends_pure { unmarked with coldGroups := unmarked.coldGroups.modify id fun _ _ named => named }

theorem splitSignal : Ensures program.splitSignal Unmarked := by
  refine ensures_bind fun traversal _ => ensures_bind fun cold _ => ?_
  have rooted : Unmarked { program with rootDsp := ⟨traversal, program.graph.pulling⟩ } := { unmarked with }
  refine (Ensures.foldlM rooted fun _ item _ unmarked => unmarked.addColdGroup item.2 item.1).bind
    fun grouped _ unmarked => (unmarked.extractInline _).bind fun result _ unmarked => ?_
  have hot : Unmarked { result.2 with hotDsp := ⟨result.1, program.graph.pulling⟩ } := { unmarked with }
  exact Ensures.foldlM hot fun _ id _ unmarked => unmarked.extractInlineFromCold id

/-! ## Portlets -/

theorem forNodes {ids : List String} {step : Program → String → Node → Outcome Program}
    (steps : ∀ {program : Program} id node, program.Unmarked → Ensures (step program id node) Unmarked) :
    Ensures (program.forNodes ids step) Unmarked :=
  Ensures.foldlM unmarked fun _ id _ unmarked => ensures_bind fun node _ => steps id node unmarked

theorem reserveReceivers (id : String) (node : Node) :
    Ensures (program.reserveReceivers id node) Unmarked := by
  refine ensures_bind fun _ _ => ensures_bind fun names _ => ?_
  refine Ensures.foldlM (unmarked.withNames names) fun program inlet _ unmarked => ?_
  refine (unmarked.readName _ _).bind fun result _ held => ?_
  obtain ⟨name, program⟩ := result
  obtain ⟨named, unmarked⟩ := held
  refine ensures_bind fun entry stored => ensures_bind fun receivers adding => ?_
  obtain ⟨_, rfl⟩ := Register.add_ends.of_ok adding
  have placeholder : (receiverPlaceholder name).Unmarked :=
    Function.unmarked_message named (by simp [AllUnmarked])
  have own := unmarked.nodeGet stored
  exact ends_pure (unmarked.refineNode id fun other before =>
    { before with receivers := own.receivers.set placeholder })

theorem wireNullSignals (id : String) (node : Node) : (program.wireNullSignals id node).Unmarked := by
  refine unmarked.refineNode id fun entry before => { before with signalIns := ?_ }
  exact List.foldlRecOn (motive := fun ins : Table String => ins.Every fun _ code => isUnmarked code = true)
    _ _ before.signalIns fun ins wired inlet _ => wired.set (by decide)

theorem sinkFunctions (id : String) (outlet : Portlet) (sinks : List Endpoint) :
    Ensures (program.sinkFunctions id outlet sinks) fun functions =>
      ∀ function ∈ functions, isUnmarked function = true := by
  have receivers : Ensures (sinks.mapM fun sink => do
      let entry ← program.nodes.get sink.node
      let receiver ← Outcome.inContext s!"outlet {id}:{outlet.id}" (entry.receivers.get sink.portlet)
      return receiver.name) fun names => ∀ name ∈ names, isUnmarked name = true := by
    refine Ensures.mapM fun sink _ => ensures_bind fun entry stored => ?_
    refine Ends.bind (Ensures.inContext (Outcome.ensures_of fun receiver registered => ?_))
      fun receiver _ named => ends_pure named
    exact ((unmarked.nodeGet stored).receivers _ _ (register_get_eq_ok_iff.mp registered)).name
  refine receivers.bind fun names _ named => ends_pure (List.forall_mem_append.mpr ⟨named, ?_⟩)
  refine List.forall_mem_map.mpr fun group member => ?_
  obtain ⟨_, held⟩ := unmarked.coldGroups.of_mem (List.mem_filter.mp member).1
  exact held

theorem chooseSender (id outlet : String) {functions : List String}
    (all : ∀ function ∈ functions, isUnmarked function = true) :
    Ensures (program.chooseSender id outlet functions) (UnmarkedWith Sender.Unmarked) := by
  unfold Program.chooseSender
  match functions with
  | [] =>
      exact (unmarked.readName _ _).bind fun result _ held => ends_pure ⟨⟨held.1, nofun⟩, held.2⟩
  | [function] => exact ends_pure ⟨⟨all function (List.mem_cons_self ..), nofun⟩, unmarked⟩
  | first :: second :: rest =>
      refine (unmarked.readName _ _).bind fun result _ held => ends_pure ⟨⟨held.1, ?_⟩, held.2⟩
      rintro _ ⟨⟩
      exact dispatcher_unmarked held.1 all

theorem wireMessageOutlet (id : String) (node : Node) (outlet : Portlet) :
    Ensures (program.wireMessageOutlet id node outlet) Unmarked := by
  rw [wireMessageOutlet_eq]
  refine (unmarked.sinkFunctions id outlet _).bind fun functions _ all => ?_
  refine (unmarked.chooseSender id outlet.id all).bind fun result _ held => ?_
  obtain ⟨sender, program⟩ := result
  obtain ⟨own, unmarked⟩ := held
  refine ensures_bind fun entry stored => ensures_bind fun senders adding => ?_
  obtain ⟨_, rfl⟩ := Register.add_ends.of_ok adding
  have earlier := unmarked.nodeGet stored
  exact ends_pure (unmarked.refineNode id fun other before =>
    { before with senders := earlier.senders.set own })

theorem wireMessageOutlets (id : String) (node : Node) :
    Ensures (program.wireMessageOutlets id node) Unmarked :=
  ensures_bind fun _ _ => ensures_bind fun names _ => Ensures.foldlM (unmarked.withNames names)
    fun _ outlet _ unmarked => unmarked.wireMessageOutlet id node outlet

theorem setInlet (id inlet : String) {code : String} (own : isUnmarked code = true) :
    (program.setInlet id inlet code).Unmarked :=
  unmarked.refineNode id fun _ before => { before with signalIns := before.signalIns.set own }

theorem wireSignalOutlet (id : String) (node : Node) (outlet : Portlet) :
    Ensures (program.wireSignalOutlet id node outlet) Unmarked := by
  refine (unmarked.readName _ _).bind fun result _ held => ?_
  obtain ⟨name, program⟩ := result
  obtain ⟨named, unmarked⟩ := held
  dsimp only at named unmarked
  refine Ensures.foldlM (unmarked.refineNode id fun _ before =>
    { before with signalOuts := before.signalOuts.set named }) fun _ sink _ unmarked => ensures_bind fun _ _ =>
    ends_pure (unmarked.setInlet sink.node sink.portlet named)

theorem wireSignalOutlets (id : String) (node : Node) :
    Ensures (program.wireSignalOutlets id node) Unmarked :=
  ensures_bind fun _ _ => ensures_bind fun names _ => Ensures.foldlM (unmarked.withNames names)
    fun _ outlet _ unmarked => unmarked.wireSignalOutlet id node outlet

theorem wirePortlets : Ensures program.wirePortlets Unmarked := by
  refine (unmarked.forNodes fun id node unmarked => unmarked.reserveReceivers id node).bind
    fun _ _ unmarked => ?_
  refine (unmarked.forNodes fun id node unmarked => ends_pure (unmarked.wireNullSignals id node)).bind
    fun _ _ unmarked => ensures_bind fun names _ => ?_
  refine ((unmarked.withNames names).forNodes fun id node unmarked =>
    unmarked.wireMessageOutlets id node).bind fun _ _ unmarked => ?_
  exact unmarked.forNodes fun id node unmarked => unmarked.wireSignalOutlets id node

/-! ## Audio code -/

theorem generateDsp (id : String) :
    Ensures (program.generateDsp id) fun result => result.2.1.Unmarked ∧ result.2.2.Unmarked := by
  refine (unmarked.scopeOf id).bind fun result _ held => ?_
  obtain ⟨scope, program⟩ := result
  obtain ⟨⟨wired, _⟩, unmarked⟩ := held
  dsimp only at wired unmarked ⊢
  refine ensures_bind fun type registered => ?_
  cases given : type.implementation.dsp with
  | none => trivial
  | some template =>
      have all := (unmarked.typeGet registered).implementation.dsp template given
        ⟨scope.node, program.settings⟩
      have filled : Ensures (program.fill (contextOf "dsp" scope.node)
          (fillDsp scope (template ⟨scope.node, program.settings⟩))) (UnmarkedWith Dsp.Unmarked) :=
        unmarked.fill _ (fillDsp_fills scope _) fun naming named =>
          DspTemplate.unmarked_resolve wired named all
      exact filled.bind fun result _ held => ends_pure held

theorem inlineExpression (members : List String) (id : String) :
    Ensures (program.inlineExpression members id) (UnmarkedWith fun text => isUnmarked text = true) := by
  induction program, members, id using inlineExpression.induct with
  | case1 program members id present ih =>
      rw [inlineExpression_eq members present]
      refine ensures_bind fun node _ => ensures_bind fun _ _ => ?_
      refine Ends.bind (Ensures.foldlM unmarked fun state feed _ unmarked => ?_) fun composed _ unmarked => ?_
      · split
        · exact (ih state feed.2 unmarked).bind fun result _ held =>
            ends_pure (held.2.setInlet _ _ (unmarked_parenthesised held.1))
        · exact ends_pure unmarked
      · refine (unmarked.generateDsp id).bind fun result _ held => ?_
        obtain ⟨node, dsp, program⟩ := result
        obtain ⟨written, unmarked⟩ := held
        dsimp only at written unmarked ⊢
        cases given : dsp.expression with
        | none => trivial
        | some expression =>
            exact (unmarked_flatText (written.expression expression given)).bind fun text _ held =>
              ends_pure ⟨held, unmarked⟩
  | case2 program members id absent =>
      rw [Program.inlineExpression, dif_neg absent]
      trivial

theorem emitInlineGroup (group : DspGroup) : Ensures (program.emitInlineGroup group) Unmarked := by
  unfold Program.emitInlineGroup
  cases group.outNodes.head? with
  | none => exact unmarked
  | some out =>
      refine (unmarked.inlineExpression group.traversal out).bind fun result _ held => ?_
      refine ensures_bind fun node _ => ?_
      cases node.signalSinks with
      | nil => exact ends_pure held.2
      | cons sink rest =>
          exact ensures_bind fun _ _ => ends_pure (held.2.setInlet _ _ (unmarked_parenthesised held.1))

theorem emitLoop (id : String) : Ensures (program.emitLoop id) Unmarked := by
  refine (unmarked.generateDsp id).bind fun result _ held => ?_
  obtain ⟨node, dsp, program⟩ := result
  obtain ⟨written, unmarked⟩ := held
  dsimp only at written unmarked ⊢
  cases given : dsp.expression with
  | none =>
      exact ends_pure (unmarked.refineNode id fun _ before =>
        { before with loop := written.loop, inlets := written.inlets })
  | some expression =>
      cases node.outletsOfType .signal with
      | nil => trivial
      | cons outlet rest =>
          refine ends_pure (unmarked.refineNode id fun entry before =>
            { before with loop := ?_, inlets := Table.every_empty })
          refine Code.unmarked_sequence_iff.mpr (Code.unmarked_code ?_)
          simp only [AllUnmarked, Part.Unmarked, and_true]
          exact ⟨before.signalOuts.getD rfl, by decide, written.expression expression given⟩

theorem emitDsp : Ensures program.emitDsp Unmarked :=
  Ends.bind (Ensures.foldlM unmarked fun _ group _ unmarked => unmarked.emitInlineGroup group)
    fun _ _ unmarked => Ensures.foldlM unmarked fun _ id _ unmarked => unmarked.emitLoop id

/-! ## Setup code and receivers -/

theorem setUp {scope : Code.Scope} {type : TypeCode} (id : String) (site : Site) (wired : scope.Unmarked)
    (same : site.node = scope.node) (own : type.implementation.Unmarked scope.node.type) :
    Ensures (program.setUp id scope site type) Unmarked := by
  unfold Program.setUp
  cases given : type.implementation.initialization with
  | none => exact ends_pure unmarked
  | some template =>
      refine (unmarked.fill _ (Code.Template.fillSequence_fills _ _) fun naming named =>
        Code.unmarked_resolved wired named (same ▸ own.setup template given site)).bind
        fun result _ held => ends_pure ?_
      exact held.2.refineNode id fun _ before =>
        { before with initialization := Code.unmarked_sequence_iff.mpr held.1 }

theorem completeReceiver {id : String} {node : Node} {generated : Table Function} (inlet : String)
    (all : generated.Every fun _ function => function.Unmarked) :
    Ensures (program.completeReceiver id node generated inlet) Unmarked := by
  refine ensures_bind fun entry _ => ensures_bind fun placeholder _ => ?_
  cases found : generated.get? inlet with
  | none => trivial
  | some function =>
      dsimp only
      split
      · trivial
      · refine ends_pure (unmarked.refineNode id fun _ before => { before with
          receivers := before.receivers.modify inlet fun _ receiver held => ?_ })
        exact { held with body := (all inlet function found).body }

theorem receive {scope : Code.Scope} {type : TypeCode} (id : String) (site : Site) (wired : scope.Unmarked)
    (forwards : scope.node.ForwardsUnmarked) (same : site.node = scope.node)
    (own : type.implementation.Unmarked scope.node.type) :
    Ensures (program.receive id scope site type) Unmarked := by
  refine ensures_bind fun entry _ => ?_
  split
  · exact ends_pure unmarked
  cases given : type.implementation.receivers with
  | none => trivial
  | some templates =>
      have all := own.receivers templates given site (by rw [same]) (same ▸ forwards)
      have filled : Ensures (program.fill (contextOf "message receivers" scope.node)
          (fillReceivers scope (templates site)))
          (UnmarkedWith fun generated => generated.Every fun _ function => function.Unmarked) :=
        unmarked.fill _ (fillReceivers_fills _ _) fun naming named =>
          resolveReceivers_unmarked wired named (same ▸ all)
      exact filled.bind fun result _ held =>
        Ensures.foldlM held.2 fun _ inlet _ unmarked => unmarked.completeReceiver inlet held.1

theorem completeNode (id : String) : Ensures (program.completeNode id) Unmarked := by
  rw [completeNode_eq]
  refine (unmarked.scopeOf id).bind fun result _ held => ?_
  obtain ⟨scope, program⟩ := result
  obtain ⟨⟨wired, forwards⟩, unmarked⟩ := held
  dsimp only at wired forwards unmarked ⊢
  refine ensures_bind fun type registered => ?_
  have own := (unmarked.typeGet registered).implementation
  exact (unmarked.setUp id _ wired rfl own).bind fun _ _ unmarked =>
    unmarked.receive id _ wired forwards rfl own

theorem completeNodes : Ensures program.completeNodes Unmarked :=
  Ensures.foldlM unmarked fun _ id _ unmarked => unmarked.completeNode id

end Unmarked

/-! ## Layouts -/

variable {graph : Graph} {catalog : Catalog} {library : Library} {settings : Settings} {program : Program}

theorem start_unmarked (adapters : graph.ForwardsUnmarked) (listed : (withAdapters catalog).Unmarked)
    (supplied : library.Unmarked) : (start graph catalog library settings).Unmarked where
  adapters := adapters.trim _
  catalog := listed
  library := supplied
  nodes := Table.every_empty
  types := Table.every_empty
  coldGroups := Table.every_empty
  dependencies := ⟨Code.unmarked_missing, nofun, nofun⟩
  hostReceivers := Table.every_empty
  hostSenders := Table.every_empty

theorem precompile_unmarked (adapters : graph.ForwardsUnmarked) (listed : (withAdapters catalog).Unmarked)
    (supplied : library.Unmarked) (laidOut : precompile graph catalog library settings = .ok program) :
    program.Unmarked := by
  unfold precompile precompileWithTrace passes at laidOut
  simp only [runPasses_cons_eq_ok_iff] at laidOut
  obtain ⟨grafted, grafting, reachable, keeping, embedded, embedding, declared, declaring, ready,
    instantiating, split, splitting, wired, wiring, emitted, emitting, final, completing,
    finished⟩ := laidOut
  cases finished
  have started : (start graph catalog library settings).Unmarked := start_unmarked adapters listed supplied
  have unmarked := started.graftHostPorts.of_ok grafting
  have unmarked := unmarked.keepReachable.of_ok keeping
  have unmarked := unmarked.embedModules.of_ok embedding
  have unmarked := unmarked.declareTypes.of_ok declaring
  have unmarked := unmarked.instantiateStates.of_ok instantiating
  have unmarked := unmarked.splitSignal.of_ok splitting
  have unmarked := unmarked.wirePortlets.of_ok wiring
  have unmarked := unmarked.emitDsp.of_ok emitting
  exact unmarked.completeNodes.of_ok completing

end Program

/-- The types of an accepted graph come from the catalog, which lists no adapters. -/
theorem Graph.forwardsUnmarked_of_check {graph : Graph} {reporter : Reporter}
    (accepted : (graph.check (some .standard) reporter).2 = .ok ()) : graph.ForwardsUnmarked := by
  intro id node found isSender
  obtain ⟨implementation, listed⟩ := implementation?_of_check accepted found
  have missing : Catalog.standard.implementation? Program.senderType = none := rfl
  rw [isSender, missing] at listed
  cases listed

end Patchbay
