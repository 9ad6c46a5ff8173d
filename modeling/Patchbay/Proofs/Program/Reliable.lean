import Patchbay.Proofs.Program.Declared
import Patchbay.Proofs.Program.Fitting

namespace Patchbay

/-! Layouts that do not fail by themselves.

A pass looks up what earlier passes have registered and registers what nothing has registered yet.  For a
graph that was checked, a sound catalog and ports that fit, this never goes wrong: what remains are the
faults of node types that do not do what a graph asks of them.
-/

open Code (Ask Granted Read Template)
open Outcome (Ends Yields ends_pure yields_pure)
open Settings (SideFits)

/-- Whether the cause of a fault is something that an earlier step has to provide: a node, a portlet, a
type, a name or an entry that is not there, or one that is there twice or in another form. -/
def Fault.isInternal (fault : Fault) : Bool :=
  match fault.root with
  | .unknownNode _ | .unknownInlet .. | .unknownOutlet .. | .unknownNodeType .. | .unnamedNodeType _
  | .unnamedModule _ | .protectedKey .. | .unknownEntry .. | .signatureMismatch .. => true
  | _ => false

@[simp]
theorem Fault.isInternal_within (context : String) (fault : Fault) :
    (Fault.within context fault).isInternal = fault.isInternal := rfl

namespace Program

variable {graph : Graph} {catalog : Catalog} {library : Library} {settings : Settings}
  {program base before after grafted reachable embedded : Program} {id : String} {node : Node}
  {done : List PortRequest} {read : Read}

theorem runPasses_cons_of_ok {pass : Pass} (rest : List Pass) (ran : pass.run before = .ok after) :
    (runPasses (pass :: rest) before).2 = (runPasses rest after).2 := by
  rw [runPasses, Pass.apply, ran]
  rfl

theorem runPasses_yields_cons {pass : Pass} {rest : List Pass} {held holds : Program → Prop}
    (first : Yields (pass.run before) held)
    (later : ∀ between, held between → Yields (runPasses rest between).2 holds) :
    Yields (runPasses (pass :: rest) before).2 holds := by
  obtain ⟨between, ran, kept⟩ := first
  rw [runPasses_cons_of_ok rest ran]
  exact later between kept

theorem runPasses_ends_cons {pass : Pass} {rest : List Pass} {held holds : Program → Prop}
    (first : Ends (pass.run before) (fun fault => fault.isInternal = false) held)
    (later : ∀ between, held between →
      Ends (runPasses rest between).2 (fun fault => fault.isInternal = false) holds) :
    Ends (runPasses (pass :: rest) before).2 (fun fault => fault.isInternal = false) holds := by
  rw [runPasses, Pass.apply]
  cases ran : pass.run before with
  | error fault =>
      have plain := first.of_error ran
      exact plain
  | ok between => exact later between (first.of_ok ran)

/-! ## Holes of templates -/

theorem Supported.opens_of_backed {space : NameSpace} {key : String} (supported : program.Supported)
    (framed : program.Framed) (backed : program.Backed space key) : program.names.Opens space := by
  cases backed with
  | module linked _ => exact supported.opened _ linked
  | nodeType registered _ =>
      obtain ⟨_, _, id, node, found, rfl⟩ := framed.typed registered
      exact (framed.opens found).2.2.2

theorem granted_of_handle {ask : Ask} {names : NameIndex} {handle : NameSpace × String}
    (isHandle : ask.handle? = some handle) (opens : names.Opens handle.1) : ask.Granted names := by
  cases ask with
  | portlet => cases isHandle
  | name space key =>
      cases isHandle
      exact opens

/-- A hole of a supported template is filled unless it stands for a portlet. -/
theorem Supported.granted_of_supports {name : String} {type : TypeCode} {template : Template}
    {scope : Code.Scope} (supported : program.Supported) (framed : program.Framed)
    (registered : program.types.entries.get? name = some type) (space : scope.space = .nodeType name)
    (supports : type.implementation.supports program.library template = true)
    (asked : read ∈ template.reads) (isName : read.isPortlet = false) :
    (read.ask scope).Granted program.names := by
  have hasHandle : ∃ handle, (read.ask scope).handle? = some handle := by
    cases read with
    | portlet => cases isName
    | own | shared => exact ⟨_, rfl⟩
  obtain ⟨handle, isHandle⟩ := hasHandle
  exact granted_of_handle isHandle (supported.opens_of_backed framed
    (supported.backed_of_supports registered space supports asked isHandle))

/-- A hole that stands for a portlet is no internal matter. -/
theorem isInternal_portlet {scope : Code.Scope} (isPortlet : read.isPortlet = true) :
    (read.ask scope).fault.isInternal = false := by
  cases read with
  | portlet => rfl
  | own | shared => cases isPortlet

/-- When a hole is refused though its template is supported, it is no internal matter. -/
theorem Supported.isInternal_of_refused {name : String} {type : TypeCode} {template : Template}
    {scope : Code.Scope} (supported : program.Supported) (framed : program.Framed)
    (registered : program.types.entries.get? name = some type) (space : scope.space = .nodeType name)
    (supports : type.implementation.supports program.library template = true)
    (asked : read ∈ template.reads) (refused : ¬ (read.ask scope).Granted program.names) :
    (read.ask scope).fault.isInternal = false := by
  cases isPortlet : read.isPortlet with
  | true => exact isInternal_portlet isPortlet
  | false =>
      exact absurd (supported.granted_of_supports framed registered space supports asked isPortlet) refused

theorem Supported.granted_of_detached {name : String} {type : TypeCode} {template : Template}
    {scope : Code.Scope} (supported : program.Supported) (framed : program.Framed)
    (registered : program.types.entries.get? name = some type) (space : scope.space = .nodeType name)
    (supports : type.implementation.supports program.library template = true)
    (detached : template.isDetached = true) : Code.Granted program.names scope template.reads := by
  intro read asked
  have isName : read.isPortlet = false := by
    simpa using List.all_eq_true.mp detached read asked
  exact supported.granted_of_supports framed registered space supports asked isName

/-! ## The frame -/

theorem Reachable.moduleAsks_granted
    (grafting : Grafted (start graph catalog library settings) done grafted)
    (keeping : Reachable grafted reachable) (sound : library.Sound) {ask : Ask}
    (asked : ask ∈ reachable.moduleAsks) : ask.Granted reachable.registered :=
  granted_of_sound (keeping.library_eq grafting ▸ sound) asked

theorem Supported.declarable (supported : program.Supported) (framed : program.Framed)
    {type : TypeCode} (listed : type ∈ program.types.values) : program.Declarable type where
  core template given := by
    have registered := framed.registered_of_mem listed
    obtain ⟨supports, detached, _⟩ := (supported.types registered).core template given program.settings
    exact supported.granted_of_detached framed registered rfl supports detached
  state template given id node code found typed stored := by
    have registered := framed.registered_of_mem listed
    obtain ⟨members, isRecord, supports, detached, _⟩ :=
      (supported.types registered).state template given ⟨node, program.settings⟩
    refine ⟨⟨.own "State", members⟩, isRecord, ?_⟩
    have space : (stateScope node code).space = .nodeType _ := congrArg NameSpace.nodeType typed
    exact supported.granted_of_detached framed registered space supports detached

/-- Every node can be given the state that its type was declared with. -/
theorem Supported.instantiable (supported : embedded.Supported) (framed : embedded.Framed)
    (undeclared : ∀ {name type}, embedded.types.entries.get? name = some type →
      type = { type := name, implementation := type.implementation })
    (declaring : DeclaredSo embedded embedded.types.values program) : program.Instantiable id := by
  intro node type entry template found registered stored given
  have framedNow := framed.of_keeps declaring.keeps
  have supportedNow := declaring.keepsSupport.supported supported
  obtain ⟨members, isRecord, supports, detached, _⟩ :=
    (supportedNow.types registered).state template given ⟨node, program.settings⟩
  have sameName : embedded.names.nameOf = program.names.nameOf := declaring.names.nameOf.symm
  obtain ⟨old, oldFound, same, _, stateRecord⟩ := declaring.type_eq framed undeclared registered
  obtain ⟨first, firstNode, firstEntry, isFirst, isNode, typed, firstStored⟩ :=
    framed.firstOfType_eq oldFound
  rw [← typed] at oldFound
  obtain ⟨_, _, _, isShape⟩ :=
    supported.stateRecordOf_eq isNode firstStored oldFound (same ▸ given)
  rw [← same, given, Option.bind_some, isFirst, Option.bind_some, isShape] at stateRecord
  refine ⟨_, ⟨.own "State", members⟩, stateRecord, isRecord, ?_, ?_⟩
  · have space : (stateScope node entry).space = .nodeType node.type := rfl
    exact supportedNow.granted_of_detached framedNow registered space supports detached
  · rw [name_stateRecord, name_stateRecord, typed, sameName]

/-! ## Code of nodes -/

theorem Supported.isInternal_audio (supported : program.Supported) (framed : program.Framed)
    {fault : Fault} (failed : program.AudioFault fault) : fault.isInternal = false := by
  obtain ⟨id, _, failed⟩ := failed
  cases failed with
  | refused asks asked notGranted =>
      obtain ⟨found, given, ⟨entry, _, isScope⟩, _⟩ := asks
      obtain ⟨type, registered, supports⟩ := supported.supports_dsp found given
      obtain ⟨part, isPart, asked⟩ := DspTemplate.exists_of_mem_reads asked
      exact supported.isInternal_of_refused framed registered (by rw [isScope]; rfl)
        (supports part isPart) asked notGranted
  | noTemplate | noExpression | notFlat | noOutlet => rfl

theorem Supported.isInternal_completion (supported : program.Supported) (framed : program.Framed)
    (reserved : ∀ {id entry inlet receiver}, program.nodes.entries.get? id = some entry →
      entry.receivers.entries.get? inlet = some receiver → ∃ name, receiver = receiverPlaceholder name)
    {fault : Fault} (failed : program.CompletionFault fault) : fault.isInternal = false := by
  cases failed with
  | setup found given asked notGranted =>
      obtain ⟨entry, stored⟩ := framed.entry found
      obtain ⟨type, registered, supports⟩ := supported.supports_setup found given
      exact supported.isInternal_of_refused framed registered (space_nodeScope found stored) supports
        asked notGranted
  | body receiving found given asked notGranted =>
      obtain ⟨entry, stored⟩ := framed.entry found
      obtain ⟨type, bodies, registered, rfl, supports⟩ := supported.supports_receivers found given
      obtain ⟨body, isBody, asked⟩ := exists_of_mem_receiverReads asked
      exact supported.isInternal_of_refused framed registered (space_nodeScope found stored)
        (supports body isBody) asked notGranted
  | mismatch stored held given isReceiver differs =>
      obtain ⟨node, found⟩ := framed.known stored
      obtain ⟨name, rfl⟩ := reserved stored held
      obtain ⟨type, bodies, _, rfl, _⟩ := supported.supports_receivers found given
      obtain ⟨body, _, rfl⟩ := exists_of_receiverOf isReceiver
      cases differs
  | noReceivers | noReceiver => rfl

/-! ## All passes -/

theorem runPasses_append (first second : List Pass) :
    (runPasses (first ++ second) before).2 =
      (runPasses first before).2 >>= fun between => (runPasses second between).2 := by
  induction first generalizing before with
  | nil => rfl
  | cons pass rest ih =>
      rw [List.cons_append, runPasses, runPasses]
      cases pass.apply before with
      | error fault => rfl
      | ok next => exact ih

/-- What a trimmed graph with all of its nodes has, the graph has. -/
theorem node?_of_start (found : (start graph catalog library settings).graph.node? id = some node) :
    ∃ stored, graph.node? id = some stored ∧ stored.Rewired node := by
  change (graph.trim graph.sortedIds).node? id = some node at found
  rw [Graph.node?_trim] at found
  split at found
  · obtain ⟨stored, isStored, rfl⟩ := Option.map_eq_some_iff.mp found
    exact ⟨stored, isStored, _, _, rfl⟩
  · cases found

theorem node?_start (found : graph.node? id = some node) :
    ∃ now, (start graph catalog library settings).graph.node? id = some now ∧ node.Rewired now := by
  refine ⟨Graph.restrictNode graph.sortedIds node, ?_, _, _, rfl⟩
  change (graph.trim graph.sortedIds).node? id = _
  rw [Graph.node?_trim, if_pos (Graph.mem_sortedIds_iff.mpr (Graph.mem_ids_of_node? found)), found]
  rfl

theorem sideFits_start {portlet? : Node → String → Option Portlet}
    {adapterId : String → String → String} {ports : Option Ports}
    (same : ∀ {node now : Node}, node.Rewired now → portlet? now = portlet? node)
    (fits : SideFits graph portlet? adapterId ports) :
    SideFits (start graph catalog library settings).graph portlet? adapterId ports where
  found id portlet listed := by
    obtain ⟨node, own, found, isOwn, isMessage⟩ := fits.found id portlet listed
    have started : ∃ now, (start graph catalog library settings).graph.node? id = some now ∧
        node.Rewired now := node?_start found
    obtain ⟨now, foundNow, rewired⟩ := started
    exact ⟨now, own, foundNow, same rewired ▸ isOwn, isMessage⟩
  free id portlet listed member := fits.free id portlet listed (Graph.mem_ids_trim member).2
  once := fits.once

theorem portsFit_start (fits : settings.PortsFit graph) :
    (start graph catalog library settings).settings.PortsFit
      (start graph catalog library settings).graph where
  receivers := sideFits_start (fun ⟨_, _, same⟩ => by rw [same]; rfl) fits.receivers
  senders := sideFits_start (fun ⟨_, _, same⟩ => by rw [same]; rfl) fits.senders

theorem implementation?_withAdapters {type : String} {implementation : Implementation}
    (found : catalog.implementation? type = some implementation) :
    ∃ now, (withAdapters catalog).implementation? type = some now := by
  unfold Catalog.implementation? withAdapters
  rw [Table.get?_set, Table.get?_set]
  split
  · exact ⟨_, rfl⟩
  split
  · exact ⟨_, rfl⟩
  · exact ⟨_, found⟩

theorem implementation?_adapters (catalog : Catalog) :
    (withAdapters catalog).implementation? receiverType = some receiverAdapter ∧
      (withAdapters catalog).implementation? senderType = some senderAdapter := by
  simp [Catalog.implementation?, withAdapters, Table.get?_set, receiverType, senderType]

/-- Every node that was there or was grafted on is of an implemented type. -/
theorem Grafted.implemented
    (grafting : Grafted (start graph catalog library settings) done grafted)
    (implemented : ∀ {id node}, graph.node? id = some node →
      ∃ implementation, catalog.implementation? node.type = some implementation)
    (found : grafted.graph.node? id = some node) :
    ∃ implementation, grafted.catalog.implementation? node.type = some implementation := by
  have sameCatalog : grafted.catalog = withAdapters catalog := by
    obtain ⟨_, _, _, _, rfl⟩ := grafting.frame
    rfl
  rw [sameCatalog]
  rcases grafting.origin found with ⟨earlier, isEarlier, _, _, rfl⟩ | ⟨request, _, _, _, rfl⟩
  · obtain ⟨stored, isStored, _, _, rfl⟩ := node?_of_start isEarlier
    obtain ⟨implementation, isImplemented⟩ := implemented isStored
    exact implementation?_withAdapters isImplemented
  · unfold PortRequest.adapter
    cases request.kind with
    | receiver => exact ⟨_, (implementation?_adapters catalog).1⟩
    | sender => exact ⟨_, (implementation?_adapters catalog).2⟩

theorem graftHostPorts_yields (wellFormed : graph.WellFormed) (fits : settings.PortsFit graph) :
    Yields (start graph catalog library settings).graftHostPorts fun _ => True :=
  ((graftHostPorts_ends (wellFormed.trim _) rfl rfl).yields
    fun _ refused => not_portRefused (portsFit_start fits) refused).mono fun _ _ => trivial

theorem beforeSplit_yields (wellFormed : graph.WellFormed)
    (implemented : ∀ {id node}, graph.node? id = some node →
      ∃ implementation, catalog.implementation? node.type = some implementation)
    (grafts : Yields (start graph catalog library settings).graftHostPorts fun _ => True)
    (sound : (withAdapters catalog).Sound library) (soundLibrary : library.Sound) :
    Yields (beforeSplit graph catalog library settings) fun _ => True := by
  unfold beforeSplit
  rw [passesBeforeSplit_eq]
  obtain ⟨grafted, graftRan, _⟩ := grafts
  have grafting := (graftHostPorts_ends (wellFormed.trim _) rfl rfl).of_ok graftRan
  rw [runPasses_cons_of_ok _ graftRan]
  refine runPasses_yields_cons ((keepReachable_ends grafting.wellFormed
    (grafting.unlisted unlisted_start)).yields ?_) fun reachable held => ?_
  · rintro _ ⟨id, node, found, unimplemented, _⟩
    obtain ⟨implementation, isImplemented⟩ := grafting.implemented implemented found
    cases unimplemented.symm.trans isImplemented
  obtain ⟨framed, keeping⟩ := held
  refine runPasses_yields_cons ((embedModules_ends reachable).yields ?_)
    fun embedded held => ?_
  · rintro _ ⟨ask, asked, refused, _⟩
    exact refused (keeping.moduleAsks_granted grafting soundLibrary asked)
  have embedding := held.2
  have framedEmbedded := Embedding.framed embedding framed
  have supported := Embedding.supported grafting keeping embedding sound soundLibrary
  refine runPasses_yields_cons (framedEmbedded.declareTypes_ends.yields ?_) fun declared declaring => ?_
  · rintro _ ⟨type, listed, undeclarable⟩
    exact undeclarable (supported.declarable framedEmbedded listed)
  refine runPasses_yields_cons ((framedEmbedded.of_keeps declaring.keeps).instantiateStates_ends.yields
    ?_) fun ready _ => yields_pure trivial
  rintro _ ⟨id, _, notInstantiable⟩
  refine notInstantiable (supported.instantiable framedEmbedded ?_ declaring)
  obtain ⟨_, rfl, _⟩ := embedding
  exact fun registered => (keeping.typed registered).2

/-- A layout reaches the generation of audio code. -/
theorem generation_reached (wellFormed : graph.WellFormed)
    (implemented : ∀ {id node}, graph.node? id = some node →
      ∃ implementation, catalog.implementation? node.type = some implementation)
    (grafts : Yields (start graph catalog library settings).graftHostPorts fun _ => True)
    (sound : (withAdapters catalog).Sound library) (soundLibrary : library.Sound) :
    ∃ ready groups split wired log, beforeSplit graph catalog library settings = .ok ready ∧
      Divided ready split groups ∧ split.Supported ∧ WiredFrom split wired log ∧
      precompile graph catalog library settings =
        (runPasses [⟨"dsp", emitDsp⟩, ⟨"receivers", completeNodes⟩] wired).2 := by
  have isSplit : passes = (passes.takeWhile fun pass => pass.name ≠ "dsp-groups") ++
      [⟨"dsp-groups", splitSignal⟩, ⟨"portlets", wirePortlets⟩, ⟨"dsp", emitDsp⟩,
        ⟨"receivers", completeNodes⟩] := by
    rw [passesBeforeSplit_eq]
    rfl
  obtain ⟨ready, prepared, _⟩ := beforeSplit_yields wellFormed implemented grafts sound soundLibrary
  obtain ⟨_, _, _, _, setup⟩ := setup_of_beforeSplit wellFormed prepared
  have supportedReady := setup.instantiating.keepsSupport.supported
    (setup.keepsDeclared.supported (setup.supported sound soundLibrary))
  have unsplit := (prepared_of_beforeSplit wellFormed prepared).1.unsplit
  obtain ⟨split, splitting, groups, divided⟩ := splitSignal_divides setup.framedReady setup.unwired unsplit
  have supported := divided.keepsSupport.supported supportedReady
  have wirings : Yields split.wirePortlets fun wired => ∃ log, WiredFrom split wired log := by
    refine (wirePortlets_erases.ends (divided.wirePortlets_ends.mono (fun _ refused => refused)
      fun result _ wiring => ⟨_, wiring⟩)).yields ?_
    rintro _ ⟨closed, _⟩
    exact closed (supported.opens ("msg", "nullMessageReceiver") (by simp [Library.essential]))
  obtain ⟨wired, isWired, log, wiring⟩ := wirings
  refine ⟨ready, groups, split, wired, log, prepared, divided, supported, wiring, ?_⟩
  unfold beforeSplit at prepared
  unfold precompile precompileWithTrace
  rw [isSplit, runPasses_append, prepared]
  exact (runPasses_cons_of_ok _ splitting).trans (runPasses_cons_of_ok _ isWired)

/-- A reserved receiver stands for a message inlet that is fed. -/
theorem EmittedFrom.inlet_of_receiver {split wired emitted : Program} {log events : List WiringEvent}
    (emitting : EmittedFrom split wired emitted events) (wiring : WiredFrom split wired log)
    (framed : split.Framed) {entry : NodeCode} {inlet : String} {receiver : Code.Function}
    (stored : emitted.nodes.entries.get? id = some entry)
    (held : entry.receivers.entries.get? inlet = some receiver) :
    ∃ node, split.graph.node? id = some node ∧
      (∃ portlet ∈ connectedInlets node, portlet.id = inlet) ∧ ∃ name, receiver = receiverPlaceholder name := by
  obtain ⟨node, found⟩ := (framed.of_keeps emitting.keeps).known stored
  rw [emitting.keeps.graph] at found
  obtain ⟨again, storedAgain, receivers, _⟩ := emitting.portlets framed wiring found
  cases stored.symm.trans storedAgain
  rw [receivers] at held
  obtain ⟨portlet, isFed, isPair⟩ := List.mem_map.mp (Table.mem_of_get?_ofList held)
  cases isPair
  exact ⟨node, found, ⟨portlet, isFed, rfl⟩, _, rfl⟩

/-- Laying out never fails because something is missing that an earlier pass has to provide. -/
theorem precompile_ends (wellFormed : graph.WellFormed)
    (implemented : ∀ {id node}, graph.node? id = some node →
      ∃ implementation, catalog.implementation? node.type = some implementation)
    (fits : settings.PortsFit graph) (sound : (withAdapters catalog).Sound library)
    (soundLibrary : library.Sound) :
    Ends (precompile graph catalog library settings) (fun fault => fault.isInternal = false)
      fun _ => True := by
  obtain ⟨ready, groups, split, wired, log, _, divided, supported, wiring, continued⟩ :=
    generation_reached wellFormed implemented (graftHostPorts_yields wellFormed fits) sound soundLibrary
  rw [continued]
  have supportedWired := wiring.keepsSupport.supported supported
  have framedWired := divided.framed.of_keeps wiring.keeps
  refine runPasses_ends_cons (emitDsp_erases.ends ((divided.emitDsp_ends wiring).mono
      (fun _ failed => supportedWired.isInternal_audio framedWired failed)
      fun result _ emitting => ⟨_, emitting⟩) :
        Ends _ _ fun emitted => ∃ events, EmittedFrom split wired emitted events)
    fun emitted held => ?_
  obtain ⟨events, emitting⟩ := held
  have framedNow := divided.framed.of_keeps emitting.keeps
  refine runPasses_ends_cons (framedNow.completeNodes_ends.mono
    (fun _ failed => (emitting.keepsSupport.supported supported).isInternal_completion framedNow ?_ failed)
    fun _ _ held => held) fun _ _ => ends_pure trivial
  intro id entry inlet receiver stored held
  obtain ⟨_, _, _, placeholder⟩ := emitting.inlet_of_receiver wiring divided.framed stored held
  exact placeholder

end Program

end Patchbay
