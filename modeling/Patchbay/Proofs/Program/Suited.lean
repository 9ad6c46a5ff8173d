import Patchbay.Proofs.Program.Reliable

namespace Patchbay

/-! Layouts that succeed.

The code of a type suits a node when the node has the portlets that the code reads, a receiver for every
message inlet, and audio code where signals run through it.  This is told from the portlets of the node and
from its arguments, before anything is laid out.  A graph whose nodes are suited is laid out: in every
pass, each hole of a template stands for something that an earlier pass has put there.
-/

open Code (Ask Granted Read Template)
open Outcome (Yields yields_pure)

/-- The hole is a name, or a message outlet of the node. -/
def Code.Read.IsSent (node : Node) : Read → Prop
  | .portlet .snds id => ∃ outlet ∈ node.outletsOfType .message, outlet.id = id
  | .portlet .. => False
  | .own _ | .shared .. => True

/-- The hole is one that audio code can have.  Signal outlets of inlined nodes have no variables. -/
def Code.Read.IsHeard (node : Node) (isInline : Bool) : Read → Prop
  | .portlet .ins id => ∃ inlet ∈ node.inletsOfType .signal, inlet.id = id
  | .portlet .outs id => isInline = false ∧ ∃ outlet ∈ node.outletsOfType .signal, outlet.id = id
  | read => read.IsSent node

/-- Nothing is declared in the code, whatever its holes stand for. -/
def Code.Template.IsFlat (template : Template) : Prop :=
  ∀ scope naming, ∃ text, Program.flatText (template.resolve scope naming).toSequence = .ok text

/-- The audio code is there for the node. -/
structure DspTemplate.Suits (template : DspTemplate) (isInline : Bool) (node : Node) : Prop where
  heard : ∀ part ∈ template.templates, ∀ read ∈ part.reads, read.IsHeard node isInline
  assigned : template.expression.isSome = true → node.outletsOfType .signal ≠ []
  composed : isInline = true → ∃ expression, template.expression = some expression ∧ expression.IsFlat

/-- The code of a type suits a node. -/
structure Implementation.Suits (implementation : Implementation) (settings : Settings) (node : Node) :
    Prop where
  setup : ∀ template, implementation.initialization = some template →
    ∀ read ∈ (template ⟨node, settings⟩).reads, read.IsSent node
  answered : node.inletsOfType .message ≠ [] → ∃ templates, implementation.receivers = some templates ∧
    (∀ inlet ∈ node.inletsOfType .message,
      ∃ template, Program.receiverOf (templates ⟨node, settings⟩) inlet.id = some template) ∧
    ∀ read ∈ Program.receiverReads (templates ⟨node, settings⟩), read.IsSent node
  audio : node.isPullingSignal = true ∨ node.outletsOfType .signal ≠ [] → ∃ template,
    implementation.dsp = some template ∧
      (template ⟨node, settings⟩).Suits implementation.isInline node

namespace Program

variable {graph : Graph} {catalog : Catalog} {library : Library} {settings : Settings}
  {program base ready split wired emitted : Program} {groups : List DspGroup}
  {log events : List WiringEvent} {id : String} {node : Node} {entry : NodeCode} {read : Read}
  {scope : Code.Scope}

/-- The code of the types of a program suits all nodes. -/
def Suited (program : Program) : Prop :=
  ∀ {id node}, program.graph.node? id = some node → ∃ type,
    program.types.entries.get? node.type = some type ∧
    type.implementation.Suits program.settings node

/-! ## Holes -/

/-- A message outlet has a sender. -/
theorem granted_of_sent {names : NameIndex} (wellFormed : base.graph.WellFormed)
    (found : base.graph.node? id = some node)
    (senders : entry.senders.entries = base.sendersFor id node (node.outletsOfType .message))
    (snds : scope.snds = entry.senders.entries.map fun _ sender => sender.name)
    (isPortlet : read.isPortlet = true) (sent : read.IsSent node) : (read.ask scope).Granted names := by
  cases read with
  | own | shared => cases isPortlet
  | portlet wiring portlet =>
    cases wiring with
    | ins | outs | rcvs => exact sent.elim
    | snds =>
      obtain ⟨outlet, isOutlet, rfl⟩ := sent
      have distinct : ((node.outletsOfType .message).map Portlet.id).Nodup :=
        (wellFormed.fits found).outletsDistinct.sublist (List.filter_sublist.map _)
      obtain ⟨sender, held⟩ := get?_sendersFor base id node distinct isOutlet
      refine ⟨sender.name, ?_⟩
      change scope.snds.get? outlet.id = _
      rw [snds, Table.get?_map, senders, held]
      rfl

/-- A hole of audio code is filled as soon as everything is wired and the inlets are written. -/
theorem WiredFrom.granted_of_heard (wiring : WiredFrom split wired log)
    (splitting : split.SplitInto groups) (listed : id ∈ split.rootDsp.traversal) {template : DspTemplate}
    (asks : wired.Asks id node template scope) {isInline : Bool}
    (stays : isInline = false → id ∉ split.inlined) (isPortlet : read.isPortlet = true)
    (heard : read.IsHeard node isInline) : (read.ask scope).Granted wired.names := by
  obtain ⟨found, _, ⟨entry, solid, isScope⟩, complete⟩ := asks
  have sameGraph : wired.graph = split.graph := wiring.keeps.graph
  have foundSplit : split.graph.node? id = some node := sameGraph ▸ found
  have snds : scope.snds = entry.senders.entries.map fun _ sender => sender.name := by rw [isScope]; rfl
  have senders := (wiring.portlets foundSplit solid).2
  have sent : read.IsSent node → (read.ask scope).Granted wired.names :=
    granted_of_sent splitting.wellFormed foundSplit senders snds isPortlet
  cases read with
  | own | shared => cases isPortlet
  | portlet wiring' portlet =>
    cases wiring' with
    | snds | rcvs => exact sent heard
    | ins =>
      obtain ⟨inlet, isInlet, rfl⟩ := heard
      exact complete ⟨node, inlet, found, isInlet, rfl⟩
    | outs =>
      obtain ⟨notInline, outlet, isOutlet, rfl⟩ := heard
      have looped := splitting.mem_loopNodes_iff.mpr ⟨listed, stays notInline⟩
      rw [wiring.nodes] at solid
      obtain ⟨old, _, rfl⟩ := Option.map_eq_some_iff.mp solid
      refine ⟨_, Eq.trans ?_
        (get?_signalOuts_wiredEntry splitting.wellFormed foundSplit looped isOutlet old)⟩
      rw [isScope]
      rfl

/-! ## Passes -/

/-- A node of the signal graph is an audio sink or has a signal outlet. -/
theorem SplitInto.carries_signal (splitting : split.SplitInto groups)
    (listed : id ∈ split.rootDsp.traversal) (found : split.graph.node? id = some node) :
    node.isPullingSignal = true ∨ node.outletsOfType .signal ≠ [] := by
  obtain ⟨root, isRoot, reaches⟩ := splitting.rooted.mem_iff.mp listed
  rcases Relation.ReflTransGen.cases_head reaches with rfl | ⟨next, step, _⟩
  · rw [splitting.pulled] at isRoot
    obtain ⟨_, again, pulls⟩ := Graph.mem_pulling_iff.mp isRoot
    cases found.symm.trans again
    exact .inl pulls
  · obtain ⟨endpoint, isSink, _⟩ := (splitting.wellFormed.feeds_iff_signalSinks found).mp step.1
    obtain ⟨outlet, isOutlet, _⟩ := List.mem_flatMap.mp isSink
    exact .inr (List.ne_nil_of_mem isOutlet)

theorem SplitInto.isInline_of_inlined (splitting : split.SplitInto groups) (isInlined : id ∈ split.inlined)
    (found : split.graph.node? id = some node) {implementation : Implementation}
    (implemented : split.catalog.implementation? node.type = some implementation) :
    implementation.isInline = true := by
  obtain ⟨parent, _, inlinable⟩ := (splitting.inlined id).mp isInlined
  unfold isInlinable at inlinable
  simp only [found, implemented, Bool.and_eq_true] at inlinable
  exact inlinable.1.2

/-- Every node of the signal graph has audio code, and the code suits it. -/
theorem Divided.dsp_suits (divided : Divided ready split groups) (suited : split.Suited)
    (listed : id ∈ split.rootDsp.traversal) (found : split.graph.node? id = some node) :
    ∃ implementation template, split.catalog.implementation? node.type = some implementation ∧
      split.dspTemplate? id = some template ∧ template.Suits implementation.isInline node := by
  obtain ⟨type, registered, suits⟩ := suited found
  obtain ⟨template, given, audible⟩ := suits.audio (divided.splitInto.carries_signal listed found)
  exact ⟨_, _, (divided.framed.typed registered).2.1, by simp [dspTemplate?, found, registered, given],
    audible⟩

/-- The audio code of suited nodes can be given. -/
theorem Divided.not_audioFault (divided : Divided ready split groups) (wiring : WiredFrom split wired log)
    (supported : split.Supported) (suited : split.Suited) {fault : Fault} : ¬ wired.AudioFault fault := by
  rintro ⟨id, listed, failed⟩
  have splitting := divided.splitInto
  have framed := divided.framed.of_keeps wiring.keeps
  have supportedNow := wiring.keepsSupport.supported supported
  obtain ⟨names, nodes, rfl⟩ := wiring.frame
  cases failed with
  | noTemplate found none =>
      obtain ⟨_, _, _, given, _⟩ := divided.dsp_suits suited listed found
      cases none.symm.trans given
  | @refused node template scope read asks asked notGranted =>
      obtain ⟨implementation, _, implemented, given, audible⟩ := divided.dsp_suits suited listed asks.found
      cases asks.given.symm.trans given
      obtain ⟨part, isPart, asked⟩ := DspTemplate.exists_of_mem_reads asked
      cases isPortlet : read.isPortlet with
      | true =>
          have stays : implementation.isInline = false → id ∉ split.inlined := by
            intro notInline isInlined
            cases notInline.symm.trans (splitting.isInline_of_inlined isInlined asks.found implemented)
          exact notGranted (wiring.granted_of_heard splitting listed asks stays isPortlet
            (audible.heard part isPart read asked))
      | false =>
          obtain ⟨type, registered, supports⟩ := supportedNow.supports_dsp asks.found asks.given
          obtain ⟨_, _, isScope⟩ := asks.placed
          exact notGranted (supportedNow.granted_of_supports framed registered (by rw [isScope]; rfl)
            (supports part isPart) asked isPortlet)
  | noExpression asks isInlined none =>
      obtain ⟨_, _, implemented, given, audible⟩ := divided.dsp_suits suited listed asks.found
      cases asks.given.symm.trans given
      obtain ⟨_, expression, _⟩ := audible.composed
        (splitting.isInline_of_inlined isInlined asks.found implemented)
      cases none.symm.trans expression
  | notFlat asks isInlined isExpression naming isPart =>
      obtain ⟨_, _, implemented, given, audible⟩ := divided.dsp_suits suited listed asks.found
      cases asks.given.symm.trans given
      obtain ⟨_, expression, flat⟩ := audible.composed
        (splitting.isInline_of_inlined isInlined asks.found implemented)
      cases isExpression.symm.trans expression
      obtain ⟨_, isFlat⟩ := flat _ naming
      cases isFlat.symm.trans isPart
  | noOutlet asks isExpression none =>
      obtain ⟨_, _, _, given, audible⟩ := divided.dsp_suits suited listed asks.found
      cases asks.given.symm.trans given
      exact audible.assigned (by rw [isExpression]; rfl) none

/-- What a node is completed with is what its type gives. -/
theorem Suited.templates (suited : split.Suited) (emitting : EmittedFrom split wired emitted events)
    (found : split.graph.node? id = some node) : ∃ implementation : Implementation,
      implementation.Suits split.settings node ∧
      emitted.setupTemplate? id =
        implementation.initialization.map (fun template => template ⟨node, split.settings⟩) ∧
      emitted.receiverTemplates? id =
        implementation.receivers.map fun templates => templates ⟨node, split.settings⟩ := by
  obtain ⟨type, registered, suits⟩ := suited found
  refine ⟨type.implementation, suits, ?_⟩
  obtain ⟨_, _, frame⟩ := emitting.frame
  have isType : emitted.nodeType? id = some type := by rw [frame]; simp [nodeType?, found, registered]
  have isSite : emitted.siteOf id = ⟨node, split.settings⟩ := by rw [frame]; simp [siteOf, found]
  simp [setupTemplate?, receiverTemplates?, isType, isSite]

/-- Where a message inlet is fed, there are receivers for all of them. -/
theorem Suited.receivers (suited : split.Suited) (emitting : EmittedFrom split wired emitted events)
    (found : split.graph.node? id = some node) (fed : node.inletsOfType .message ≠ []) :
    ∃ templates, emitted.receiverTemplates? id = some templates ∧
      (∀ inlet ∈ node.inletsOfType .message, ∃ template, receiverOf templates inlet.id = some template) ∧
      ∀ read ∈ receiverReads templates, read.IsSent node := by
  obtain ⟨implementation, suits, _, receiverTemplates⟩ := suited.templates emitting found
  obtain ⟨templates, given, answered, sent⟩ := suits.answered fed
  exact ⟨_, by rw [receiverTemplates, given]; rfl, answered, sent⟩

/-- A node that has receivers has a message inlet. -/
theorem EmittedFrom.fed_of_isReceiving (emitting : EmittedFrom split wired emitted events)
    (wiring : WiredFrom split wired log) (framed : split.Framed) (receiving : emitted.isReceiving id = true) :
    ∃ node, split.graph.node? id = some node ∧ node.inletsOfType .message ≠ [] := by
  unfold isReceiving at receiving
  split at receiving
  · cases receiving
  · next entry stored =>
    obtain ⟨node, found⟩ := (framed.of_keeps emitting.keeps).known stored
    rw [emitting.keeps.graph] at found
    obtain ⟨_, again, receivers, _⟩ := emitting.portlets framed wiring found
    cases stored.symm.trans again
    refine ⟨node, found, fun none => ?_⟩
    rw [Register.size, receivers, connectedInlets, none] at receiving
    cases receiving

/-- A hole that stands for a message outlet, or for what the type of the node can name, is filled when the
node is completed. -/
theorem EmittedFrom.granted (emitting : EmittedFrom split wired emitted events)
    (wiring : WiredFrom split wired log) (framed : split.Framed) (supported : emitted.Supported)
    (found : split.graph.node? id = some node) {type : TypeCode}
    (registered : emitted.types.entries.get? node.type = some type) {template : Template}
    (supports : type.implementation.supports emitted.library template = true)
    (asked : read ∈ template.reads) (sent : read.IsSent node) :
    (read.ask (emitted.nodeScope id)).Granted emitted.names := by
  have foundNow : emitted.graph.node? id = some node := emitting.keeps.graph ▸ found
  obtain ⟨entry, stored, _, senders⟩ := emitting.portlets framed wiring found
  cases isPortlet : read.isPortlet with
  | true =>
      refine granted_of_sent framed.wellFormed found senders ?_ isPortlet sent
      rw [nodeScope_eq foundNow stored]
      rfl
  | false =>
      exact supported.granted_of_supports (framed.of_keeps emitting.keeps) registered
        (space_nodeScope foundNow stored) supports asked isPortlet

/-- The receivers and the setup code of suited nodes can be given. -/
theorem EmittedFrom.not_completionFault (emitting : EmittedFrom split wired emitted events)
    (wiring : WiredFrom split wired log) (framed : split.Framed) (supported : split.Supported)
    (suited : split.Suited) {fault : Fault} : ¬ emitted.CompletionFault fault := by
  intro failed
  have supportedNow := emitting.keepsSupport.supported supported
  cases failed with
  | setup found given asked notGranted =>
      obtain ⟨type, registered, supports⟩ := supportedNow.supports_setup found given
      rw [emitting.keeps.graph] at found
      obtain ⟨_, suits, setups, _⟩ := suited.templates emitting found
      rw [setups] at given
      obtain ⟨template, isSetup, rfl⟩ := Option.map_eq_some_iff.mp given
      exact notGranted (emitting.granted wiring framed supportedNow found registered supports asked
        (suits.setup template isSetup _ asked))
  | noReceivers receiving none =>
      obtain ⟨node, found, fed⟩ := emitting.fed_of_isReceiving wiring framed receiving
      obtain ⟨_, given, _⟩ := suited.receivers emitting found fed
      cases none.symm.trans given
  | body receiving found given asked notGranted =>
      obtain ⟨node, again, fed⟩ := emitting.fed_of_isReceiving wiring framed receiving
      cases (emitting.keeps.graph ▸ found).symm.trans again
      obtain ⟨_, isGiven, _, sent⟩ := suited.receivers emitting again fed
      cases given.symm.trans isGiven
      have isSent := sent _ asked
      obtain ⟨type, bodies, registered, rfl, supports⟩ := supportedNow.supports_receivers found given
      obtain ⟨body, isBody, isRead⟩ := exists_of_mem_receiverReads asked
      exact notGranted (emitting.granted wiring framed supportedNow again registered (supports body isBody)
        isRead isSent)
  | noReceiver stored held given missing =>
      obtain ⟨node, found, ⟨portlet, isFed, rfl⟩, _⟩ := emitting.inlet_of_receiver wiring framed stored held
      have isMessage : portlet ∈ node.inletsOfType .message := List.mem_of_mem_filter isFed
      obtain ⟨_, again, answered, _⟩ := suited.receivers emitting found (List.ne_nil_of_mem isMessage)
      cases given.symm.trans again
      obtain ⟨_, isReceiver⟩ := answered portlet isMessage
      cases missing.symm.trans isReceiver
  | mismatch stored held given isReceiver differs =>
      obtain ⟨node, found, _, name, rfl⟩ := emitting.inlet_of_receiver wiring framed stored held
      obtain ⟨_, _, _, rfl, _⟩ :=
        supportedNow.supports_receivers (emitting.keeps.graph ▸ found) given
      obtain ⟨_, _, rfl⟩ := exists_of_receiverOf isReceiver
      cases differs

/-- What is suited is laid out to the end. -/
theorem Divided.suited_yields (divided : Divided ready split groups) (wiring : WiredFrom split wired log)
    (supported : split.Supported) (suited : split.Suited) :
    Yields (runPasses [⟨"dsp", emitDsp⟩, ⟨"receivers", completeNodes⟩] wired).2 fun _ => True := by
  have emissions : Yields wired.emitDsp fun emitted => ∃ events, EmittedFrom split wired emitted events :=
    (emitDsp_erases.ends ((divided.emitDsp_ends wiring).mono (fun _ failed => failed)
      fun result _ emitting => ⟨result.2, emitting⟩)).yields
      fun _ failed => divided.not_audioFault wiring supported suited failed
  refine runPasses_yields_cons emissions fun emitted held => ?_
  obtain ⟨events, emitting⟩ := held
  exact runPasses_yields_cons ((divided.framed.of_keeps emitting.keeps).completeNodes_ends.yields
    fun _ failed => emitting.not_completionFault wiring divided.framed supported suited failed)
    fun _ _ => yields_pure trivial

/-! ## Nodes of a layout -/

/-- A node of a layout is one of the graph or an adapter, with other connections. -/
theorem Setup.origin {grafted reachable embedded declared : Program}
    (setup : Setup graph catalog library settings grafted reachable embedded declared ready)
    (found : ready.graph.node? id = some node) :
    (∃ own, graph.node? id = some own ∧ own.Rewired node) ∨
    (∃ target inlet, (receiverNode target inlet).Rewired node) ∨
    ∃ target outlet name, (senderNode target outlet name).Rewired node := by
  obtain ⟨full, _, _, _, frame⟩ := setup.keeping.frame
  rw [setup.graph_eq, frame] at found
  change (grafted.graph.trim full).node? id = some node at found
  rw [Graph.node?_trim] at found
  split at found
  · obtain ⟨before, stored, rfl⟩ := Option.map_eq_some_iff.mp found
    have restricted : before.Rewired (Graph.restrictNode full before) := ⟨_, _, rfl⟩
    rcases setup.grafting.origin stored with ⟨started, isStarted, kept⟩ | ⟨⟨kind, _, _⟩, _, kept⟩
    · obtain ⟨own, isOwn, first⟩ := node?_of_start isStarted
      exact .inl ⟨own, isOwn, first.trans (kept.trans restricted)⟩
    · cases kind with
      | receiver => exact .inr (.inl ⟨_, _, kept.trans restricted⟩)
      | sender => exact .inr (.inr ⟨_, _, _, kept.trans restricted⟩)
  · cases found

theorem mem_reads_of_singleton {inlet : String} {template : Code.FunctionTemplate}
    (asked : read ∈ receiverReads [(inlet, some template)]) : read ∈ template.reads := by
  obtain ⟨other, _, asked⟩ := List.mem_flatMap.mp asked
  obtain ⟨found, isFound, asked⟩ := List.mem_flatMap.mp asked
  have held := Option.join_eq_some_iff.mp (Option.mem_toList.mp isFound)
  obtain ⟨earlier, later, same, _⟩ := List.lookup_eq_some_iff.mp held
  have listed : (other, some found) ∈ [(inlet, some template)] := by simp [same]
  cases List.mem_singleton.mp listed
  exact asked

theorem receiverAdapter_suits {target inlet : String}
    (rewired : (receiverNode target inlet).Rewired node) : receiverAdapter.Suits settings node := by
  obtain ⟨_, _, rfl⟩ := rewired
  exact ⟨nofun, fun fed => absurd rfl fed, fun audible => by
    rcases audible with pulls | outlets
    · cases pulls
    · exact absurd rfl outlets⟩

theorem senderAdapter_suits {target outlet name : String}
    (rewired : (senderNode target outlet name).Rewired node) : senderAdapter.Suits settings node := by
  obtain ⟨_, _, rfl⟩ := rewired
  refine ⟨nofun, fun _ => ⟨_, rfl, fun inlet isInlet => ?_, fun read asked => ?_⟩, fun audible => ?_⟩
  · cases List.mem_singleton.mp isInlet
    exact ⟨_, rfl⟩
  · cases mem_reads_of_singleton asked
  · rcases audible with pulls | outlets
    · cases pulls
    · exact absurd rfl outlets

/-- Where the types of a graph suit its nodes however these are connected, every node that is laid out is
suited. -/
theorem Setup.suited {grafted reachable embedded declared : Program}
    (setup : Setup graph catalog library settings grafted reachable embedded declared ready)
    (divided : Divided ready split groups)
    (suits : ∀ {id node implementation}, graph.node? id = some node →
      (withAdapters catalog).implementation? node.type = some implementation →
      ∀ now, node.Rewired now → implementation.Suits settings now) : split.Suited := by
  have keeps := setup.keepsDeclared.trans (setup.instantiating.keepsSupport.trans divided.keepsSupport)
  have isReady := setup.settings_eq
  obtain ⟨graphs, same⟩ : split.graph = ready.graph ∧ split.settings = ready.settings := by
    obtain ⟨_, _, _, _, _, _, _, rfl⟩ := divided.frame
    exact ⟨rfl, rfl⟩
  intro id node found
  obtain ⟨type, registered⟩ := divided.framed.types found
  have implemented : (withAdapters catalog).implementation? node.type = some type.implementation := by
    obtain ⟨old, isOld, kept⟩ := keeps.type registered
    obtain ⟨_, rfl, _⟩ := setup.embedding
    exact kept ▸ setup.keeping.implemented setup.grafting isOld
  refine ⟨type, registered, ?_⟩
  rw [same, isReady]
  rcases setup.origin (graphs ▸ found) with ⟨own, isOwn, kept⟩ | ⟨_, _, kept⟩ | ⟨_, _, _, kept⟩
  · refine suits isOwn ?_ node kept
    obtain ⟨_, _, rfl⟩ := kept
    exact implemented
  · have isAdapter : node.type = receiverType := by
      obtain ⟨_, _, rfl⟩ := kept
      rfl
    rw [isAdapter, (implementation?_adapters catalog).1, Option.some_inj] at implemented
    exact implemented ▸ receiverAdapter_suits kept
  · have isAdapter : node.type = senderType := by
      obtain ⟨_, _, rfl⟩ := kept
      rfl
    rw [isAdapter, (implementation?_adapters catalog).2, Option.some_inj] at implemented
    exact implemented ▸ senderAdapter_suits kept

/-- A graph whose nodes are suited is laid out once its host ports can be grafted on. -/
theorem suited_graphs_are_laid_out (wellFormed : graph.WellFormed)
    (implemented : ∀ {id node}, graph.node? id = some node →
      ∃ implementation, catalog.implementation? node.type = some implementation)
    (grafts : Yields (start graph catalog library settings).graftHostPorts fun _ => True)
    (sound : (withAdapters catalog).Sound library) (soundLibrary : library.Sound)
    (suits : ∀ {id node implementation}, graph.node? id = some node →
      (withAdapters catalog).implementation? node.type = some implementation →
      ∀ now, node.Rewired now → implementation.Suits settings now) :
    Yields (precompile graph catalog library settings) fun _ => True := by
  obtain ⟨ready, groups, split, wired, log, prepared, divided, supported, wiring, continued⟩ :=
    generation_reached wellFormed implemented grafts sound soundLibrary
  obtain ⟨_, _, _, _, setup⟩ := setup_of_beforeSplit wellFormed prepared
  rw [continued]
  exact divided.suited_yields wiring supported (setup.suited divided suits)

end Program

end Patchbay
