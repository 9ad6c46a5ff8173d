import Patchbay.Proofs.Graph.Assembly
import Patchbay.Proofs.Graph.Reachable
import Patchbay.Proofs.Program.Fitting
import Patchbay.Proofs.Program.InletWiring

namespace Patchbay

/-! The connections of adapters.

Grafting puts the adapter of a receiver in front of the requested inlet and the adapter of a sender
behind all sinks of the requested outlet.  A sender may be asked for at the adapter of a receiver, which
then forwards to the host what the host sends.  Dropping dead code takes no sink from an outlet that a
message can leave.
-/

open Relation (ReflTransGen)

namespace Graph

variable {graph connected : Graph} {source sink portlet : Endpoint}

/-- What feeds an inlet is there. -/
theorem WellFormed.outletAt?_of_mem_sourcesAt (wellFormed : graph.WellFormed)
    (fed : source ∈ graph.sourcesAt sink) : ∃ outlet, graph.outletAt? source = some outlet := by
  cases found : graph.node? sink.node with
  | none => simp [sourcesAt, found] at fed
  | some node =>
      rw [sourcesAt_eq found] at fed
      obtain ⟨_, _, _, outlets⟩ :=
        (wellFormed.fits found).sources sink.portlet (Node.mem_keys_of_mem_sourcesOf fed)
      obtain ⟨outlet, atSource, _⟩ := outlets source fed
      exact ⟨outlet, atSource⟩

/-- A new connection is recorded behind the others of its outlet. -/
theorem sinksAt_connect (connecting : graph.connect source sink = .ok connected)
    (fresh : source ∉ graph.sourcesAt sink) : connected.sinksAt portlet =
      graph.sinksAt portlet ++ if source = portlet then [sink] else [] := by
  obtain ⟨outlet, inlet, atSource, atSink, sameTypes⟩ := portlets_of_connect connecting
  obtain ⟨_, found, _⟩ := outletAt?_eq_some_iff.mp atSource
  rw [connect_eq atSource atSink sameTypes, if_neg fresh] at connecting
  split at connecting
  · cases connecting
  · cases connecting
    exact sinksAt_link found

end Graph

namespace Program

variable {base program before after : Program} {receivers senders : List (String × String)}
  {done : List PortRequest} {asked : PortRequest} {settings : Settings} {request : String × String}
  {id : String} {portlet : Endpoint}

/-! ## One adapter -/

/-- An adapter feeds, or is fed, last. -/
theorem Grafts.sinksAt (grafts : Grafts before asked after) (wellFormed : before.graph.WellFormed)
    (portlet : Endpoint) : after.graph.sinksAt portlet =
      before.graph.sinksAt portlet ++ if asked.source = portlet then [asked.sink] else [] := by
  obtain ⟨added, adding, connecting⟩ := grafts.graph
  obtain ⟨_, free, rfl⟩ := Graph.add_eq_ok_iff.mp adding
  rw [Graph.sinksAt_connect connecting, Graph.sinksAt_set (PortRequest.adapter_sinks _) free]
  rw [Graph.sourcesAt_set (PortRequest.adapter_sources _) free]
  -- both ends of a connection are there, and the adapter was not
  intro fed
  obtain ⟨_, atSource⟩ := wellFormed.outletAt?_of_mem_sourcesAt fed
  obtain ⟨_, sourceStored, _⟩ := Graph.outletAt?_eq_some_iff.mp atSource
  have sinkStored : before.graph.node? asked.sink.node ≠ none := fun absent => by
    simp [Graph.sourcesAt, absent] at fed
  have absent := Graph.node?_eq_none grafts.free
  unfold PortRequest.source PortRequest.sink at *
  cases isKind : asked.kind with
  | receiver =>
      simp only [isKind] at sourceStored
      cases absent.symm.trans sourceStored
  | sender =>
      simp only [isKind] at sinkStored
      exact sinkStored absent

/-! ## All adapters -/

/-- The sinks that an outlet gets when some ports are grafted, in order. -/
def graftedSinks (receivers senders : List (String × String)) (portlet : Endpoint) : List Endpoint :=
  (receivers.filter fun request => (⟨receiverId request.1 request.2, "0"⟩ : Endpoint) = portlet).map
      (fun request => ⟨request.1, request.2⟩) ++
    (senders.filter fun request => (⟨request.1, request.2⟩ : Endpoint) = portlet).map
      fun request => ⟨senderId request.1 request.2, "0"⟩

/-- Some ports were grafted on, each adapter in front of or behind what was there. -/
structure Connected (base : Program) (done : List PortRequest) (program : Program) : Prop extends
    Grafted base done program where
  sinks : ∀ portlet, program.graph.sinksAt portlet = base.graph.sinksAt portlet ++
    (done.filter fun request => request.source = portlet).map PortRequest.sink
  fresh : ∀ request ∈ done, base.graph.node? request.adapterId = none
  targets : ∀ request ∈ done, ∃ node own, program.graph.node? request.node = some node ∧
    request.portlet? node = some own ∧ own.type = .message

namespace Connected

theorem graft (connected : Connected base done program) (grafts : Grafts program asked after) :
    Connected base (done ++ [asked]) after where
  toGrafted := connected.toGrafted.graft grafts
  sinks portlet := by
    rw [grafts.sinksAt connected.wellFormed, connected.sinks, List.append_assoc, List.filter_append,
      List.map_append]
    by_cases own : asked.source = portlet <;> simp [own]
  fresh other member := by
    rcases List.mem_append.mp member with earlier | last
    · exact connected.fresh other earlier
    · rw [List.mem_singleton.mp last]
      cases stored : base.graph.node? asked.adapterId with
      | none => rfl
      | some node =>
          obtain ⟨now, held, _⟩ := connected.kept stored
          exact absurd (Graph.mem_ids_of_node? held) grafts.free
  targets other member := by
    have target : ∃ node own, program.graph.node? other.node = some node ∧
        other.portlet? node = some own ∧ own.type = .message := by
      rcases List.mem_append.mp member with earlier | last
      · exact connected.targets other earlier
      · exact List.mem_singleton.mp last ▸ grafts.target
    obtain ⟨node, own, found, isOwn, isMessage⟩ := target
    obtain ⟨now, held, rewired⟩ := grafts.kept found
    exact ⟨now, own, held, (PortRequest.portlet?_rewired rewired).trans isOwn, isMessage⟩

variable (connected : Connected base (portRequests settings) program)

include connected

theorem sinks_eq (portlet : Endpoint) : program.graph.sinksAt portlet = base.graph.sinksAt portlet ++
    graftedSinks (requests settings.receivers) (requests settings.senders) portlet := by
  rw [connected.sinks]
  unfold portRequests graftedSinks
  rw [List.filter_append, List.map_append, List.filter_map, List.filter_map, List.map_map, List.map_map]
  rfl

theorem fresh_receiver (member : request ∈ requests settings.receivers) :
    base.graph.node? (receiverId request.1 request.2) = none :=
  connected.fresh ⟨.receiver, request.1, request.2⟩ (mem_portRequests_iff.mpr member)

theorem target_sender (member : request ∈ requests settings.senders) :
    ∃ node own, program.graph.node? request.1 = some node ∧ node.outlet? request.2 = some own ∧
      own.type = .message :=
  connected.targets ⟨.sender, request.1, request.2⟩ (mem_portRequests_iff.mpr member)

end Connected

theorem graftHostPorts_connects (wellFormed : before.graph.WellFormed)
    (noReceivers : before.hostReceivers.entries = ∅) (noSenders : before.hostSenders.entries = ∅)
    (run : before.graftHostPorts = .ok after) :
    Connected before (portRequests before.settings) after := by
  rw [graftHostPorts_eq] at run
  exact Outcome.foldlM_invariant (fun done state => Connected before done state)
    ⟨.ungrafted wellFormed noReceivers noSenders, by simp, by simp, by simp⟩
    (fun _ _ _ _ _ held grafts => held.graft (graft_ends.of_ok grafts)) run

/-! ## Ports that are asked for twice -/

/-- One side of the settings lists a portlet of a node twice. -/
def AsksTwice (ports : Option Ports) : Prop :=
  ∃ table id portlets, ports = some table ∧ table.get? id = some (some portlets) ∧ ¬ portlets.Nodup

theorem not_asksTwice_of_nodup {ports : Option Ports} (distinct : (requests ports).Nodup) :
    ¬ AsksTwice ports := by
  rintro ⟨table, id, portlets, given, found, twice⟩
  refine twice (.of_map (fun portlet => (id, portlet)) ?_)
  exact (List.nodup_flatMap.mp distinct).1 (id, portlets)
    (mem_portOrder_iff.mpr ⟨table, some portlets, given, found, rfl⟩)

/-! ## The sinks of one outlet -/

theorem filter_eq_singleton_of_nodup {α : Type} {items : List α} {item : α} {holds : α → Bool}
    (distinct : items.Nodup) (member : item ∈ items)
    (only : ∀ other ∈ items, holds other = true ↔ other = item) : items.filter holds = [item] := by
  induction items with
  | nil => cases member
  | cons first rest ih =>
      obtain ⟨apart, restDistinct⟩ := List.nodup_cons.mp distinct
      have restOnly := fun other later => only other (List.mem_cons_of_mem first later)
      rcases List.mem_cons.mp member with rfl | later
      · rw [List.filter_cons_of_pos ((only item member).mpr rfl)]
        refine congrArg (item :: ·) (List.filter_eq_nil_iff.mpr fun other isLater held => ?_)
        exact apart ((restOnly other isLater).mp held ▸ isLater)
      · have differs : first ≠ item := fun same => apart (same ▸ later)
        rw [List.filter_cons_of_neg fun held =>
          differs ((only first (List.mem_cons_self ..)).mp held)]
        exact ih restDistinct later restOnly

/-- The adapter of a receiver sends to the requested inlet and, where a sender was asked for at it, to
the adapter of this sender. -/
theorem graftedSinks_receiver (distinct : receivers.Nodup) (distinctSenders : senders.Nodup)
    (member : request ∈ receivers) :
    graftedSinks receivers senders ⟨receiverId request.1 request.2, "0"⟩ = ⟨request.1, request.2⟩ ::
      if (receiverId request.1 request.2, "0") ∈ senders then
        [⟨senderId (receiverId request.1 request.2) "0", "0"⟩] else [] := by
  unfold graftedSinks
  rw [filter_eq_singleton_of_nodup distinct member fun other _ => ?_]
  · refine congrArg ((⟨request.1, request.2⟩ : Endpoint) :: ·) ?_
    split
    · next asked =>
      rw [filter_eq_singleton_of_nodup distinctSenders asked fun other _ => ?_]
      · rfl
      · rw [decide_eq_true_iff, Endpoint.mk.injEq, Prod.ext_iff]
    · next free =>
      rw [List.filter_eq_nil_iff.mpr fun other isOther same => ?_]
      · rfl
      · rw [decide_eq_true_iff, Endpoint.mk.injEq, ← Prod.mk.injEq] at same
        exact free (same ▸ isOther)
  · rw [decide_eq_true_iff, Endpoint.mk.injEq, and_iff_left rfl]
    exact ⟨receiverId_inj, fun same => by rw [same]⟩

/-- A requested outlet sends to the adapter of its sender last. -/
theorem graftedSinks_sender (distinct : senders.Nodup) (member : request ∈ senders) :
    graftedSinks receivers senders ⟨request.1, request.2⟩ =
      graftedSinks receivers [] ⟨request.1, request.2⟩ ++ [⟨senderId request.1 request.2, "0"⟩] := by
  unfold graftedSinks
  rw [filter_eq_singleton_of_nodup distinct member fun other _ => ?_]
  · simp
  · rw [decide_eq_true_iff, Endpoint.mk.injEq]
    exact ⟨fun same => Prod.ext same.1 same.2, fun same => by simp [same]⟩

end Program

namespace Graph

variable {graph : Graph} {id : String} {node : Node}

/-- A graph that is cut down to its own nodes keeps its connections. -/
theorem WellFormed.sinksAt_trim_sortedIds (wellFormed : graph.WellFormed) (portlet : Endpoint) :
    (graph.trim graph.sortedIds).sinksAt portlet = graph.sinksAt portlet := by
  rw [sinksAt_trim]
  cases found : graph.node? portlet.node with
  | none => simp [sinksAt, found]
  | some node =>
      rw [if_pos (mem_sortedIds_iff.mpr (mem_ids_of_node? found)), sinksAt_eq found]
      refine List.filter_eq_self.mpr fun sink member => ?_
      obtain ⟨_, _, mirrored⟩ :=
        (wellFormed.fits found).sinks portlet.portlet (Node.mem_keys_of_mem_sinksOf member)
      obtain ⟨_, atSink, _⟩ := mirrored sink member
      obtain ⟨_, stored, _⟩ := inletAt?_eq_some_iff.mp atSink
      exact List.contains_iff_mem.mpr (mem_sortedIds_iff.mpr (mem_ids_of_node? stored))

/-- A message from some node that pushes messages can come to a node. -/
def Told (graph : Graph) (id : String) : Prop :=
  ∃ root ∈ graph.pushing, ReflTransGen graph.Sends root id

/-- What is told stays, with all the sinks of its message outlets. -/
theorem WellFormed.sinksAt_trim_of_told (wellFormed : graph.WellFormed) {full : List String}
    (walked : graph.fullTraversal = .ok full) (told : graph.Told id)
    (found : graph.node? id = some node) {outlet : Portlet} (isOutlet : outlet ∈ node.outletsOfType .message) :
    (graph.trim full).sinksAt ⟨id, outlet.id⟩ = graph.sinksAt ⟨id, outlet.id⟩ := by
  obtain ⟨root, isRoot, sends⟩ := told
  have kept : ∀ {other}, ReflTransGen graph.Sends root other → other ∈ full := fun reaches =>
    (mem_fullTraversal_iff wellFormed walked).mpr (.told isRoot reaches)
  rw [sinksAt_trim, if_pos (kept sends), sinksAt_eq found]
  refine List.filter_eq_self.mpr fun sink member => ?_
  refine List.contains_iff_mem.mpr (kept (sends.tail ⟨node, found, sink, ?_, rfl⟩))
  exact List.mem_flatMap.mpr ⟨outlet, isOutlet, member⟩

end Graph

namespace Program

variable {graph : Graph} {catalog : Catalog} {library : Library} {settings : Settings}
  {program before after : Program} {id : String} {node : Node}

theorem keepReachable_walks (run : before.keepReachable = .ok after) :
    before.graph.fullTraversal = .ok after.fullTraversal ∧
      after.graph = before.graph.trim after.fullTraversal := by
  unfold keepReachable at run
  obtain ⟨full, walked, run⟩ := Outcome.bind_eq_ok_iff.mp run
  obtain ⟨listed, listing, run⟩ := Outcome.bind_eq_ok_iff.mp run
  cases run
  have same : listed.fullTraversal = full ∧ listed.graph = before.graph.trim full := by
    refine Outcome.foldlM_invariant (fun _ (state : Program) =>
      state.fullTraversal = full ∧ state.graph = before.graph.trim full) ⟨rfl, rfl⟩ ?_ listing
    intro _ id state next _ held enlisting
    unfold enlist at enlisting
    obtain ⟨node, _, enlisting⟩ := Outcome.bind_eq_ok_iff.mp enlisting
    split at enlisting
    · cases enlisting
    · rw [Outcome.ite_bind] at enlisting
      obtain ⟨_, _, enlisting⟩ := Outcome.bind_eq_ok_iff.mp enlisting
      obtain ⟨_, _, enlisting⟩ := Outcome.bind_eq_ok_iff.mp enlisting
      cases enlisting
      exact held
  obtain ⟨sameFull, sameGraph⟩ := same
  change before.graph.fullTraversal = .ok listed.fullTraversal ∧
    listed.graph = before.graph.trim listed.fullTraversal
  rw [sameFull]
  exact ⟨walked, sameGraph⟩

namespace Laying

theorem connected (laying : Laying graph catalog library settings program)
    (wellFormed : graph.WellFormed) : Connected (start graph catalog library settings)
      (portRequests settings) laying.grafted :=
  graftHostPorts_connects (wellFormed.trim _) rfl rfl laying.setup.graftRan

/-- What is left of the grafted graph is what a walk of it lists. -/
theorem walks_grafted (laying : Laying graph catalog library settings program) :
    laying.grafted.graph.fullTraversal = .ok program.fullTraversal ∧
      program.graph = laying.grafted.graph.trim program.fullTraversal := by
  have passed := laying.setup.ran
  unfold beforeSplit at passed
  rw [passesBeforeSplit_eq] at passed
  simp only [runPasses_cons_eq_ok_iff] at passed
  obtain ⟨grafted, grafting, reachable, keeping, embedded, embedding, declared, declaring,
    instantiated, instantiating, finished⟩ := passed
  cases finished
  cases laying.setup.graftRan.symm.trans grafting
  obtain ⟨walked, trimmed⟩ := keepReachable_walks keeping
  have framed := ((keepReachable_ends laying.setup.grafting.wellFormed
    (laying.setup.grafting.unlisted unlisted_start)).of_ok keeping).1
  have embeds := (embedModules_ends reachable).of_ok embedding
  have framedEmbedded := Embedding.framed embeds.2 framed
  have declares := framedEmbedded.declareTypes_ends.of_ok declaring
  have instantiates :=
    (framedEmbedded.of_keeps declares.keeps).instantiateStates_ends.of_ok instantiating
  obtain ⟨_, same, _⟩ := embeds.2
  obtain ⟨_, _, _, _, _, _, _, split⟩ := laying.divided.frame
  have sameGraph : program.graph = reachable.graph := by
    rw [laying.keeps.graph, split]
    change laying.ready.graph = _
    rw [instantiates.keeps.graph, declares.keeps.graph, same]
  have sameNodes : program.fullTraversal = reachable.fullTraversal := by
    rw [laying.keeps.fullTraversal, split]
    change laying.ready.fullTraversal = _
    rw [instantiates.keeps.fullTraversal, declares.keeps.fullTraversal, same]
  rw [sameNodes]
  exact ⟨walked, sameGraph.trans trimmed⟩

/-- The nodes that are left have only lost connections. -/
theorem node?_grafted (laying : Laying graph catalog library settings program)
    (found : program.graph.node? id = some node) :
    ∃ before, laying.grafted.graph.node? id = some before ∧ before.Rewired node := by
  rw [laying.walks_grafted.2, Graph.node?_trim] at found
  split at found
  · obtain ⟨before, stored, rfl⟩ := Option.map_eq_some_iff.mp found
    exact ⟨before, stored, _, _, rfl⟩
  · cases found

end Laying

end Program

end Patchbay
