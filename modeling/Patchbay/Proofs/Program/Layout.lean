import Patchbay.Proofs.Program.Completion
import Patchbay.Proofs.Program.Grafting
import Patchbay.Proofs.Program.Loops
import Patchbay.Proofs.Program.Modules
import Patchbay.Proofs.Program.States

namespace Patchbay

/-! The stages of a layout.

`Setup` follows a program from the start to the split and says what each pass made of it.  From there
on a stage is known by what is fixed for all that come later: the graph, the groups and the inlined
nodes.
-/

theorem Catalog.contains_labels {catalog : Catalog} {name : String} {implementation : Implementation}
    (found : catalog.implementation? name = some implementation) :
    catalog.labels.contains name = true := by
  unfold implementation? at found
  rw [Option.join_eq_some_iff] at found
  rw [Table.contains_iff]
  unfold labels
  rw [Table.mem_keys_ofList, List.mem_map]
  refine ⟨_, List.mem_filterMap.mpr ⟨(name, some implementation), Table.mem_entries_iff.mpr found, rfl⟩, rfl⟩

namespace Program

variable {graph : Graph} {catalog : Catalog} {library : Library} {settings : Settings}
  {program grafted reachable embedded declared ready split : Program} {groups : List DspGroup}

theorem unlisted_start : (start graph catalog library settings).Unlisted where
  nodes := rfl
  types := rfl
  labels := Catalog.contains_labels

/-- The modules were embedded. -/
def Embedding (before after : Program) : Prop :=
  ∃ names, after = { before with
      names
      dependencies := link before.settings before.names.nameOf before.linked []
        { modules := before.linked } } ∧
    before.registered.Took names (before.moduleAsks.filterMap Code.Ask.handle?)

theorem Embedding.framed (embedding : Embedding reachable embedded) (framed : reachable.Framed) :
    embedded.Framed := by
  obtain ⟨names, same, took⟩ := embedding
  obtain ⟨modules, registered⟩ := reachable.registered_eq
  have nameGraph := took.graph
  have labels := took.labels
  rw [registered] at nameGraph labels
  subst same
  exact framed.of_keeps ⟨rfl, rfl, rfl, rfl, rfl, fun _ => rfl, nameGraph, labels⟩

/-- What the passes before the split make of a graph. -/
structure Setup (graph : Graph) (catalog : Catalog) (library : Library) (settings : Settings)
    (grafted reachable embedded declared ready : Program) : Prop where
  ran : beforeSplit graph catalog library settings = .ok ready
  graftRan : (start graph catalog library settings).graftHostPorts = .ok grafted
  grafting : Grafted (start graph catalog library settings) (portRequests settings) grafted
  framed : reachable.Framed
  keeping : Reachable grafted reachable
  granted : ∀ ask ∈ reachable.moduleAsks, ask.Granted reachable.registered
  embedding : Embedding reachable embedded
  declaring : DeclaredSo embedded embedded.types.values declared
  instantiating : Instantiated declared declared.fullTraversal ready

namespace Setup

variable (setup : Setup graph catalog library settings grafted reachable embedded declared ready)

include setup

theorem framedEmbedded : embedded.Framed := setup.embedding.framed setup.framed

theorem framedDeclared : declared.Framed :=
  setup.framedEmbedded.of_keeps setup.declaring.keeps

theorem framedReady : ready.Framed :=
  setup.framedDeclared.of_keeps setup.instantiating.keeps

theorem graph_eq : ready.graph = reachable.graph := by
  obtain ⟨_, rfl, _⟩ := setup.embedding
  exact setup.instantiating.keeps.graph.trans setup.declaring.keeps.graph

theorem settings_eq : ready.settings = settings := by
  rw [setup.instantiating.keeps.settings, setup.declaring.keeps.settings]
  obtain ⟨_, rfl, _⟩ := setup.embedding
  obtain ⟨_, _, _, _, rfl⟩ := setup.keeping.frame
  obtain ⟨_, _, _, _, rfl⟩ := setup.grafting.frame
  rfl

/-- The code of a node that is ready is new but for its state. -/
theorem entry {id : String} {entry : NodeCode} (stored : ready.nodes.entries.get? id = some entry) :
    ∃ node, ready.graph.node? id = some node ∧
      entry = declared.withState id (NodeCode.new id node.type) := by
  have nodes : declared.nodes = reachable.nodes := by
    obtain ⟨_, rfl, _⟩ := setup.embedding
    obtain ⟨_, _, rfl⟩ := setup.declaring.frame
    rfl
  have listed : id ∈ declared.fullTraversal := by
    rw [← setup.instantiating.keeps.fullTraversal, ← setup.framedReady.nodes]
    exact Table.mem_keys_of_get? stored
  rw [setup.instantiating.nodes, if_pos listed, nodes] at stored
  obtain ⟨old, storedBefore, rfl⟩ := Option.map_eq_some_iff.mp stored
  obtain ⟨node, found, rfl⟩ := setup.keeping.entries storedBefore
  exact ⟨node, setup.graph_eq ▸ found, rfl⟩

theorem unwired : ready.Unwired := by
  intro id entry stored
  obtain ⟨node, _, rfl⟩ := setup.entry stored
  unfold withState
  split <;> exact ⟨rfl, rfl, rfl, rfl, rfl, rfl, rfl⟩

end Setup

theorem setup_of_beforeSplit (wellFormed : graph.WellFormed)
    (ran : beforeSplit graph catalog library settings = .ok ready) :
    ∃ grafted reachable embedded declared,
      Setup graph catalog library settings grafted reachable embedded declared ready := by
  have passed := ran
  unfold beforeSplit at passed
  rw [passesBeforeSplit_eq] at passed
  simp only [runPasses_cons_eq_ok_iff] at passed
  obtain ⟨grafted, grafting, reachable, keeping, embedded, embedding, declared, declaring,
    instantiated, instantiating, finished⟩ := passed
  cases finished
  have first := (graftHostPorts_ends (wellFormed.trim _) rfl rfl).of_ok grafting
  obtain ⟨framed, second⟩ :=
    (keepReachable_ends first.wellFormed (first.unlisted unlisted_start)).of_ok keeping
  obtain ⟨granted, third⟩ := (embedModules_ends reachable).of_ok embedding
  have framedEmbedded := Embedding.framed third framed
  have fourth := framedEmbedded.declareTypes_ends.of_ok declaring
  have fifth := (framedEmbedded.of_keeps fourth.keeps).instantiateStates_ends.of_ok instantiating
  exact ⟨grafted, reachable, embedded, declared,
    ran, grafting, first, framed, second, granted, third, fourth, fifth⟩

/-! ## The split -/

theorem addColdGroup_took {group : DspGroup} {position : Nat} {after : Program}
    (added : program.addColdGroup position group = .ok after) :
    program.names.Took after.names [(.coldGroups, Text.ofNat position)] ∧
      after.coldDsp.keys = program.coldDsp.keys ++ [Text.ofNat position] := by
  unfold addColdGroup at added
  obtain ⟨⟨name, named⟩, naming, added⟩ := Outcome.bind_eq_ok_iff.mp added
  obtain ⟨coldDsp, adding, added⟩ := Outcome.bind_eq_ok_iff.mp added
  obtain ⟨⟨_, names⟩, reading, naming⟩ := Outcome.bind_eq_ok_iff.mp naming
  cases naming
  cases added
  obtain ⟨fresh, rfl⟩ := Register.add_ends.of_ok adding
  refine ⟨(NameIndex.read_took reading).2, ?_⟩
  exact (Table.keys_set ..).trans (if_neg fresh)

theorem extractInline_frame {parent : DspGroup} {left : List String} {after : Program}
    (ran : program.extractInline parent = .ok (left, after)) :
    after.names = program.names ∧ after.coldDsp = program.coldDsp := by
  unfold extractInline at ran
  obtain ⟨groups, _, ran⟩ := Outcome.bind_eq_ok_iff.mp ran
  cases ran
  exact ⟨rfl, rfl⟩

theorem extractInlineFromCold_frame {id : String} {after : Program}
    (ran : program.extractInlineFromCold id = .ok after) :
    after.names = program.names ∧ after.coldDsp.keys = program.coldDsp.keys := by
  unfold extractInlineFromCold at ran
  obtain ⟨group, _, ran⟩ := Outcome.bind_eq_ok_iff.mp ran
  obtain ⟨⟨left, between⟩, extracting, ran⟩ := Outcome.bind_eq_ok_iff.mp ran
  cases ran
  obtain ⟨names, coldDsp⟩ := extractInline_frame extracting
  refine ⟨names, ?_⟩
  rw [← coldDsp]
  exact Table.keys_modify _ _

/-- Splitting names the cold groups and nothing else. -/
theorem splitSignal_took (unsplit : program.Unsplit) (ran : program.splitSignal = .ok split) :
    program.names.Took split.names (split.coldDsp.keys.map fun key => (.coldGroups, key)) := by
  unfold splitSignal at ran
  obtain ⟨traversal, _, ran⟩ := Outcome.bind_eq_ok_iff.mp ran
  obtain ⟨cold, _, ran⟩ := Outcome.bind_eq_ok_iff.mp ran
  obtain ⟨cooled, cooling, ran⟩ := Outcome.bind_eq_ok_iff.mp ran
  obtain ⟨⟨remaining, heated⟩, heating, ran⟩ := Outcome.bind_eq_ok_iff.mp ran
  have took : program.names.Took cooled.names
      (cooled.coldDsp.keys.map fun key => (.coldGroups, key)) := by
    refine Outcome.foldlM_invariant (fun _ (state : Program) => program.names.Took state.names
      (state.coldDsp.keys.map fun key => (.coldGroups, key))) ?_ ?_ cooling
    · unfold Register.keys
      rw [unsplit.coldDsp]
      exact .refl _
    · intro _ group state after _ held added
      obtain ⟨tookName, keys⟩ := addColdGroup_took added
      rw [keys, List.map_append]
      exact held.trans tookName
  obtain ⟨sameNames, sameGroups⟩ := extractInline_frame heating
  have stripped : split.names = cooled.names ∧ split.coldDsp.keys = cooled.coldDsp.keys := by
    refine Outcome.foldlM_invariant (fun _ (state : Program) =>
      state.names = cooled.names ∧ state.coldDsp.keys = cooled.coldDsp.keys) ?_ ?_ ran
    · exact ⟨sameNames, congrArg Register.keys sameGroups⟩
    · intro _ id state after _ held stepped
      obtain ⟨names, keys⟩ := extractInlineFromCold_frame stepped
      exact ⟨names.trans held.1, keys.trans held.2⟩
  rw [stripped.1, stripped.2]
  exact took

/-- What is known of a program that was split. -/
structure Divided (ready split : Program) (groups : List DspGroup) : Prop where
  splitInto : split.SplitInto groups
  framed : split.Framed
  unwired : split.Unwired
  frame : ∃ names rootDsp hotDsp coldDsp coldOf inlineDsp inlined, split = { ready with
    names, rootDsp, hotDsp, coldDsp, coldOf, inlineDsp, inlined }
  names : ready.names.Took split.names (split.coldDsp.keys.map fun key => (.coldGroups, key))

/-- A program that is ready can be split. -/
theorem splitSignal_divides (framed : ready.Framed) (unwired : ready.Unwired)
    (unsplit : ready.Unsplit) :
    Outcome.Yields ready.splitSignal fun split => ∃ groups, Divided ready split groups := by
  obtain ⟨split, ran, ⟨groups, splitInto⟩, frame⟩ := splitSignal_yields framed.wellFormed unsplit
  have took := splitSignal_took unsplit ran
  have keeps : KeepsFrame ready split := by
    obtain ⟨names, _, _, _, _, _, _, rfl⟩ := frame
    exact ⟨rfl, rfl, rfl, rfl, rfl, fun _ => rfl, took.graph, took.labels⟩
  have sameNodes : split.nodes = ready.nodes := by
    obtain ⟨names, _, _, _, _, _, _, rfl⟩ := frame
    rfl
  refine ⟨split, ran, groups, splitInto, framed.of_keeps keeps, ?_, frame, took⟩
  intro id entry stored
  exact unwired (sameNodes ▸ stored)

namespace Divided

variable (divided : Divided ready split groups)

include divided

theorem loopNodes_distinct : split.loopNodes.Nodup :=
  (List.nodup_append.mp divided.splitInto.shared_nodup).1

theorem loopNodes_listed : ∀ id ∈ split.loopNodes, id ∈ split.fullTraversal := by
  intro id member
  obtain ⟨listed, _⟩ := divided.splitInto.mem_loopNodes_iff.mp member
  exact divided.framed.listed.mpr (divided.splitInto.rooted.known listed)

/-- Wiring a program that was split needs the message module and nothing else. -/
theorem wirePortlets_ends :
    Outcome.Ends (split.wirePortletsLogged.run [])
      (fun fault => ¬ split.names.Opens (.module "msg") ∧ fault = .unnamedModule "msg")
      fun result => WiredFrom split result.1 result.2 :=
  divided.framed.wirePortlets_ends divided.unwired divided.loopNodes_distinct
    divided.loopNodes_listed fun _ member => (divided.splitInto.mem_loopNodes_iff.mp member).2

theorem stage {wired : Program} {log : List WiringEvent} (wiring : WiredFrom split wired log) :
    Stage split wired groups :=
  ⟨divided.splitInto, divided.framed, wiring.frame⟩

theorem emitDsp_ends {wired : Program} {log : List WiringEvent} (wiring : WiredFrom split wired log) :
    Outcome.Ends (wired.emitDspLogged.run log) wired.AudioFault fun result =>
      EmittedFrom split wired result.1 result.2 :=
  (divided.stage wiring).emitDsp_ends wiring.emitting wiring.quiet

end Divided

/-! ## The whole layout -/

/-- Lays a program out and notes the signal wiring down. -/
def layOutLogged (graph : Graph) (catalog : Catalog) (library : Library) (settings : Settings) :
    Logged Program := do
  let ready ← beforeSplit graph catalog library settings
  let split ← ready.splitSignal
  let wired ← split.wirePortletsLogged
  let emitted ← wired.emitDspLogged
  emitted.completeNodes

/-- All stages of a layout that succeeded, with the journal of its signal wiring. -/
structure Laying (graph : Graph) (catalog : Catalog) (library : Library) (settings : Settings)
    (program : Program) where
  grafted : Program
  reachable : Program
  embedded : Program
  declared : Program
  ready : Program
  split : Program
  wired : Program
  emitted : Program
  groups : List DspGroup
  log : List WiringEvent
  events : List WiringEvent
  setup : Setup graph catalog library settings grafted reachable embedded declared ready
  divided : Divided ready split groups
  wiring : WiredFrom split wired log
  emitting : EmittedFrom split wired emitted events
  completing : Reworked emitted emitted.completed emitted.completionHandles (fun _ => [])
    emitted.fullTraversal program
  served : ∀ id ∈ emitted.fullTraversal, emitted.Served id
  logged : (layOutLogged graph catalog library settings).run [] = .ok (program, events)

theorem laying_of_precompile (wellFormed : graph.WellFormed)
    (compiled : precompile graph catalog library settings = .ok program) :
    Nonempty (Laying graph catalog library settings program) := by
  obtain ⟨ready, split, wired, emitted, readying, splitting, wiring, emitting, completing⟩ :=
    precompile_eq_ok compiled
  obtain ⟨grafted, reachable, embedded, declared, setup⟩ := setup_of_beforeSplit wellFormed readying
  have unsplit := (prepared_of_beforeSplit wellFormed readying).1.unsplit
  obtain ⟨again, splittingAgain, groups, divided⟩ :=
    splitSignal_divides setup.framedReady setup.unwired unsplit
  rw [splitting] at splittingAgain
  cases splittingAgain
  obtain ⟨log, wiringLogged⟩ := wirePortlets_erases.run_eq_ok wiring []
  obtain ⟨events, emittingLogged⟩ := emitDsp_erases.run_eq_ok emitting log
  have wiredFrom := divided.wirePortlets_ends.of_ok wiringLogged
  have emittedFrom := (divided.emitDsp_ends wiredFrom).of_ok emittingLogged
  have framed := divided.framed.of_keeps emittedFrom.keeps
  obtain ⟨served, completed⟩ := framed.completeNodes_ends.of_ok completing
  refine ⟨⟨grafted, reachable, embedded, declared, ready, split, wired, emitted, groups, log, events,
    setup, divided, wiredFrom, emittedFrom, completed, served, ?_⟩⟩
  unfold layOutLogged
  rw [run_lift_bind readying, run_lift_bind splitting, run_bind_of_ok wiringLogged,
    run_bind_of_ok emittingLogged, completing]
  rfl

end Program

end Patchbay
