import Patchbay.Proofs.Program.Inlets
import Patchbay.Proofs.Program.Portlets

namespace Patchbay

/-! Signal inlets and outlets are wired.

Inlets without a source read the null signal, and those that are fed by a node with a loop statement
read the variable of the outlet.  What is left are the inlets that are fed by an inlined node.
-/

open Outcome (Ends ends_pure)

namespace Graph

variable {graph : Graph} {id : String} {node : Node}

theorem signalSource?_eq_none (wellFormed : graph.WellFormed) (found : graph.node? id = some node)
    {inlet : String} (unfed : node.sourcesOf inlet = []) : graph.signalSource? ⟨id, inlet⟩ = none := by
  cases fed : graph.signalSource? ⟨id, inlet⟩ with
  | none => rfl
  | some source =>
      obtain ⟨stored, portlet, isStored, _, _, sameId, member⟩ :=
        (signalSource?_eq_some_iff wellFormed).mp fed
      rw [found] at isStored
      cases isStored
      rw [sameId, unfed] at member
      cases member

theorem signalSource?_of_sink (wellFormed : graph.WellFormed) (found : graph.node? id = some node)
    {outlet : Portlet} (isOutlet : outlet ∈ node.outletsOfType .signal) {sink : Endpoint}
    (feeding : sink ∈ node.sinksOf outlet.id) : graph.signalSource? sink = some ⟨id, outlet.id⟩ := by
  obtain ⟨member, isSignal⟩ := List.mem_filter.mp isOutlet
  obtain ⟨sinkNode, portlet, sinkFound, isInlet, sameId, sameType, recorded⟩ :=
    wellFormed.sink_of_outlet found member feeding
  refine (signalSource?_eq_some_iff wellFormed).mpr ⟨sinkNode, portlet, sinkFound, isInlet,
    sameType.trans (decide_eq_true_eq.mp isSignal), sameId, ?_⟩
  rw [sameId]
  exact recorded

theorem mem_sinksOf_of_signalSource? (wellFormed : graph.WellFormed) {inlet source : Endpoint}
    (fed : graph.signalSource? inlet = some source) :
    ∃ node outlet, graph.node? source.node = some node ∧ outlet ∈ node.outletsOfType .signal ∧
      outlet.id = source.portlet ∧ inlet ∈ node.sinksOf outlet.id := by
  obtain ⟨sinkNode, portlet, sinkFound, isInlet, isSignal, inletId, feeding⟩ :=
    (signalSource?_eq_some_iff wellFormed).mp fed
  obtain ⟨node, outlet, found, isOutlet, outletId, sameType, recorded⟩ :=
    wellFormed.source_of_inlet sinkFound isInlet feeding
  refine ⟨node, outlet, found, List.mem_filter.mpr ⟨isOutlet, ?_⟩, outletId, ?_⟩
  · exact decide_eq_true_eq.mpr (sameType.trans isSignal)
  · rw [inletId] at recorded
    rw [outletId]
    exact recorded

end Graph

namespace Program

variable {base start program before between after : Program} {id : String} {node : Node}
  {entry : NodeCode} {log now later : List WiringEvent} {inlet : Endpoint} {code : String} {writer : Writer}

/-! ## Writes -/

/-- Inlets were written, and nothing was generated. -/
structure Wrote (base : Program) (log : List WiringEvent) (program : Program) (now : List WiringEvent) : Prop
    extends Running base program now where
  grown : ∃ more, now = log ++ more
  quiet : generatedIn now = generatedIn log

namespace Wrote

theorem refl (running : Running base program log) : Wrote base log program log :=
  ⟨running, ⟨[], by simp⟩, rfl⟩

theorem trans (one : Wrote base log between now) (two : Wrote base now after later) :
    Wrote base log after later where
  toRunning := two.toRunning
  grown := by
    obtain ⟨first, rfl⟩ := one.grown
    obtain ⟨second, rfl⟩ := two.grown
    exact ⟨first ++ second, List.append_assoc ..⟩
  quiet := two.quiet.trans one.quiet

theorem written (wrote : Wrote base log program now) (earlier : Written log inlet) :
    Written now inlet := by
  obtain ⟨more, rfl⟩ := wrote.grown
  exact earlier.mono

end Wrote

/-- Writes one after the other, all with the same code. -/
theorem Running.writeAll_ends {α : Type} {items : List α}
    {step : Program → α → Logged Program} (running : Running base start log)
    (writer : Writer) (inletOf : α → Endpoint) (code : String)
    (writes : ∀ program item log entry, program.nodes.entries.get? (inletOf item).node = some entry →
      (step program item).run log = .ok (program.setInlet (inletOf item).node (inletOf item).portlet code,
        log ++ [.write writer (inletOf item) code]))
    (known : ∀ item ∈ items, (inletOf item).node ∈ base.nodes.keys)
    (fresh : ∀ item ∈ items, (inletOf item).node ∉ generatedIn log)
    (allowed : ∀ item ∈ items, base.HasSignalInlet (inletOf item) ∧
      writer = base.inletWriter (inletOf item) ∧ base.Carries [] (inletOf item) code) :
    Ends ((items.foldlM step start).run log) (fun _ => False) fun result =>
      Wrote base log result.1 result.2 ∧ result.1.names = start.names ∧
        result.1.solid? = start.solid? ∧ ∀ item ∈ items, Written result.2 (inletOf item) := by
  rw [run_foldlM]
  refine Outcome.ends_foldlM (fun done (state : Program × List WiringEvent) =>
    Wrote base log state.1 state.2 ∧ state.1.names = start.names ∧ state.1.solid? = start.solid? ∧
      ∀ item ∈ done, Written state.2 (inletOf item)) ?_ ?_
  · exact ⟨.refl running, rfl, rfl, by simp⟩
  · intro done item rest state split held
    obtain ⟨wrote, names, solid, earlier⟩ := held
    have member : item ∈ items := by simp [split]
    obtain ⟨entry, stored⟩ : ∃ entry, state.1.nodes.entries.get? (inletOf item).node = some entry := by
      refine Table.mem_keys_iff.mp ?_
      change _ ∈ state.1.nodes.keys
      rw [wrote.keys]
      exact known item member
    obtain ⟨declared, isWriter, carries⟩ := allowed item member
    have unread := fresh item member
    rw [← wrote.quiet] at unread
    rw [writes state.1 item state.2 entry stored]
    have step : Wrote base state.2 _ _ :=
      ⟨wrote.write stored declared unread isWriter carries.mono, ⟨_, rfl⟩, by simp⟩
    refine ends_pure ⟨wrote.trans step, names, by rw [solid?_setInlet, solid], ?_⟩
    intro other isDone
    rcases List.mem_append.mp isDone with before | last
    · exact step.written (earlier other before)
    · rw [List.mem_singleton.mp last]
      exact ⟨writer, code, by simp⟩

theorem run_writeInlet : (program.writeInlet writer inlet code).run log =
    .ok (program.setInlet inlet.node inlet.portlet code, log ++ [.write writer inlet code]) := rfl

/-! ## Inlets without a source -/

theorem Framed.wireNullSignals_ends (framed : base.Framed) (running : Running base start log)
    (found : base.graph.node? id = some node) (quiet : generatedIn log = []) :
    Ends ((start.wireNullSignalsLogged id node).run log) (fun _ => False) fun result =>
      Wrote base log result.1 result.2 ∧ result.1.names = start.names ∧
        result.1.solid? = start.solid? ∧ ∀ inlet ∈ node.inletsOfType .signal,
          node.sourcesOf inlet.id = [] → Written result.2 ⟨id, inlet.id⟩ := by
  have known : id ∈ base.nodes.keys := framed.nodes ▸ framed.listed.mpr ⟨node, found⟩
  refine (running.writeAll_ends .nullSignals (fun inlet : Portlet => ⟨id, inlet.id⟩) nullSignal
    (fun _ _ _ _ _ => run_writeInlet) (fun _ _ => known) (by simp [quiet]) ?_).mono (fun _ never => never) fun result _ held => ?_
  · intro inlet member
    have unfed : node.sourcesOf inlet.id = [] := by simpa using (List.mem_filter.mp member).2
    refine ⟨⟨node, inlet, found, (List.mem_filter.mp member).1, rfl⟩, ?_⟩
    simp [inletWriter, Carries, Graph.signalSource?_eq_none framed.wellFormed found unfed]
  · obtain ⟨wrote, names, solid, written⟩ := held
    refine ⟨wrote, names, solid, fun inlet isInlet unfed => ?_⟩
    exact written inlet (List.mem_filter.mpr ⟨isInlet, by simp [unfed]⟩)

/-- Every signal inlet without a source reads the null signal. -/
theorem Framed.ground_ends (framed : base.Framed) (running : Running base start log)
    (quiet : generatedIn log = []) :
    Ends ((start.forNodesLogged start.fullTraversal wireNullSignalsLogged).run log) (fun _ => False)
      fun result => Wrote base log result.1 result.2 ∧ result.1.names = start.names ∧
        result.1.solid? = start.solid? ∧ ∀ inlet, base.HasSignalInlet inlet →
          base.graph.signalSource? inlet = none → Written result.2 inlet := by
  unfold forNodesLogged
  rw [run_foldlM]
  refine Ends.mono (Outcome.ends_foldlM (fun done (state : Program × List WiringEvent) =>
    Wrote base log state.1 state.2 ∧ state.1.names = start.names ∧ state.1.solid? = start.solid? ∧
      ∀ inlet, inlet.node ∈ done → base.HasSignalInlet inlet →
        base.graph.signalSource? inlet = none → Written state.2 inlet) ?_ ?_)
    (fun _ never => never) fun result _ held => ?_
  · exact ⟨.refl running, rfl, rfl, by simp⟩
  · intro done id rest state split held
    obtain ⟨wrote, names, solid, earlier⟩ := held
    have listed : id ∈ base.fullTraversal := by
      rw [← running.keeps.fullTraversal, split]
      simp
    obtain ⟨node, found⟩ := framed.listed.mp listed
    have current : state.1.graph.node id = .ok node := by
      rw [wrote.keeps.graph]
      exact Graph.node_eq_ok_iff.mpr found
    rw [current]
    refine (framed.wireNullSignals_ends wrote.toRunning found (wrote.quiet.trans quiet)).mono
      (fun _ never => never) fun result _ held => ?_
    obtain ⟨step, namesNow, solidNow, written⟩ := held
    refine ⟨wrote.trans step, namesNow.trans names, solidNow.trans solid, ?_⟩
    intro inlet isDone hasInlet unfed
    rcases List.mem_append.mp isDone with before | last
    · exact step.written (earlier inlet before hasInlet unfed)
    · obtain ⟨inletNode, inletPortlet⟩ := inlet
      cases List.mem_singleton.mp last
      obtain ⟨stored, portlet, isStored, isInlet, rfl⟩ := hasInlet
      rw [found] at isStored
      cases isStored
      refine written portlet isInlet ?_
      by_contra fedBy
      obtain ⟨source, member⟩ := List.exists_mem_of_ne_nil _ fedBy
      obtain ⟨isMember, isSignal⟩ := List.mem_filter.mp isInlet
      have fed := (Graph.signalSource?_eq_some_iff framed.wellFormed).mpr
        ⟨node, portlet, found, isMember, decide_eq_true_eq.mp isSignal, rfl, member⟩
      rw [unfed] at fed
      cases fed
  · obtain ⟨wrote, names, solid, written⟩ := held
    refine ⟨wrote, names, solid, fun inlet hasInlet => written inlet ?_ hasInlet⟩
    obtain ⟨node, _, found, _⟩ := hasInlet
    rw [running.keeps.fullTraversal]
    exact framed.listed.mpr ⟨node, found⟩

/-! ## Variables of outlets -/

def variablesOf (id : String) (outlets : List Portlet) : Table String :=
  .ofList (outlets.map fun outlet => (outlet.id, outletVariable ⟨id, outlet.id⟩))

def withVariables (id : String) (outlets : List Portlet) (entry : NodeCode) : NodeCode :=
  { entry with signalOuts := variablesOf id outlets }

/-- The outlets of one node got variables, which their sinks read. -/
structure Supplied (base start : Program) (log : List WiringEvent) (id : String) (node : Node)
    (outlets : List Portlet) (program : Program) (now : List WiringEvent) : Prop
    extends Wrote base log program now where
  names : start.names.Adds program.names (outlets.map fun outlet => (.outlets id, outlet.id)) []
  nodes : ∀ other, program.solid? other =
    if other = id then (start.solid? other).map (withVariables id outlets) else start.solid? other
  sinks : ∀ outlet ∈ outlets, ∀ sink ∈ node.sinksOf outlet.id, Written now sink

/-- A program in which an outlet of a node was given its variable. -/
def supply (program : Program) (names : NameIndex) (id outlet : String) : Program :=
  { program with names }.refineNode id fun entry =>
    { entry with signalOuts := entry.signalOuts.set outlet (outletVariable ⟨id, outlet⟩) }

theorem solid?_supply {names : NameIndex} {outlet : String} (other : String) :
    (program.supply names id outlet).solid? other =
      if other = id then (program.solid? other).map fun entry => { entry with
        signalOuts := entry.signalOuts.set outlet (outletVariable ⟨id, outlet⟩) }
      else program.solid? other := by
  unfold supply
  refine solid?_refineNode ?_ other
  exact fun _ => rfl

theorem Running.supply (running : Running base program log) {names : NameIndex}
    (akin : program.names.Akin names) (outlet : String) :
    Running base (program.supply names id outlet) log :=
  running.of_frame ⟨names, _, rfl⟩ akin (Table.keys_modify _ _) (signalIn?_refineNode fun _ => rfl)

def feedSinks (program : Program) (sinks : List Endpoint) (code : String) : Logged Program :=
  sinks.foldlM (fun program sink => do
    let _ ← program.nodes.get sink.node
    program.writeInlet .signalOutlets sink code) program

theorem wireSignalOutletLogged_eq {names : NameIndex} {outlet : Portlet}
    (reading : program.readName (.outlets id) outlet.id =
      .ok (outletVariable ⟨id, outlet.id⟩, { program with names })) :
    (program.wireSignalOutletLogged id node outlet).run log =
      ((program.supply names id outlet.id).feedSinks (node.sinksOf outlet.id)
        (outletVariable ⟨id, outlet.id⟩)).run log := by
  unfold wireSignalOutletLogged
  rw [run_lift_bind reading]
  rfl

theorem Framed.wireSignalOutlet_ends (framed : base.Framed) (found : base.graph.node? id = some node)
    (quiet : generatedIn log = []) (isSolid : id ∉ base.inlined) {done : List Portlet}
    {outlet : Portlet} (isOutlet : outlet ∈ node.outletsOfType .signal)
    (held : Supplied base start log id node done program now) :
    Ends ((program.wireSignalOutletLogged id node outlet).run now) (fun _ => False) fun result =>
      Supplied base start log id node (done ++ [outlet]) result.1 result.2 := by
  have opens : program.names.Opens (.outlets id) :=
    held.akin.opens_iff.mpr (framed.opens found).1
  obtain ⟨names, reading, took⟩ := readName_eq program opens outlet.id
  have running : Running base (program.supply names id outlet.id) now :=
    held.supply took.toAkin outlet.id
  rw [wireSignalOutletLogged_eq reading]
  refine (running.writeAll_ends .signalOutlets (fun sink => sink) (outletVariable ⟨id, outlet.id⟩)
    ?_ ?_ ?_ ?_).mono (fun _ never => never) fun result _ wrote => ?_
  · intro program sink log entry stored
    rw [run_lift_bind (register_get_eq_ok_iff.mpr stored)]
    exact run_writeInlet
  · intro sink isSink
    have fed := Graph.signalSource?_of_sink framed.wellFormed found isOutlet isSink
    obtain ⟨sinkNode, _, sinkFound, _⟩ :=
      (Graph.signalSource?_eq_some_iff framed.wellFormed).mp fed
    rw [framed.nodes]
    exact framed.listed.mpr ⟨sinkNode, sinkFound⟩
  · simp [held.quiet, quiet]
  · intro sink isSink
    have fed := Graph.signalSource?_of_sink framed.wellFormed found isOutlet isSink
    refine ⟨hasSignalInlet_of_fed framed.wellFormed fed, ?_⟩
    simp [inletWriter, Carries, isSolid, fed]
  · obtain ⟨wrote, sameNames, solid, written⟩ := wrote
    refine ⟨held.toWrote.trans wrote, ?_, ?_, ?_⟩
    · rw [sameNames, List.map_append]
      exact held.names.trans took.adds
    · intro other
      rw [solid, solid?_supply, held.nodes]
      split
      · rw [Option.map_map]
        refine congrArg (Option.map · _) (funext fun entry => ?_)
        simp [withVariables, variablesOf, Table.ofList_append_singleton]
      · rfl
    · intro other isDone
      rcases List.mem_append.mp isDone with before | last
      · exact fun sink isSink => wrote.written (held.sinks other before sink isSink)
      · rw [List.mem_singleton.mp last]
        exact written

theorem Framed.wireSignalOutlets_ends (framed : base.Framed) (running : Running base start log)
    (found : base.graph.node? id = some node) (quiet : generatedIn log = [])
    (isSolid : id ∉ base.inlined)
    (bare : ∀ {entry}, start.solid? id = some entry → entry.signalOuts = ∅) :
    Ends ((start.wireSignalOutletsLogged id node).run log) (fun _ => False) fun result =>
      Supplied base start log id node (node.outletsOfType .signal) result.1 result.2 := by
  have framedNow := framed.of_keeps running.keeps
  have foundNow : start.graph.node? id = some node := running.keeps.graph ▸ found
  obtain ⟨entry, stored⟩ := framedNow.entry foundNow
  obtain ⟨names, entering, took, _⟩ := NameIndex.enterNode_eq_ok (framedNow.opens foundNow).1
  unfold wireSignalOutletsLogged
  rw [run_lift_bind (register_get_eq_ok_iff.mpr stored), run_lift_bind entering, run_foldlM]
  refine Outcome.ends_foldlM (fun done (state : Program × List WiringEvent) =>
    Supplied base start log id node done state.1 state.2) ?_ ?_
  · have entered : Running base { start with names } log :=
      running.of_frame ⟨names, start.nodes, rfl⟩ took.toAkin rfl rfl
    refine ⟨.refl entered, took.adds, fun other => ?_, by simp⟩
    split
    · next same =>
      subst same
      change start.solid? other = _
      cases kept : start.solid? other with
      | none => rfl
      | some entry =>
          have empty := bare kept
          refine congrArg some ?_
          change entry = { entry with signalOuts := (∅ : Table _) }
          rw [← empty]
    · rfl
  · intro done outlet rest state split held
    exact framed.wireSignalOutlet_ends found quiet isSolid (by simp [split]) held

def signalOutlets (base : Program) (id : String) : List Portlet :=
  ((base.graph.node? id).map fun node => node.outletsOfType .signal).getD []

def variableHandles (base : Program) (id : String) : List (NameSpace × String) :=
  (base.signalOutlets id).map fun outlet => (.outlets id, outlet.id)

/-- Every signal outlet of some nodes gets a variable. -/
theorem Framed.supply_ends (framed : base.Framed) (running : Running base start log)
    (quiet : generatedIn log = []) {ids : List String} (distinct : ids.Nodup)
    (listed : ∀ id ∈ ids, id ∈ base.fullTraversal) (areSolid : ∀ id ∈ ids, id ∉ base.inlined)
    (bare : ∀ {id entry}, start.solid? id = some entry → entry.signalOuts = ∅) :
    Ends ((start.forNodesLogged ids wireSignalOutletsLogged).run log) (fun _ => False) fun result =>
      Wrote base log result.1 result.2 ∧
      start.names.Adds result.1.names (ids.flatMap base.variableHandles) [] ∧
      (∀ id, result.1.solid? id = if id ∈ ids then
        (start.solid? id).map (withVariables id (base.signalOutlets id)) else start.solid? id) ∧
      ∀ inlet source, base.graph.signalSource? inlet = some source → source.node ∈ ids →
        Written result.2 inlet := by
  unfold forNodesLogged
  rw [run_foldlM]
  refine Outcome.ends_foldlM (fun done (state : Program × List WiringEvent) =>
    Wrote base log state.1 state.2 ∧
      start.names.Adds state.1.names (done.flatMap base.variableHandles) [] ∧
      (∀ id, state.1.solid? id = if id ∈ done then
        (start.solid? id).map (withVariables id (base.signalOutlets id)) else start.solid? id) ∧
      ∀ inlet source, base.graph.signalSource? inlet = some source → source.node ∈ done →
        Written state.2 inlet) ?_ ?_
  · exact ⟨.refl running, .refl _, by simp, by simp⟩
  · intro done id rest state split held
    obtain ⟨wrote, names, nodes, earlier⟩ := held
    have member : id ∈ ids := by simp [split]
    have fresh := (fresh_of_nodup distinct split).1
    obtain ⟨node, found⟩ := framed.listed.mp (listed id member)
    have current : state.1.graph.node id = .ok node := by
      rw [wrote.keeps.graph]
      exact Graph.node_eq_ok_iff.mpr found
    have untouched : state.1.solid? id = start.solid? id := by rw [nodes, if_neg fresh]
    have outlets : base.signalOutlets id = node.outletsOfType .signal := by simp [signalOutlets, found]
    rw [current]
    refine (framed.wireSignalOutlets_ends wrote.toRunning found (wrote.quiet.trans quiet)
      (areSolid id member) (fun stored => bare (untouched ▸ stored))).mono (fun _ never => never)
      fun result _ supplied => ?_
    refine ⟨wrote.trans supplied.toWrote, ?_, ?_, ?_⟩
    · rw [List.flatMap_append, List.flatMap_singleton, variableHandles, outlets]
      exact names.trans supplied.names
    · intro other
      rw [supplied.nodes, nodes]
      by_cases same : other = id
      · subst same
        simp [fresh, outlets]
      · simp [same]
    · intro inlet source fed isDone
      rcases List.mem_append.mp isDone with before | last
      · exact supplied.toWrote.written (earlier inlet source fed before)
      · obtain ⟨sourceNode, outlet, sourceFound, isOutlet, _, feeding⟩ :=
          Graph.mem_sinksOf_of_signalSource? framed.wellFormed fed
        rw [List.mem_singleton.mp last, found] at sourceFound
        cases sourceFound
        exact supplied.sinks outlet isOutlet inlet feeding

/-! ## The whole pass -/

/-- Nothing was wired or generated for a node yet. -/
structure Blank (entry : NodeCode) : Prop where
  receivers : entry.receivers.entries = ∅
  senders : entry.senders.entries = ∅
  signalOuts : entry.signalOuts = ∅
  signalIns : entry.signalIns = ∅
  initialization : entry.initialization = none
  loop : entry.loop = none
  inlets : entry.inlets = ∅

def Unwired (program : Program) : Prop :=
  ∀ ⦃id entry⦄, program.nodes.entries.get? id = some entry → Blank entry

theorem Reworked.solid? {change : String → NodeCode → NodeCode}
    {handles : String → List (NameSpace × String)} {states : String → List String} {ids : List String}
    (held : Reworked base change handles states ids program)
    (commutes : ∀ id entry, (change id entry).solid = change id entry.solid) (id : String) :
    program.solid? id = if id ∈ ids then (base.solid? id).map (change id) else base.solid? id := by
  unfold Program.solid?
  rw [held.nodes]
  split
  · cases base.nodes.entries.get? id with
    | none => rfl
    | some entry => simp [commutes]
  · rfl

theorem Reworked.signalIn? {change : String → NodeCode → NodeCode}
    {handles : String → List (NameSpace × String)} {states : String → List String} {ids : List String}
    (held : Reworked base change handles states ids program)
    (blind : ∀ id entry, (change id entry).signalIns = entry.signalIns) :
    program.signalIn? = base.signalIn? := by
  funext inlet
  unfold Program.signalIn?
  rw [held.nodes]
  split
  · cases base.nodes.entries.get? inlet.node with
    | none => rfl
    | some entry => simp [blind]
  · rfl

theorem Running.rework {change : String → NodeCode → NodeCode}
    {handles : String → List (NameSpace × String)} {states : String → List String} {ids : List String}
    (running : Running base start log) (held : Reworked start change handles states ids program)
    (blind : ∀ id entry, (change id entry).signalIns = entry.signalIns) :
    Running base program log :=
  running.of_frame held.frame held.names.toAkin held.keys (held.signalIn? blind)

theorem Unwired.running (unwired : base.Unwired) : Running base base [] where
  frame := ⟨_, _, rfl⟩
  akin := .refl _
  keys := rfl
  recorded inlet code := by
    unfold signalIn?
    cases stored : base.nodes.entries.get? inlet.node with
    | none => simp
    | some entry => simp [(unwired stored).signalIns]
  sound := .nil base

/-- The code of a node with its portlets named and wired. -/
def wiredEntry (base : Program) (id : String) (entry : NodeCode) : NodeCode :=
  let entry := base.withSenders id (base.withReceivers id entry)
  if id ∈ base.loopNodes then withVariables id (base.signalOutlets id) entry else entry

def wiringHandles (base : Program) : List (NameSpace × String) :=
  base.fullTraversal.flatMap base.receiverHandles ++
    (base.fullTraversal.flatMap base.messageHandles ++ base.loopNodes.flatMap base.variableHandles)

/-- What wiring leaves behind: only the inlets that an inlined node feeds are still open. -/
structure WiredFrom (base program : Program) (log : List WiringEvent) : Prop
    extends Running base program log where
  quiet : generatedIn log = []
  nodes : ∀ id, program.solid? id = (base.solid? id).map (base.wiredEntry id)
  names : base.names.Adds program.names base.wiringHandles []
  unfed : ∀ inlet, base.HasSignalInlet inlet → base.graph.signalSource? inlet = none →
    Written log inlet
  fed : ∀ inlet source, base.graph.signalSource? inlet = some source →
    source.node ∈ base.loopNodes → Written log inlet

theorem Framed.solid?_eq_none (framed : base.Framed) (unlisted : id ∉ base.fullTraversal) :
    base.solid? id = none := by
  rw [← framed.nodes] at unlisted
  unfold solid?
  rw [Table.get?_eq_none_iff.mpr unlisted]
  rfl

theorem solid?_of_entry (stored : program.nodes.entries.get? id = some entry) :
    program.solid? id = some entry.solid := by
  unfold solid?
  rw [stored, Option.map_some]

theorem exists_of_solid? {solid : NodeCode} (found : program.solid? id = some solid) :
    ∃ entry, program.nodes.entries.get? id = some entry ∧ entry.solid = solid :=
  Option.map_eq_some_iff.mp found

theorem withSenders_congr (graph : after.graph = before.graph)
    (akin : before.names.Akin after.names) (coldDsp : after.coldDsp = before.coldDsp)
    (coldOf : after.coldOf = before.coldOf) :
    after.withSenders = before.withSenders ∧ after.messageHandles = before.messageHandles := by
  have functions := functionsOf_congr akin coldDsp coldOf
  constructor
  · funext id entry
    simp only [withSenders, sendersFor, graph, functions, senderOf_congr akin]
  · funext id
    simp only [messageHandles, outletHandles, graph, functions]

/-- The receivers are reserved, and unfed inlets read the null signal. -/
structure HalfWired (base program : Program) (log : List WiringEvent) : Prop
    extends Running base program log where
  quiet : generatedIn log = []
  nodes : ∀ id, program.solid? id = (base.solid? id).map (base.withReceivers id)
  names : base.names.Adds program.names (base.fullTraversal.flatMap base.receiverHandles) []
  reserved : program.Reserved
  unfed : ∀ inlet, base.HasSignalInlet inlet → base.graph.signalSource? inlet = none →
    Written log inlet

theorem HalfWired.bare (held : HalfWired base program log) (unwired : base.Unwired)
    (stored : program.nodes.entries.get? id = some entry) :
    entry.senders.entries = ∅ ∧ entry.signalOuts = ∅ := by
  have found := solid?_of_entry stored
  rw [held.nodes] at found
  obtain ⟨old, isOld, same⟩ := Option.map_eq_some_iff.mp found
  obtain ⟨original, storedBefore, rfl⟩ := exists_of_solid? isOld
  have senders := congrArg NodeCode.senders same
  have signalOuts := congrArg NodeCode.signalOuts same
  change original.senders = entry.senders at senders
  change original.signalOuts = entry.signalOuts at signalOuts
  rw [← senders, ← signalOuts]
  exact ⟨(unwired storedBefore).senders, (unwired storedBefore).signalOuts⟩

theorem Framed.halfWired (framed : base.Framed) {reserved grounded : Program} {names : NameIndex}
    (reworked : Reworked base base.withReceivers base.receiverHandles (fun _ => [])
      base.fullTraversal reserved)
    (wrote : Wrote base [] grounded log) (sameNames : grounded.names = reserved.names)
    (sameSolid : grounded.solid? = reserved.solid?)
    (unfed : ∀ inlet, base.HasSignalInlet inlet → base.graph.signalSource? inlet = none →
      Written log inlet) (took : grounded.names.Took names []) :
    HalfWired base { grounded with names } log where
  toRunning := wrote.toRunning.of_frame ⟨names, grounded.nodes, rfl⟩ took.toAkin rfl rfl
  quiet := wrote.quiet
  nodes id := by
    change grounded.solid? id = _
    rw [sameSolid, reworked.solid? fun _ _ => rfl]
    split
    · rfl
    · next unlisted => simp [framed.solid?_eq_none unlisted]
  names := by
    have adds := reworked.names.trans (sameNames ▸ took.adds)
    rw [noStates, List.append_nil] at adds
    exact adds
  reserved := by
    have reservedBefore : reserved.Reserved := reworked.reserved framed fun _ member => member
    have kept : ∀ {id entry}, grounded.nodes.entries.get? id = some entry →
        ∃ old, reserved.nodes.entries.get? id = some old ∧ entry.receivers = old.receivers := by
      intro id entry stored
      have found : grounded.solid? id = some entry.solid := solid?_of_entry stored
      rw [sameSolid] at found
      obtain ⟨old, storedBefore, same⟩ := exists_of_solid? found
      have receivers := congrArg NodeCode.receivers same
      exact ⟨old, storedBefore, receivers.symm⟩
    have graph : ({ grounded with names } : Program).graph = reserved.graph :=
      wrote.keeps.graph.trans reworked.keeps.graph.symm
    have akin : reserved.names.Akin names := sameNames ▸ took.toAkin
    exact reservedBefore.transfer graph akin kept
  unfed := unfed

theorem HalfWired.wire_ends (held : HalfWired base start log) (framed : base.Framed)
    (unwired : base.Unwired) (module : base.names.Opens (.module "msg"))
    (distinct : base.loopNodes.Nodup) (listed : ∀ id ∈ base.loopNodes, id ∈ base.fullTraversal)
    (areSolid : ∀ id ∈ base.loopNodes, id ∉ base.inlined) {refused : Fault → Prop} :
    Ends ((do
        let program ← start.forNodes start.fullTraversal wireMessageOutlets
        program.forNodesLogged program.loopNodes wireSignalOutletsLogged : Logged Program).run log)
      refused fun result => WiredFrom base result.1 result.2 := by
  have framedNow := framed.of_keeps held.keeps
  obtain ⟨sameSenders, sameHandles⟩ : start.withSenders = base.withSenders ∧
      start.messageHandles = base.messageHandles := by
    refine withSenders_congr held.keeps.graph held.akin ?_ ?_
    all_goals
      obtain ⟨_, _, rfl⟩ := held.frame
      rfl
  refine ends_lift_bind ((framedNow.send_ends held.reserved (held.akin.opens_iff.mpr module)
    fun stored => (held.bare unwired stored).1).mono (fun _ never => never.elim)
    fun _ _ held => held) fun sent _ reworked => ?_
  rw [sameSenders, sameHandles, held.keeps.fullTraversal] at reworked
  have running := held.toRunning.rework reworked fun _ _ => rfl
  have loopNodes : sent.loopNodes = base.loopNodes := by
    obtain ⟨_, _, rfl⟩ := running.frame
    rfl
  have nodes : ∀ id, sent.solid? id =
      (base.solid? id).map fun entry => base.withSenders id (base.withReceivers id entry) := by
    intro id
    rw [reworked.solid? fun _ _ => rfl, held.nodes]
    split
    · rw [Option.map_map]
      rfl
    · next unlisted => simp [framed.solid?_eq_none unlisted]
  rw [loopNodes]
  refine (framed.supply_ends running held.quiet distinct listed areSolid ?_).mono
    (fun _ never => never.elim) fun result _ supplied => ?_
  · intro id entry found
    rw [nodes] at found
    obtain ⟨old, isOld, rfl⟩ := Option.map_eq_some_iff.mp found
    obtain ⟨original, stored, rfl⟩ := exists_of_solid? isOld
    exact (unwired stored).signalOuts
  · obtain ⟨wrote, names, suppliedNodes, fed⟩ := supplied
    refine ⟨wrote.toRunning, wrote.quiet.trans held.quiet, fun id => ?_, ?_, ?_, fed⟩
    · rw [suppliedNodes, nodes]
      unfold wiredEntry
      split
      · rw [Option.map_map]
        rfl
      · rfl
    · have adds := (held.names.trans reworked.names).trans names
      rw [noStates, List.append_assoc] at adds
      exact adds
    · exact fun inlet hasInlet isUnfed => wrote.written (held.unfed inlet hasInlet isUnfed)

/-- Wiring needs the message module and nothing else. -/
theorem Framed.wirePortlets_ends (framed : base.Framed) (unwired : base.Unwired)
    (distinct : base.loopNodes.Nodup) (listed : ∀ id ∈ base.loopNodes, id ∈ base.fullTraversal)
    (areSolid : ∀ id ∈ base.loopNodes, id ∉ base.inlined) :
    Ends (base.wirePortletsLogged.run [])
      (fun fault => ¬ base.names.Opens (.module "msg") ∧ fault = .unnamedModule "msg")
      fun result => WiredFrom base result.1 result.2 := by
  unfold wirePortletsLogged
  refine ends_lift_bind ((framed.reserve_ends fun stored => (unwired stored).receivers).mono
    (fun _ never => never.elim) fun _ _ held => held) fun reserved _ reworked => ?_
  have reservedRunning := unwired.running.rework reworked fun _ _ => rfl
  refine ends_run_bind ((framed.ground_ends reservedRunning rfl).mono
    (fun _ never => never.elim) fun _ _ held => held) fun grounded log _ held => ?_
  obtain ⟨wrote, sameNames, sameSolid, unfed⟩ := held
  by_cases module : base.names.Opens (.module "msg")
  · obtain ⟨names, entering, took⟩ := NameIndex.enter_eq_ok (wrote.akin.opens_iff.mpr module)
    have half := framed.halfWired reworked wrote sameNames sameSolid unfed took
    rw [run_lift_bind entering]
    exact half.wire_ends framed unwired module distinct listed areSolid
  · have closed : ¬ grounded.names.Opens (.module "msg") := fun open_ =>
      module (wrote.akin.opens_iff.mp open_)
    rw [NameIndex.enter_eq_error closed]
    exact ⟨module, rfl⟩

end Program

end Patchbay
