import Patchbay.Proofs.Code.Fill
import Patchbay.Proofs.Graph.Traversal
import Patchbay.Proofs.Program.Passes

namespace Patchbay

/-! The frame of a program.

Once dead code is gone, every node of the graph is listed, registered and of a registered type, and
its names can be read.  No later pass touches that, so the scope of a node can always be opened, and
generating its code can only fail at a hole that the scope does not fill.
-/

namespace Program

variable {program before between after : Program} {id : String} {node : Node}

/-! ## What the passes rely on -/

structure Framed (program : Program) : Prop where
  wellFormed : program.graph.WellFormed
  listed : ∀ {id}, id ∈ program.fullTraversal ↔ ∃ node, program.graph.node? id = some node
  distinct : program.fullTraversal.Nodup
  nodes : program.nodes.keys = program.fullTraversal
  types : ∀ {id node}, program.graph.node? id = some node →
    ∃ type, program.types.entries.get? node.type = some type
  typed : ∀ {name type}, program.types.entries.get? name = some type → type.type = name ∧
    program.catalog.implementation? name = some type.implementation ∧
    ∃ id node, program.graph.node? id = some node ∧ node.type = name
  graph : program.names.graph = program.graph
  labels : ∀ {id node}, program.graph.node? id = some node →
    program.names.labels.contains node.type = true

namespace Framed

theorem entry (framed : program.Framed) (found : program.graph.node? id = some node) :
    ∃ entry, program.nodes.entries.get? id = some entry := by
  refine Table.mem_keys_iff.mp ?_
  change id ∈ program.nodes.keys
  rw [framed.nodes]
  exact framed.listed.mpr ⟨node, found⟩

theorem known (framed : program.Framed) {entry : NodeCode}
    (stored : program.nodes.entries.get? id = some entry) :
    ∃ node, program.graph.node? id = some node := by
  refine framed.listed.mp ?_
  rw [← framed.nodes]
  exact Table.mem_keys_of_get? stored

theorem opens (framed : program.Framed) (found : program.graph.node? id = some node) :
    program.names.Opens (.outlets id) ∧ program.names.Opens (.senders id) ∧
      program.names.Opens (.receivers id) ∧ program.names.Opens (.nodeType node.type) := by
  have stored : ∃ stored, program.names.graph.node? id = some stored :=
    ⟨node, framed.graph ▸ found⟩
  exact ⟨.inr stored, .inr stored, .inr stored, framed.labels found⟩

end Framed

/-- The frame and the settings stay.  Entries of nodes and types may change, but no node or type comes
or goes, and neither does what a type is implemented by. -/
structure KeepsFrame (before after : Program) : Prop where
  graph : after.graph = before.graph
  catalog : after.catalog = before.catalog
  settings : after.settings = before.settings
  fullTraversal : after.fullTraversal = before.fullTraversal
  nodes : after.nodes.keys = before.nodes.keys
  types : ∀ name, (after.types.entries.get? name).map (fun type => (type.type, type.implementation)) =
    (before.types.entries.get? name).map fun type => (type.type, type.implementation)
  nameGraph : after.names.graph = before.names.graph
  labels : after.names.labels = before.names.labels

namespace KeepsFrame

theorem trans (first : KeepsFrame before between) (second : KeepsFrame between after) :
    KeepsFrame before after where
  graph := second.graph.trans first.graph
  catalog := second.catalog.trans first.catalog
  settings := second.settings.trans first.settings
  fullTraversal := second.fullTraversal.trans first.fullTraversal
  nodes := second.nodes.trans first.nodes
  types name := (second.types name).trans (first.types name)
  nameGraph := second.nameGraph.trans first.nameGraph
  labels := second.labels.trans first.labels

theorem names {names : NameIndex} (akin : program.names.Akin names) :
    KeepsFrame program { program with names } :=
  ⟨rfl, rfl, rfl, rfl, rfl, fun _ => rfl, akin.graph, akin.labels⟩

theorem type (kept : KeepsFrame before after) {name : String} {entry : TypeCode}
    (found : after.types.entries.get? name = some entry) :
    ∃ old, before.types.entries.get? name = some old ∧ old.type = entry.type ∧
      old.implementation = entry.implementation := by
  have same := kept.types name
  rw [found, Option.map_some] at same
  obtain ⟨old, stored, equal⟩ := Option.map_eq_some_iff.mp same.symm
  rw [Prod.mk.injEq] at equal
  exact ⟨old, stored, equal⟩

theorem type' (kept : KeepsFrame before after) {name : String} {entry : TypeCode}
    (found : before.types.entries.get? name = some entry) :
    ∃ new, after.types.entries.get? name = some new ∧ new.type = entry.type ∧
      new.implementation = entry.implementation := by
  have same := kept.types name
  rw [found, Option.map_some] at same
  obtain ⟨new, stored, equal⟩ := Option.map_eq_some_iff.mp same
  rw [Prod.mk.injEq] at equal
  exact ⟨new, stored, equal⟩

end KeepsFrame

theorem Framed.of_keeps (framed : before.Framed) (kept : KeepsFrame before after) : after.Framed where
  wellFormed := kept.graph ▸ framed.wellFormed
  listed := by
    rw [kept.graph, kept.fullTraversal]
    exact framed.listed
  distinct := kept.fullTraversal ▸ framed.distinct
  nodes := by rw [kept.nodes, framed.nodes, kept.fullTraversal]
  types found := by
    rw [kept.graph] at found
    obtain ⟨type, stored⟩ := framed.types found
    obtain ⟨new, found, _⟩ := kept.type' stored
    exact ⟨new, found⟩
  typed found := by
    obtain ⟨old, stored, sameType, sameImplementation⟩ := kept.type found
    rw [kept.graph, kept.catalog, ← sameType, ← sameImplementation]
    exact framed.typed stored
  graph := by rw [kept.nameGraph, framed.graph, kept.graph]
  labels found := by
    rw [kept.graph] at found
    rw [kept.labels]
    exact framed.labels found

/-! ## Scopes and templates -/

/-- What the code of a node can refer to when its entry is as given. -/
def scopeAt (program : Program) (node : Node) (entry : NodeCode) : Code.Scope where
  space := .nodeType node.type
  node := node
  state := program.names.stateOf node.id
  ins := entry.signalIns
  outs := entry.signalOuts
  snds := entry.senders.entries.map fun _ sender => sender.name
  rcvs := entry.receivers.entries.map fun _ receiver => receiver.name

theorem Framed.scopeOf_eq (framed : program.Framed) (found : program.graph.node? id = some node) :
    ∃ entry names, program.nodes.entries.get? id = some entry ∧
      program.scopeOf id = .ok (program.scopeAt node entry, { program with names }) ∧
      program.names.Took names [] := by
  obtain ⟨entry, stored⟩ := framed.entry found
  obtain ⟨type, registered⟩ := framed.types found
  obtain ⟨outlets, _, _, labelled⟩ := framed.opens found
  obtain ⟨first, entering, tookFirst, _⟩ := NameIndex.enterNode_eq_ok outlets
  obtain ⟨second, enteringType, tookSecond⟩ :=
    NameIndex.enter_eq_ok (tookFirst.opens_iff.mpr labelled)
  have took := tookFirst.trans tookSecond
  refine ⟨entry, second, stored, ?_, took⟩
  have ownId := (framed.wellFormed.fits found).ownId
  have sameState : second.stateOf id = program.names.stateOf node.id := by
    unfold NameIndex.stateOf
    rw [took.states, ownId]
  simp [scopeOf, Graph.node_eq_ok_iff.mpr found, Register.get, stored, registered, entering,
    enteringType, scopeAt, sameState, bind, Except.bind, pure, Except.pure]

variable {filling : Code.Fill α} {asks : Code.Naming → List Code.Ask}
  {value : Code.Naming → α}

theorem fill_of_granted (program : Program) (context : String) (fills : Code.Fills filling asks value)
    (granted : ∀ ask ∈ asks program.names.nameOf, ask.Granted program.names) :
    ∃ names, program.fill context filling = .ok (value program.names.nameOf, { program with names }) ∧
      program.names.Took names ((asks program.names.nameOf).filterMap Code.Ask.handle?) := by
  obtain ⟨names, ran, took⟩ := fills.granted { names := program.names } granted
  refine ⟨names, ?_, took⟩
  unfold fill
  rw [ran]

theorem fill_of_refused (program : Program) (context : String) (fills : Code.Fills filling asks value)
    {earlier later : List Code.Ask} {ask : Code.Ask}
    (split : asks program.names.nameOf = earlier ++ ask :: later)
    (granted : ∀ other ∈ earlier, other.Granted program.names) (refused : ¬ ask.Granted program.names) :
    program.fill context filling = .error (.within context ask.fault) := by
  have missed := fills.refused { names := program.names } earlier ask later rfl split granted refused
  unfold fill
  generalize filling.run { names := program.names } = ran at missed ⊢
  obtain ⟨result, ledger⟩ := ran
  dsimp only at missed ⊢
  rw [missed]

/-- Filling succeeds exactly when every hole can be resolved. -/
theorem fill_ends (program : Program) (context : String) (fills : Code.Fills filling asks value) :
    Outcome.Ends (program.fill context filling)
      (fun fault => ∃ ask ∈ asks program.names.nameOf, ¬ ask.Granted program.names ∧
        fault = .within context ask.fault)
      fun result => (∀ ask ∈ asks program.names.nameOf, ask.Granted program.names) ∧
        ∃ names, result = (value program.names.nameOf, { program with names }) ∧
          program.names.Took names ((asks program.names.nameOf).filterMap Code.Ask.handle?) := by
  rcases Code.granted_or_refused program.names (asks program.names.nameOf) with
    granted | ⟨earlier, ask, later, split, granted, refused⟩
  · obtain ⟨names, filled, took⟩ := program.fill_of_granted context fills granted
    rw [filled]
    exact ⟨granted, names, rfl, took⟩
  · rw [program.fill_of_refused context fills split granted refused]
    exact ⟨ask, split ▸ List.mem_append_right _ (List.mem_cons_self ..), refused, rfl⟩

/-- The same for a computation whose holes are those of a template. -/
theorem fillReads_ends (program : Program) (context : String) {scope : Code.Scope}
    {reads : List Code.Read}
    (fills : Code.Fills filling (fun _ => reads.map (Code.Read.ask scope)) value) :
    Outcome.Ends (program.fill context filling)
      (fun fault => ∃ read ∈ reads, ¬ (read.ask scope).Granted program.names ∧
        fault = .within context (read.ask scope).fault)
      fun result => Code.Granted program.names scope reads ∧
        ∃ names, result = (value program.names.nameOf, { program with names }) ∧
          program.names.Took names (Code.handlesOf scope reads) := by
  refine (fill_ends program context fills).mono (fun fault refused => ?_) fun result _ held => ?_
  · obtain ⟨ask, asked, notGranted, same⟩ := refused
    obtain ⟨read, member, rfl⟩ := List.mem_map.mp asked
    exact ⟨read, member, notGranted, same⟩
  · exact ⟨fun read member => held.1 _ (List.mem_map_of_mem member), held.2⟩

end Program

end Patchbay
