import Patchbay.Proofs.Program.Adapters
import Patchbay.Proofs.Program.Split

namespace Patchbay.Program

/-! What the passes keep.

Everything after dead code was removed works on one graph and one catalog.  Only the split decides
which group a node is in, and only the wiring of message outlets adds senders; every other step
`Keeps` both.
-/

variable {program before between after base : Program} {id : String}

/-- How a message outlet of a node delivers, once it is wired. -/
def sender? (program : Program) (id outlet : String) : Option Sender :=
  (program.nodes.entries.get? id).bind fun entry => entry.senders.entries.get? outlet

/-- The groups of a program, and what they are made of, are the same. -/
structure KeepsGroups (before after : Program) : Prop where
  graph : after.graph = before.graph
  catalog : after.catalog = before.catalog
  fullTraversal : after.fullTraversal = before.fullTraversal
  rootDsp : after.rootDsp = before.rootDsp
  hotDsp : after.hotDsp = before.hotDsp
  coldDsp : after.coldDsp = before.coldDsp
  coldOf : after.coldOf = before.coldOf
  inlineDsp : after.inlineDsp = before.inlineDsp
  inlined : after.inlined = before.inlined

theorem KeepsGroups.refl (program : Program) : KeepsGroups program program :=
  ⟨rfl, rfl, rfl, rfl, rfl, rfl, rfl, rfl, rfl⟩

theorem KeepsGroups.trans (first : KeepsGroups before between)
    (second : KeepsGroups between after) : KeepsGroups before after where
  graph := second.graph.trans first.graph
  catalog := second.catalog.trans first.catalog
  fullTraversal := second.fullTraversal.trans first.fullTraversal
  rootDsp := second.rootDsp.trans first.rootDsp
  hotDsp := second.hotDsp.trans first.hotDsp
  coldDsp := second.coldDsp.trans first.coldDsp
  coldOf := second.coldOf.trans first.coldOf
  inlineDsp := second.inlineDsp.trans first.inlineDsp
  inlined := second.inlined.trans first.inlined

structure Keeps (before after : Program) : Prop extends KeepsGroups before after where
  senders : after.sender? = before.sender?

namespace Keeps

theorem refl (program : Program) : Keeps program program := ⟨.refl program, rfl⟩

theorem trans (first : Keeps before between) (second : Keeps between after) :
    Keeps before after :=
  ⟨first.toKeepsGroups.trans second.toKeepsGroups, second.senders.trans first.senders⟩

theorem names (program : Program) (names : NameIndex) : Keeps program { program with names } :=
  ⟨⟨rfl, rfl, rfl, rfl, rfl, rfl, rfl, rfl, rfl⟩, rfl⟩

theorem foldlM {step : Program → α → Outcome Program} {items : List α}
    (kept : ∀ program item after, step program item = .ok after → Keeps program after)
    (run : items.foldlM step before = .ok after) : Keeps before after :=
  Outcome.foldlM_invariant (fun _ state => Keeps before state) (.refl before)
    (fun _ item state next _ held stepped => held.trans (kept state item next stepped)) run

theorem refineNode {change : NodeCode → NodeCode}
    (untouched : ∀ entry, (change entry).senders = entry.senders) :
    Keeps program (program.refineNode id change) := by
  refine ⟨⟨rfl, rfl, rfl, rfl, rfl, rfl, rfl, rfl, rfl⟩, ?_⟩
  funext other outlet
  change ((program.nodes.entries.modify id change).get? other).bind _ = _
  rw [Table.get?_modify]
  unfold sender?
  split
  · cases program.nodes.entries.get? other with
    | none => rfl
    | some entry => simp [untouched]
  · rfl

theorem readName {space : NameSpace} {key name : String}
    (run : program.readName space key = .ok (name, after)) : Keeps program after := by
  unfold Program.readName at run
  obtain ⟨⟨found, names⟩, _, result⟩ := Outcome.bind_eq_ok_iff.mp run
  cases result
  exact .names ..

theorem fill {context : String} {template : Code.Fill α} {result : α}
    (run : program.fill context template = .ok (result, after)) : Keeps program after := by
  unfold Program.fill at run
  split at run
  split at run
  · cases run
  · cases run
    exact .names ..

theorem scopeOf {scope : Code.Scope} (run : program.scopeOf id = .ok (scope, after)) :
    Keeps program after := by
  unfold Program.scopeOf at run
  obtain ⟨node, _, run⟩ := Outcome.bind_eq_ok_iff.mp run
  obtain ⟨entry, _, run⟩ := Outcome.bind_eq_ok_iff.mp run
  obtain ⟨type, _, run⟩ := Outcome.bind_eq_ok_iff.mp run
  obtain ⟨known, _, run⟩ := Outcome.bind_eq_ok_iff.mp run
  obtain ⟨names, _, run⟩ := Outcome.bind_eq_ok_iff.mp run
  cases run
  exact .names ..

theorem fillState {template : Site → Option Code.RecordTemplate} {record : Option Code.Record}
    (run : program.fillState id template = .ok (record, after)) : Keeps program after := by
  unfold Program.fillState at run
  obtain ⟨names, _, run⟩ := Outcome.bind_eq_ok_iff.mp run
  obtain ⟨⟨scope, entered⟩, inScope, run⟩ := Outcome.bind_eq_ok_iff.mp run
  have first : Keeps program entered := .trans (.names ..) (scopeOf inScope)
  dsimp only at run
  split at run
  · cases run
    exact first
  · obtain ⟨⟨filled, next⟩, filling, run⟩ := Outcome.bind_eq_ok_iff.mp run
    cases run
    exact first.trans (fill filling)

theorem setType {type : String} {change : TypeCode → TypeCode} :
    Keeps program (program.setType type change) :=
  ⟨⟨rfl, rfl, rfl, rfl, rfl, rfl, rfl, rfl, rfl⟩, rfl⟩

/-! ## The frame of a program -/

theorem embedModules (run : program.embedModules = .ok after) : Keeps program after := by
  unfold Program.embedModules at run
  obtain ⟨⟨dependencies, filled⟩, filling, run⟩ := Outcome.bind_eq_ok_iff.mp run
  cases run
  have first : Keeps program filled := .trans (.names ..) (fill filling)
  exact first.trans ⟨⟨rfl, rfl, rfl, rfl, rfl, rfl, rfl, rfl, rfl⟩, rfl⟩

theorem declareRecord {entry : TypeCode}
    (run : (match entry.implementation.state, program.firstOfType entry.type with
      | some template, some first => do
          match ← program.fillState first template with
          | (none, _) => throw (.missingState entry.type)
          | (some record, program) => return program.setType entry.type fun type =>
              { type with stateRecord := some record }
      | _, _ => return program : Outcome Program) = .ok after) : Keeps program after := by
  split at run
  · obtain ⟨⟨record, next⟩, filling, run⟩ := Outcome.bind_eq_ok_iff.mp run
    cases record with
    | none => cases run
    | some record =>
        cases run
        exact (fillState filling).trans setType
  · cases run
    exact .refl program

theorem declareType {entry : TypeCode} (run : program.declareType entry = .ok after) :
    Keeps program after := by
  unfold Program.declareType at run
  obtain ⟨names, _, run⟩ := Outcome.bind_eq_ok_iff.mp run
  dsimp only at run
  split at run
  · exact .trans (.names ..) (declareRecord run)
  · obtain ⟨⟨core, filled⟩, filling, run⟩ := Outcome.bind_eq_ok_iff.mp run
    exact .trans (.names ..) ((fill filling).trans (setType.trans (declareRecord run)))

theorem declareTypes (run : program.declareTypes = .ok after) : Keeps program after :=
  foldlM (fun _ _ _ stepped => declareType stepped) run

theorem instantiateState (run : program.instantiateState id = .ok after) :
    Keeps program after := by
  unfold Program.instantiateState at run
  obtain ⟨node, _, run⟩ := Outcome.bind_eq_ok_iff.mp run
  obtain ⟨type, _, run⟩ := Outcome.bind_eq_ok_iff.mp run
  split at run
  · cases run
    exact .refl program
  · split at run
    · obtain ⟨⟨record, next⟩, filling, run⟩ := Outcome.bind_eq_ok_iff.mp run
      cases record with
      | none => cases run
      | some record =>
          dsimp only at run
          split at run
          · cases run
          · cases run
            exact (fillState filling).trans (refineNode fun _ => rfl)
    · cases run

theorem instantiateStates (run : program.instantiateStates = .ok after) : Keeps program after :=
  foldlM (fun _ _ _ stepped => instantiateState stepped) run

end Keeps

/-! ## Before the split -/

/-- A program whose graph is in order and in which nothing was split or wired yet. -/
structure Prepared (program : Program) : Prop where
  wellFormed : program.graph.WellFormed
  unsplit : program.Unsplit
  unwired : ∀ id outlet, program.sender? id outlet = none

theorem Prepared.of_keeps (prepared : before.Prepared) (kept : Keeps before after) :
    after.Prepared where
  wellFormed := kept.graph ▸ prepared.wellFormed
  unsplit := ⟨kept.coldDsp ▸ prepared.unsplit.coldDsp, kept.coldOf.trans prepared.unsplit.coldOf,
    kept.inlineDsp.trans prepared.unsplit.inlineDsp, kept.inlined.trans prepared.unsplit.inlined⟩
  unwired := kept.senders ▸ prepared.unwired

theorem Prepared.graft {request : PortRequest} (prepared : before.Prepared)
    (grafts : Grafts before request after) : after.Prepared := by
  have wellFormed := grafts.wellFormed prepared.wellFormed
  obtain ⟨_, _, _, _, rfl⟩ := grafts.frame
  exact ⟨wellFormed, ⟨prepared.unsplit.coldDsp, prepared.unsplit.coldOf, prepared.unsplit.inlineDsp,
    prepared.unsplit.inlined⟩, prepared.unwired⟩

theorem Prepared.graftHostPorts (prepared : before.Prepared)
    (run : before.graftHostPorts = .ok after) : after.Prepared := by
  rw [graftHostPorts_eq] at run
  exact Outcome.foldlM_invariant (fun _ state => state.Prepared) prepared
    (fun _ _ _ _ _ held grafted => held.graft (graft_ends.of_ok grafted)) run

theorem Prepared.addNode {type : String} {types : Register TypeCode} {nodes : Register NodeCode}
    (prepared : program.Prepared)
    (adding : program.nodes.add id (NodeCode.new id type) = .ok nodes) :
    { program with types, nodes }.Prepared where
  wellFormed := prepared.wellFormed
  unsplit := ⟨prepared.unsplit.coldDsp, prepared.unsplit.coldOf, prepared.unsplit.inlineDsp,
    prepared.unsplit.inlined⟩
  unwired other outlet := by
    obtain ⟨_, rfl⟩ := Register.add_ends.of_ok adding
    change ((program.nodes.entries.set id _).get? other).bind _ = none
    rw [Table.get?_set]
    split
    · rfl
    · exact prepared.unwired other outlet

theorem Prepared.enlist (prepared : before.Prepared) (run : before.enlist id = .ok after) :
    after.Prepared ∧ after.graph = before.graph ∧ after.fullTraversal = before.fullTraversal := by
  unfold Program.enlist at run
  obtain ⟨node, _, run⟩ := Outcome.bind_eq_ok_iff.mp run
  split at run
  · cases run
  · dsimp only at run
    split at run
    · obtain ⟨types, _, run⟩ := Outcome.bind_eq_ok_iff.mp run
      obtain ⟨nodes, adding, run⟩ := Outcome.bind_eq_ok_iff.mp run
      cases run
      exact ⟨prepared.addNode adding, rfl, rfl⟩
    · obtain ⟨types, _, run⟩ := Outcome.bind_eq_ok_iff.mp run
      obtain ⟨nodes, adding, run⟩ := Outcome.bind_eq_ok_iff.mp run
      cases run
      exact ⟨prepared.addNode adding, rfl, rfl⟩

theorem Prepared.keepReachable (prepared : before.Prepared)
    (run : before.keepReachable = .ok after) :
    after.Prepared ∧ ∀ id ∈ after.graph.ids, id ∈ after.fullTraversal := by
  unfold Program.keepReachable at run
  obtain ⟨full, _, run⟩ := Outcome.bind_eq_ok_iff.mp run
  obtain ⟨listed, listing, run⟩ := Outcome.bind_eq_ok_iff.mp run
  cases run
  have trimmed : { before with
      graph := before.graph.trim full
      names := before.names.setGraph (before.graph.trim full)
      fullTraversal := full }.Prepared :=
    ⟨prepared.wellFormed.trim full, ⟨prepared.unsplit.coldDsp, prepared.unsplit.coldOf,
      prepared.unsplit.inlineDsp, prepared.unsplit.inlined⟩, prepared.unwired⟩
  have enlisted := Outcome.foldlM_invariant
    (fun _ state => state.Prepared ∧ state.graph = before.graph.trim full ∧
      state.fullTraversal = full) ⟨trimmed, rfl, rfl⟩ ?_ listing
  · obtain ⟨held, sameGraph, sameTraversal⟩ := enlisted
    refine ⟨⟨held.wellFormed, ⟨held.unsplit.coldDsp, held.unsplit.coldOf, held.unsplit.inlineDsp,
      held.unsplit.inlined⟩, held.unwired⟩, ?_⟩
    intro id member
    change id ∈ listed.graph.ids at member
    change id ∈ listed.fullTraversal
    rw [sameGraph] at member
    rw [sameTraversal]
    exact (Graph.mem_ids_trim member).1
  · intro _ id state next _ given stepped
    obtain ⟨held, sameGraph, sameTraversal⟩ := given
    obtain ⟨heldNext, keptGraph, keptTraversal⟩ := held.enlist stepped
    exact ⟨heldNext, keptGraph.trans sameGraph, keptTraversal.trans sameTraversal⟩

theorem prepared_start {graph : Graph} (wellFormed : graph.WellFormed) (catalog : Catalog)
    (library : Library) (settings : Settings) :
    (start graph catalog library settings).Prepared where
  wellFormed := wellFormed.trim _
  unsplit := ⟨rfl, rfl, rfl, rfl⟩
  unwired _ _ := rfl

/-! ## Runs of passes -/

theorem runPasses_cons_eq_ok_iff {pass : Pass} {rest : List Pass} :
    (runPasses (pass :: rest) before).2 = .ok after ↔
      ∃ between, pass.run before = .ok between ∧ (runPasses rest between).2 = .ok after := by
  rw [runPasses]
  cases ran : pass.run before with
  | error fault => simp [Pass.apply, ran, Outcome.inContext, Except.mapError]
  | ok between => simp [Pass.apply, ran, Outcome.inContext, Except.mapError]

/-- The program that is split: what the passes before the split make of a graph. -/
def beforeSplit (graph : Graph) (catalog : Catalog) (library : Library) (settings : Settings) :
    Outcome Program :=
  (runPasses (passes.takeWhile fun pass => pass.name ≠ "dsp-groups")
    (start graph catalog library settings)).2

variable {graph : Graph} {catalog : Catalog} {library : Library} {settings : Settings}

theorem passesBeforeSplit_eq : (passes.takeWhile fun pass => pass.name ≠ "dsp-groups") =
    [⟨"io", graftHostPorts⟩, ⟨"dead-code", keepReachable⟩, ⟨"dependencies", embedModules⟩,
      ⟨"node-types", declareTypes⟩, ⟨"state", instantiateStates⟩] := by
  simp [passes]

theorem precompile_eq_ok (compiled : precompile graph catalog library settings = .ok program) :
    ∃ ready split wired emitted, beforeSplit graph catalog library settings = .ok ready ∧
      ready.splitSignal = .ok split ∧ split.wirePortlets = .ok wired ∧
      wired.emitDsp = .ok emitted ∧ emitted.completeNodes = .ok program := by
  unfold precompile precompileWithTrace passes at compiled
  simp only [runPasses_cons_eq_ok_iff] at compiled
  obtain ⟨grafted, grafting, reachable, keeping, embedded, embedding, declared, declaring, ready,
    instantiating, split, splitting, wired, wiring, emitted, emitting, final, completing,
    finished⟩ := compiled
  cases finished
  refine ⟨ready, split, wired, emitted, ?_, splitting, wiring, emitting, completing⟩
  unfold beforeSplit
  rw [passesBeforeSplit_eq]
  simp only [runPasses_cons_eq_ok_iff]
  exact ⟨grafted, grafting, reachable, keeping, embedded, embedding, declared, declaring, ready,
    instantiating, rfl⟩

theorem prepared_of_beforeSplit (wellFormed : graph.WellFormed)
    (ready : beforeSplit graph catalog library settings = .ok program) :
    program.Prepared ∧ ∀ id ∈ program.graph.ids, id ∈ program.fullTraversal := by
  unfold beforeSplit at ready
  rw [passesBeforeSplit_eq] at ready
  simp only [runPasses_cons_eq_ok_iff] at ready
  obtain ⟨grafted, grafting, reachable, keeping, embedded, embedding, declared, declaring,
    instantiated, instantiating, finished⟩ := ready
  cases finished
  have first := (prepared_start wellFormed catalog library settings).graftHostPorts grafting
  obtain ⟨second, listed⟩ := first.keepReachable keeping
  have kept : Keeps reachable program := (Keeps.embedModules embedding).trans
    ((Keeps.declareTypes declaring).trans (Keeps.instantiateStates instantiating))
  refine ⟨second.of_keeps kept, ?_⟩
  rw [kept.graph, kept.fullTraversal]
  exact listed

end Patchbay.Program
