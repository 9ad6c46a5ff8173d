import Patchbay.Proofs.Program.Layout
import Patchbay.Proofs.Program.Regions

namespace Patchbay.Program

/-! What the audio code of a program reads.

The journal of a layout tells where every signal inlet of the audio nodes was written, with which code,
and that this was before the audio code of its node was generated.
-/

variable {graph : Graph} {catalog : Catalog} {library : Library} {settings : Settings}
  {program : Program} {id : String} {entry : NodeCode} {inlet : Endpoint}

/-! ## Variables of outlets -/

theorem get?_variablesOf {outlets : List Portlet} (distinct : (outlets.map Portlet.id).Nodup)
    {outlet : Portlet} (isOutlet : outlet ∈ outlets) :
    (variablesOf id outlets).get? outlet.id = some (outletVariable ⟨id, outlet.id⟩) :=
  (Table.get?_ofList_map_iff distinct).mpr ⟨outlet, isOutlet, rfl, rfl⟩

/-- A signal outlet of a node has a variable when the node has a loop statement. -/
theorem get?_signalOuts_wiredEntry {node : Node} (wellFormed : program.graph.WellFormed)
    (found : program.graph.node? id = some node) (looped : id ∈ program.loopNodes) {outlet : Portlet}
    (isOutlet : outlet ∈ node.outletsOfType .signal) (entry : NodeCode) :
    (program.wiredEntry id entry).signalOuts.get? outlet.id = some (outletVariable ⟨id, outlet.id⟩) := by
  have distinct : ((node.outletsOfType .signal).map Portlet.id).Nodup :=
    (wellFormed.fits found).outletsDistinct.sublist (List.filter_sublist.map _)
  have outlets : program.signalOutlets id = node.outletsOfType .signal := by
    simp [signalOutlets, found]
  rw [wiredEntry, if_pos looped, outlets, withVariables, get?_variablesOf distinct isOutlet]

theorem signalOuts_withLoop (node : Node) (dsp : Dsp) (entry : NodeCode) :
    (withLoop node dsp entry).signalOuts = entry.signalOuts := by
  unfold withLoop
  cases dsp.expression with
  | none => rfl
  | some expression => cases node.outletsOfType .signal <;> rfl

theorem signalOuts_withSetup (program : Program) (id : String) (entry : NodeCode) :
    (program.withSetup id entry).signalOuts = entry.signalOuts := by
  unfold withSetup
  split <;> rfl

theorem signalIns_withSetup (program : Program) (id : String) (entry : NodeCode) :
    (program.withSetup id entry).signalIns = entry.signalIns := by
  unfold withSetup
  split <;> rfl

theorem solid_completed (program : Program) (id : String) (entry : NodeCode) :
    (program.completed id entry).solid = program.completed id entry.solid := by
  unfold completed withSetup
  split <;> rfl

namespace Laying

theorem frame (laying : Laying graph catalog library settings program) :
    ∃ names nodes, program = { laying.split with names, nodes } := by
  obtain ⟨names, nodes, finished⟩ := laying.completing.frame
  obtain ⟨_, _, emitted⟩ := laying.emitting.frame
  rw [emitted] at finished
  exact ⟨names, nodes, finished⟩

/-- Wiring and generating leave everything but names and the code of nodes as it was. -/
theorem fixed (laying : Laying graph catalog library settings program) :
    program.inlined = laying.split.inlined ∧ program.rootDsp = laying.split.rootDsp ∧
      program.inletWriter = laying.split.inletWriter ∧
      program.HasSignalInlet = laying.split.HasSignalInlet := by
  obtain ⟨names, nodes, same⟩ := laying.frame
  generalize laying.split = split at same
  subst same
  exact ⟨rfl, rfl, rfl, rfl⟩

theorem carries_eq (laying : Laying graph catalog library settings program) :
    program.Carries = laying.split.Carries := by
  obtain ⟨names, nodes, same⟩ := laying.frame
  generalize laying.split = split at same
  subst same
  rfl

theorem keeps (laying : Laying graph catalog library settings program) :
    KeepsFrame laying.split program :=
  laying.emitting.keeps.trans laying.completing.keeps

theorem framed (laying : Laying graph catalog library settings program) : program.Framed :=
  laying.divided.framed.of_keeps laying.keeps

theorem signalIn? (laying : Laying graph catalog library settings program) :
    program.signalIn? = laying.emitted.signalIn? :=
  laying.completing.signalIn? fun id entry => signalIns_withSetup laying.emitted id entry

/-- The code of an audio node with a loop statement goes back to the code that was wired. -/
theorem signalOuts (laying : Laying graph catalog library settings program)
    (looped : id ∈ laying.split.loopNodes) (stored : program.nodes.entries.get? id = some entry) :
    entry.signalOuts = variablesOf id (laying.split.signalOutlets id) := by
  have listed : id ∈ laying.emitted.fullTraversal := by
    rw [laying.emitting.keeps.fullTraversal]
    exact laying.divided.loopNodes_listed id looped
  have found := solid?_of_entry stored
  rw [laying.completing.solid? fun id entry => solid_completed laying.emitted id entry, if_pos listed]
    at found
  obtain ⟨node, _, dsp, _, _, same⟩ := laying.emitting.looped looped
  rw [same, laying.wiring.nodes, Option.map_map, Option.map_map] at found
  obtain ⟨old, _, isEntry⟩ := Option.map_eq_some_iff.mp found
  have signalOuts := congrArg NodeCode.signalOuts isEntry
  change ((laying.emitted.withSetup id (withLoop node dsp (laying.split.wiredEntry id old))).signalOuts)
    = entry.signalOuts at signalOuts
  rw [signalOuts_withSetup, signalOuts_withLoop, wiredEntry, if_pos looped] at signalOuts
  exact signalOuts.symm

/-- The outlets of a node without a loop statement have no variables. -/
theorem signalOuts_of_unlooped (laying : Laying graph catalog library settings program)
    (unlooped : id ∉ laying.split.loopNodes) (stored : program.nodes.entries.get? id = some entry) :
    entry.signalOuts = ∅ := by
  have listed : id ∈ laying.emitted.fullTraversal := by
    rw [← laying.completing.keeps.fullTraversal, ← laying.framed.nodes]
    exact Table.mem_keys_of_get? stored
  have found := solid?_of_entry stored
  rw [laying.completing.solid? fun id entry => solid_completed laying.emitted id entry, if_pos listed,
    laying.emitting.untouched unlooped, laying.wiring.nodes, Option.map_map] at found
  obtain ⟨old, isOld, isEntry⟩ := Option.map_eq_some_iff.mp found
  obtain ⟨before, storedBefore, rfl⟩ := exists_of_solid? isOld
  have signalOuts := congrArg NodeCode.signalOuts isEntry
  change (laying.emitted.withSetup id (laying.split.wiredEntry id before.solid)).signalOuts
    = entry.signalOuts at signalOuts
  rw [signalOuts_withSetup, wiredEntry, if_neg unlooped] at signalOuts
  exact signalOuts.symm.trans (laying.divided.unwired storedBefore).signalOuts

end Laying

/-- The variable of a signal outlet: the code of its node holds it, and it is declared. -/
def Supplies (program : Program) (outlet : Endpoint) (code : String) : Prop :=
  ∃ entry region, program.nodes.entries.get? outlet.node = some entry ∧
    entry.signalOuts.get? outlet.portlet = some code ∧
    program.portletsRegion = .ok region ∧ Code.var "Float" code ["0"] ∈ Code.declarations region

theorem Laying.supplies (laying : Laying graph catalog library settings program) {source : Endpoint}
    (fed : laying.split.graph.signalSource? inlet = some source)
    (looped : source.node ∈ laying.split.loopNodes) :
    program.Supplies source (outletVariable source) := by
  obtain ⟨node, outlet, found, isOutlet, isSource, _⟩ :=
    Graph.mem_sinksOf_of_signalSource? laying.divided.framed.wellFormed fed
  have distinct : ((node.outletsOfType .signal).map Portlet.id).Nodup :=
    (laying.divided.framed.wellFormed.fits found).outletsDistinct.sublist
      (List.filter_sublist.map _)
  have outlets : laying.split.signalOutlets source.node = node.outletsOfType .signal := by
    simp [signalOutlets, found]
  obtain ⟨entry, stored⟩ := laying.framed.entry (laying.keeps.graph.symm ▸ found)
  have given : entry.signalOuts.get? source.portlet = some (outletVariable source) := by
    rw [laying.signalOuts looped stored, outlets, ← isSource, get?_variablesOf distinct isOutlet, isSource]
  obtain ⟨region, written, declared⟩ := laying.framed.outlet_declared stored given
  exact ⟨entry, region, stored, given, written, declared⟩

/-! ## Signal inlets -/

/-- What is written to a signal inlet: the null signal when nothing feeds it, the expression of an
inlined source in parentheses, else the variable of the source. -/
def IsReadBy (program : Program) (events : List WiringEvent) (inlet : Endpoint) (code : String) : Prop :=
  match program.graph.signalSource? inlet with
  | none => code = nullSignal
  | some source =>
      if source.node ∈ program.inlined then
        ∃ text, Composed events source.node text ∧ code = "(" ++ text ++ ")"
      else program.Supplies source code

theorem Laying.isReadBy (laying : Laying graph catalog library settings program) {code : String}
    (listed : inlet.node ∈ laying.split.rootDsp.traversal)
    (carries : laying.split.Carries laying.events inlet code) :
    program.IsReadBy laying.events inlet code := by
  have sameGraph := laying.keeps.graph
  have sameInlined := laying.fixed.1
  unfold Carries at carries
  unfold IsReadBy
  rw [sameGraph, sameInlined]
  cases fed : laying.split.graph.signalSource? inlet with
  | none => simpa only [fed] using carries
  | some source =>
      simp only [fed] at carries ⊢
      split at carries
      · next isInlined =>
        rw [if_pos isInlined]
        exact carries
      · next solid =>
        rw [if_neg solid, carries]
        have split := laying.divided.splitInto
        have feeds := Graph.feeds_of_signalSource? split.wellFormed fed
        exact laying.supplies fed (split.mem_loopNodes_of_feeds listed feeds solid)

/-- Every signal inlet of an audio node is written by one place only, with the code that the graph and
the inlined nodes decide, before the audio code of its node is generated and never after; the audio
code is generated once and finds this code. -/
theorem signal_inlets_written_once {known : Option Catalog} {reporter : Reporter}
    (accepted : (graph.check known reporter).2 = .ok ())
    (compiled : precompile graph catalog library settings = .ok program) :
    ∃ events, (layOutLogged graph catalog library settings).run [] = .ok (program, events) ∧
      ∀ inlet : Endpoint, inlet.node ∈ program.rootDsp.traversal → program.HasSignalInlet inlet →
        ∃ code, program.signalIn? inlet = some code ∧ program.IsReadBy events inlet code ∧
          (∀ writer text, .write writer inlet text ∈ events ↔
            writer = program.inletWriter inlet ∧ text = code) ∧
          (generatedIn events).count inlet.node = 1 ∧
          ∀ earlier later scope dsp, events = earlier ++ .generate inlet.node scope dsp :: later →
            .write (program.inletWriter inlet) inlet code ∈ earlier ∧
            (∀ writer text, .write writer inlet text ∉ later) ∧
            ∀ ledger : Code.Ledger, ledger.readPortlet scope .ins inlet.portlet = (code, ledger) := by
  obtain ⟨laying⟩ := laying_of_precompile (Graph.wellFormed_of_check accepted) compiled
  refine ⟨laying.events, laying.logged, fun inlet listed hasInlet => ?_⟩
  have sound := laying.emitting.sound
  obtain ⟨_, sameRoot, sameWriter, sameInlets⟩ := laying.fixed
  rw [sameRoot] at listed
  rw [sameInlets] at hasInlet
  rw [sameWriter]
  have generated := laying.emitting.complete.mpr listed
  obtain ⟨scope, dsp, member⟩ := mem_generatedIn_iff.mp generated
  obtain ⟨earlier, later, isSplit⟩ := List.append_of_mem member
  obtain ⟨writer, code, written, _⟩ := (sound.ordered isSplit).1 hasInlet
  have inEvents : .write writer inlet code ∈ laying.events := by
    rw [isSplit]
    exact List.mem_append_left _ written
  obtain ⟨isWriter, carries⟩ := sound.written inEvents
  subst isWriter
  have unique : ∀ writer text, .write writer inlet text ∈ laying.events ↔
      writer = laying.split.inletWriter inlet ∧ text = code := by
    intro writer text
    constructor
    · intro also
      obtain ⟨isWriter, alsoCarries⟩ := sound.written also
      exact ⟨isWriter, sound.carries_unique alsoCarries carries⟩
    · rintro ⟨rfl, rfl⟩
      exact inEvents
  refine ⟨code, ?_, laying.isReadBy listed carries, unique, ?_, ?_⟩
  · rw [laying.signalIn?]
    exact (laying.emitting.recorded inlet code).mpr ⟨_, inEvents⟩
  · exact List.count_eq_one_of_mem sound.once generated
  · intro earlier later scope dsp isSplit
    obtain ⟨all, none⟩ := sound.ordered isSplit
    obtain ⟨writer, text, before, held⟩ := all hasInlet
    obtain ⟨rfl, rfl⟩ := (unique writer text).mp (isSplit ▸ List.mem_append_left _ before)
    refine ⟨before, fun writer text => none, fun ledger => ?_⟩
    unfold Code.Ledger.readPortlet Code.Scope.portlets
    rw [held]

/-- The output of the tone reads the gain, which is inlined, as an expression. -/
theorem signal_inlets_written_once_tone :
    ∃ program events, (toneGraph.check (some toneCatalog) .discarding).2 = .ok () ∧
      precompile toneGraph toneCatalog toneLibrary {} = .ok program ∧
      (layOutLogged toneGraph toneCatalog toneLibrary {}).run [] = .ok (program, events) ∧
      "d" ∈ program.rootDsp.traversal ∧ program.HasSignalInlet ⟨"d", "0"⟩ ∧
      (∀ writer text, .write writer ⟨"d", "0"⟩ text ∈ events ↔
        writer = .inlineGroup ∧ text = "(1)") ∧
      ∀ earlier later scope dsp, events = earlier ++ .generate "d" scope dsp :: later →
        .write .inlineGroup ⟨"d", "0"⟩ "(1)" ∈ earlier := by
  have evaluated : (do
      let program ← precompile toneGraph toneCatalog toneLibrary {}
      return (decide ("d" ∈ program.rootDsp.traversal),
        (program.graph.node? "d").map fun node => (node.inletsOfType .signal).map Portlet.id,
        program.inletWriter ⟨"d", "0"⟩, program.signalIn? ⟨"d", "0"⟩)) =
      Except.ok (true, some ["0"], .inlineGroup, some "(1)") := by
    cbv
  obtain ⟨program, compiled, evaluated⟩ := Outcome.bind_eq_ok_iff.mp evaluated
  obtain ⟨listed, inlets, isWriter, held⟩ : _ ∧ _ ∧ _ ∧ _ := by simpa using Except.ok.inj evaluated
  have hasInlet : program.HasSignalInlet ⟨"d", "0"⟩ := by
    obtain ⟨node, found, portlet, isOnly, sameId⟩ := inlets
    exact ⟨node, portlet, found, by simp [isOnly], sameId⟩
  obtain ⟨events, logged, all⟩ := signal_inlets_written_once tone_accepted compiled
  obtain ⟨code, read, _, unique, _, ordered⟩ := all ⟨"d", "0"⟩ listed hasInlet
  rw [held] at read
  cases read
  rw [isWriter] at unique ordered
  refine ⟨program, events, tone_accepted, compiled, logged, listed, hasInlet, unique, ?_⟩
  exact fun earlier later scope dsp isSplit => (ordered earlier later scope dsp isSplit).1

end Patchbay.Program
