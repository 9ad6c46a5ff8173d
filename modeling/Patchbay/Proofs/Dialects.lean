import Patchbay.Proofs.Compile
import Patchbay.Proofs.Graph.Enumeration
import Patchbay.Proofs.Program.Alike.Layout
import Patchbay.Proofs.Program.Alike.Regions
import Patchbay.Proofs.Program.Grafts
import Patchbay.Proofs.Requests

namespace Patchbay

/-! The target languages.

A graph that was accepted is laid out in the same way for every target.  What is laid out has the same
names, declares them in the same order and is described to the host in the same words; only loops and the
code of runtime modules are written differently.  This holds of two runs that go through the tables in
different orders, too, as long as no two ids that are sorted spell one integer.  With such ids two runs
can differ, be it for one target.
-/

variable {graph other : Graph} {catalog : Catalog} {library : Library} {settings settingsToo : Settings}

namespace Program

variable {exact : Prop} {program twin : Program} {regions regionsToo : Regions}

/-! ## Names -/

/-- The names of what a program has are handed out, each once. -/
theorem Laying.lists_allNames (laying : Laying graph catalog library settings program)
    (supported : laying.embedded.Supported) (labels : (withAdapters catalog).labels.values.Nodup) :
    program.names.Lists program.Named program.names.allNames where
  distinct := laying.tidy.nodup_allNames fun _ _ isLeft isRight =>
    laying.tells labels ((laying.handedOut_iff supported).mp isLeft)
      ((laying.handedOut_iff supported).mp isRight)
  mem_iff := by
    intro name
    rw [NameIndex.mem_allNames_iff]
    simp only [laying.handedOut_iff supported]

/-- The code of the runtime modules declares the keys of the modules. -/
theorem Laying.declaredNames_modules (laying : Laying graph catalog library settings program)
    (supported : laying.embedded.Supported) :
    program.dependencies.code.toList.flatMap Code.declaredNames =
      program.dependencies.modules.flatMap fun module =>
        module.codeKeys.map (program.names.nameOf (.module module.namespaceName)) := by
  have supportedNow := laying.keepsEmbedded.supported supported
  rw [laying.linking, declaredNames_link fun module linked =>
    supportedNow.library.modules (supportedNow.modules module linked), ← laying.linking]

theorem Alike.declaredNames (alike : program.Alike exact twin)
    (laying : Laying graph catalog library settings program)
    (layingToo : Laying other catalog library settingsToo twin)
    (supported : laying.embedded.Supported) (supportedToo : layingToo.embedded.Supported)
    (generated : program.regions = .ok regions) (generatedToo : twin.regions = .ok regionsToo) :
    regions.declaredNames = regionsToo.declaredNames := by
  obtain ⟨_, again, isGenerated⟩ := laying.regions_yields supported
  cases generated.symm.trans again
  obtain ⟨_, again, isGeneratedToo⟩ := layingToo.regions_yields supportedToo
  cases generatedToo.symm.trans again
  have modules : regions.dependencies.toList.flatMap Code.declaredNames =
      regionsToo.dependencies.toList.flatMap Code.declaredNames := by
    rw [isGenerated.dependencies, isGeneratedToo.dependencies, laying.declaredNames_modules supported,
      layingToo.declaredNames_modules supportedToo, alike.names.nameOf, alike.dependencies.rest]
  have cold : Code.declaredNames regions.coldDsp = Code.declaredNames regionsToo.coldDsp := by
    rw [isGenerated.coldDsp, isGeneratedToo.coldDsp, declaredNames_coldFunctions,
      declaredNames_coldFunctions, alike.coldDsp]
  obtain ⟨_, again, held⟩ := alike.regions.of_ok generated
  cases generatedToo.symm.trans again
  rw [Regions.declaredNames_eq, Regions.declaredNames_eq]
  simp only [List.flatMap_cons, List.flatMap_nil, Option.toList_some, List.append_nil]
  rw [modules, cold, held.rest]

theorem Alike.allNames (alike : program.Alike exact twin)
    (laying : Laying graph .standard .standard settings program)
    (layingToo : Laying other .standard .standard settingsToo twin) :
    program.names.allNames = twin.names.allNames := by
  have supported := laying.setup.supported Catalog.standard_sound Library.standard_sound
  have supportedToo := layingToo.setup.supported Catalog.standard_sound Library.standard_sound
  obtain ⟨regions, generated, _⟩ := laying.regions_yields supported
  obtain ⟨regionsToo, generatedToo, _⟩ := layingToo.regions_yields supportedToo
  have declared : Target.declaredNames .javaScript program regions =
      Target.declaredNames .javaScript twin regionsToo := by
    unfold Target.declaredNames
    rw [alike.declaredNames laying layingToo supported supportedToo generated generatedToo,
      Target.hostNames_eq, Target.hostNames_eq, alike.dependencies.rest]
    unfold Program.hostSenderFunctions
    rw [alike.hostSenders]
    rfl
  have listed := (laying.lists_allNames supported Catalog.standard_sound.labels).perm_of
    (laying.lists_declaredNames Catalog.standard_sound Library.standard_sound generated .javaScript)
  have listedToo := (layingToo.lists_allNames supportedToo Catalog.standard_sound.labels).perm_of
    (layingToo.lists_declaredNames Catalog.standard_sound Library.standard_sound generatedToo .javaScript)
  rw [declared] at listed
  exact Text.sortTexts_eq_of_perm (listed.trans listedToo.symm)

end Program

/-! ## Compiling for two targets -/

/-- The code of a node without its loop, which is written in the target language. -/
def NodeCode.withoutLoop (entry : NodeCode) : NodeCode := { entry with loop := none }

/-- What two programs share that were compiled for two targets. -/
structure Compiled.SharesProgram (compiled twin : Compiled) : Prop where
  fullTraversal : compiled.program.fullTraversal = twin.program.fullTraversal
  hotDsp : compiled.program.hotDsp = twin.program.hotDsp
  coldDsp : compiled.program.coldDsp = twin.program.coldDsp
  inlineDsp : compiled.program.inlineDsp = twin.program.inlineDsp
  /-- Signal inputs and outputs, senders, receivers and all other code of the nodes. -/
  nodes : compiled.program.nodes.entries.map (fun _ entry => entry.withoutLoop) =
    twin.program.nodes.entries.map fun _ entry => entry.withoutLoop
  imports : compiled.program.dependencies.imports = twin.program.dependencies.imports
  exports : compiled.program.dependencies.exports = twin.program.dependencies.exports
  metadata : compiled.artifacts.metadata = twin.artifacts.metadata
  names : compiled.names = twin.names
  declared : ∃ regions regionsToo, compiled.program.regions = .ok regions ∧
    twin.program.regions = .ok regionsToo ∧ regions.declaredNames = regionsToo.declaredNames

theorem Settings.check_target (settings : Settings) (target other : Target) :
    ({ settings with target := target.name } : Settings).check =
      ({ settings with target := other.name } : Settings).check := by
  unfold Settings.check
  rw [Target.parse_name, Target.parse_name]
  rfl

theorem Program.Alike.sharesProgram {program twin : Program} {exact : Prop} {text textToo metadata target targetToo : String}
    (alike : program.Alike exact twin) (names : program.names.allNames = twin.names.allNames)
    (declared : ∃ regions regionsToo, program.regions = .ok regions ∧ twin.regions = .ok regionsToo ∧
      regions.declaredNames = regionsToo.declaredNames) :
    Compiled.SharesProgram ⟨{ target, code := text, metadata }, program⟩
      ⟨{ target := targetToo, code := textToo, metadata }, twin⟩ where
  fullTraversal := alike.fullTraversal
  hotDsp := alike.hotDsp
  coldDsp := alike.coldDsp
  inlineDsp := alike.inlineDsp
  nodes := alike.nodes.entries.map_eq fun entry other held => held.blind NodeCode.withoutLoop fun _ _ => rfl
  imports := by rw [alike.dependencies.rest]
  exports := by rw [alike.dependencies.rest]
  metadata := rfl
  names
  declared

/-- How two runs for two targets end: with one fault, with one fault in rendering behind the names of the
targets, or with one program. -/
inductive SharesRun (target targetToo : Target) : Outcome Compiled → Outcome Compiled → Prop
  | fault (fault : Fault) : SharesRun target targetToo (.error fault) (.error fault)
  | rendering (fault : Fault) : SharesRun target targetToo
      (.error (.within ("render " ++ target.name) fault))
      (.error (.within ("render " ++ targetToo.name) fault))
  | program {compiled twin : Compiled} : compiled.SharesProgram twin →
      SharesRun target targetToo (.ok compiled) (.ok twin)

theorem Program.Alike.renders {exact : Prop} {program twin : Program} (alike : program.Alike exact twin)
    (laying : Laying graph .standard .standard settings program)
    (layingToo : Laying other .standard .standard settingsToo twin) (target targetToo : Target) :
    SharesRun target targetToo (program.render target) (twin.render targetToo) := by
  have supported := laying.setup.supported Catalog.standard_sound Library.standard_sound
  have supportedToo := layingToo.setup.supported Catalog.standard_sound Library.standard_sound
  obtain ⟨text, rendered⟩ := laying.render_eq supported target
  obtain ⟨textToo, renderedToo⟩ := layingToo.render_eq supportedToo targetToo
  rw [rendered, renderedToo, ← alike.metadata]
  cases program.metadata with
  | error fault => exact .rendering fault
  | ok metadata =>
    obtain ⟨regions, generated, _⟩ := laying.regions_yields supported
    obtain ⟨regionsToo, generatedToo, _⟩ := layingToo.regions_yields supportedToo
    have declared := alike.declaredNames laying layingToo supported supportedToo generated generatedToo
    refine .program (alike.sharesProgram ?_ ⟨_, _, generated, generatedToo, declared⟩)
    exact alike.allNames laying layingToo

/-- Graphs that cannot be told apart are compiled to one program for two targets. -/
theorem Graph.Alike.sharesRun (alike : graph.Alike other) (wellFormed : graph.WellFormed)
    (wellFormedToo : other.WellFormed) (settings : Settings) (target targetToo : Target) :
    SharesRun target targetToo (compileFor graph settings target)
      (compileFor other settings targetToo) := by
  have differing : Settings.Alike False { settings with target := target.name }
      { settings with target := targetToo.name } := ⟨rfl, False.elim⟩
  have layouts := Program.precompile_alike alike differing Catalog.standard_uniform
    Library.standard_uniform
  rw [compileFor_eq, compileFor_eq, settings.check_target targetToo target]
  cases ({ settings with target := target.name } : Settings).check with
  | error fault => exact .fault fault
  | ok _ =>
    generalize laidOut : Program.precompile graph .standard .standard { settings with target := target.name } =
      layout at layouts ⊢
    generalize laidOutToo : Program.precompile other .standard .standard
      { settings with target := targetToo.name } = layoutToo at layouts ⊢
    cases layouts with
    | fault fault => exact .fault fault
    | @result program twin alike =>
      obtain ⟨laying⟩ := Program.laying_of_precompile wellFormed laidOut
      obtain ⟨layingToo⟩ := Program.laying_of_precompile wellFormedToo laidOutToo
      exact alike.renders laying layingToo target targetToo

/-- Compiling an accepted graph for two targets fails with one fault, but for the target that is named in
front of it, or gives one program in two languages.  The second run may go through the nodes in another
order, as long as no two ids are tied. -/
theorem targets_share_program {table : Option Catalog} {reporter : Reporter}
    (accepted : (graph.check table reporter).2 = .ok ()) (unambiguous : Text.Unambiguous graph.ids)
    (reordered : graph.Reordered other) (settings : Settings) (target targetToo : Target) :
    SharesRun target targetToo (compileFor graph settings target)
      (compileFor other settings targetToo) := by
  have wellFormed := Graph.wellFormed_of_check accepted
  exact (reordered.alike unambiguous).sharesRun wellFormed (reordered.wellFormed wellFormed) settings
    target targetToo

/-- The tone with a gain is compiled for both targets, whichever of its nodes comes first. -/
theorem gain_shared_by_targets : ∃ compiled twin,
    compileFor gainGraph gainSettings .javaScript = .ok compiled ∧
    compileFor ⟨.ofList (gainNodes.reverse.map fun node => (node.id, some node))⟩ gainSettings
      .assemblyScript = .ok twin ∧ compiled.SharesProgram twin := by
  have reordered : gainGraph.Reordered
      ⟨.ofList (gainNodes.reverse.map fun node => (node.id, some node))⟩ := by
    unfold Graph.Reordered Table.Reordered
    exact (List.reverse_perm _).symm
  have unambiguous : Text.Unambiguous gainGraph.ids := Text.unambiguous_of_words (by decide)
  obtain ⟨compiled, done⟩ := gain_compiled .javaScript
  have shared := targets_share_program gain_accepted unambiguous reordered gainSettings .javaScript
    .assemblyScript
  rw [done] at shared
  generalize compileFor _ _ .assemblyScript = run at shared ⊢
  cases shared with
  | program same => exact ⟨_, _, done, rfl, same⟩

/-! ## Ties -/

/-- Signal outlets are declared in one order, whichever order their table has, unless two of them are
tied. -/
theorem Program.outletParts_reordered {entry : NodeCode} {outlets : Table String}
    (reordered : entry.signalOuts.Reordered outlets)
    (unambiguous : Text.Unambiguous entry.signalOuts.keys) :
    Program.outletParts { entry with signalOuts := outlets } = Program.outletParts entry := by
  unfold Program.outletParts
  dsimp only
  rw [← reordered.sortIds_keys unambiguous]
  exact List.map_congr_left fun outlet _ => by rw [reordered.getD]

/-- Outputs that nothing is connected to are compiled, and laid out in the order of the walk. -/
theorem outputs_compiled (slots : List (String × Option Node)) {full : List String}
    (outputs : ∀ slot ∈ slots, slot ∈ Graph.tiedOutputs)
    (accepted : ((⟨.ofList slots⟩ : Graph).check (some .standard) .discarding).2 = .ok ())
    (walked : (Program.start ⟨.ofList slots⟩ .standard .standard {}).graph.fullTraversal = .ok full) :
    ∃ compiled, compileFor ⟨.ofList slots⟩ {} .javaScript = .ok compiled ∧
      compiled.program.fullTraversal = full := by
  have fits : Settings.PortsFit {} ⟨.ofList slots⟩ := ⟨Settings.sideFits_none, Settings.sideFits_none⟩
  obtain ⟨program, laidOut⟩ := laid_out_of_suited accepted fits fun found implemented now rewired => by
    obtain ⟨slot, held, given⟩ := Option.bind_eq_some_iff.mp found
    have listed := outputs _ (Table.mem_of_get?_ofList held)
    cases given
    obtain ⟨_, _, rfl⟩ := rewired
    simp only [Graph.tiedOutputs, List.mem_cons, List.not_mem_nil, or_false, Prod.mk.injEq,
      Option.some.injEq] at listed
    obtain ⟨_, rfl⟩ | ⟨_, rfl⟩ := listed
    all_goals
      cases show some NodeType.dac = some _ from implemented
      exact NodeType.dac_suits (by simp)
  obtain ⟨compiled, done, rfl⟩ := compileFor_of_laid_out {} .javaScript accepted (by cbv) rfl laidOut
  obtain ⟨laying⟩ := Program.laying_of_precompile (Graph.wellFormed_of_check accepted) laidOut
  -- without ports of the host nothing is grafted on
  have ungrafted : Except.ok (Program.start ⟨.ofList slots⟩ .standard .standard {}) =
      Except.ok laying.grafted := laying.setup.graftRan
  have listed := laying.walks_grafted.1
  rw [← Except.ok.inj ungrafted, walked] at listed
  exact ⟨compiled, done, (Except.ok.inj listed).symm⟩

/-- Two outputs whose ids spell one integer are laid out as the slots list them, so two runs for one target
can give two programs. -/
theorem tied_outputs_tell_enumeration : ∃ compiled twin,
    (⟨.ofList Graph.tiedOutputs⟩ : Graph).Reordered ⟨.ofList Graph.tiedOutputs.reverse⟩ ∧
    compileFor ⟨.ofList Graph.tiedOutputs⟩ {} .javaScript = .ok compiled ∧
    compileFor ⟨.ofList Graph.tiedOutputs.reverse⟩ {} .javaScript = .ok twin ∧
    compiled.program.fullTraversal = ["1", "01"] ∧ twin.program.fullTraversal = ["01", "1"] := by
  obtain ⟨compiled, done, listed⟩ :=
    outputs_compiled Graph.tiedOutputs (fun _ member => member) (by cbv) (by cbv)
  obtain ⟨twin, doneToo, listedToo⟩ := outputs_compiled Graph.tiedOutputs.reverse
    (fun _ member => List.mem_reverse.mp member) (by cbv) (by cbv)
  exact ⟨compiled, twin, (List.reverse_perm Graph.tiedOutputs).symm, done, doneToo, listed, listedToo⟩

end Patchbay
