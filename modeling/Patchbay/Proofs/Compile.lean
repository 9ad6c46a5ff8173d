import Patchbay.Proofs.NodeType.Sound
import Patchbay.Proofs.NodeType.Suited
import Patchbay.Proofs.Program.Rendered

namespace Patchbay

/-! Compiled programs.

A graph that was accepted against the standard types is laid out unless a node asks its type for code
that it does not have, and what was laid out can be rendered.  Whatever is compiled declares the names
that were handed out.
-/

open Outcome (Yields)

variable {graph : Graph} {catalog : Catalog} {library : Library} {settings : Settings}

theorem Catalog.implementation?_standard {type : String} (listed : Graph.Lists (some .standard) type) :
    ∃ implementation, standard.implementation? type = some implementation := by
  have implemented : ∀ slot ∈ standard.values, slot.isSome = true := by decide
  obtain ⟨slot, found⟩ := Option.isSome_iff_exists.mp (listed standard rfl)
  obtain ⟨implementation, rfl⟩ :=
    Option.isSome_iff_exists.mp (implemented slot (Library.mem_values_of_get? found))
  exact ⟨implementation, by rw [implementation?, found]; rfl⟩

/-! ## Laying out and rendering -/

section

variable {reporter : Reporter} (accepted : (graph.check (some .standard) reporter).2 = .ok ())

include accepted

theorem implementation?_of_check {id : String} {node : Node} (found : graph.node? id = some node) :
    ∃ implementation, Catalog.standard.implementation? node.type = some implementation :=
  Catalog.implementation?_standard (Graph.lists_of_check accepted found)

/-- An accepted graph is laid out when the code of its types suits its nodes. -/
theorem laid_out_of_suited (fits : settings.PortsFit graph)
    (suits : ∀ {id node implementation}, graph.node? id = some node →
      (Program.withAdapters .standard).implementation? node.type = some implementation →
      ∀ now, node.Rewired now → implementation.Suits settings now) :
    ∃ program, Program.precompile graph .standard .standard settings = .ok program := by
  have wellFormed := Graph.wellFormed_of_check accepted
  obtain ⟨program, laidOut, _⟩ := Program.suited_graphs_are_laid_out wellFormed
    (implementation?_of_check accepted) (Program.graftHostPorts_yields wellFormed fits)
    Catalog.standard_sound Library.standard_sound suits
  exact ⟨program, laidOut⟩

theorem render_yields {program : Program}
    (laidOut : Program.precompile graph .standard .standard settings = .ok program)
    (serialisable : settings.Serialisable) (target : Target) :
    Yields (program.render target) fun _ => True := by
  obtain ⟨laying⟩ := Program.laying_of_precompile (Graph.wellFormed_of_check accepted) laidOut
  obtain ⟨text, rendered⟩ := laying.render_eq
    (laying.setup.supported Catalog.standard_sound Library.standard_sound) target
  obtain ⟨metadata, described, _⟩ := Program.metadata_yields (laying.settings_eq ▸ serialisable)
  rw [rendered, described]
  exact ⟨_, rfl, trivial⟩

/-- A graph that was accepted is laid out unless a node asks its type for code that it does not have.
Whatever was laid out can be rendered for both targets when its own metadata can be serialised. -/
theorem accepted_graphs_are_rendered (fits : settings.PortsFit graph) :
    (∀ fault, Program.precompile graph .standard .standard settings = .error fault →
      fault.isInternal = false) ∧
    ∀ program, Program.precompile graph .standard .standard settings = .ok program →
      settings.Serialisable → ∀ target, ∃ compiled, program.render target = .ok compiled := by
  constructor
  · intro fault failed
    exact (Program.precompile_ends (Graph.wellFormed_of_check accepted)
      (implementation?_of_check accepted) fits Catalog.standard_sound Library.standard_sound).of_error
        failed
  · intro program laidOut serialisable target
    obtain ⟨compiled, rendered, _⟩ := render_yields accepted laidOut serialisable target
    exact ⟨compiled, rendered⟩

end

/-! A tone whose gain the host sets.  When the program starts, `b` sends a message to the level `s`, which
scales the oscillator in `m` and is also heard on its own; a line feed and a quote make up the id of the
oscillator.  The host can send to `s` and listens to `b`. -/

def gainNodes : List Node :=
  [{ id := "b", type := "loadbang", outlets := [⟨"0", .message⟩], isPushingMessages := true
     sinks := .ofList [("0", [⟨"s", "0"⟩])] },
   { id := "s", type := "sig~", inlets := [⟨"0", .message⟩], outlets := [⟨"0", .signal⟩]
     sources := .ofList [("0", [⟨"b", "0"⟩])]
     sinks := .ofList [("0", [⟨"m", "1"⟩, ⟨"d", "1"⟩])] },
   { id := "\n\"", type := "osc~", inlets := [⟨"0", .signal⟩, ⟨"1", .message⟩]
     outlets := [⟨"0", .signal⟩], sinks := .ofList [("0", [⟨"m", "0"⟩])] },
   { id := "m", type := "*~", inlets := [⟨"0", .signal⟩, ⟨"1", .signal⟩], outlets := [⟨"0", .signal⟩]
     sources := .ofList [("0", [⟨"\n\"", "0"⟩]), ("1", [⟨"s", "0"⟩])]
     sinks := .ofList [("0", [⟨"d", "0"⟩])] },
   { id := "d", type := "dac~", inlets := [⟨"0", .signal⟩, ⟨"1", .signal⟩], isPullingSignal := true
     sources := .ofList [("0", [⟨"m", "0"⟩]), ("1", [⟨"s", "0"⟩])] }]

def gainGraph : Graph := ⟨.ofList (gainNodes.map fun node => (node.id, some node))⟩

/-- The array and the metadata spell marker lines of a bundle. -/
def gainSettings : Settings where
  receivers := some (.ofList [("s", some ["0"])])
  senders := some (.ofList [("b", some ["0"])])
  arrays := .ofList [("\n-- names.txt --\n", [])]
  customMetadata := some (.ofList
    [("\n-- engine.js --\n", .list [.text "\"\n-- metadata.json --\n", .null])])

theorem gain_accepted : (gainGraph.check (some .standard) .discarding).2 = .ok () := by cbv

theorem gain_fits : gainSettings.PortsFit gainGraph where
  receivers := Settings.sideFits_singleton rfl rfl (by decide)
  senders := Settings.sideFits_singleton rfl rfl (by decide)

theorem gain_serialisable : gainSettings.Serialisable := rfl

/-- The code of its types suits every node of the patch, whatever it is connected to. -/
theorem gain_suits {id : String} {node now : Node} {implementation : Implementation}
    (found : gainGraph.node? id = some node)
    (implemented : (Program.withAdapters .standard).implementation? node.type = some implementation)
    (rewired : node.Rewired now) : implementation.Suits settings now := by
  obtain ⟨slot, held, given⟩ := Option.bind_eq_some_iff.mp found
  obtain ⟨own, listed, same⟩ := List.mem_map.mp (Table.mem_of_get?_ofList held)
  cases same
  cases given
  obtain ⟨_, _, rfl⟩ := rewired
  simp only [gainNodes, List.mem_cons, List.not_mem_nil, or_false] at listed
  rcases listed with rfl | rfl | rfl | rfl | rfl
  · cases show some NodeType.loadbang = some implementation from implemented
    exact NodeType.loadbang_suits rfl rfl rfl
  · cases show some NodeType.sig = some implementation from implemented
    exact NodeType.sig_suits (by simp [Node.inletsOfType]) nofun
  · cases show some NodeType.osc = some implementation from implemented
    exact NodeType.osc_suits rfl rfl
  · cases show some (NodeType.binaryOperator "mul" "*") = some implementation from implemented
    exact NodeType.binaryOperator_suits "mul" "*" rfl (by simp [Node.outletsOfType])
  · cases show some NodeType.dac = some implementation from implemented
    exact NodeType.dac_suits (by simp)

theorem gain_laid_out (target : Target) : ∃ program, Program.precompile gainGraph .standard .standard
    { gainSettings with target := target.name } = .ok program := by
  have fits : ({ gainSettings with target := target.name } : Settings).PortsFit gainGraph :=
    ⟨gain_fits.receivers, gain_fits.senders⟩
  exact laid_out_of_suited gain_accepted fits fun found implemented _ => gain_suits found implemented

theorem accepted_gain_is_rendered : (gainGraph.check (some .standard) .discarding).2 = .ok () ∧
    gainSettings.PortsFit gainGraph ∧ gainSettings.Serialisable ∧
    ∃ program, Program.precompile gainGraph .standard .standard gainSettings = .ok program ∧
      ∀ target, ∃ compiled, program.render target = .ok compiled := by
  obtain ⟨program, laidOut⟩ := gain_laid_out .javaScript
  obtain ⟨_, rendered⟩ := accepted_graphs_are_rendered gain_accepted gain_fits
  exact ⟨gain_accepted, gain_fits, gain_serialisable, program, laidOut,
    rendered program laidOut gain_serialisable⟩

/-! ## Compiled programs -/

/-- What is done to compile a graph. -/
theorem compile_eq (graph : Graph) (catalog : Catalog) (library : Library) (settings : Settings) :
    compile graph catalog library settings = Target.parse settings.target >>= fun target =>
      ({ settings with target := target.name } : Settings).check >>= fun _ =>
        Program.precompile graph catalog library { settings with target := target.name } >>=
          fun program => program.render target := by
  unfold compile compileWithTrace
  cases Target.parse settings.target with
  | error fault => rfl
  | ok target =>
      change _ = (({ settings with target := target.name } : Settings).check >>= _)
      dsimp only
      cases ({ settings with target := target.name } : Settings).check <;> rfl

theorem Program.render_eq_ok {program : Program} {target : Target}
    {compiled : Compiled}
    (rendered : program.render target = .ok compiled) :
    ∃ code metadata, target.source program = .ok code ∧ program.metadata = .ok metadata ∧
      compiled = { artifacts := { target := target.name, code, metadata }, program } := by
  obtain ⟨code, written, rendered⟩ := Outcome.bind_eq_ok_iff.mp rendered
  obtain ⟨metadata, described, finished⟩ := Outcome.bind_eq_ok_iff.mp rendered
  cases finished
  refine ⟨code, metadata, ?_, described, rfl⟩
  cases given : target.source program with
  | error fault =>
      rw [given] at written
      cases written
  | ok text =>
      rw [given] at written
      cases written
      rfl

theorem compile_eq_ok {compiled : Compiled}
    (done : compile graph catalog library settings = .ok compiled) :
    ∃ target, Target.parse settings.target = .ok target ∧
      ({ settings with target := target.name } : Settings).check = .ok () ∧
      Program.precompile graph catalog library { settings with target := target.name } =
        .ok compiled.program ∧ compiled.program.render target = .ok compiled := by
  rw [compile_eq] at done
  obtain ⟨target, parsed, done⟩ := Outcome.bind_eq_ok_iff.mp done
  obtain ⟨_, checked, done⟩ := Outcome.bind_eq_ok_iff.mp done
  obtain ⟨program, laidOut, rendered⟩ := Outcome.bind_eq_ok_iff.mp done
  obtain ⟨_, _, _, _, rfl⟩ := Program.render_eq_ok rendered
  exact ⟨target, parsed, checked, laidOut, rendered⟩

/-- A program that was compiled for either target declares what the index has handed out, every name
once, and nothing else.  The names that the metadata tell the host are among these. -/
theorem declared_names_are_handed_out {reporter : Reporter} {compiled : Compiled}
    (accepted : (graph.check (some .standard) reporter).2 = .ok ())
    (done : compile graph .standard .standard settings = .ok compiled) :
    ∃ target regions, Target.parse settings.target = .ok target ∧
      compiled.program.regions = .ok regions ∧
      (target.declaredNames compiled.program regions).Nodup ∧
      (∀ name, name ∈ target.declaredNames compiled.program regions ↔ name ∈ compiled.names) ∧
      ∀ name ∈ (Metadata.variableNames compiled.program).texts,
        name ∈ target.declaredNames compiled.program regions := by
  obtain ⟨target, parsed, _, laidOut, _⟩ := compile_eq_ok done
  obtain ⟨laying⟩ := Program.laying_of_precompile (Graph.wellFormed_of_check accepted) laidOut
  have supported := laying.setup.supported Catalog.standard_sound Library.standard_sound
  obtain ⟨regions, generated, _⟩ := laying.regions_yields supported
  have lists := laying.lists_declaredNames Catalog.standard_sound Library.standard_sound generated target
  refine ⟨target, regions, parsed, generated, lists.distinct, fun name => ?_, fun name told => ?_⟩
  · rw [lists.mem_iff, Compiled.names, NameIndex.mem_allNames_iff]
    simp only [laying.handedOut_iff supported]
  · exact lists.mem_iff.mpr
      (laying.named_of_metadata (laying.keepsEmbedded.supported supported) told)

/-- Compiles for a target, whatever target the settings name. -/
def compileFor (graph : Graph) (settings : Settings) (target : Target) : Outcome Compiled :=
  compile graph .standard .standard { settings with target := target.name }

theorem Target.parse_name (target : Target) : Target.parse target.name = .ok target := by
  cases target <;> cbv

theorem compileFor_eq (graph : Graph) (settings : Settings) (target : Target) :
    compileFor graph settings target =
      ({ settings with target := target.name } : Settings).check >>= fun _ =>
        Program.precompile graph .standard .standard { settings with target := target.name } >>=
          fun program => program.render target := by
  unfold compileFor
  rw [compile_eq, Target.parse_name]
  rfl

/-- What was laid out is compiled when the settings can be used. -/
theorem compileFor_of_laid_out (settings : Settings) (target : Target) {reporter : Reporter}
    {program : Program} (accepted : (graph.check (some .standard) reporter).2 = .ok ())
    (checked : ({ settings with target := target.name } : Settings).check = .ok ())
    (serialisable : settings.Serialisable)
    (laidOut : Program.precompile graph .standard .standard { settings with target := target.name } =
      .ok program) :
    ∃ compiled, compileFor graph settings target = .ok compiled ∧ compiled.program = program := by
  obtain ⟨compiled, rendered, _⟩ := render_yields accepted laidOut serialisable target
  obtain ⟨_, _, _, _, own⟩ := Program.render_eq_ok rendered
  refine ⟨compiled, ?_, by rw [own]⟩
  rw [compileFor_eq, checked]
  change (Program.precompile .. >>= _) = _
  rw [laidOut]
  exact rendered

theorem gain_compiled (target : Target) :
    ∃ compiled, compileFor gainGraph gainSettings target = .ok compiled := by
  have checked : ({ gainSettings with target := target.name } : Settings).check = .ok () := by
    cases target <;> cbv
  obtain ⟨program, laidOut⟩ := gain_laid_out target
  obtain ⟨compiled, done, _⟩ := compileFor_of_laid_out gainSettings target gain_accepted checked
    gain_serialisable laidOut
  exact ⟨compiled, done⟩

/-- What the tone with a gain declares is what was handed out, in both languages. -/
theorem declared_names_of_gain : (gainGraph.check (some .standard) .discarding).2 = .ok () ∧
    ∀ target, ∃ compiled regions, compileFor gainGraph gainSettings target = .ok compiled ∧
      compiled.program.regions = .ok regions ∧
      (target.declaredNames compiled.program regions).Nodup ∧
      ∀ name, name ∈ target.declaredNames compiled.program regions ↔ name ∈ compiled.names := by
  refine ⟨gain_accepted, fun target => ?_⟩
  obtain ⟨compiled, done⟩ := gain_compiled target
  obtain ⟨other, regions, parsed, generated, distinct, same, _⟩ :=
    declared_names_are_handed_out gain_accepted done
  cases target.parse_name.symm.trans parsed
  exact ⟨compiled, regions, done, generated, distinct, same⟩

end Patchbay
