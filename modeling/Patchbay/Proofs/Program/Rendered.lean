import Patchbay.Compile
import Patchbay.Proofs.Program.Described
import Patchbay.Proofs.Program.Written

namespace Patchbay

/-! Programs are written in every target language.

What an engine puts around the regions are texts, names and functions, and functions that forward to
the host take the arguments that the module gives them.  So writing a program that was laid out fails
only where it cannot describe itself.
-/

open Code (Dialect Part Sequence)

namespace Code

variable {α : Type u} {dialect : Dialect}

theorem renderAll_total {parts : α → Sequence}
    (writable : ∀ given, ∀ part ∈ parts given, part.Writable dialect) :
    ∃ text : α → String, ∀ given, renderAll dialect (parts given) = .ok (text given) :=
  ⟨fun given => (renderAll_yields (writable given)).choose,
    fun given => (renderAll_yields (writable given)).choose_spec⟩

end Code

theorem Regions.sound_coreVariables {dialect : Dialect} :
    (Part.sequence Regions.coreVariables).Sound dialect := by
  refine Code.sound_sequence_lines ?_
  simp only [List.mem_cons, List.not_mem_nil, or_false, forall_eq_or_imp, forall_eq]
  refine ⟨Code.sound_var _ _ ?_, Code.sound_var _ _ ?_, Code.sound_var _ _ ?_, Code.sound_var _ _ ?_,
    Code.sound_const _ _ ?_ (List.mem_cons_self ..) (by decide)⟩ <;> simp [Code.sound_text]

variable {program : Program} {regions : Regions} {dialect : Dialect}

namespace Engine.JavaScript

theorem sound_prelude (settings : Settings) : (Part.sequence (prelude settings)).Sound dialect := by
  refine Code.sound_sequence_lines ?_
  simp only [List.mem_cons, List.not_mem_nil, or_false, forall_eq_or_imp, forall_eq]
  refine ⟨Code.sound_sequence_code ?_, (Code.Function.Sound.func ?_ _).part,
    (Code.Function.Sound.func ?_ _).part, Regions.sound_coreVariables, Code.sound_var _ _ ?_,
    Code.sound_var _ _ ?_⟩ <;> simp [Code.sound_text]

theorem sound_importForwarders (sound : program.dependencies.Sound dialect) :
    (Part.sequence (importForwarders program)).Sound dialect :=
  Code.sound_sequence_lines (List.forall_mem_map.mpr fun entry listed =>
    Code.sound_func _ _ (sound entry listed) (by simp [Code.sound_text]))

theorem sound_hostSenders : (Part.sequence (hostSenders program)).Sound dialect :=
  Code.sound_sequence_lines (List.forall_mem_map.mpr fun hostPort _ =>
    (Code.Function.Sound.func (by simp [Code.sound_text]) _).part)

theorem sound_portTable {value : HostPort → Part} (ports : List HostPort)
    (sound : ∀ hostPort, (value hostPort).Sound dialect) :
    (Part.sequence (portTable ports value)).Sound dialect := by
  have own (node : String) : ∀ hostPort ∈ ports.filter (·.node = node), (Part.sequence (Code.code
      [Text.literal hostPort.portlet, ": ", value hostPort, ","])).Sound dialect := fun hostPort _ =>
    Code.sound_sequence_code (by simp [Code.sound_text, sound])
  have entries : ∀ node ∈ Text.unique (ports.map (·.node)), (Part.sequence (Code.code
      [Text.literal node, ": \x7b\n", .sequence (Code.lines ((ports.filter (·.node = node)).map
        fun hostPort => Part.sequence (Code.code
          [Text.literal hostPort.portlet, ": ", value hostPort, ","]))), "\n\x7d,"])).Sound dialect :=
    fun node _ => Code.sound_sequence_code (by
      simpa [Code.sound_text] using Code.sound_sequence_lines (List.forall_mem_map.mpr (own node)))
  unfold portTable
  dsimp only
  split
  · exact Code.sound_sequence_code (by simp [Code.sound_text])
  · exact Code.sound_sequence_code (by
      simpa [Code.sound_text] using Code.sound_sequence_lines (List.forall_mem_map.mpr entries))

theorem sound_moduleEntries (module : Module) :
    ∀ part ∈ moduleEntries program module, part.Sound dialect := by
  have refuse (message : String) : (Part.ofFunction (Code.func "" [] "void"
      ["throw new Error(", message, ")"])).Sound dialect :=
    Code.sound_func _ _ (by simp [Code.SlotsSound]) (by simp [Code.sound_text])
  refine List.forall_mem_append.mpr ⟨List.forall_mem_map.mpr fun entry _ => ?_,
    List.forall_mem_map.mpr fun entry _ => ?_⟩
  · exact Code.sound_sequence_code (by simp [Code.sound_text])
  · exact Code.sound_sequence_code (by simpa [Code.sound_text] using refuse _)

theorem sound_moduleTable : (Part.sequence (moduleTable program)).Sound dialect := by
  have tables : ∀ part ∈ program.dependencies.modules.filterMap (fun module =>
      let entries := moduleEntries program module
      if entries.isEmpty then none
      else some <| Part.sequence (Code.code [Text.literal module.namespaceName, ": \x7b\n",
        .sequence (Code.lines entries), "\n\x7d,"])), part.Sound dialect := by
    intro part listed
    obtain ⟨module, _, given⟩ := List.mem_filterMap.mp listed
    dsimp only at given
    split at given
    · cases given
    · cases given
      exact Code.sound_sequence_code (by
        simpa [Code.sound_text] using Code.sound_sequence_lines (sound_moduleEntries module))
  unfold moduleTable
  dsimp only
  split
  · exact Code.sound_sequence_code (by simp [Code.sound_text])
  · exact Code.sound_sequence_code (by
      simpa [Code.sound_text] using Code.sound_sequence_lines tables)

theorem sound_initializer (sound : regions.Sound dialect) :
    (Part.ofFunction (initializer regions)).Sound dialect := by
  have body : (Part.sequence (Code.lines [
      "engine.metadata.settings.audio.sampleRate = sampleRate",
      "engine.metadata.settings.audio.blockSize = blockSize",
      .sequence regions.initializeBody])).Sound dialect :=
    Code.sound_sequence_lines (by simpa [Code.sound_text] using sound.initializeBody)
  exact Code.sound_func _ _ (by simp [Code.SlotsSound, Code.arg]) (by simpa using body)

theorem sound_dspLoop (sound : regions.Sound dialect) :
    (Part.ofFunction (dspLoop regions)).Sound dialect := by
  refine Code.sound_func _ _ (by simp [Code.SlotsSound, Code.arg]) ?_
  rw [List.forall_mem_singleton]
  refine Code.sound_sequence_lines ?_
  simp only [List.mem_cons, List.not_mem_nil, or_false, forall_eq_or_imp, forall_eq]
  exact ⟨Code.sound_sequence_code (by simp [Code.sound_text]),
    Code.sound_sequence_code (by simp [Code.sound_text]), sound.loop⟩

theorem sound_engineObject (sound : regions.Sound dialect) (metadata : String) :
    (Part.sequence (engineObject program regions metadata)).Sound dialect := by
  have receivers : (Part.sequence (portTable program.hostReceivers.values fun hostPort =>
      hostPort.functionName)).Sound dialect := sound_portTable _ fun _ => Code.sound_text _
  have senders : (Part.sequence (portTable program.hostSenders.values fun _ =>
      Code.func "" [messageArg] "void")).Sound dialect :=
    sound_portTable _ fun _ => (Code.Function.Sound.func (by simp) _).part
  refine Code.sound_sequence_lines ?_
  simp only [List.mem_cons, List.not_mem_nil, or_false, forall_eq_or_imp, forall_eq]
  refine ⟨Code.sound_text _, Code.sound_sequence_code ?_, Code.sound_sequence_code ?_,
    Code.sound_sequence_code ?_, Code.sound_text _, Code.sound_sequence_code ?_,
    Code.sound_sequence_code ?_, Code.sound_text _, Code.sound_sequence_code ?_, Code.sound_text _⟩
  · simp [Code.sound_text]
  · simpa [Code.sound_text] using sound_initializer sound
  · simpa [Code.sound_text] using sound_dspLoop sound
  · simpa [Code.sound_text] using receivers
  · simpa [Code.sound_text] using senders
  · simpa [Code.sound_text] using sound_moduleTable

/-- With regions at hand, the text fails only where the metadata does. -/
theorem source_eq (generated : program.regions = .ok regions) (sound : regions.Sound .javaScript)
    (shared : program.dependencies.Sound .javaScript) :
    ∃ text, source program = program.metadata.map text := by
  have writable (metadata : String) : ∀ part ∈ Code.lines [
      "function createEngine() \x7b",
      .sequence (prelude program.settings),
      .sequence (importForwarders program),
      .sequence (Code.lines (regions.declarations.map Part.sequence)),
      .sequence (hostSenders program),
      .sequence (engineObject program regions metadata),
      "return engine",
      "\x7d"], part.Writable .javaScript := by
    refine Code.writable_lines ?_
    simp only [List.mem_cons, List.not_mem_nil, or_false, forall_eq_or_imp, forall_eq]
    exact ⟨Code.sound_text _, sound_prelude _, sound_importForwarders shared,
      Code.sound_sequence_lines (List.forall_mem_map.mpr sound.declarations), sound_hostSenders,
      sound_engineObject sound metadata, Code.sound_text _, Code.sound_text _⟩
  obtain ⟨text, rendered⟩ := Code.renderAll_total writable
  refine ⟨text, ?_⟩
  unfold source code
  rw [generated]
  cases program.metadata with
  | error fault => rfl
  | ok metadata => exact rendered metadata

end Engine.JavaScript

namespace Engine.AssemblyScript

theorem sound_prelude (settings : Settings) : (Part.sequence (prelude settings)).Sound dialect := by
  refine Code.sound_sequence_lines ?_
  simp only [List.mem_cons, List.not_mem_nil, or_false, forall_eq_or_imp, forall_eq]
  refine ⟨Code.sound_sequence_code ?_, Code.sound_text _, Code.sound_sequence_code ?_,
    (Code.Function.Sound.func ?_ _).part, (Code.Function.Sound.func ?_ _).part,
    Regions.sound_coreVariables, Code.sound_var _ _ ?_, Code.sound_var _ _ ?_⟩ <;>
      simp [Code.sound_text]

theorem isSolid_embedded (text : String) : (Part.text (Text.embedded text)).isSolid = true := by
  have given : Text.embedded text ≠ "" := fun same => by
    have letters := congrArg String.toList same
    simp [Text.embedded] at letters
  simp [Part.isSolid, Part.pieces, Code.isEmptyText_text, given]

theorem sound_exported {part : Part} (sound : part.Sound dialect) : (exported part).Sound dialect :=
  Code.sound_sequence_code (by simpa [Code.sound_text] using sound)

theorem sound_initializer (sound : regions.Sound dialect) :
    (Part.ofFunction (initializer program regions)).Sound dialect := by
  refine Code.sound_func _ _ (by simp [Code.SlotsSound, Code.arg]) ?_
  rw [List.forall_mem_singleton]
  refine Code.sound_sequence_lines ?_
  simp only [List.mem_cons, List.not_mem_nil, or_false, forall_eq_or_imp, forall_eq]
  refine ⟨sound.initializeBody, Code.sound_sequence_code ?_, Code.sound_sequence_code ?_⟩ <;>
    simp [Code.sound_text, Code.sound_integer]

/-- With regions at hand, the text fails only where the metadata does. -/
theorem source_eq (generated : program.regions = .ok regions)
    (sound : regions.Sound .assemblyScript) :
    ∃ text, source program = program.metadata.map text := by
  have writable (metadata : String) : ∀ part ∈ Code.lines [
      .sequence (prelude program.settings),
      imports program,
      .sequence (Code.lines (regions.declarations.map Part.sequence)),
      exported (initializer program regions),
      exported (Code.func "getInput" [] "FloatArray" ["return ", inputBuffer]),
      exported (Code.func "getOutput" [] "FloatArray" ["return ", outputBuffer]),
      exported (Code.func "dspLoop" [] "void" [.sequence regions.loop]),
      exported (Code.const "string" "metadata" [Text.embedded metadata]),
      exports program], part.Writable .assemblyScript := by
    refine Code.writable_lines ?_
    simp only [List.mem_cons, List.not_mem_nil, or_false, forall_eq_or_imp, forall_eq]
    refine ⟨sound_prelude _, Code.sound_text _,
      Code.sound_sequence_lines (List.forall_mem_map.mpr sound.declarations),
      sound_exported (sound_initializer sound), sound_exported ?_, sound_exported ?_, sound_exported ?_,
      sound_exported ?_, Code.sound_text _⟩
    · exact Code.sound_func _ _ (by simp [Code.SlotsSound]) (by simp [Code.sound_text])
    · exact Code.sound_func _ _ (by simp [Code.SlotsSound]) (by simp [Code.sound_text])
    · exact Code.sound_func _ _ (by simp [Code.SlotsSound]) (by simpa using sound.loop)
    · exact Code.sound_const _ _ (by simp [Code.sound_text]) (List.mem_cons_self ..)
        (isSolid_embedded metadata)
  obtain ⟨text, rendered⟩ := Code.renderAll_total writable
  refine ⟨text, ?_⟩
  unfold source code
  rw [generated]
  cases program.metadata with
  | error fault => rfl
  | ok metadata => exact rendered metadata

end Engine.AssemblyScript

namespace Program

variable {graph : Graph} {catalog : Catalog} {library : Library} {settings : Settings}

/-- Rendering a program that was laid out fails only where the metadata does. -/
theorem Laying.render_eq (laying : Laying graph catalog library settings program)
    (supported : laying.embedded.Supported) (target : Target) :
    ∃ text : String → String, program.render target =
      (Outcome.inContext ("render " ++ target.name) program.metadata).map fun metadata =>
        { artifacts := { target := target.name, code := text metadata, metadata }, program } := by
  obtain ⟨regions, generated, isGenerated⟩ := laying.regions_yields supported
  have supportedNow := laying.keepsEmbedded.supported supported
  have shared : program.dependencies.Sound .javaScript := by
    rw [laying.linking]
    exact sound_link fun module linked => supportedNow.library.modules (supportedNow.modules module linked)
  obtain ⟨text, written⟩ : ∃ text, target.source program = program.metadata.map text := by
    cases target with
    | javaScript =>
        exact Engine.JavaScript.source_eq generated (laying.sound_regions supported isGenerated) shared
    | assemblyScript =>
        exact Engine.AssemblyScript.source_eq generated (laying.sound_regions supported isGenerated)
  refine ⟨text, ?_⟩
  unfold render
  rw [written]
  cases program.metadata with
  | error fault => rfl
  | ok metadata => rfl

end Program

end Patchbay
