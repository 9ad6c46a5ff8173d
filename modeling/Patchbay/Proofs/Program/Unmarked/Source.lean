import Patchbay.Compile
import Patchbay.Proofs.Program.OneLine
import Patchbay.Proofs.Program.Unmarked.Regions

namespace Patchbay

/-! Source texts without marker lines.

What an engine puts around the regions of an unmarked program are fixed texts, names, literals of what the
user called nodes and portlets, and the metadata, which is one line in quotes.
-/

open Code (AllUnmarked Part SlotUnmarked SlotsUnmarked allUnmarked_iff slotsUnmarked_iff)
open Outcome (Ends Ensures ends_pure ensures_bind)
open Program (unmarked_messageArg unmarked_messageFunction)
open Text (isUnmarked isUnmarked_append isUnmarked_literal)

namespace Code

theorem slotUnmarked_arg {type name : String} (typed : Text.isUnmarked type = true)
    (named : Text.isUnmarked name = true) : SlotUnmarked (arg type name) :=
  ⟨⟨named, typed⟩, nofun⟩

end Code

theorem Settings.unmarked_floatArrayType (settings : Settings) : isUnmarked settings.floatArrayType = true := by
  unfold floatArrayType
  split <;> decide

variable {program : Program} {regions : Regions} {metadata : String}

namespace Engine

/-- A conversion of the prelude. -/
theorem unmarked_conversion {name argument result statement : String} (named : isUnmarked name = true)
    (argued : isUnmarked argument = true) (typed : isUnmarked result = true)
    (unmarked : isUnmarked statement = true) :
    (Part.ofFunction (Code.func name [Code.arg argument "v"] result [statement])).Unmarked :=
  Code.unmarked_func named (slotsUnmarked_iff.mpr (List.forall_mem_singleton.mpr
    (Code.slotUnmarked_arg argued (by decide)))) typed (.single (Code.unmarked_text unmarked))

/-- A variable for audio buffers. -/
theorem unmarked_buffer {type name initial : String} (typed : isUnmarked type = true)
    (named : isUnmarked name = true) (unmarked : isUnmarked initial = true) :
    (Code.var type name [initial]).Unmarked :=
  Code.unmarked_var named typed (.single (Code.unmarked_text unmarked))

namespace JavaScript

theorem unmarked_prelude (settings : Settings) : (Part.sequence (prelude settings)).Unmarked := by
  refine Code.unmarked_sequence_lines ?_
  simp only [List.mem_cons, List.not_mem_nil, or_false, forall_eq_or_imp, forall_eq]
  refine ⟨Code.unmarked_sequence_code (.cons (Code.unmarked_text (by decide))
      (.single (Code.unmarked_text settings.unmarked_floatArrayType))),
    unmarked_conversion (by decide) (by decide) (by decide) ?_,
    unmarked_conversion (by decide) (by decide) (by decide) (by decide), Regions.unmarked_coreVariables,
    unmarked_buffer (by decide) (by decide) (by decide), unmarked_buffer (by decide) (by decide) (by decide)⟩
  split <;> decide

theorem unmarked_importForwarders (unmarked : program.dependencies.Unmarked) :
    (Part.sequence (importForwarders program)).Unmarked := by
  refine Code.unmarked_sequence_lines (List.forall_mem_map.mpr fun entry listed => ?_)
  have own := unmarked.imports entry listed
  have args : isUnmarked (String.intercalate ", " (entry.function.args.map fun slot => slot.1.name)) = true :=
    Text.isUnmarked_intercalate (by decide) (List.forall_mem_map.mpr fun slot member =>
      (slotsUnmarked_iff.mp own.args slot member).1.name)
  refine Code.unmarked_func own.name own.args own.result ?_
  simp only [AllUnmarked, Part.Unmarked, args, isUnmarked_literal, and_true, true_and]
  decide

theorem unmarked_hostSenders (unmarked : program.Unmarked) :
    (Part.sequence (hostSenders program)).Unmarked := by
  refine Code.unmarked_sequence_lines (List.forall_mem_map.mpr fun hostPort listed => ?_)
  obtain ⟨_, named⟩ := unmarked.hostSenders.of_mem listed
  refine unmarked_messageFunction named ?_
  simp only [AllUnmarked, Part.Unmarked, isUnmarked_literal, and_true, true_and]
  decide

/-- The entry of a table under a name that the user gave. -/
theorem unmarked_entry {name : String} {value : Part} (unmarked : value.Unmarked) :
    (Part.sequence (Code.code [Text.literal name, ": ", value, ","])).Unmarked :=
  Code.unmarked_sequence_code (.cons (Code.unmarked_text (isUnmarked_literal name))
    (.cons (Code.unmarked_text (by decide)) (.cons unmarked (.single (Code.unmarked_text (by decide))))))

/-- Entries in braces, after a text. -/
theorem unmarked_braced {entries : List Part} (all : ∀ entry ∈ entries, entry.Unmarked) :
    AllUnmarked (Code.code ["\x7b\n", .sequence (Code.lines entries), "\n\x7d"]) :=
  Code.unmarked_code (.cons (Code.unmarked_text (by decide)) (.cons (Code.unmarked_sequence_lines all)
    (.single (Code.unmarked_text (by decide)))))

theorem unmarked_subtable {name : String} {entries : List Part} (all : ∀ entry ∈ entries, entry.Unmarked) :
    (Part.sequence (Code.code [Text.literal name, ": \x7b\n", .sequence (Code.lines entries),
      "\n\x7d,"])).Unmarked :=
  Code.unmarked_sequence_code (.cons (Code.unmarked_text (isUnmarked_literal name))
    (.cons (Code.unmarked_text (by decide)) (.cons (Code.unmarked_sequence_lines all)
      (.single (Code.unmarked_text (by decide))))))

theorem unmarked_portTable {ports : List HostPort} {value : HostPort → Part}
    (all : ∀ hostPort ∈ ports, (value hostPort).Unmarked) :
    (Part.sequence (portTable ports value)).Unmarked := by
  unfold portTable
  dsimp only
  rw [Code.unmarked_sequence_iff]
  split
  · exact Code.unmarked_code (.single (Code.unmarked_text (by decide)))
  · refine unmarked_braced (List.forall_mem_map.mpr fun node _ => ?_)
    refine unmarked_subtable (List.forall_mem_map.mpr fun hostPort own => ?_)
    exact unmarked_entry (all hostPort (List.mem_filter.mp own).1)

theorem unmarked_moduleEntries (unmarked : program.dependencies.Unmarked) (module : Module) :
    ∀ part ∈ moduleEntries program module, part.Unmarked := by
  refine List.forall_mem_append.mpr ⟨List.forall_mem_map.mpr fun entry listed => ?_,
    List.forall_mem_map.mpr fun entry _ => ?_⟩
  · exact unmarked_entry (Code.unmarked_text (unmarked.exports entry (List.mem_filter.mp listed).1))
  · refine unmarked_entry (Code.unmarked_func rfl (slotsUnmarked_iff.mpr (by simp)) (by decide) ?_)
    simp only [AllUnmarked, Part.Unmarked, isUnmarked_literal, and_true, true_and]
    decide

theorem unmarked_moduleTable (unmarked : program.dependencies.Unmarked) :
    (Part.sequence (moduleTable program)).Unmarked := by
  unfold moduleTable
  dsimp only
  rw [Code.unmarked_sequence_iff]
  split
  · exact Code.unmarked_code (.single (Code.unmarked_text (by decide)))
  · refine unmarked_braced fun part listed => ?_
    obtain ⟨module, _, given⟩ := List.mem_filterMap.mp listed
    split at given
    · cases given
    · cases given
      exact unmarked_subtable (unmarked_moduleEntries unmarked module)

theorem unmarked_initializer (unmarked : regions.Unmarked) :
    (Part.ofFunction (initializer regions)).Unmarked := by
  have slots : ∀ slot ∈ [Code.arg "Float" "sampleRate", Code.arg "Int" "blockSize"], SlotUnmarked slot :=
    List.forall_mem_cons.mpr ⟨Code.slotUnmarked_arg (by decide) (by decide),
      List.forall_mem_singleton.mpr (Code.slotUnmarked_arg (by decide) (by decide))⟩
  refine Code.unmarked_func rfl (slotsUnmarked_iff.mpr slots) (by decide)
    (.single (Code.unmarked_sequence_lines ?_))
  simp only [List.mem_cons, List.not_mem_nil, or_false, forall_eq_or_imp, forall_eq]
  exact ⟨Code.unmarked_text (by decide), Code.unmarked_text (by decide), unmarked.initializeBody⟩

theorem unmarked_dspLoop (unmarked : regions.Unmarked) : (Part.ofFunction (dspLoop regions)).Unmarked := by
  have slots : ∀ slot ∈ [Code.arg "Array<FloatArray>" "input", Code.arg "Array<FloatArray>" "output"],
      SlotUnmarked slot :=
    List.forall_mem_cons.mpr ⟨Code.slotUnmarked_arg (by decide) (by decide),
      List.forall_mem_singleton.mpr (Code.slotUnmarked_arg (by decide) (by decide))⟩
  refine Code.unmarked_func rfl (slotsUnmarked_iff.mpr slots) (by decide)
    (.single (Code.unmarked_sequence_lines ?_))
  simp only [List.mem_cons, List.not_mem_nil, or_false, forall_eq_or_imp, forall_eq]
  refine ⟨Code.unmarked_sequence_code ?_, Code.unmarked_sequence_code ?_,
    Code.unmarked_sequence_iff.mpr unmarked.loop⟩ <;>
  · simp only [AllUnmarked, Part.Unmarked, and_true]
    decide

/-- A field of the engine object. -/
theorem unmarked_field {name ending : String} {value : Part} (named : isUnmarked name = true)
    (unmarked : value.Unmarked) (ended : isUnmarked ending = true) :
    (Part.sequence (Code.code [name, value, ending])).Unmarked :=
  Code.unmarked_sequence_code (.cons (Code.unmarked_text named)
    (.cons unmarked (.single (Code.unmarked_text ended))))

theorem unmarked_engineObject (unmarked : program.Unmarked) (generated : regions.Unmarked)
    (oneLine : Text.OneLine metadata) : (Part.sequence (engineObject program regions metadata)).Unmarked := by
  have receivers : (Part.sequence (portTable program.hostReceivers.values fun hostPort =>
      hostPort.functionName)).Unmarked := unmarked_portTable fun hostPort listed => by
    obtain ⟨_, named⟩ := unmarked.hostReceivers.of_mem listed
    exact Code.unmarked_text named
  have senders : (Part.sequence (portTable program.hostSenders.values fun _ =>
      Code.func "" [messageArg] "void")).Unmarked :=
    unmarked_portTable fun _ _ => unmarked_messageFunction rfl .nil
  refine Code.unmarked_sequence_lines ?_
  simp only [List.mem_cons, List.not_mem_nil, or_false, forall_eq_or_imp, forall_eq]
  exact ⟨Code.unmarked_text (by decide),
    unmarked_field (by decide) (Code.unmarked_text (Text.isUnmarked_embedded oneLine)) (by decide),
    unmarked_field (by decide) (unmarked_initializer generated) (by decide),
    unmarked_field (by decide) (unmarked_dspLoop generated) (by decide), Code.unmarked_text (by decide),
    unmarked_field (by decide) receivers (by decide), unmarked_field (by decide) senders (by decide),
    Code.unmarked_text (by decide),
    unmarked_field (by decide) (unmarked_moduleTable unmarked.dependencies) (by decide),
    Code.unmarked_text (by decide)⟩

theorem source_unmarked (unmarked : program.Unmarked) :
    Ensures (source program) fun text => isUnmarked text = true := by
  refine Ends.bind (unmarked.regions.bind fun regions _ generated =>
    program.metadata_oneLine.bind fun metadata _ oneLine => ends_pure (Code.unmarked_lines (allUnmarked_iff.mpr ?_)))
    fun code _ written => Code.renderAll_unmarked Code.Dialect.javaScript_unmarked code written
  simp only [List.mem_cons, List.not_mem_nil, or_false, forall_eq_or_imp, forall_eq]
  exact ⟨Code.unmarked_text (by decide), unmarked_prelude _, unmarked_importForwarders unmarked.dependencies,
    generated.declarations, unmarked_hostSenders unmarked, unmarked_engineObject unmarked generated oneLine,
    Code.unmarked_text (by decide), Code.unmarked_text (by decide)⟩

end JavaScript

namespace AssemblyScript

theorem unmarked_prelude (settings : Settings) : (Part.sequence (prelude settings)).Unmarked := by
  refine Code.unmarked_sequence_lines ?_
  simp only [List.mem_cons, List.not_mem_nil, or_false, forall_eq_or_imp, forall_eq]
  refine ⟨Code.unmarked_sequence_code (.cons (Code.unmarked_text (by decide)) (.single (Code.unmarked_text ?_))),
    Code.unmarked_text (by decide),
    Code.unmarked_sequence_code (.cons (Code.unmarked_text (by decide))
      (.single (Code.unmarked_text settings.unmarked_floatArrayType))),
    unmarked_conversion (by decide) (by decide) (by decide) (by decide),
    unmarked_conversion (by decide) (by decide) (by decide) (by decide), Regions.unmarked_coreVariables,
    unmarked_buffer (by decide) (by decide) (by decide), unmarked_buffer (by decide) (by decide) (by decide)⟩
  split <;> decide

theorem unmarked_declareImport {function : Code.Function} (unmarked : function.Unmarked) :
    isUnmarked (Code.Dialect.declareImport function) = true :=
  isUnmarked_append (isUnmarked_append (by decide) unmarked.name)
    (Code.Dialect.unmarked_signature (List.forall_mem_map.mpr fun slot member =>
      Code.Dialect.unmarked_typed (slotsUnmarked_iff.mp unmarked.args slot member).1) unmarked.result)

theorem unmarked_imports (unmarked : program.Unmarked) : isUnmarked (imports program) = true :=
  Text.isUnmarked_intercalate (by decide) (List.forall_mem_append.mpr
    ⟨List.forall_mem_map.mpr fun entry listed =>
      unmarked_declareImport (unmarked.dependencies.imports entry listed),
    List.forall_mem_map.mpr fun function listed =>
      unmarked_declareImport (unmarked.hostSenderFunctions function listed)⟩)

theorem unmarked_exports (unmarked : program.Unmarked) : isUnmarked (exports program) = true := by
  have names : ∀ name ∈ program.dependencies.exports.map (·.name) ++
      program.hostReceivers.values.map (·.functionName), isUnmarked name = true := by
    refine List.forall_mem_append.mpr ⟨List.forall_mem_map.mpr unmarked.dependencies.exports,
      List.forall_mem_map.mpr fun hostPort listed => ?_⟩
    obtain ⟨_, named⟩ := unmarked.hostReceivers.of_mem listed
    exact named
  unfold exports
  dsimp only
  split
  · rfl
  · exact isUnmarked_append (isUnmarked_append (by decide) (Text.isUnmarked_intercalate (by decide) names))
      (by decide)

theorem unmarked_exported {part : Part} (unmarked : part.Unmarked) : (exported part).Unmarked :=
  Code.unmarked_sequence_code (.cons (Code.unmarked_text (by decide)) (.single unmarked))

/-- A function that gives a value without taking one. -/
theorem unmarked_getter {name result : String} {body : List Part} (named : isUnmarked name = true)
    (typed : isUnmarked result = true) (unmarked : AllUnmarked body) :
    (exported (Code.func name [] result body)).Unmarked :=
  unmarked_exported (Code.unmarked_func named (slotsUnmarked_iff.mpr (by simp)) typed unmarked)

theorem unmarked_initializer (unmarked : regions.Unmarked) :
    (Part.ofFunction (initializer program regions)).Unmarked := by
  have slots : ∀ slot ∈ [Code.arg "Float" "sampleRate", Code.arg "Int" "blockSize"], SlotUnmarked slot :=
    List.forall_mem_cons.mpr ⟨Code.slotUnmarked_arg (by decide) (by decide),
      List.forall_mem_singleton.mpr (Code.slotUnmarked_arg (by decide) (by decide))⟩
  refine Code.unmarked_func (by decide) (slotsUnmarked_iff.mpr slots) (by decide)
    (.single (Code.unmarked_sequence_lines ?_))
  simp only [List.mem_cons, List.not_mem_nil, or_false, forall_eq_or_imp, forall_eq]
  refine ⟨unmarked.initializeBody, Code.unmarked_sequence_code ?_, Code.unmarked_sequence_code ?_⟩ <;>
  · simp only [AllUnmarked, Part.Unmarked, and_true, true_and]
    decide

theorem source_unmarked (unmarked : program.Unmarked) :
    Ensures (source program) fun text => isUnmarked text = true := by
  refine Ends.bind (unmarked.regions.bind fun regions _ generated =>
    program.metadata_oneLine.bind fun metadata _ oneLine => ends_pure (Code.unmarked_lines (allUnmarked_iff.mpr ?_)))
    fun code _ written => Code.renderAll_unmarked Code.Dialect.assemblyScript_unmarked code written
  have described : (Code.const "string" "metadata" [Text.embedded metadata]).Unmarked :=
    Code.unmarked_const (by decide) (by decide) (.single (Code.unmarked_text (Text.isUnmarked_embedded oneLine)))
  simp only [List.mem_cons, List.not_mem_nil, or_false, forall_eq_or_imp, forall_eq]
  refine ⟨unmarked_prelude _, Code.unmarked_text (unmarked_imports unmarked), generated.declarations,
    unmarked_exported (unmarked_initializer generated), unmarked_getter (by decide) (by decide) ?_,
    unmarked_getter (by decide) (by decide) ?_,
    unmarked_getter (by decide) (by decide) (.single (Code.unmarked_sequence_iff.mpr generated.loop)),
    unmarked_exported described, Code.unmarked_text (unmarked_exports unmarked)⟩ <;>
  · simp only [AllUnmarked, Part.Unmarked, and_true]
    decide

end AssemblyScript

end Engine

theorem Target.source_unmarked (unmarked : program.Unmarked) (target : Target) :
    Ensures (target.source program) fun text => isUnmarked text = true := by
  cases target with
  | javaScript => exact Engine.JavaScript.source_unmarked unmarked
  | assemblyScript => exact Engine.AssemblyScript.source_unmarked unmarked

end Patchbay
