import Patchbay.Proofs.Program.Unmarked.Generation
import Patchbay.Proofs.Program.Unmarked.Source
import Patchbay.Proofs.Text.Archive

namespace Patchbay

/-! Bundles are read back.

Whatever the user calls nodes and portlets, and whatever arguments and metadata come along, no line of a
compiled program looks like a marker line.  So the files of a bundle are read back as they were packed.
-/

open Archive (IsContent IsFileName IsMarker Reads)
open Artifacts (endLine)
open Patchbay.Graph (endLines)
open Text (EndsLine OneLine isUnmarked isUnmarked_append lines)

/-! ## Names -/

theorem Text.joinParts_ne_nil {first second : String} {rest : List String} :
    joinParts (first :: second :: rest) ≠ [] := by
  rw [joinParts_cons_cons]
  exact List.append_ne_nil_of_right_ne_nil _ (List.cons_ne_nil _ _)

/-- A name has several parts, and is one line. -/
structure Text.IsWord (name : String) : Prop where
  given : name ≠ ""
  oneLine : OneLine name
  unmarked : isUnmarked name = true

theorem NameIndex.isWord_of_mem {index : NameIndex} {name : String} (member : name ∈ index.allNames) :
    Text.IsWord name := by
  obtain ⟨subject, _, rfl⟩ := mem_allNames_iff.mp member
  rw [nameFor_eq_join]
  have several : ∃ first second rest, subject.parts index = first :: second :: rest := by
    cases subject with
    | handle space key => cases space <;> exact ⟨_, _, _, rfl⟩
    | state node => exact ⟨_, _, _, rfl⟩
  refine ⟨fun empty => ?_, Text.oneLine_of_tame Text.isTame_of_mem_joinParts, Text.isUnmarked_identifier _⟩
  obtain ⟨first, second, rest, parts⟩ := several
  rw [parts] at empty
  exact Text.joinParts_ne_nil (String.ofList_eq_empty_iff.mp empty)

/-! ## Contents -/

theorem endsLine_append (text : String) : EndsLine (text ++ "\n") := by
  simp [EndsLine]

theorem endsLine_endLine (text : String) : EndsLine (endLine text) := by
  unfold endLine
  split
  · next ended => exact ended
  · exact endsLine_append text

theorem isUnmarked_endLine {text : String} (unmarked : isUnmarked text = true) :
    isUnmarked (endLine text) = true := by
  unfold endLine
  split
  · exact unmarked
  · exact isUnmarked_append unmarked (by decide)

theorem isContent_endLine {text : String} (unmarked : isUnmarked text = true) : IsContent (endLine text) :=
  Archive.isContent_of_isUnmarked (endsLine_endLine text) (isUnmarked_endLine unmarked)

/-- Words with line ends between them do not end with a line end. -/
theorem getLast?_intercalate {names : List String} (given : names ≠ [])
    (words : ∀ name ∈ names, Text.IsWord name) :
    ∃ c, c ≠ '\n' ∧ (String.intercalate "\n" names).toList.getLast? = some c := by
  match names with
  | [] => exact absurd rfl given
  | [name] =>
      obtain ⟨given, oneLine, _⟩ := words name (List.mem_cons_self ..)
      rw [String.intercalate_singleton]
      have letters : name.toList ≠ [] := fun same => given (String.toList_eq_nil_iff.mp same)
      refine ⟨_, fun feed => ?_, List.getLast?_eq_some_getLast letters⟩
      exact oneLine (feed ▸ List.getLast_mem letters)
  | name :: next :: rest =>
      obtain ⟨c, apart, last⟩ := getLast?_intercalate (List.cons_ne_nil next rest)
        (List.forall_mem_cons.mp words).2
      refine ⟨c, apart, ?_⟩
      rw [String.intercalate_cons_cons, String.toList_append, List.getLast?_append, last]
      rfl

theorem endLine_intercalate {names : List String} (given : names ≠ [])
    (words : ∀ name ∈ names, Text.IsWord name) :
    endLine (String.intercalate "\n" names) = endLines names := by
  obtain ⟨c, apart, last⟩ := getLast?_intercalate given words
  rw [Archive.endLines_eq_intercalate given, endLine, last, if_neg (by simpa using apart)]

/-! ## Bundles -/

variable {graph : Graph} {settings : Settings} {reporter : Reporter} {compiled : Compiled}

/-- The file that the code of a target goes into. -/
def Target.engineFile : Target → String
  | .javaScript => "engine.js"
  | .assemblyScript => "engine.asc"

/-- What the bundle of a compiled program holds: its code, its metadata, and one line for every name. -/
def Compiled.archive (compiled : Compiled) (target : Target) : Archive where
  comment := "target: " ++ target.name ++ "\n"
  files := [
    (target.engineFile, endLine compiled.artifacts.code),
    ("metadata.json", endLine compiled.artifacts.metadata),
    ("names.txt", endLines compiled.names)]

/-- A bundle without a binary module: a comment, then three files with their marker lines. -/
theorem bundle_eq {artifacts : Artifacts} {target : Target} (own : artifacts.target = target.name)
    (empty : artifacts.wasm = "") (names : List String) : artifacts.bundle names =
      "target: " ++ target.name ++ "\n" ++ ("-- " ++ target.engineFile ++ " --\n") ++
        (endLine artifacts.code ++ ("-- " ++ "metadata.json" ++ " --\n") ++
          (endLine artifacts.metadata ++ ("-- " ++ "names.txt" ++ " --\n") ++
            endLine (String.intercalate "\n" names))) := by
  have engine : "engine" ++ artifacts.extension = target.engineFile := by
    unfold Artifacts.extension
    rw [own]
    cases target <;> rfl
  unfold Artifacts.bundle Artifacts.archiveFile
  rw [own, empty, engine, if_pos rfl, String.append_empty]
  simp only [String.append_assoc]

theorem names_ne_nil (accepted : (graph.check (some .standard) reporter).2 = .ok ())
    (done : compile graph .standard .standard settings = .ok compiled) : compiled.names ≠ [] := by
  obtain ⟨target, _, _, laidOut, _⟩ := compile_eq_ok done
  obtain ⟨laying⟩ := Program.laying_of_precompile (Graph.wellFormed_of_check accepted) laidOut
  have supported := laying.setup.supported Catalog.standard_sound Library.standard_sound
  have backed := (laying.keepsEmbedded.supported supported).essential ("msg", "emptyMessage")
    (by simp [Library.essential])
  have handedOut := (laying.handedOut_iff supported).mpr (.backed backed)
  exact List.ne_nil_of_mem (NameIndex.mem_allNames_iff.mpr ⟨_, handedOut, rfl⟩)

/-- Neither the code nor the metadata nor a name of a compiled program holds a marker line, so its bundle
is read back as the archive that it was packed from. -/
theorem bundles_are_read_back {parse : String → Archive} (reads : Reads parse)
    (accepted : (graph.check (some .standard) reporter).2 = .ok ())
    (done : compile graph .standard .standard settings = .ok compiled) :
    ∃ target, Target.parse settings.target = .ok target ∧
      (∀ text ∈ compiled.artifacts.code :: compiled.artifacts.metadata :: compiled.names,
        ∀ line ∈ lines text, ¬ IsMarker line) ∧
      (∀ name ∈ compiled.names, OneLine name) ∧
      parse (compiled.artifacts.bundle compiled.names) = compiled.archive target ∧
      ∀ file ∈ (compiled.archive target).files, EndsLine file.2 := by
  obtain ⟨target, parsed, _, laidOut, rendered⟩ := compile_eq_ok done
  have unmarked := Program.precompile_unmarked (Graph.forwardsUnmarked_of_check accepted)
    Catalog.standard_unmarked Library.standard_unmarked laidOut
  obtain ⟨code, metadata, written, described, same⟩ := Program.render_eq_ok rendered
  have artifacts : compiled.artifacts = { target := target.name, code, metadata } := by rw [same]
  have codeUnmarked : isUnmarked compiled.artifacts.code = true := by
    rw [artifacts]
    exact (Target.source_unmarked unmarked target).of_ok written
  have metadataUnmarked : isUnmarked compiled.artifacts.metadata = true := by
    rw [artifacts]
    exact compiled.program.metadata_unmarked.of_ok described
  have words : ∀ name ∈ compiled.names, Text.IsWord name := fun name => NameIndex.isWord_of_mem
  have names := endLine_intercalate (names_ne_nil accepted done) words
  refine ⟨target, parsed, ?_, fun name member => (words name member).oneLine, ?_, ?_⟩
  · refine List.forall_mem_cons.mpr ⟨Archive.not_isMarker_of_isUnmarked codeUnmarked,
      List.forall_mem_cons.mpr ⟨Archive.not_isMarker_of_isUnmarked metadataUnmarked, ?_⟩⟩
    exact fun name member => Archive.not_isMarker_of_isUnmarked (words name member).unmarked
  · have comment : IsContent ("target: " ++ target.name ++ "\n") :=
      Archive.isContent_of_isUnmarked (endsLine_append _) (by cases target <;> decide)
    have listed : IsContent (endLine (String.intercalate "\n" compiled.names)) :=
      isContent_endLine (Text.isUnmarked_intercalate (by decide) fun name member => (words name member).unmarked)
    have engine : IsFileName target.engineFile := by
      cases target <;> exact ⟨by decide, by decide, by decide⟩
    rw [bundle_eq (by rw [artifacts]) (by rw [artifacts]), reads.file _ comment engine,
      reads.file _ (isContent_endLine codeUnmarked) ⟨by decide, by decide, by decide⟩,
      reads.file _ (isContent_endLine metadataUnmarked) ⟨by decide, by decide, by decide⟩,
      reads.comment listed, names]
    rfl
  · simp only [Compiled.archive, List.mem_cons, List.not_mem_nil, or_false, forall_eq_or_imp, forall_eq]
    exact ⟨endsLine_endLine _, endsLine_endLine _, names ▸ endsLine_endLine _⟩

/-- The bundle of the tone with a gain is read back line by line, although an array and the metadata
spell marker lines. -/
theorem bundle_of_gain_is_read_back : Reads Archive.read ∧
    (gainGraph.check (some .standard) .discarding).2 = .ok () ∧
    ∀ target, ∃ compiled, compileFor gainGraph gainSettings target = .ok compiled ∧
      Archive.read (compiled.artifacts.bundle compiled.names) = compiled.archive target := by
  refine ⟨Archive.read_reads, gain_accepted, fun target => ?_⟩
  obtain ⟨compiled, done⟩ := gain_compiled target
  obtain ⟨other, parsed, _, _, readBack, _⟩ :=
    bundles_are_read_back Archive.read_reads gain_accepted done
  cases target.parse_name.symm.trans parsed
  exact ⟨compiled, done, readBack⟩

end Patchbay
