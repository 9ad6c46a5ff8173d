import Patchbay.Artifacts
import Patchbay.FileTree

namespace Patchbay

/-! Turning AssemblyScript code into a binary module with an assembler from outside. -/

/-- What an assembler does with a source and flags. -/
inductive AssemblerRun where
  /-- It wrote a file. -/
  | wrote (content : String)
  /-- It ended well and wrote nothing. -/
  | wroteNothing
  | failed (status : Nat)

abbrev Assembler := (source : String) → (flags : List String) → AssemblerRun

/-- The assemblers that can be started: by their path, or by name alone. -/
structure Tools where
  byPath : List (String × Assembler) := []
  byName : Option Assembler := none

structure AssemblyOptions where
  /-- The path of the assembler; when it is empty, the one that is found by name. -/
  assemblerPath : String := ""
  flags : List String := []
  /-- Where to leave the source that is handed over; nowhere when it is empty. -/
  sourcePath : String := ""
deriving Repr, Inhabited

namespace Assembler

/-- The characters that every binary module begins with. -/
def magic : List Char := ['\x00', 'a', 's', 'm']

def isModule (content : String) : Bool := magic.isPrefixOf content.toList

/-- Stands for a file that is no program: starting it fails. -/
inductive Found where
  | program (assembler : Assembler)
  | noProgram (path : String)

def find (tools : Tools) (tree : FileTree) (path : String) : Outcome Found :=
  if path = "" then
    match tools.byName with
    | some assembler => .ok (.program assembler)
    | none => .error (.missingProgram "asc")
  else match tools.byPath.lookup path with
    | some assembler => .ok (.program assembler)
    | none => (tree.stat path).map fun _ => .noProgram path

/-- The output of an assembler, once it was found. -/
def start (found : Found) (source : String) (flags : List String) : Outcome String :=
  match found with
  | .noProgram path =>
      .error (.within "backend: asc failed"
        (if path.toList.contains '/' then .fileSystem "fork/exec" path .notPermitted
          else .missingProgram path))
  | .program assembler =>
      match assembler source flags with
      | .wrote content => .ok content
      | .wroteNothing => .error (.within "backend: read wasm output"
          (.fileSystem "open" "engine.wasm" .missing))
      | .failed status => .error (.failedProgram status)

/-- Leaves the source where the options ask for it. -/
def leaveSource (tree : FileTree) (path source : String) : Outcome FileTree := do
  if path = "" then return tree
  let tree ← Outcome.inContext "backend: create source dump dir" (tree.makeParent path)
  Outcome.inContext "backend: write source" (tree.write path source)

end Assembler

namespace Artifacts

open Assembler

/-- The code to assemble and the assembler for it. -/
def assemblyInput (artifacts : Artifacts) (tools : Tools) (options : AssemblyOptions)
    (tree : FileTree) : Outcome (String × Found) := do
  if artifacts.target ≠ Target.assemblyScript.name then throw (.wrongTarget artifacts.target)
  let source ← Outcome.inContext "backend" (artifacts.get "code")
  let found ← Outcome.inContext "backend: resolve asc" (find tools tree options.assemblerPath)
  return (source, found)

/-- Assembles the code of a build.  The source that was left behind stays when what follows
fails. -/
def assemble (artifacts : Artifacts) (tools : Tools) (options : AssemblyOptions)
    (tree : FileTree) : FileTree × Outcome Artifacts :=
  match artifacts.assemblyInput tools options tree with
  | .error fault => (tree, .error fault)
  | .ok (source, found) =>
      match leaveSource tree options.sourcePath source with
      | .error fault => (tree, .error fault)
      | .ok tree =>
          (tree, do
            let wasm ← start found source options.flags
            if isModule wasm then return { artifacts with wasm } else throw .notAModule)

/-- Assembles a build that may be missing. -/
def assembleAny (artifacts : Option Artifacts) (tools : Tools) (options : AssemblyOptions)
    (tree : FileTree) : FileTree × Outcome Artifacts :=
  match artifacts with
  | some artifacts => artifacts.assemble tools options tree
  | none => (tree, .error .missingArtifacts)

end Artifacts

end Patchbay
