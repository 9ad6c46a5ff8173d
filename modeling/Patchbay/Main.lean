import Patchbay.CommandLine.Basic

/-! The program: it reads the files that its arguments may name, runs the command on them and carries
out what the command asks for.  No assembler is at hand here.
-/

namespace Patchbay

/-- Adds what lies at a path to a file tree; what cannot be read is not there. -/
def readInto (tree : FileTree) (path : String) : IO FileTree := do
  let key := (Location.ofPath path).key
  try
    let place ← IO.FS.realPath path
    if ← place.isDir then return { tree with directories := key :: tree.directories }
    let content ← IO.FS.readFile place
    return { tree with files := tree.files.set key content }
  catch _ => return tree

/-- Adds what lies at a path and on the way to it. -/
def readAlong (tree : FileTree) (path : String) : IO FileTree :=
  let parts := path.splitOn "/"
  (List.range parts.length).foldlM (fun tree count =>
    readInto tree (String.intercalate "/" (parts.take (count + 1)))) tree

def readEnvironment (names : List String) : IO (Table String) := do
  let mut environment : Table String := ∅
  for name in names do
    if let some value ← IO.getEnv name then
      environment := environment.set name value
  return environment

def writeOut (path content : String) : IO Unit := do
  let directory := (Location.directoryOf path).key
  if directory ≠ "" then IO.FS.createDirAll directory
  IO.FS.writeFile path content

end Patchbay

open Patchbay

def main (arguments : List String) : IO UInt32 := do
  let environment ← readEnvironment Configuration.variableNames
  let tree ← (CommandLine.paths arguments).foldlM readAlong default
  let (session, fault) := CommandLine.run (.ofTools environment {}) tree arguments
  IO.eprint session.diagnostics
  IO.print session.output
  for (path, content) in session.tree.changedSince tree do
    writeOut path content
  match fault with
  | none => return 0
  | some fault =>
      IO.eprintln fault.message
      return 1
