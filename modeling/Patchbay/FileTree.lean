import Patchbay.Fault

namespace Patchbay

/-! The files that a run can see and change.

A path is followed part by part from the working directory, or from the root.  Every
part but the last has to lead to a directory, also where the part behind it goes
back up again.  A directory exists when it was made, when a file lies in it or when
the working directory lies in it.
-/

structure FileTree where
  /-- Contents by path. -/
  files : Table String
  directories : List String := []
deriving Inhabited

/-- A path, as the parts that lead to it. -/
structure Location where
  isAbsolute : Bool
  parts : List String
deriving DecidableEq, Repr

namespace Location

/-- Goes on by a part: not at all, up to the parent or down to a name. -/
def step (location : Location) (part : String) : Location :=
  let { isAbsolute, parts } := location
  if part = "" || part = "." then location
  else if part ≠ ".." then { location with parts := parts ++ [part] }
  else if parts.getLast?.any (· ≠ "..") then { location with parts := parts.dropLast }
  else if isAbsolute then location
  else { location with parts := parts ++ [part] }

/-- Where a path starts: at the root or in the working directory. -/
def start (path : String) : Location := ⟨path.toList.head? == some '/', []⟩

def ofParts (path : String) (parts : List String) : Location := parts.foldl step (start path)

/-- The location that a path spells, whatever exists on the way. -/
def ofPath (path : String) : Location := ofParts path (path.splitOn "/")

/-- The location that the part of a path in front of its last slash spells. -/
def directoryOf (path : String) : Location := ofParts path (path.splitOn "/").dropLast

/-- The key of a location in a file tree. -/
def key (location : Location) : String :=
  (if location.isAbsolute then "/" else "") ++ String.intercalate "/" location.parts

/-- The locations that lead to a location and the location itself, the outermost first. -/
def trail (location : Location) : List Location :=
  (List.range (location.parts.length + 1)).tail.map fun count =>
    { location with parts := location.parts.take count }

/-- Whether a location lies at the working directory or in it. -/
def isInside (location : Location) : Bool :=
  !location.isAbsolute && location.parts.head? != some ".."

end Location

namespace FileTree

def ofFiles (files : List (String × String)) : FileTree :=
  ⟨.ofList (files.map fun (path, content) => ((Location.ofPath path).key, content)), []⟩

/-- The file that is always empty and takes everything. -/
def nullDevice : Location := ⟨true, ["dev", "null"]⟩

def hasFile (tree : FileTree) (location : Location) : Bool :=
  tree.files.contains location.key || location = nullDevice

def hasDirectory (tree : FileTree) (location : Location) : Bool :=
  location.parts.all (· = "..") || tree.directories.contains location.key ||
    (nullDevice.trail.dropLast ++ tree.files.keys.flatMap fun other =>
      (Location.ofPath other).trail.dropLast).contains location

/-- The longest name and the longest path, in bytes. -/
def nameLimit : Nat := 255

def pathLimit : Nat := 4095

/-- Goes on by a part from a location that has to be a directory. -/
def follow (tree : FileTree) (location : Location) (part : String) :
    Except FileProblem Location :=
  if tree.hasDirectory location then
    if nameLimit < part.utf8ByteSize then .error .nameTooLong else .ok (location.step part)
  else .error (if tree.hasFile location then .notDirectory else .missing)

/-- Where a path leads to.  Something may or may not lie there. -/
def resolve (tree : FileTree) (path : String) : Except FileProblem Location :=
  if path = "" then .error .missing
  else if path.toList.contains '\x00' then .error .invalidPath
  else if pathLimit < path.utf8ByteSize then .error .nameTooLong
  else (path.splitOn "/").foldlM tree.follow (.start path)

/-- Whether a path can only be that of a directory. -/
def endsInDirectory (path : String) : Bool :=
  ["", ".", ".."].contains ((path.splitOn "/").getLast?.getD "")

/-- Whether the fault of an operation on files says that a file is not there. -/
def isMissing : Fault → Bool
  | .fileSystem _ _ problem => problem = .missing
  | _ => false

/-- Makes sure that something lies at a path. -/
def stat (tree : FileTree) (path : String) : Outcome Unit :=
  match tree.resolve path with
  | .error problem => .error (.fileSystem "stat" path problem)
  | .ok location =>
      if tree.hasDirectory location then .ok ()
      else if !tree.hasFile location then .error (.fileSystem "stat" path .missing)
      else if endsInDirectory path then .error (.fileSystem "stat" path .notDirectory)
      else .ok ()

def read (tree : FileTree) (path : String) : Outcome String :=
  match tree.resolve path with
  | .error problem => .error (.fileSystem "open" path problem)
  | .ok location =>
      if tree.hasDirectory location then .error (.fileSystem "read" path .isDirectory)
      else if !tree.hasFile location then .error (.fileSystem "open" path .missing)
      else if endsInDirectory path then .error (.fileSystem "open" path .notDirectory)
      else .ok (tree.files.getD location.key "")

def write (tree : FileTree) (path content : String) : Outcome FileTree :=
  match tree.resolve path with
  | .error problem => .error (.fileSystem "open" path problem)
  | .ok location =>
      if endsInDirectory path || tree.hasDirectory location then
        .error (.fileSystem "open" path .isDirectory)
      else if location = nullDevice then .ok tree
      else .ok { tree with files := tree.files.set location.key content }

/-- Makes a directory in one that exists, unless it exists as well. -/
def makeDirectory (tree : FileTree) (location : Location) : Outcome FileTree :=
  if tree.hasDirectory location then .ok tree
  else
    let fault (problem : FileProblem) : Outcome FileTree :=
      .error (.fileSystem "mkdir" location.key problem)
    if tree.hasFile location then fault .notDirectory
    else if location.parts.any (nameLimit < ·.utf8ByteSize) then fault .nameTooLong
    else if location.key.toList.contains '\x00' then fault .invalidPath
    else .ok { tree with directories := tree.directories ++ [location.key] }

/-- Makes the directory that a path spells in front of its last slash, with all that lead to it. -/
def makeParent (tree : FileTree) (path : String) : Outcome FileTree :=
  (Location.directoryOf path).trail.foldlM makeDirectory tree

/-- Writes a file, and makes the directory for it first. -/
def store (tree : FileTree) (path content : String) : Outcome FileTree := do
  let tree ← tree.makeParent path
  tree.write path content

/-- The files that are new or have another content than before. -/
def changedSince (tree before : FileTree) : List (String × String) :=
  tree.files.entries.filter fun (path, content) => before.files.get? path ≠ some content

end FileTree

end Patchbay
