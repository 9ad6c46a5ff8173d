import Patchbay.FileTree
import Patchbay.PatchFile.Json
import Patchbay.PatchFile.Yaml
import Patchbay.Reporter

namespace Patchbay.Patch

/-! Loading patches: the format is named, or it follows from the ending of the path. -/

/-- Decodes a patch in a named format; the empty name stands for JSON. -/
def decode (content format : String) : Outcome Patch := do
  let file ← match format with
    | "yaml" => PatchFile.FromYaml.decode content
    | "json" | "" => PatchFile.FromJson.decode content
    | _ => .error (.unknownFormat format)
  file.toPatch

/-- The part of a path from the last point of its last component on. -/
def extension (path : String) : String :=
  let name := path.toList.reverse.takeWhile (· != '/')
  let ending := name.takeWhile (· != '.')
  if ending.length < name.length then String.ofList ('.' :: ending.reverse) else ""

def formatOf (path : String) : String :=
  let ending := Text.lower (extension path)
  if ending = ".yaml" || ending = ".yml" then "yaml" else "json"

/-- Loads a patch from a file.  Problems with its content are reported as well. -/
def load (tree : FileTree) (path format : String) (reporter : Reporter) :
    Reporter × Outcome Patch :=
  if path = "" then (reporter, .error .missingPath)
  else match tree.read path with
    | .error fault => (reporter, .error (.within "read patch" fault))
    | .ok content =>
        match decode content (if format = "" then formatOf path else format) with
        | .error fault =>
            (reporter.errorAbout path fault.message, .error (.within ("load " ++ path) fault))
        | .ok patch =>
            let count := Text.ofNat patch.graph.ids.length
            (reporter.debug s!"loaded {count} nodes from {path}", .ok patch)

end Patchbay.Patch
