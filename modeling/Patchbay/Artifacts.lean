import Patchbay.Fault
import Patchbay.Settings
import Patchbay.Text.Blank

namespace Patchbay

/-! What a build gives: code, metadata and, once it was assembled, a binary module. -/

/-- Reads the name of a target or one of its short forms, in any case and with blanks around it. -/
def Target.parse (name : String) : Outcome Target :=
  match Text.lower (Text.trim name) with
  | "javascript" | "js" => .ok .javaScript
  | "assemblyscript" | "asc" | "as" => .ok .assemblyScript
  | _ => .error (.unknownTarget name)

/-- Checks what every program relies on. -/
def Settings.check (settings : Settings) : Outcome Unit := do
  let _ ← Target.parse settings.target
  if settings.bitDepth ≠ 32 ∧ settings.bitDepth ≠ 64 then
    throw (.unsupportedBitDepth settings.bitDepth)
  if settings.inputs < 0 ∨ settings.outputs < 0 then
    throw (.negativeChannelCount settings.inputs settings.outputs)

structure Artifacts where
  /-- The name of the target language. -/
  target : String
  code : String
  metadata : String
  /-- The binary module, as text of one character for a byte or as it was given. -/
  wasm : String := ""
deriving Inhabited

namespace Artifacts

def get (artifacts : Artifacts) (kind : String) : Outcome String := do
  let data ← match kind with
    | "code" => pure artifacts.code
    | "metadata" => pure artifacts.metadata
    | "wasm" => pure artifacts.wasm
    | _ => throw (.unknownArtifact kind)
  if data = "" then throw (.missingArtifact kind)
  return data

def extension (artifacts : Artifacts) : String :=
  if artifacts.target = Target.assemblyScript.name then ".asc" else ".js"

/-- The text with a line end after its last line. -/
def endLine (text : String) : String :=
  if text.toList.getLast? = some '\n' then text else text ++ "\n"

def archiveFile (name data : String) : String := "-- " ++ name ++ " --\n" ++ endLine data

/-- One text archive with the code, the metadata and the names: a comment, then every file after a
marker line with its name. -/
def bundle (artifacts : Artifacts) (names : List String) : String :=
  "target: " ++ artifacts.target ++ "\n" ++
    archiveFile ("engine" ++ artifacts.extension) artifacts.code ++
    archiveFile "metadata.json" artifacts.metadata ++
    archiveFile "names.txt" (String.intercalate "\n" names) ++
    (if artifacts.wasm = "" then ""
      else archiveFile "engine.wasm.txt"
        ("binary, " ++ Text.ofNat artifacts.wasm.utf8ByteSize ++ " bytes"))

end Artifacts

end Patchbay
