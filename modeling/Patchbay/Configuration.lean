import Patchbay.FileTree
import Patchbay.Format.DotEnv
import Patchbay.Format.Yaml.Decode
import Patchbay.Settings

namespace Patchbay

/-! Where settings come from: defaults, a settings file, an environment file and the environment of
the process, each over the ones before it.
-/

namespace Settings

open Yaml (Decoder)

def ports : Decoder (Option Ports) := .table (.optionalList .text "") none

def channelFields : Decoder Settings := .record [
  ("in", .field (·.inputs) (fun settings inputs => { settings with inputs }) .integer),
  ("out", .field (·.outputs) (fun settings outputs => { settings with outputs }) .integer)]

def audioFields : Decoder Settings := .record [
  ("bitDepth", .field (·.bitDepth) (fun settings bitDepth => { settings with bitDepth }) .integer),
  ("channelCount", channelFields)]

def portFields : Decoder Settings := .record [
  ("messageReceivers",
    .field (·.receivers) (fun settings receivers => { settings with receivers }) ports),
  ("messageSenders",
    .field (·.senders) (fun settings senders => { settings with senders }) ports)]

def fields : Decoder Settings := .record [
  ("target", .field (·.target) (fun settings target => { settings with target }) .text),
  ("audio", audioFields),
  ("io", portFields),
  ("arrays", .field (fun settings => some settings.arrays)
    (fun settings arrays => { settings with arrays := arrays.getD ∅ })
    (.table (.list .number 0) [])),
  ("customMetadata", .field (·.customMetadata)
    (fun settings customMetadata => { settings with customMetadata }) (.table .any .null)),
  ("debug", .field (·.debug) (fun settings debug => { settings with debug }) .bool)]

/-- Lays the settings of a file over others. -/
def overlay (settings : Settings) (content : String) : Option Settings := do
  let document ← Yaml.read? content
  match fields settings document with
  | .malformed => none
  | .nothing => some settings
  | .value changed => some changed

end Settings

structure Configuration where
  settings : Settings
  /-- The name of the format of diagnostics. -/
  logFormat : String := "text"

namespace Configuration

def readSettings (tree : FileTree) (path : String) : Outcome Settings :=
  if path = "" then .ok {}
  else match tree.read path with
    | .error fault => .error (.within "read settings" fault)
    | .ok content =>
        match Settings.overlay {} content with
        | some settings => .ok settings
        | none =>
            .error (.within s!"decode settings {path}" (.malformedYaml "unexpected input"))

/-- Reads an environment file; one that is not there binds nothing. -/
def readEnvironment (tree : FileTree) (path : String) : Outcome (Table String) :=
  if path = "" then .ok ∅
  else match tree.read path with
    | .ok content =>
        match DotEnv.read? content with
        | some bindings => .ok bindings
        | none => .error (.within s!"read {path}" (.malformedEnvironment "unexpected input"))
    | .error fault =>
        if FileTree.isMissing fault then .ok ∅ else .error (.within s!"read {path}" fault)

/-- The variables that are looked up. -/
def variableNames : List String :=
  ["PDC_TARGET", "PDC_BIT_DEPTH", "PDC_CHANNELS_IN", "PDC_CHANNELS_OUT", "PDC_DIAG_FORMAT"]

/-- A variable of the process, or else of the environment file; empty ones do not count. -/
def lookup (process file : Table String) (name : String) : Option String :=
  let set (value : Option String) : Option String := value.filter (· ≠ "")
  (set (process.get? name)).or (set (file.get? name))

def applyInteger (name : String) (value : Option String) (apply : Int → Settings)
    (unchanged : Settings) : Outcome Settings :=
  match value with
  | none => .ok unchanged
  | some text =>
      match Text.integer? text with
      | some number => .ok (apply number)
      | none => .error (.notAnInteger name text)

def applyEnvironment (configuration : Configuration) (read : String → Option String) :
    Outcome Configuration := do
  let settings := configuration.settings
  let settings := { settings with target := (read "PDC_TARGET").getD settings.target }
  let settings ← applyInteger "PDC_BIT_DEPTH" (read "PDC_BIT_DEPTH")
    (fun bitDepth => { settings with bitDepth }) settings
  let settings ← applyInteger "PDC_CHANNELS_IN" (read "PDC_CHANNELS_IN")
    (fun inputs => { settings with inputs }) settings
  let settings ← applyInteger "PDC_CHANNELS_OUT" (read "PDC_CHANNELS_OUT")
    (fun outputs => { settings with outputs }) settings
  return { settings, logFormat := (read "PDC_DIAG_FORMAT").getD configuration.logFormat }

def load (tree : FileTree) (process : Table String) (settingsPath environmentPath : String) :
    Outcome Configuration := do
  let settings ← readSettings tree settingsPath
  let file ← readEnvironment tree environmentPath
  applyEnvironment { settings } (lookup process file)

end Configuration

end Patchbay
