import Patchbay.Format.Yaml.Decode
import Patchbay.PatchFile.Basic

namespace Patchbay.PatchFile.FromYaml

open Yaml (Decoder)

/-! Decoding patch files from YAML.  Fields are found by their exact name, and an unknown field is
passed over.
-/

/-- A list of entries; one that is given is complete. -/
def entries (item : Decoder α) (fresh : α) : Decoder (Entries α) :=
  .field (·.items) (fun _ items => { items }) (.list item fresh)

def portlet : Decoder PortletEntry := .record [
  ("id", .field (·.id) (fun entry id => { entry with id }) .text),
  ("type", .field (·.type) (fun entry type => { entry with type }) .text)]

def endpoint : Decoder EndpointEntry := .record [
  ("nodeId", .field (·.node) (fun entry node => { entry with node }) .text),
  ("portletId", .field (·.portlet) (fun entry portlet => { entry with portlet }) .text)]

def connection : Decoder ConnectionEntry := .record [
  ("source", .field (·.source) (fun entry source => { entry with source }) endpoint),
  ("sink", .field (·.sink) (fun entry sink => { entry with sink }) endpoint)]

def node : Decoder NodeEntry := .record [
  ("id", .field (·.id) (fun entry id => { entry with id }) .text),
  ("type", .field (·.type) (fun entry type => { entry with type }) .text),
  ("args", .field (·.args) (fun entry args => { entry with args }) (.table .any .null)),
  ("inlets", .field (·.inlets) (fun entry inlets => { entry with inlets }) (entries portlet {})),
  ("outlets",
    .field (·.outlets) (fun entry outlets => { entry with outlets }) (entries portlet {})),
  ("isPushingMessages", .field (·.isPushingMessages)
    (fun entry isPushingMessages => { entry with isPushingMessages }) .bool),
  ("isPullingSignal", .field (·.isPullingSignal)
    (fun entry isPullingSignal => { entry with isPullingSignal }) .bool)]

/-- Named arrays; without a table there are none. -/
def arrays : Decoder (Table (List Float)) :=
  .field some (fun _ table => table.getD ∅) (.table (.list .number 0) [])

def file : Decoder PatchFile := .record [
  ("nodes", .field (·.nodes) (fun file nodes => { file with nodes }) (entries node {})),
  ("connections", .field (·.connections) (fun file connections => { file with connections })
    (entries connection {})),
  ("arrays", .field (·.arrays) (fun file arrays => { file with arrays }) arrays)]

def decode (content : String) : Outcome PatchFile :=
  let malformed := Fault.within "decode yaml patch" (.malformedYaml "unexpected input")
  match Yaml.read? content with
  | none => .error malformed
  | some document =>
      match file {} document with
      | .malformed => .error malformed
      | .nothing => .ok {}
      | .value decoded => .ok decoded

end Patchbay.PatchFile.FromYaml
