import Patchbay.Format.Json
import Patchbay.PatchFile.Basic

namespace Patchbay.PatchFile.FromJson

/-! Decoding patch files from JSON.

Fields are found by their exact name or else regardless of case, and an unknown
field is refused.  A null leaves a plain field as it is and empties a list or a
table.  A field that is given twice is decoded into what the first gave; a list is
decoded into all the entries that the lists before it had, back to an empty one.
-/

/-- Decodes a document into a value that is there already. -/
abbrev Decoder (α : Type) := α → Json → Option α

def text : Decoder String
  | _, .text value => some value
  | old, .null => some old
  | _, _ => none

def bool : Decoder Bool
  | _, .bool value => some value
  | old, .null => some old
  | _, _ => none

/-- Decodes items into those that are there, and further items into fresh ones. -/
def items (item : Decoder α) (fresh : α) : List α → List Json → Option (List α)
  | _, [] => some []
  | [], document :: rest => do
      let first ← item fresh document
      let others ← items item fresh [] rest
      return first :: others
  | old :: olds, document :: rest => do
      let first ← item old document
      let others ← items item fresh olds rest
      return first :: others

/-- Decodes a list.  An empty one forgets all that was there. -/
def list (item : Decoder α) (fresh : α) : Decoder (Entries α)
  | _, .null | _, .array [] => some {}
  | old, .array documents => do
      let known := old.items ++ old.spare
      let items ← items item fresh known documents
      return { items, spare := known.drop items.length }
  | _, _ => none

/-- The decoder of a field, found by name. -/
def field? (fields : List (String × Decoder α)) (key : String) : Option (Decoder α) :=
  match fields.lookup key with
  | some decoder => some decoder
  | none => (fields.find? fun field => Text.fold field.1 = Text.fold key).map Prod.snd

def record (fields : List (String × Decoder α)) : Decoder α
  | old, .null => some old
  | old, .object members => members.foldlM (fun value (key, document) => do
      let decoder ← field? fields key
      decoder value document) old
  | _, _ => none

mutual

/-- Any document as a value.  A number out of range has none. -/
def value : Json → Option Value
  | .null => some .null
  | .bool flag => some (.bool flag)
  | .number spelling => (Number.read? spelling).map .number
  | .text content => some (.text content)
  | .array documents => (values documents).map .list
  | .object members => (entries members).map fun pairs =>
      .table (Table.ofList pairs).entries

def values : List Json → Option (List Value)
  | [] => some []
  | document :: rest => do
      let first ← value document
      let others ← values rest
      return first :: others

def entries : List (String × Json) → Option (List (String × Value))
  | [] => some []
  | (key, document) :: rest => do
      let first ← value document
      let others ← entries rest
      return (key, first) :: others

end

def number : Decoder Float
  | _, .number spelling => Number.read? spelling
  | old, .null => some old
  | _, _ => none

def args : Decoder (Option (Table Value))
  | _, .null => some none
  | old, .object members => do
      let pairs ← entries members
      return some (pairs.foldl (fun table pair => table.set pair.1 pair.2) (old.getD ∅))
  | _, _ => none

def arrays : Decoder (Table (List Float))
  | _, .null => some ∅
  | old, .object members => members.foldlM (fun table (key, document) => do
      let numbers ← list number 0 {} document
      return table.set key numbers.items) old
  | _, _ => none

def portlet : Decoder PortletEntry := record [
  ("id", fun entry document => do return { entry with id := ← text entry.id document }),
  ("type", fun entry document => do return { entry with type := ← text entry.type document })]

def endpoint : Decoder EndpointEntry := record [
  ("nodeId", fun entry document => do return { entry with node := ← text entry.node document }),
  ("portletId", fun entry document => do
    return { entry with portlet := ← text entry.portlet document })]

def connection : Decoder ConnectionEntry := record [
  ("source", fun entry document => do
    return { entry with source := ← endpoint entry.source document }),
  ("sink", fun entry document => do return { entry with sink := ← endpoint entry.sink document })]

def node : Decoder NodeEntry := record [
  ("id", fun entry document => do return { entry with id := ← text entry.id document }),
  ("type", fun entry document => do return { entry with type := ← text entry.type document }),
  ("args", fun entry document => do return { entry with args := ← args entry.args document }),
  ("inlets", fun entry document => do
    return { entry with inlets := ← list portlet {} entry.inlets document }),
  ("outlets", fun entry document => do
    return { entry with outlets := ← list portlet {} entry.outlets document }),
  ("isPushingMessages", fun entry document => do
    return { entry with isPushingMessages := ← bool entry.isPushingMessages document }),
  ("isPullingSignal", fun entry document => do
    return { entry with isPullingSignal := ← bool entry.isPullingSignal document })]

def file : Decoder PatchFile := record [
  ("nodes", fun file document => do
    return { file with nodes := ← list node {} file.nodes document }),
  ("connections", fun file document => do
    return { file with connections := ← list connection {} file.connections document }),
  ("arrays", fun file document => do return { file with arrays := ← arrays file.arrays document })]

def decode (content : String) : Outcome PatchFile :=
  match (Json.readFirst? content).bind (file {}) with
  | some decoded => .ok decoded
  | none => .error (.malformedJson "unexpected input")

end Patchbay.PatchFile.FromJson
