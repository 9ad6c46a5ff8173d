import Patchbay.Format.Json
import Patchbay.Program.Basic

namespace Patchbay

/-! Program metadata: what a host has to know about a program, serialised as JSON.  Fields have a
fixed order and tables are sorted by key, so the text is determined by the program.
-/

/-- The version of the runtime code. -/
def libraryVersion : String := "0.1.0"

namespace Metadata

/-- A place in a document: the names and numbers that lead to it, and how many bytes stand before
it. -/
structure Place where
  pointer : String := ""
  offset : Nat := 0

namespace Place

/-- A name as a part of a pointer, in which slashes and tildes have a meaning. -/
def escapeName (name : String) : String :=
  String.join (name.toList.map fun c =>
    if c = '~' then "~0" else if c = '/' then "~1" else String.singleton c)

/-- The longest run of characters in front that takes no more than a number of bytes. -/
def takeBytes (count : Nat) : List Char → List Char
  | [] => []
  | c :: rest =>
      if c.utf8Size ≤ count then c :: takeBytes (count - c.utf8Size) rest else []

/-- How a pointer is shown: when it is longer than a number of bytes, names in its middle are left
out, so that about half of them stand on either side of a mark. -/
def shorten (limit : Nat) (pointer : List Char) : List Char :=
  if (String.ofList pointer).utf8ByteSize ≤ limit then pointer
  else
    let front := takeBytes (limit / 2) pointer
    let head := match front.reverse.dropWhile (· != '/') with
      | _ :: c :: before => (c :: before).reverse
      | _ => front
    let back := (takeBytes (limit / 2) pointer.reverse).reverse
    let tail := match back.dropWhile (· != '/') with
      | _ :: names => names
      | [] => back
    let middle := (pointer.drop head.length).take (pointer.length - head.length - tail.length)
    let mark := match middle.count '/', middle.head? with
      | 0, _ => ['…']
      | 1, some '/' => ['/', '…']
      | 1, _ => ['…', '/']
      | _, _ => ['/', '…', '/']
    head ++ mark ++ tail

/-- The place of a value inside the value at a place. -/
def inner (place : Place) (part : String) (offset : Nat) : Place :=
  ⟨place.pointer ++ "/" ++ part, offset⟩

end Place

/-- What gives the document of a value once its place is known. -/
abbrev Writer := Place → Outcome Json

/-- The members of the object at a place.  Their text begins at an offset. -/
def members (place : Place) (offset : Nat) :
    List (String × Writer) → Outcome (List (String × Json))
  | [] => .ok []
  | (name, writer) :: rest => do
      let start := offset + (Json.quote name).utf8ByteSize + 1
      let value ← writer (place.inner (Place.escapeName name) start)
      let others ← members place (start + value.write.utf8ByteSize + 1) rest
      return (name, value) :: others

/-- Members sorted by name; the fault of the smallest name comes first. -/
def sortedMembers (place : Place) (entries : List (String × Writer)) : Outcome Json := do
  let sorted := entries.mergeSort fun left right => !decide (right.1 < left.1)
  return .object (← members place (place.offset + 1) sorted)

/-- A number of the metadata; one that is not finite cannot be written. -/
def ofNumber (value : Float) : Outcome Json :=
  match Number.ofDouble value with
  | .finite .. => .ok (.number (Number.toMetadata value))
  | special => .error (.unserialisableNumber (Number.writeBinary .code .double special))

def ofInstant (time : Instant) : Outcome String :=
  match time.serialised? with
  | some text => .ok text
  | none => .error .unserialisableOffset

/-- The fault of a key that becomes no name in the object at a place. -/
def noName (place : Place) : Fault :=
  .unserialisableName (String.ofList (Place.shorten 100 place.pointer.toList)) (place.offset + 1)

/-- The member name that a key of a table becomes.  Only texts, integers and points in time have
one. -/
def nameOf (place : Place) : Value → Outcome String
  | .text name => .ok name
  | .integer _ value => .ok (Text.ofInt value)
  | .instant time => ofInstant time
  | .number value => do
      let _ ← ofNumber value
      .error (noName place)
  | _ => .error (noName place)

mutual

def ofValue : Value → Writer
  | .null, _ => .ok .null
  | .bool value, _ => .ok (.bool value)
  | .text value, _ => .ok (.text value)
  | .number value, _ => ofNumber value
  | .single value, _ => ofNumber value.toFloat
  | .integer _ value, _ => .ok (.ofInt value)
  | .list items, place => do return .array (← ofItems items 0 place (place.offset + 1))
  | .table entries, place => sortedMembers place (ofEntries entries)
  | .mixed entries, place => do
      let named ← (ofPairs entries).mapM fun (key, writer) => do
        return (← nameOf place key, writer)
      sortedMembers place named
  | .instant time, _ => (ofInstant time).map .text

def ofItems : List Value → (index : Nat) → Place → (offset : Nat) → Outcome (List Json)
  | [], _, _, _ => .ok []
  | item :: rest, index, place, offset => do
      let first ← ofValue item (place.inner (Text.ofNat index) offset)
      let others ← ofItems rest (index + 1) place (offset + first.write.utf8ByteSize + 1)
      return first :: others

def ofEntries : List (String × Value) → List (String × Writer)
  | [] => []
  | (key, value) :: rest => (key, fun place => ofValue value place) :: ofEntries rest

def ofPairs : List (Value × Value) → List (Value × Writer)
  | [] => []
  | (key, value) :: rest => (key, fun place => ofValue value place) :: ofPairs rest

end

def ofPorts (ports : Ports) : Json :=
  .sorted (ports.entries.map fun (node, portlets) =>
    (node, match portlets with
      | some portlets => .array (portlets.map .text)
      | none => .null))

/-- A table of ports is left out when it is empty. -/
def portsField (name : String) (ports : Option Ports) : List (String × Json) :=
  match ports with
  | none => []
  | some ports => if ports.isEmpty then [] else [(name, ofPorts ports)]

/-- Names by two keys, such as node and portlet. -/
abbrev NameTable := Table (Table String)

def addName (table : NameTable) (outer inner name : String) : NameTable :=
  table.set outer ((table.getD outer ∅).set inner name)

def ofNames (table : NameTable) : Json :=
  .sorted (table.entries.map fun (outer, names) =>
    (outer, .sorted (names.entries.map fun (inner, name) => (inner, .text name))))

def hostNames (ports : List HostPort) : NameTable :=
  ports.foldl (fun table hostPort =>
    addName table hostPort.node hostPort.portlet hostPort.functionName) ∅

/-- The names of runtime modules that are shared with the host. -/
def moduleNames (dependencies : Dependencies) : NameTable :=
  let imported := dependencies.imports.foldl (fun table entry =>
    addName table entry.namespaceName entry.key entry.function.name) ∅
  dependencies.exports.foldl (fun table entry =>
    addName table entry.namespaceName entry.key entry.name) imported

def audioSettings (settings : Settings) : Json := .object [
  ("bitDepth", .ofInt settings.bitDepth),
  ("channelCount", .object [
    ("in", .ofInt settings.inputs),
    ("out", .ofInt settings.outputs)]),
  ("sampleRate", .ofInt 0),
  ("blockSize", .ofInt 0)]

def portSettings (settings : Settings) : Json :=
  .object (portsField "messageReceivers" settings.receivers ++
    portsField "messageSenders" settings.senders)

def variableNames (program : Program) : Json := .object [
  ("io", .object [
    ("messageReceivers", ofNames (hostNames program.hostReceivers.values)),
    ("messageSenders", ofNames (hostNames program.hostSenders.values))]),
  ("globals", ofNames (moduleNames program.dependencies))]

def document (program : Program) : Outcome Json := do
  let settings := program.settings
  return .object (← members {} 1 [
    ("libVersion", fun _ => .ok (.text libraryVersion)),
    ("customMetadata", ofValue (.table ((settings.customMetadata.getD ∅).entries))),
    ("settings", fun _ => .ok (.object [
      ("audio", audioSettings settings),
      ("io", portSettings settings)])),
    ("compilation", fun _ => .ok (.object [("variableNamesIndex", variableNames program)]))])

end Metadata

/-- The metadata of a program on one line. -/
def Program.metadata (program : Program) : Outcome String := do
  let document ← Outcome.inContext "metadata" (Metadata.document program)
  return document.write

end Patchbay
