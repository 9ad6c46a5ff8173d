import Patchbay.Format.Yaml.Token

namespace Patchbay

/-! YAML documents, as far as they use block and flow collections and scalars on one line or more.
Anchors, tags, directives and block scalars are refused.  A document that is left out is null.

The key `<<` takes entries over from the mapping behind it, or from several.  They
are kept apart from the entries that a mapping has itself, since which of them
count depends on what the keys are read as.
-/

/-- A scalar.  Only a plain one, written without quotes, can mean something else than text. -/
structure Yaml.Scalar where
  text : String
  isPlain : Bool
deriving DecidableEq, Inhabited, Repr

inductive Yaml where
  | scalar (content : Yaml.Scalar)
  | sequence (items : List Yaml)
  /-- A mapping with its own entries and those it takes over, the ones that count first in
  front. -/
  | mapping (own merged : List (Yaml.Scalar × Yaml))
  /-- A mapping that no value comes from: a key occurs twice or is no scalar, or what it takes over
  is not made of mappings. -/
  | malformed
deriving Inhabited, Repr

namespace Yaml

/-- What stands where a node was left out. -/
def empty : Yaml := .scalar ⟨"", true⟩

/-! Mappings from their entries -/

/-- Whether entries are taken over under a key. -/
def Scalar.isMerge (key : Scalar) : Bool := key.isPlain && key.text == "<<"

def scalarKeys? : List (Yaml × Yaml) → Option (List (Scalar × Yaml))
  | [] => some []
  | (.scalar key, value) :: rest => (scalarKeys? rest).map ((key, value) :: ·)
  | _ :: _ => none

def repeatsKey : List (Scalar × Yaml) → Bool
  | [] => false
  | (key, _) :: rest => rest.any (·.1.text == key.text) || repeatsKey rest

/-- All entries of a mapping, its own first. -/
def entries? : Yaml → Option (List (Scalar × Yaml))
  | .mapping own merged => some (own ++ merged)
  | _ => none

/-- The entries that can be taken over from a mapping or from a sequence of mappings. -/
def offered? : Yaml → Option (List (Scalar × Yaml))
  | .sequence items => (items.mapM entries?).map List.flatten
  | source => source.entries?

def ofEntries (entries : List (Yaml × Yaml)) : Yaml :=
  match scalarKeys? entries with
  | none => .malformed
  | some entries =>
      if repeatsKey entries then .malformed
      else match entries.find? (·.1.isMerge) with
        | none => .mapping entries []
        | some (_, source) =>
            match source.offered? with
            | some merged => .mapping (entries.filter fun entry => !entry.1.isMerge) merged
            | none => .malformed

/-! Reading -/

mutual

/-- Reads a node.  Block collections occur in blocks only, and a sequence that is not indented only
as a part of a mapping. -/
def readNode (fuel : Nat) (inBlock inMapping : Bool) (tokens : List Token) :
    Option (Yaml × List Token) :=
  match fuel, tokens with
  | 0, _ => none
  | _ + 1, .scalar text isPlain :: rest => some (.scalar ⟨text, isPlain⟩, rest)
  | fuel + 1, .flowSequenceStart :: rest =>
      (readFlowItems fuel true rest).map fun (items, rest) => (.sequence items, rest)
  | fuel + 1, .flowMappingStart :: rest =>
      (readFlowEntries fuel true rest).map fun (entries, rest) => (ofEntries entries, rest)
  | fuel + 1, .blockEntry :: rest =>
      if inMapping then
        (readFlushItems fuel (.blockEntry :: rest)).map fun (items, rest) =>
          (.sequence items, rest)
      else none
  | fuel + 1, .blockSequenceStart :: rest =>
      if inBlock then (readBlockItems fuel rest).map fun (items, rest) => (.sequence items, rest)
      else none
  | fuel + 1, .blockMappingStart :: rest =>
      if inBlock then
        (readBlockEntries fuel rest).map fun (entries, rest) => (ofEntries entries, rest)
      else none
  | _, _ => none

def readBlockItems (fuel : Nat) (tokens : List Token) : Option (List Yaml × List Token) :=
  match fuel, tokens with
  | fuel + 1, .blockEntry :: rest => do
      let (item, rest) ← match rest with
        | .blockEntry :: _ | .blockEnd :: _ => some (empty, rest)
        | _ => readNode fuel true false rest
      let (items, rest) ← readBlockItems fuel rest
      return (item :: items, rest)
  | _ + 1, .blockEnd :: rest => some ([], rest)
  | _, _ => none

/-- Reads a sequence whose entries stand on the indentation of the mapping around it. -/
def readFlushItems (fuel : Nat) (tokens : List Token) : Option (List Yaml × List Token) :=
  match fuel, tokens with
  | fuel + 1, .blockEntry :: rest => do
      let (item, rest) ← match rest with
        | .blockEntry :: _ | .key :: _ | .value :: _ | .blockEnd :: _ => some (empty, rest)
        | _ => readNode fuel true false rest
      let (items, rest) ← readFlushItems fuel rest
      return (item :: items, rest)
  | _ + 1, rest => some ([], rest)
  | 0, _ => none

def readBlockEntries (fuel : Nat) (tokens : List Token) :
    Option (List (Yaml × Yaml) × List Token) :=
  match fuel, tokens with
  | fuel + 1, .key :: rest => do
      let (key, rest) ← readBlockPart fuel rest
      let (value, rest) ← readBlockValue fuel rest
      let (entries, rest) ← readBlockEntries fuel rest
      return ((key, value) :: entries, rest)
  | _ + 1, .blockEnd :: rest => some ([], rest)
  | _, _ => none

/-- Reads a key or a value of a block mapping, which may be left out. -/
def readBlockPart (fuel : Nat) (tokens : List Token) : Option (Yaml × List Token) :=
  match fuel, tokens with
  | _ + 1, .key :: rest => some (empty, .key :: rest)
  | _ + 1, .value :: rest => some (empty, .value :: rest)
  | _ + 1, .blockEnd :: rest => some (empty, .blockEnd :: rest)
  | fuel + 1, rest => readNode fuel true true rest
  | 0, _ => none

def readBlockValue (fuel : Nat) (tokens : List Token) : Option (Yaml × List Token) :=
  match fuel, tokens with
  | fuel + 1, .value :: rest => readBlockPart fuel rest
  | _ + 1, rest => some (empty, rest)
  | 0, _ => none

/-- Reads on to the end of a flow sequence; a comma separates every item from the one before. -/
def readFlowItems (fuel : Nat) (isFirst : Bool) (tokens : List Token) :
    Option (List Yaml × List Token) :=
  match fuel, tokens with
  | _ + 1, .flowSequenceEnd :: rest => some ([], rest)
  | fuel + 1, tokens => do
      let tokens ← if isFirst then some tokens else match tokens with
        | .flowEntry :: rest => some rest
        | _ => none
      match tokens with
      | .flowSequenceEnd :: rest => return ([], rest)
      | .key :: rest => do
          let (key, rest) ← readItemKey fuel rest
          let (value, rest) ← readFlowValue fuel rest
          let (items, rest) ← readFlowItems fuel false rest
          return (ofEntries [(key, value)] :: items, rest)
      | _ => do
          let (item, rest) ← readNode fuel false false tokens
          let (items, rest) ← readFlowItems fuel false rest
          return (item :: items, rest)
  | 0, _ => none

/-- Reads the key of an item that is a single entry.  What ends a key that was left out is passed
over with it. -/
def readItemKey (fuel : Nat) (tokens : List Token) : Option (Yaml × List Token) :=
  match fuel, tokens with
  | _ + 1, .value :: rest => some (empty, rest)
  | _ + 1, .flowEntry :: rest => some (empty, rest)
  | _ + 1, .flowSequenceEnd :: rest => some (empty, rest)
  | fuel + 1, rest => readNode fuel false false rest
  | 0, _ => none

def readFlowEntries (fuel : Nat) (isFirst : Bool) (tokens : List Token) :
    Option (List (Yaml × Yaml) × List Token) :=
  match fuel, tokens with
  | _ + 1, .flowMappingEnd :: rest => some ([], rest)
  | fuel + 1, tokens => do
      let tokens ← if isFirst then some tokens else match tokens with
        | .flowEntry :: rest => some rest
        | _ => none
      match tokens with
      | .flowMappingEnd :: rest => return ([], rest)
      | .key :: rest => do
          let (key, rest) ← readFlowPart fuel rest
          let (value, rest) ← readFlowValue fuel rest
          let (entries, rest) ← readFlowEntries fuel false rest
          return ((key, value) :: entries, rest)
      | _ => do
          let (key, rest) ← readNode fuel false false tokens
          let (entries, rest) ← readFlowEntries fuel false rest
          return ((key, empty) :: entries, rest)
  | 0, _ => none

/-- Reads a key or a value inside brackets, which may be left out. -/
def readFlowPart (fuel : Nat) (tokens : List Token) : Option (Yaml × List Token) :=
  match fuel, tokens with
  | _ + 1, .value :: rest => some (empty, .value :: rest)
  | _ + 1, .flowEntry :: rest => some (empty, .flowEntry :: rest)
  | _ + 1, .flowSequenceEnd :: rest => some (empty, .flowSequenceEnd :: rest)
  | _ + 1, .flowMappingEnd :: rest => some (empty, .flowMappingEnd :: rest)
  | fuel + 1, rest => readNode fuel false false rest
  | 0, _ => none

def readFlowValue (fuel : Nat) (tokens : List Token) : Option (Yaml × List Token) :=
  match fuel, tokens with
  | fuel + 1, .value :: rest => readFlowPart fuel rest
  | _ + 1, rest => some (empty, rest)
  | 0, _ => none

end

/-- Reads the first document of a token list. -/
def readDocument (tokens : List Token) : Option (Yaml × List Token) :=
  let fuel := 4 * tokens.length + 4
  match tokens with
  | .textEnd :: rest => some (empty, rest)
  | .documentStart :: rest =>
      match rest with
      | .documentStart :: _ | .documentEnd :: _ | .textEnd :: _ => some (empty, rest)
      | _ => readNode fuel true false rest
  | _ => readNode fuel true false tokens

/-- How many tokens have to be readable from the end of a document on. -/
def lookahead : Nat := 3

/-- The first document of a text.  What follows it is not read, but for a short lookahead. -/
def read? (text : String) : Option Yaml := do
  let (tokens, complete) := Token.scan text
  let (document, rest) ← readDocument tokens
  if complete || lookahead ≤ rest.length then return document else none

end Yaml

end Patchbay
