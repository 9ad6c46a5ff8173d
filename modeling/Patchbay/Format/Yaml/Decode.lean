import Patchbay.Format.Yaml.Scalar
import Patchbay.Table

namespace Patchbay.Yaml

/-! Decoding documents into values of a known shape.

Null never fails: it empties lists and tables and leaves everything else as it is,
and an item of a list that is left as it is drops out.  Text is taken as it is
spelled, whatever it would mean by itself.  Unknown keys of a record are passed
over.  An entry that a mapping takes over counts where no entry before it has its
key.
-/

/-- What decoding a document gives. -/
inductive Decoded (α : Type) where
  | malformed
  /-- The document is null and stands for no value. -/
  | nothing
  | value (value : α)

/-- Decodes a document into a value that is there already. -/
abbrev Decoder (α : Type) := α → Yaml → Decoded α

/-! The entries of a mapping that count -/

/-- The entries whose key is not taken.  Of several with one key only the first counts. -/
def unclaimed (isSame : κ → κ → Bool) : (taken : List κ) → List (κ × β) → List (κ × β)
  | _, [] => []
  | taken, (key, value) :: rest =>
      if taken.any (isSame key) then unclaimed isSame taken rest
      else (key, value) :: unclaimed isSame (key :: taken) rest

/-- Entries by name; a null key names nothing. -/
def named (entries : List (Scalar × β)) : List (String × β) :=
  entries.filterMap fun (key, value) => if key.isNull then none else some (key.text, value)

/-- The names under which nothing is taken over: those that are text by themselves. -/
def keptNames (own : List (Scalar × β)) : List String :=
  (own.filter (·.1.isText)).map (·.1.text)

/-- The entries of a mapping that is read by name. -/
def namedEntries (own merged : List (Scalar × β)) : List (String × β) :=
  named own ++ unclaimed (· == ·) (keptNames own) (named merged)

/-- Entries by what their keys mean. -/
def keyed (entries : List (Scalar × β)) : List (Value × β) :=
  entries.map fun (key, value) => (key.meaning, value)

/-- The entries of a mapping that is read by the meaning of its keys. -/
def keyedEntries (own merged : List (Scalar × β)) : List (Value × β) :=
  keyed own ++ unclaimed Value.isSameKey ((keyed own).map Prod.fst) (keyed merged)

namespace Decoder

/-- Decodes a scalar by its meaning. -/
def ofMeaning (read : Value → Option α) : Decoder α
  | _, .scalar content =>
      match content.meaning with
      | .null => .nothing
      | known => match read known with
        | some result => .value result
        | none => .malformed
  | _, _ => .malformed

def text : Decoder String
  | _, .scalar content => if content.isNull then .nothing else .value content.text
  | _, _ => .malformed

/-- The words for on and off that other documents read as text. -/
def switch? : String → Option Bool
  | "y" | "Y" | "yes" | "Yes" | "YES" | "on" | "On" | "ON" => some true
  | "n" | "N" | "no" | "No" | "NO" | "off" | "Off" | "OFF" => some false
  | _ => none

def bool : Decoder Bool := ofMeaning fun known => match known with
  | .bool value => some value
  | .text word => switch? word
  | _ => none

def number : Decoder Float := ofMeaning fun known => match known with
  | .number value => some value
  | .integer _ value => some (Number.doubleOfInt value)
  | _ => none

/-- The least integer of 64 bits, which also stands for doubles that are too small for one. -/
def leastInteger : Int := -Text.wordLimit

/-- The integer part of a double that does not exceed the integers of 64 bits. -/
def wholeNumber (value : Float) : Option Int :=
  match Number.ofDouble value with
  | .notANumber => none
  | .infinite negative => if negative then some leastInteger else none
  | .finite .. =>
      match Number.truncate? value with
      | none => none
      | some whole =>
          if whole > Text.wordLimit then none
          else if Text.fitsWord whole then some whole
          else some leastInteger

def integer : Decoder Int := ofMeaning fun known => match known with
  | .integer .machine value => some value
  | .number value => wholeNumber value
  | _ => none

/-- Decodes one field of a record. -/
def field (read : α → β) (write : α → β → α) (decoder : Decoder β) : Decoder α :=
  fun record document =>
    match decoder (read record) document with
    | .malformed => .malformed
    | .nothing => .nothing
    | .value changed => .value (write record changed)

/-- Decodes items, dropping those that stand for no value. -/
def items (item : Decoder α) (fresh : α) : List Yaml → Option (List α)
  | [] => some []
  | document :: rest =>
      match item fresh document with
      | .malformed => none
      | .nothing => items item fresh rest
      | .value first => (items item fresh rest).map (first :: ·)

/-- Decodes a list; null is the list that is not there. -/
def optionalList (item : Decoder α) (fresh : α) : Decoder (Option (List α))
  | _, .sequence documents =>
      match items item fresh documents with
      | some decoded => .value (some decoded)
      | none => .malformed
  | _, .scalar content => if content.isNull then .value none else .malformed
  | _, _ => .malformed

/-- Decodes a list; null is the empty one. -/
def list (item : Decoder α) (fresh : α) : Decoder (List α) :=
  field some (fun _ decoded => decoded.getD []) (optionalList item fresh)

def entries (item : Decoder α) (fresh : α) :
    Table α → List (String × Yaml) → Option (Table α)
  | table, [] => some table
  | table, (name, document) :: rest =>
      match item fresh document with
      | .malformed => none
      | .nothing => entries item fresh (table.set name fresh) rest
      | .value decoded => entries item fresh (table.set name decoded) rest

/-- Decodes a table; null is the table that is not there. -/
def table (item : Decoder α) (fresh : α) : Decoder (Option (Table α))
  | _, .mapping own merged =>
      match entries item fresh ∅ (namedEntries own merged) with
      | some decoded => .value (some decoded)
      | none => .malformed
  | _, .scalar content => if content.isNull then .value none else .malformed
  | _, _ => .malformed

def fields (known : List (String × Decoder α)) : α → List (String × Yaml) → Option α
  | record, [] => some record
  | record, (name, document) :: rest =>
      match known.lookup name with
      | none => fields known record rest
      | some decoder =>
          match decoder record document with
          | .malformed => none
          | .nothing => fields known record rest
          | .value changed => fields known changed rest

/-- Decodes a record by its fields. -/
def record (known : List (String × Decoder α)) : Decoder α
  | old, .mapping own merged =>
      match fields known old (namedEntries own merged) with
      | some decoded => .value decoded
      | none => .malformed
  | _, .scalar content => if content.isNull then .nothing else .malformed
  | _, _ => .malformed

end Decoder

/-! Documents of no known shape -/

/-- The values of entries, when all of them could be read. -/
def settled? : List (κ × Option Value) → Option (List (κ × Value))
  | [] => some []
  | (key, some value) :: rest => (settled? rest).map ((key, value) :: ·)
  | (_, none) :: _ => none

/-- The value of a mapping: a table when all its own keys mean text. -/
def tableValue? (own merged : List (Scalar × Option Value)) : Option Value :=
  if own.all (·.1.isText) then (settled? (namedEntries own merged)).map .table
  else (settled? (keyedEntries own merged)).map fun pairs =>
    .mixed (pairs.foldl (fun held (key, value) => Value.setPair key value held) [])

mutual

/-- Any document as a value. -/
def toValue? : Yaml → Option Value
  | .scalar content => some content.meaning
  | .sequence items => (toValues? items).map .list
  | .mapping own merged => tableValue? (toEntries own) (toEntries merged)
  | .malformed => none

def toValues? : List Yaml → Option (List Value)
  | [] => some []
  | item :: rest => do
      let first ← toValue? item
      let others ← toValues? rest
      return first :: others

/-- Entries with their values, as far as these can be read. -/
def toEntries : List (Scalar × Yaml) → List (Scalar × Option Value)
  | [] => []
  | (key, document) :: rest => (key, toValue? document) :: toEntries rest

end

/-- Decodes a document of no known shape; null is a value here. -/
def Decoder.any : Decoder Value := fun _ document =>
  match toValue? document with
  | some value => .value value
  | none => .malformed

end Patchbay.Yaml
