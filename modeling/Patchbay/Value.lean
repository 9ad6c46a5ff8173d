import Patchbay.Instant
import Patchbay.Number.Layout
import Patchbay.Number.Reader
import Patchbay.Text.NaturalOrder

namespace Patchbay

/-! Argument values.

Files give nodes arguments that no schema constrains, so a value is whatever a
file format can express.  Numbers are doubles once a patch is loaded; the other
widths occur where a value was handed over without that step.
-/

inductive IntegerWidth where
  | machine
  | signed64
  | unsigned64
deriving DecidableEq, Repr

inductive Value where
  | null
  | bool (value : Bool)
  | text (value : String)
  | number (value : Float)
  | single (value : Float32)
  | integer (width : IntegerWidth) (value : Int)
  | list (items : List Value)
  | table (entries : List (String × Value))
  /-- A table that has a key which is no text. -/
  | mixed (entries : List (Value × Value))
  | instant (time : Instant)
deriving Inhabited

def IntegerWidth.typeName : IntegerWidth → String
  | .machine => "int"
  | .signed64 => "int64"
  | .unsigned64 => "uint64"

namespace Value

/-- The name under which diagnostics show the type of a value. -/
def typeName : Value → String
  | .null => "<nil>"
  | .bool _ => "bool"
  | .text _ => "string"
  | .number _ => "float64"
  | .single _ => "float32"
  | .integer width _ => width.typeName
  | .list _ => "[]interface \x7b\x7d"
  | .table _ => "map[string]interface \x7b\x7d"
  | .mixed _ => "map[interface \x7b\x7d]interface \x7b\x7d"
  | .instant _ => "time.Time"

/-! Keys of tables.  Keys of one kind have an order of their own, and all keys of a kind stand
together.
-/

/-- The place of a kind of key among the other kinds. -/
def kindRank : Value → Nat
  | .null => 0
  | .bool _ => 1
  | .single _ => 2
  | .number _ => 3
  | .integer .machine _ => 4
  | .integer .signed64 _ => 5
  | .text _ => 6
  | .integer .unsigned64 _ => 7
  | .instant _ => 8
  | .list _ | .table _ | .mixed _ => 9

def compareKeys (left right : Value) : Ordering :=
  (compare left.kindRank right.kindRank).then <| match left, right with
    | .bool left, .bool right => compare left.toNat right.toNat
    | .number left, .number right => compare (Number.rank left) (Number.rank right)
    | .integer _ left, .integer _ right => compare left right
    | .text left, .text right => compareOfLessAndEq left right
    | .instant left, .instant right => left.compareKeys right
    | _, _ => .eq

/-- Whether two values are one key of a table.  What is not a number is a key of its own each
time. -/
def isSameKey (left right : Value) : Bool :=
  match left, right with
  | .number left, .number right =>
      !Number.isNotANumber left && Number.rank left == Number.rank right
  | .instant left, .instant right => left.isSameKey right
  | _, _ => left.compareKeys right == .eq

/-- Binds a key of a mixed table. -/
def setPair (key : Value) (value : Value) : List (Value × Value) → List (Value × Value)
  | [] => [(key, value)]
  | (other, held) :: rest =>
      if key.isSameKey other then (key, value) :: rest else (other, held) :: setPair key value rest

/-! Listings -/

def insertByKey (key : Value) (shown : String) : List (Value × String) → List (Value × String)
  | [] => [(key, shown)]
  | (other, held) :: rest =>
      if key.compareKeys other == .gt then (other, held) :: insertByKey key shown rest
      else (key, shown) :: (other, held) :: rest

def showEntries (entries : List (Value × String)) : String :=
  "map[" ++ String.intercalate " " (entries.map Prod.snd) ++ "]"

mutual

/-- The form of a value in a listing: lists and tables are bracketed, tables are sorted by key. -/
def listed : Value → String
  | .null => "<nil>"
  | .bool value => if value then "true" else "false"
  | .text value => value
  | .number value => Number.toListing value
  | .single value => Number.singleToListing value
  | .integer _ value => Text.ofInt value
  | .list items => "[" ++ String.intercalate " " (listedItems items) ++ "]"
  | .table entries => showEntries (listedEntries entries)
  | .mixed entries => showEntries (listedPairs entries)
  | .instant time => time.listed

def listedItems : List Value → List String
  | [] => []
  | item :: rest => listed item :: listedItems rest

def listedEntries : List (String × Value) → List (Value × String)
  | [] => []
  | (key, value) :: rest =>
      insertByKey (.text key) (key ++ ":" ++ listed value) (listedEntries rest)

def listedPairs : List (Value × Value) → List (Value × String)
  | [] => []
  | (key, value) :: rest =>
      insertByKey key (listed key ++ ":" ++ listed value) (listedPairs rest)

end

/-- The number a value stands for where a number is asked for: any numeric width, or a text that
spells a number in range. -/
def toNumber? : Value → Option Float
  | .number value => some value
  | .single value => some value.toFloat
  | .integer .machine value => some (Number.doubleOfInt value)
  | .integer .signed64 value => some (Number.doubleOfInt value)
  | .text spelling => Number.read? spelling
  | _ => none

end Value

end Patchbay
