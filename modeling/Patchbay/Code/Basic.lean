import Patchbay.Number.Layout
import Patchbay.Text.Integer

namespace Patchbay.Code

/-! Code as a tree of texts and declarations, independent of the language it is written in.

A `Part` is anything code can be assembled from.  `code` concatenates parts into
a sequence: nested sequences and lists are flattened, absent parts dropped,
numbers written out and adjacent texts merged, so that a sequence built here
holds only non-empty texts and declarations, and never two texts in a row.
`lines` does the same with a line end between the parts that are not absent.
-/

/-- A name with a type that every target language understands under that name. -/
structure TypedName where
  name : String
  type : String
deriving DecidableEq, Repr, Inhabited

inductive ElementKind where
  | var
  | const
  | func
  | record
  | sequence
deriving DecidableEq, Repr

/-- What the items of a list part are declared to be. -/
inductive ListKind where
  | parts
  | sequences
  | elements
  | texts
deriving DecidableEq, Repr

inductive Part where
  | absent
  | text (value : String)
  | number (value : Float)
  | single (value : Float32)
  | integer (value : Int)
  | wide (value : Int)
  | flag (value : Bool)
  | list (kind : ListKind) (items : List Part)
  /-- A declaration or sequence that is not there. -/
  | missing (kind : ElementKind)
  | sequence (content : List Part)
  | var (declared : TypedName) (value : Option (List Part))
  | const (declared : TypedName) (value : Option (List Part))
  /-- A function; one without a name is a function expression. -/
  | func (name : String) (args : List (TypedName × Option (List Part))) (result : String)
      (body : List Part)
  /-- The shape of a state record, with the initial values of one instance. -/
  | record (name : String) (members : List (TypedName × Option (List Part)))
deriving Inhabited

abbrev Sequence := List Part

/-- A function argument with its default value, or a record member with its initial value. -/
abbrev Slot := TypedName × Option Sequence

structure Function where
  name : String
  args : List Slot
  result : String
  body : Sequence
deriving Inhabited

structure Record where
  name : String
  members : List Slot
deriving Inhabited

def Part.ofFunction (function : Function) : Part :=
  .func function.name function.args function.result function.body

def Part.ofRecord (record : Record) : Part := .record record.name record.members

/-- The name under which diagnostics show the type of a part. -/
def Part.typeName : Part → String
  | .absent => "<nil>"
  | .text _ => "string"
  | .number _ => "float64"
  | .single _ => "float32"
  | .integer _ => "int"
  | .wide _ => "int64"
  | .flag _ => "bool"
  | .list .parts _ => "[]interface \x7b\x7d"
  | .list .sequences _ => "[]*ast.Sequence"
  | .list .elements _ => "[]ast.Element"
  | .list .texts _ => "[]string"
  | .missing .var | .var .. => "*ast.Var"
  | .missing .const | .const .. => "*ast.ConstVar"
  | .missing .func | .func .. => "*ast.Func"
  | .missing .record | .record .. => "*ast.Class"
  | .missing .sequence | .sequence _ => "*ast.Sequence"

/-- The kind of a part that is a declaration or a sequence. -/
def Part.kind? : Part → Option ElementKind
  | .missing kind => some kind
  | .sequence _ => some .sequence
  | .var .. => some .var
  | .const .. => some .const
  | .func .. => some .func
  | .record .. => some .record
  | _ => none

def Part.isAbsent : Part → Bool
  | .absent | .missing _ => true
  | _ => false

def Part.isEmptyText : Part → Bool
  | .text "" => true
  | _ => false

/-- Whether a sequence renders to nothing. -/
def Sequence.isEmpty (sequence : Sequence) : Bool := sequence.all Part.isEmptyText

mutual

/-- The texts and declarations a part contributes, from first to last. -/
def Part.pieces : Part → List Part
  | .absent | .missing _ => []
  | .text value => [.text value]
  | .number value => [.text (Number.toCode value)]
  | .single value => [.text (Number.toCode value.toFloat)]
  | .integer value | .wide value => [.text (Text.ofInt value)]
  | .flag value => [.text (if value then "true" else "false")]
  | .list _ items => piecesOf items
  | .sequence content => piecesOf content
  | .var declared value => [.var declared value]
  | .const declared value => [.const declared value]
  | .func name args result body => [.func name args result body]
  | .record name members => [.record name members]

def piecesOf : List Part → List Part
  | [] => []
  | part :: rest => part.pieces ++ piecesOf rest

end

/-- Puts a text in front of a sequence, merged with a text that already stands there. -/
def prependText (value : String) : Sequence → Sequence
  | .text next :: rest => .text (value ++ next) :: rest
  | sequence => .text value :: sequence

/-- Merges neighbouring texts and drops empty ones. -/
def mergeTexts : List Part → Sequence
  | [] => []
  | .text value :: rest =>
      if value = "" then mergeTexts rest else prependText value (mergeTexts rest)
  | part :: rest => part :: mergeTexts rest

/-- The concatenation of parts. -/
def code (parts : List Part) : Sequence := mergeTexts (piecesOf parts)

/-- Puts a line end between neighbouring parts. -/
def separate : List Part → List Part
  | [] => []
  | [part] => [part]
  | part :: rest => part :: .text "\n" :: separate rest

/-- The concatenation of the parts that are there, one below the other. -/
def lines (parts : List Part) : Sequence :=
  code (separate (parts.filter fun part => !part.isAbsent))

/-- A value is kept only when it renders to something. -/
def valueOf (parts : List Part) : Option Sequence :=
  let value := code parts
  if value.isEmpty then none else some value

def var (type name : String) (value : List Part := []) : Part :=
  .var ⟨name, type⟩ (valueOf value)

def const (type name : String) (value : List Part := []) : Part :=
  .const ⟨name, type⟩ (valueOf value)

def arg (type name : String) : Slot := (⟨name, type⟩, none)

def argWithDefault (type name : String) (value : List Part) : Slot :=
  (⟨name, type⟩, some (code value))

def member (type name : String) (value : List Part := []) : Slot :=
  (⟨name, type⟩, valueOf value)

def func (name : String) (args : List Slot) (result : String) (body : List Part := []) :
    Function :=
  ⟨name, args, result, code body⟩

def Function.withName (function : Function) (name : String) : Function := { function with name }

/-- Whether two functions take the same arguments and return the same type. -/
def Function.sameSignature (left right : Function) : Bool :=
  left.result = right.result && left.args.map Prod.fst = right.args.map Prod.fst

/-- The same for functions that may be missing: a missing one only matches a missing one. -/
def Function.sameSignature? : Option Function → Option Function → Bool
  | some left, some right => left.sameSignature right
  | none, none => true
  | _, _ => false

instance : Coe String Part := ⟨.text⟩

instance : Coe Sequence Part := ⟨.sequence⟩

instance : Coe Function Part := ⟨.ofFunction⟩

instance : Coe Record Part := ⟨.ofRecord⟩

/-- A sequence that may be missing, as a part. -/
def Part.ofSequence? : Option Sequence → Part
  | some content => .sequence content
  | none => .missing .sequence

end Patchbay.Code
