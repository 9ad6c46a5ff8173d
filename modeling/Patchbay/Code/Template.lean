import Patchbay.Code.Basic
import Patchbay.Names

namespace Patchbay.Code

/-! Code with holes.

Node types and runtime modules describe the code they contribute as templates.  A
template mentions names and wiring that are only known once a program is laid out:
the code that reads a signal inlet, the function behind a message outlet, names of
the type's own name space or of a shared module.  Filling a template resolves these
holes from left to right; names are handed out on the way, and the first hole that
cannot be resolved is remembered.
-/

/-- The four kinds of wiring a node's code can refer to. -/
inductive Wiring where
  | ins
  | outs
  | snds
  | rcvs
deriving DecidableEq, Repr

def Wiring.name : Wiring → String
  | .ins => "ins"
  | .outs => "outs"
  | .snds => "snds"
  | .rcvs => "rcvs"

inductive Template where
  | absent
  | text (value : String)
  | number (value : Float)
  | single (value : Float32)
  | integer (value : Int)
  | wide (value : Int)
  | flag (value : Bool)
  | list (kind : ListKind) (items : List Template)
  | missing (kind : ElementKind)
  /-- Parts concatenated. -/
  | code (parts : List Template)
  /-- Parts below each other. -/
  | lines (parts : List Template)
  /-- Parts put into a sequence as they are. -/
  | raw (parts : List Template)
  | var (type name : Template) (value : List Template)
  | const (type name : Template) (value : List Template)
  | func (name : Template) (args : List (Template × Template × Option (List Template)))
      (result : Template) (body : List Template)
  | record (name : Template) (members : List (Template × Template × List Template))
  /-- The code behind a portlet of the node. -/
  | portlet (wiring : Wiring) (id : String)
  /-- The state variable of the node. -/
  | state
  /-- A name of the name space the template belongs to. -/
  | own (key : String)
  /-- A name of a runtime module. -/
  | shared (namespaceName key : String)
  /-- Resolves holes ahead of the place where their code stands. -/
  | ahead (parts : List Template)
  | floatArg (name : String) (fallback : Float)
  | textArg (name fallback : String)
deriving Inhabited

structure FunctionTemplate where
  name : Template := .text ""
  args : List (Template × Template × Option (List Template)) := []
  result : Template := .text ""
  body : List Template := []
deriving Inhabited

structure RecordTemplate where
  name : Template
  members : List (Template × Template × List Template) := []
deriving Inhabited

instance : Coe String Template := ⟨.text⟩

instance : Coe FunctionTemplate Template := ⟨fun f => .func f.name f.args f.result f.body⟩

/-- What the holes of a template stand for. -/
structure Scope where
  space : NameSpace
  node : Node := { id := "", type := "" }
  state : String := ""
  ins : Table String := ∅
  outs : Table String := ∅
  snds : Table String := ∅
  rcvs : Table String := ∅

namespace Scope

def portlets (scope : Scope) : Wiring → Table String
  | .ins => scope.ins
  | .outs => scope.outs
  | .snds => scope.snds
  | .rcvs => scope.rcvs

def assign (scope : Scope) (wiring : Wiring) (id code : String) : Scope :=
  match wiring with
  | .ins => { scope with ins := scope.ins.set id code }
  | .outs => { scope with outs := scope.outs.set id code }
  | .snds => { scope with snds := scope.snds.set id code }
  | .rcvs => { scope with rcvs := scope.rcvs.set id code }

def owner (scope : Scope) (wiring : Wiring) : String := wiring.name ++ " of " ++ scope.node.id

end Scope

/-- Names handed out so far and the first hole that could not be resolved. -/
structure Ledger where
  names : NameIndex
  miss : Option Fault := none

abbrev Fill := StateM Ledger

namespace Ledger

def recordMiss (ledger : Ledger) (fault : Fault) : Ledger :=
  { ledger with miss := ledger.miss.or (some fault) }

/-- Reads a name; one that cannot be read is empty and recorded. -/
def read (ledger : Ledger) (space : NameSpace) (key : String) : String × Ledger :=
  match ledger.names.read space key with
  | .ok (name, names) => (name, { ledger with names })
  | .error fault => ("", ledger.recordMiss fault)

/-- Reads the code behind a portlet; code that was never assigned is empty and recorded. -/
def readPortlet (ledger : Ledger) (scope : Scope) (wiring : Wiring) (id : String) :
    String × Ledger :=
  match (scope.portlets wiring).get? id with
  | some code => (code, ledger)
  | none => ("", ledger.recordMiss (.unknownName id (scope.owner wiring)))

end Ledger

/-- The text a part stands for where a name or a type is asked for. -/
def Part.plainText (part : Part) : String :=
  String.join (part.pieces.map fun piece => match piece with
    | .text value => value
    | _ => "")

/-- The sequence a part stands for. -/
def Part.toSequence : Part → Sequence
  | .sequence content => content
  | part => code [part]

mutual

def Template.fill (scope : Scope) : Template → Fill Part
  | .absent => pure .absent
  | .text value => pure (.text value)
  | .number value => pure (.number value)
  | .single value => pure (.single value)
  | .integer value => pure (.integer value)
  | .wide value => pure (.wide value)
  | .flag value => pure (.flag value)
  | .list kind items => do return .list kind (← fillAll scope items)
  | .missing kind => pure (.missing kind)
  | .code parts => do return .sequence (Code.code (← fillAll scope parts))
  | .lines parts => do return .sequence (Code.lines (← fillAll scope parts))
  | .raw parts => do return .sequence (← fillAll scope parts)
  | .var type name value => do
      let type ← type.fill scope
      let name ← name.fill scope
      let value ← fillAll scope value
      return Code.var type.plainText name.plainText value
  | .const type name value => do
      let type ← type.fill scope
      let name ← name.fill scope
      let value ← fillAll scope value
      return Code.const type.plainText name.plainText value
  | .func name args result body => do
      let name ← name.fill scope
      let args ← fillArgs scope args
      let result ← result.fill scope
      let body ← fillAll scope body
      return .ofFunction (Code.func name.plainText args result.plainText body)
  | .record name members => do
      let name ← name.fill scope
      let members ← fillMembers scope members
      return .record name.plainText members
  | .portlet wiring id => do
      let (code, ledger) := (← get).readPortlet scope wiring id
      set ledger
      return .text code
  | .state => pure (.text scope.state)
  | .own key => do
      let (name, ledger) := (← get).read scope.space key
      set ledger
      return .text name
  | .shared namespaceName key => do
      let (name, ledger) := (← get).read (.module namespaceName) key
      set ledger
      return .text name
  | .ahead parts => do
      let _ ← fillAll scope parts
      return .absent
  | .floatArg name fallback => pure (.number (scope.node.floatArg name fallback))
  | .textArg name fallback => pure (.text (scope.node.textArg name fallback))

def fillAll (scope : Scope) : List Template → Fill (List Part)
  | [] => pure []
  | template :: rest => do
      let part ← template.fill scope
      let parts ← fillAll scope rest
      return part :: parts

def fillArgs (scope : Scope) :
    List (Template × Template × Option (List Template)) → Fill (List Slot)
  | [] => pure []
  | (type, name, none) :: rest => do
      let type ← type.fill scope
      let name ← name.fill scope
      let args ← fillArgs scope rest
      return arg type.plainText name.plainText :: args
  | (type, name, some value) :: rest => do
      let type ← type.fill scope
      let name ← name.fill scope
      let value ← fillAll scope value
      let args ← fillArgs scope rest
      return argWithDefault type.plainText name.plainText value :: args

def fillMembers (scope : Scope) :
    List (Template × Template × List Template) → Fill (List Slot)
  | [] => pure []
  | (type, name, value) :: rest => do
      let type ← type.fill scope
      let name ← name.fill scope
      let value ← fillAll scope value
      let members ← fillMembers scope rest
      return member type.plainText name.plainText value :: members

end

def Template.fillSequence (scope : Scope) (template : Template) : Fill Sequence := do
  return (← template.fill scope).toSequence

def FunctionTemplate.fill (scope : Scope) (template : FunctionTemplate) : Fill Function := do
  let name ← template.name.fill scope
  let args ← fillArgs scope template.args
  let result ← template.result.fill scope
  let body ← fillAll scope template.body
  return Code.func name.plainText args result.plainText body

def RecordTemplate.fill (scope : Scope) (template : RecordTemplate) : Fill Record := do
  let name ← template.name.fill scope
  let members ← fillMembers scope template.members
  return ⟨name.plainText, members⟩

end Patchbay.Code
