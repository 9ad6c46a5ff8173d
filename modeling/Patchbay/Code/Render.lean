import Patchbay.Code.Basic
import Patchbay.Fault

namespace Patchbay.Code

/-! Rendering code in a target language.

A `Dialect` says how each declaration is written once its values and bodies are
texts; all that is common to the languages is here.  A constant without a value
and an item that is neither text nor code are the only faults.
-/

structure Dialect where
  var : TypedName → String → String
  const : TypedName → String → String
  /-- Writes a named function, or a function expression when the name is empty. -/
  func : String → List (TypedName × String) → String → String → String
  record : String → List (TypedName × String) → String

def functionLabel (name : String) : String := if name = "" then "<anonymous>" else name

mutual

/-- Renders one item of a sequence. -/
def render (dialect : Dialect) : Part → Outcome String
  | .text value => .ok value
  | .missing _ => .ok ""
  | .sequence content => renderAll dialect content
  | .var declared none => .ok (dialect.var declared "")
  | .var declared (some value) => do
      let text ← Outcome.inContext s!"variable {declared.name}" (renderAll dialect value)
      return dialect.var declared text
  | .const declared none =>
      .error (.within s!"constant {declared.name}" .missingInitializer)
  | .const declared (some value) => do
      if Sequence.isEmpty value then
        throw (.within s!"constant {declared.name}" .missingInitializer)
      let text ← Outcome.inContext s!"constant {declared.name}" (renderAll dialect value)
      return dialect.const declared text
  | .func name args result body => do
      let arguments ← renderArgs dialect args
      let text ← Outcome.inContext s!"function {functionLabel name}" (renderAll dialect body)
      return dialect.func name arguments result text
  | .record name members => do
      let rendered ← renderMembers dialect name members
      return dialect.record name rendered
  | .absent => .error (.unexpectedItem Part.absent.typeName)
  | .number value => .error (.unexpectedItem (Part.number value).typeName)
  | .single value => .error (.unexpectedItem (Part.single value).typeName)
  | .integer value => .error (.unexpectedItem (Part.integer value).typeName)
  | .wide value => .error (.unexpectedItem (Part.wide value).typeName)
  | .flag value => .error (.unexpectedItem (Part.flag value).typeName)
  | .list kind items => .error (.unexpectedItem (Part.list kind items).typeName)

def renderAll (dialect : Dialect) : List Part → Outcome String
  | [] => .ok ""
  | part :: rest => do
      let first ← render dialect part
      let others ← renderAll dialect rest
      return first ++ others

def renderArgs (dialect : Dialect) :
    List (TypedName × Option (List Part)) → Outcome (List (TypedName × String))
  | [] => .ok []
  | (declared, none) :: rest => do
      let others ← renderArgs dialect rest
      return (declared, "") :: others
  | (declared, some value) :: rest => do
      let text ← Outcome.inContext s!"default of argument {declared.name}" (renderAll dialect value)
      let others ← renderArgs dialect rest
      return (declared, text) :: others

def renderMembers (dialect : Dialect) (record : String) :
    List (TypedName × Option (List Part)) → Outcome (List (TypedName × String))
  | [] => .ok []
  | (declared, none) :: rest => do
      let others ← renderMembers dialect record rest
      return (declared, "") :: others
  | (declared, some value) :: rest => do
      let text ← Outcome.inContext s!"member {declared.name} of {record}" (renderAll dialect value)
      let others ← renderMembers dialect record rest
      return (declared, text) :: others

end

end Patchbay.Code
