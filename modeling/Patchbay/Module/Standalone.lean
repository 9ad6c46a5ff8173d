import Patchbay.Module.Library

namespace Patchbay

/-! A runtime module generated by itself, in a name index that knows the module and what it depends
on and nothing else.
-/

structure Standalone where
  code : Option Code.Sequence
  /-- The functions that the host provides, under their keys. -/
  imports : List Code.Function
  exports : List String
  /-- The names that the code reads, in the order of first reading. -/
  keys : List String

namespace Library

/-- Generates the module that a definition describes; there is none under an unknown name. -/
def standalone? (library : Library) (definition : String) (settings : Settings) :
    Option Standalone := do
  let module ← library.get? definition
  let names := (library.flatten [definition]).foldl
    (fun names member => names.registerModule member.namespaceName)
    { graph := .empty, labels := ∅ : NameIndex }
  let scope : Code.Scope := { space := .module module.namespaceName }
  let filling : Code.Fill (Option Code.Sequence × List Code.Function) := do
    let code ← module.code.mapM fun template => (template settings).fillSequence scope
    let imports ← match module.imports with
      | none => pure []
      | some templates => (templates settings).mapM fun template => template.fill scope
    return (code, imports)
  let ((code, imports), ledger) := filling.run { names }
  return { code, imports, exports := module.exports, keys := ledger.names.keysOf scope.space }

end Library

end Patchbay
