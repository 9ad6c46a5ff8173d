import Patchbay.Code.Render

namespace Patchbay.Code.Dialect

/-! The two target languages: JavaScript, which has no types, and AssemblyScript, which needs all
of them.  JavaScript state records are plain objects, so their shape is written nowhere.
-/

def block (body : String) : String :=
  if body = "" then " \x7b\x7d" else " \x7b\n" ++ body ++ "\n\x7d"

def javaScriptArg (arg : TypedName × String) : String :=
  if arg.2 = "" then arg.1.name else arg.1.name ++ " = " ++ arg.2

def javaScript : Dialect where
  var declared value :=
    if value = "" then "let " ++ declared.name else "let " ++ declared.name ++ " = " ++ value
  const declared value := "const " ++ declared.name ++ " = " ++ value
  func name args _ body :=
    "function " ++ name ++ "(" ++ String.intercalate ", " (args.map javaScriptArg) ++ ")" ++
      block body
  record _ _ := ""

def typed (declared : TypedName) : String := declared.name ++ ": " ++ declared.type

def typedWithValue (slot : TypedName × String) : String :=
  if slot.2 = "" then typed slot.1 else typed slot.1 ++ " = " ++ slot.2

def signature (args : List String) (result : String) : String :=
  "(" ++ String.intercalate ", " args ++ "): " ++ result

def assemblyScript : Dialect where
  var declared value := "let " ++ typedWithValue (declared, value)
  const declared value := "const " ++ typed declared ++ " = " ++ value
  func name args result body :=
    let head := signature (args.map typedWithValue) result
    if name = "" then head ++ " =>" ++ block body
    else "function " ++ name ++ head ++ block body
  record name members :=
    if members.isEmpty then "class " ++ name ++ " \x7b\x7d"
    else "class " ++ name ++ " \x7b\n" ++
      String.intercalate "\n" (members.map typedWithValue) ++ "\n\x7d"

/-- The declaration of a function that the host provides. -/
def declareImport (function : Function) : String :=
  "declare function " ++ function.name ++
    signature (function.args.map fun slot => typed slot.1) function.result

end Patchbay.Code.Dialect
