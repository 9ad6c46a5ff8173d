import Patchbay.NodeType.Vocabulary

namespace Patchbay.NodeType

open Code (Template)
open Code.Template

/-! Node types that work on named arrays. -/

/-- Writes a value into a named array.  A float on inlet 0 stores and writes it, a bang writes the
stored value again, `set` and a name switch the array; inlet 1 sets the index. -/
def tabwrite : Implementation where
  dependencies := ["msg", "commonsArrays"]
  state := some fun site => some <| stateRecord [
    ("Int", "index", ["0"]),
    ("Float", "value", ["0"]),
    ("string", "arrayName", [quote (site.node.textArg "arrayName" "")])]
  core := some fun _ => .code [
    .func (own "write") [(own "State", "state", none)] "void" [
      "const array = ", shared "commonsArrays" "getArray", "(state.arrayName)\n",
      "if (state.index >= 0 && state.index < array.length) \x7b\n",
      "array[state.index] = state.value\n",
      "\x7d"]]
  receivers := some fun site => [
    ("0", some <| receiverTemplate [
      "if (", isFloatMessage, ") \x7b\n",
      state, ".value = ", readFloat 0, "\n",
      own "write", "(", state, ")\n",
      "return\n",
      "\x7d\n",
      "if (", msg "isBang", "(m)) \x7b\n",
      own "write", "(", state, ")\n",
      "return\n",
      "\x7d\n",
      .code [
        "if (", msg "getLength", "(m) === 2 && ", msg "isStringToken", "(m, 0) && ",
        msg "readStringToken", "(m, 0) === 'set' && ", msg "isStringToken", "(m, 1)) \x7b\n",
        state, ".arrayName = ", msg "readStringToken", "(m, 1)\n",
        "return\n",
        "\x7d\n"],
      unsupported site]),
    ("1", some <| receiverTemplate [
      "if (", isFloatMessage, ") \x7b\n",
      state, ".index = toInt(", readFloat 0, ")\n",
      "return\n",
      "\x7d\n",
      unsupported site])]

/-- The status of a file operation that went well. -/
def statusOk : Template := integer 0

def isCommand (command : String) : Template :=
  .code [
    msg "getLength", "(m) === 3 && ", msg "isStringToken", "(m, 0) && ",
    msg "readStringToken", "(m, 0) === ", quote command, " && ",
    msg "isStringToken", "(m, 1) && ", msg "isStringToken", "(m, 2)"]

/-- Loads and saves arrays through the host.  `read` with a location and an array stores the first
channel and outputs its length, `write` saves the array and bangs. -/
def soundfiler : Implementation where
  dependencies := ["msg", "commonsArrays", "fs"]
  state := some fun _ => some <| stateRecord [
    ("string", "arrayName", ["''"]),
    ("FsReadCallback", "readCallback", [
      fn "" [("Int", "id"), ("Int", "status"), ("Array<FloatArray>", "sound")] "void"]),
    ("FsWriteCallback", "writeCallback", [
      fn "" [("Int", "id"), ("Int", "status")] "void"])]
  initialization := some fun _ => lines [
    .code [state, ".readCallback = ",
      fn "" [("Int", "id"), ("Int", "status"), ("Array<FloatArray>", "sound")] "void" [
        "if (status !== ", statusOk, " || sound.length === 0) \x7b\n",
        "return\n",
        "\x7d\n",
        shared "commonsArrays" "setArray", "(", state, ".arrayName, sound[0])\n",
        portlet .snds "0", "(", msg "floats", "([toFloat(sound[0].length)]))"]],
    .code [state, ".writeCallback = ",
      fn "" [("Int", "id"), ("Int", "status")] "void" [
        "if (status === ", statusOk, ") \x7b\n",
        portlet .snds "0", "(", msg "bang", "())\n",
        "\x7d"]]]
  receivers := some fun site => [
    ("0", some <| receiverTemplate [
      "if (", isCommand "read", ") \x7b\n",
      state, ".arrayName = ", msg "readStringToken", "(m, 2)\n",
      shared "fs" "readSoundFile", "(", msg "readStringToken", "(m, 1), ", state,
      ".readCallback)\n",
      "return\n",
      "\x7d\n",
      "if (", isCommand "write", ") \x7b\n",
      shared "fs" "writeSoundFile", "([", shared "commonsArrays" "getArray", "(",
      msg "readStringToken", "(m, 2))], ", msg "readStringToken", "(m, 1), ", state,
      ".writeCallback)\n",
      "return\n",
      "\x7d\n",
      unsupported site])]

end Patchbay.NodeType
