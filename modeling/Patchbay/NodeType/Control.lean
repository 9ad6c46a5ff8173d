import Patchbay.NodeType.Vocabulary

namespace Patchbay.NodeType

open Code (Template)
open Code.Template

/-! Node types that work on messages. -/

/-- Sends a bang on the first frame. -/
def loadbang : Implementation where
  dependencies := ["msg", "commonsFrames"]
  initialization := some fun _ => .code [
    shared "commonsFrames" "waitFrame", "(0, ",
    fn "" [("string", "event")] "void" [portlet .snds "0", "(", msg "bang", "())"],
    ")"]

/-- Bangs at a rate once it is started.  Inlet 0 takes a bang or a number other than zero to start,
zero or `stop` to stop; inlet 1 sets the rate. -/
def metro : Implementation where
  alphaName := "metro"
  dependencies := ["msg", "sked", "commonsFrames"]
  state := some fun _ => some <| stateRecord [
    ("Float", "rate", [floatArg "rate" 0]),
    ("Float", "sampleRatio", ["1"]),
    ("Int", "skedId", [shared "sked" "ID_NULL"]),
    ("Float", "realNextTick", ["-1"]),
    ("SkedCallback", "tickCallback", [fn "" [("string", "event")] "void"])]
  core := some fun _ =>
    let state : Template × Template × Option (List Template) := (own "State", "state", none)
    lines [
      .func (own "setRate") [state, ("Float", "rate", none)] "void" [
        "state.rate = rate\n",
        "state.sampleRatio = toFloat(Math.max(1, rate * ", text sampleRate, " / 1000))"],
      .func (own "scheduleNextTick") [state] "void" [
        "state.realNextTick = state.realNextTick + state.sampleRatio\n",
        "state.skedId = ", shared "commonsFrames" "waitFrame",
        "(toInt(Math.round(state.realNextTick)), state.tickCallback)"],
      .func (own "stop") [state] "void" [
        "if (state.skedId !== ", shared "sked" "ID_NULL", ") \x7b\n",
        shared "commonsFrames" "cancelWaitFrame", "(state.skedId)\n",
        "state.skedId = ", shared "sked" "ID_NULL", "\n",
        "\x7d\n",
        "state.realNextTick = -1"]]
  initialization := some fun _ => lines [
    .code [own "setRate", "(", state, ", ", floatArg "rate" 0, ")"],
    .code [state, ".tickCallback = ",
      fn "" [("string", "event")] "void" [
        portlet .snds "0", "(", msg "bang", "())\n",
        own "scheduleNextTick", "(", state, ")"]]]
  receivers := some fun site => [
    ("0", some <| receiverTemplate [
      "if (", msg "getLength", "(m) === 1) \x7b\n",
      .code [
        "if ((", msg "isFloatToken", "(m, 0) && ", msg "readFloatToken", "(m, 0) === 0)",
        " || (", msg "isStringToken", "(m, 0) && ", msg "readStringToken", "(m, 0) === 'stop')) \x7b\n",
        own "stop", "(", state, ")\n",
        "return\n",
        "\x7d\n"],
      .code [
        "if (", msg "isFloatToken", "(m, 0) || ", msg "isBang", "(m)) \x7b\n",
        own "stop", "(", state, ")\n",
        state, ".realNextTick = toFloat(", text frameCounter, ")\n",
        state, ".tickCallback('')\n",
        "return\n",
        "\x7d\n"],
      "\x7d\n",
      unsupported site]),
    ("1", some <| receiverTemplate [
      "if (", isFloatMessage, ") \x7b\n",
      own "setRate", "(", state, ", ", readFloat 0, ")\n",
      "return\n",
      "\x7d\n",
      unsupported site])]

/-- Stores a number.  Inlet 0 stores a float and outputs it, or outputs the stored one on a bang;
inlet 1 only stores. -/
def float : Implementation where
  dependencies := ["msg"]
  state := some fun _ => some <| stateRecord [("Float", "value", [floatArg "value" 0])]
  receivers := some fun site =>
    let output : Template :=
      .code [portlet .snds "0", "(", msg "floats", "([", state, ".value]))"]
    [("0", some <| receiverTemplate [
      "if (", isFloatMessage, ") \x7b\n",
      state, ".value = ", readFloat 0, "\n",
      output, "\n",
      "return\n",
      "\x7d\n",
      "if (", msg "isBang", "(m)) \x7b\n",
      output, "\n",
      "return\n",
      "\x7d\n",
      unsupported site]),
    ("1", some <| receiverTemplate [
      "if (", isFloatMessage, ") \x7b\n",
      state, ".value = ", readFloat 0, "\n",
      "return\n",
      "\x7d\n",
      unsupported site])]

/-- How a message is laid out: a string token reserves room for its characters, and any token that
is neither a string nor a number is the number zero. -/
def tokenLayout : Value → List Template
  | .text value => [msg "STRING_TOKEN", ", ", integer value.length]
  | _ => [msg "FLOAT_TOKEN"]

def tokenWrite (index : Nat) : Value → Template
  | .text value => .code [
      msg "writeStringToken", "(message, ", integer index, ", ", quote value, ")"]
  | .number value => .code [
      msg "writeFloatToken", "(message, ", integer index, ", ", number value, ")"]
  | _ => .code [msg "writeFloatToken", "(message, ", integer index, ", ", number 0, ")"]

def separateTokens : List (List Template) → List Template
  | [] => []
  | [token] => token
  | token :: rest => token ++ .text ", " :: separateTokens rest

/-- Outputs a fixed message whatever it receives. -/
def message : Implementation where
  dependencies := ["msg"]
  receivers := some fun site =>
    let tokens := (site.node.listArg? "template").getD []
    [("0", some <| receiverTemplate [
      const "Message" "message" [
        msg "create", "([", .code (separateTokens (tokens.map tokenLayout)), "])"], "\n",
      lines (tokens.zipIdx.map fun (token, index) => tokenWrite index token), "\n",
      portlet .snds "0", "(message)"])]

/-- Publishes every message on a named bus. -/
def send : Implementation where
  dependencies := ["msg", "msgBuses"]
  state := some fun site => some <| stateRecord [
    ("string", "busName", [quote (site.node.textArg "busName" "")])]
  receivers := some fun _ => [
    ("0", some <| receiverTemplate [shared "msgBuses" "publish", "(", state, ".busName, m)"])]

/-- Forwards the messages published on a named bus. -/
def receive : Implementation where
  dependencies := ["msg", "msgBuses"]
  initialization := some fun site => .code [
    shared "msgBuses" "subscribe", "(", quote (site.node.textArg "busName" ""), ", ",
    portlet .snds "0", ")"]

end Patchbay.NodeType
