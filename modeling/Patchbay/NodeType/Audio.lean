import Patchbay.NodeType.Vocabulary

namespace Patchbay.NodeType

open Code (Template)
open Code.Template

/-! Audio node types. -/

/-- One sample of an output channel.  JavaScript has a buffer per channel, AssemblyScript one buffer
for all. -/
def outputSample (settings : Settings) (channel : Int) : Template :=
  if settings.isAssemblyScript then
    .text (outputBuffer ++ "[" ++ loopFrame ++ " + " ++ blockSize ++ " * " ++
      Text.ofInt channel ++ "]")
  else .text (outputBuffer ++ "[" ++ Text.ofInt channel ++ "][" ++ loopFrame ++ "]")

/-- The channel of an inlet: the one-based number listed for it, or its position. -/
def channelOf (channels : List Value) (position : Nat) : Option Int :=
  match channels[position]? with
  | some (.number listed) => (Number.truncate? listed).map (· - 1)
  | _ => some position

/-- Writes its inlets to the output, one channel for each.  Channels that the output does not have
are left out. -/
def dac : Implementation where
  dsp := some fun site =>
    let channels := (site.node.listArg? "channels").getD []
    let statements := site.node.inlets.zipIdx.filterMap fun (inlet, position) => do
      let channel ← channelOf channels position
      if channel < 0 || site.settings.outputs ≤ channel then none
      else some (.code [outputSample site.settings channel, " = ", portlet .ins inlet.id])
    { loop := some (.lines statements) }

/-- A cosine oscillator.  Its frequency is a signal, or an argument where no signal is connected;
a float on inlet 1 resets the phase. -/
def osc : Implementation where
  dependencies := ["msg"]
  state := some fun _ => some <| stateRecord [
    ("Float", "phase", ["0"]),
    ("Float", "J", ["0"]),
    ("Float", "frequency", [floatArg "frequency" 0])]
  initialization := some fun _ => .code [
    state, ".J = toFloat(2 * Math.PI) / ", text sampleRate]
  receivers := some fun site => [
    ("1", some <| receiverTemplate [
      "if (", isFloatMessage, ") \x7b\n",
      state, ".phase = toFloat(2 * Math.PI) * ", readFloat 0, "\n",
      "return\n",
      "\x7d\n",
      unsupported site])]
  dsp := some fun site =>
    let frequency : Template :=
      if connected site "0" then portlet .ins "0" else .code [state, ".frequency"]
    { loop := some <| .code [
        ahead [frequency],
        portlet .outs "0", " = toFloat(Math.cos(", state, ".phase))\n",
        state, ".phase += ", state, ".J * ", frequency] }

/-- A constant signal, changed by floats on inlet 0. -/
def sig : Implementation where
  isPure := true
  isInline := true
  dependencies := ["msg"]
  state := some fun _ => some <| stateRecord [("Float", "value", [floatArg "value" 0])]
  receivers := some fun site => [
    ("0", some <| receiverTemplate [
      "if (", isFloatMessage, ") \x7b\n",
      state, ".value = ", readFloat 0, "\n",
      "return\n",
      "\x7d\n",
      unsupported site])]
  dsp := some fun _ => { expression := some <| .code [state, ".value"] }

/-- Combines inlets 0 and 1; an argument stands in for inlet 1 where nothing is connected. -/
def binaryOperator (alphaName operator : String) : Implementation where
  isPure := true
  isInline := true
  alphaName := alphaName
  dsp := some fun site =>
    let right : Template := if connected site "1" then portlet .ins "1" else floatArg "value" 0
    { expression := some <| .code [
        ahead [right], portlet .ins "0", " ", text operator, " ", right] }

/-- A one-pole low-pass filter.  The cutoff is computed anew only while inlet 1 is connected. -/
def lop : Implementation where
  alphaName := "lop"
  state := some fun _ => some <| stateRecord [
    ("Float", "previous", ["0"]),
    ("Float", "coeff", ["0"])]
  core := some fun _ => .code [
    .func (own "setFrequency")
      [(own "State", "state", none), ("Float", "frequency", none)] "void" [
      "state.coeff = toFloat(Math.max(0, Math.min(frequency * 2 * Math.PI / ", text sampleRate,
      ", 1)))"]]
  initialization := some fun _ => .code [
    own "setFrequency", "(", state, ", ", floatArg "frequency" 0, ")"]
  dsp := some fun _ =>
    { loop := some <| .code [
        state, ".previous = ", portlet .outs "0", " = ",
        state, ".coeff * ", portlet .ins "0", " + (1 - ", state, ".coeff) * ", state, ".previous"]
      inlets := [("1", .code [own "setFrequency", "(", state, ", ", portlet .ins "1", ")"])] }

end Patchbay.NodeType
