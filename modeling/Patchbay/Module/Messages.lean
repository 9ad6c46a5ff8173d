import Patchbay.Module.Basic

namespace Patchbay.Module

open Code (Template)
open Code.Template

/-! The message envelope: a message is a fixed number of float and string tokens.

In JavaScript a message is an array of tokens.  In AssemblyScript it is one buffer:
a header of integers with the token count, a type tag for every token and one more
byte offset than there are tokens, then the packed tokens, one float for a float
token and one integer for every character of a string token.
-/

/-- The function bodies that depend on how a target stores messages. -/
structure MessageBodies where
  types : Template := .absent
  create : List Template
  getLength : List Template
  getTokenType : List Template
  writeFloatToken : List Template
  writeStringToken : List Template
  readFloatToken : List Template
  readStringToken : List Template

def messagesInJavaScript : MessageBodies where
  create := [
    "const m = []\n",
    "let i = 0\n",
    "while (i < template.length) \x7b\n",
    "if (template[i] === ", own "STRING_TOKEN", ") \x7b\n",
    "m.push('')\n",
    "i += 2\n",
    "\x7d else if (template[i] === ", own "FLOAT_TOKEN", ") \x7b\n",
    "m.push(0)\n",
    "i += 1\n",
    "\x7d else \x7b\n",
    "throw new Error('unknown token type ' + template[i])\n",
    "\x7d\n",
    "\x7d\n",
    "return m"]
  getLength := ["return m.length"]
  getTokenType := [
    "return typeof m[i] === 'number' ? ", own "FLOAT_TOKEN", " : ", own "STRING_TOKEN"]
  writeFloatToken := ["m[i] = value"]
  writeStringToken := ["m[i] = value"]
  readFloatToken := ["return m[i]"]
  readStringToken := ["return m[i]"]

/-- The start of message creation: the type and size of every token. -/
def messageTokens : List Template := [
  "const tokenTypes: Array<Int> = []\n",
  "const tokenSizes: Array<Int> = []\n",
  "let i: Int = 0\n",
  "while (i < template.length) \x7b\n",
  "if (template[i] === ", own "STRING_TOKEN", ") \x7b\n",
  "tokenTypes.push(", own "STRING_TOKEN", ")\n",
  "tokenSizes.push(template[i + 1] * <Int>sizeof<Int>())\n",
  "i += 2\n",
  "\x7d else if (template[i] === ", own "FLOAT_TOKEN", ") \x7b\n",
  "tokenTypes.push(", own "FLOAT_TOKEN", ")\n",
  "tokenSizes.push(<Int>sizeof<Float>())\n",
  "i += 1\n",
  "\x7d else \x7b\n",
  "throw new Error('unknown token type ' + template[i].toString())\n",
  "\x7d\n",
  "\x7d\n"]

/-- The end of message creation: writes the header and reserves the buffer. -/
def messageLayout : List Template := [
  "const tokenCount = tokenTypes.length\n",
  "const headerLength = 1 + tokenCount * 2 + 1\n",
  "const header = new Int32Array(headerLength)\n",
  "header[0] = tokenCount\n",
  "let position: Int = headerLength * <Int>sizeof<Int>()\n",
  "for (let j: Int = 0; j < tokenCount; j++) \x7b\n",
  "header[1 + j] = tokenTypes[j]\n",
  "header[1 + tokenCount + j] = position\n",
  "position += tokenSizes[j]\n",
  "\x7d\n",
  "header[headerLength - 1] = position\n",
  "const buffer = new ArrayBuffer(position)\n",
  "Int32Array.wrap(buffer, 0, headerLength).set(header)\n",
  "return new Message(buffer)"]

def messagesInAssemblyScript (bits : String) : MessageBodies where
  types := .code [
    "type MessageTemplate = Array<Int>\n",
    "type MessageHandler = (m: Message) => void\n",
    "\n",
    "class Message \x7b\n",
    "public dataView: DataView\n",
    "public tokenCount: Int\n",
    "public tokenTypes: Int32Array\n",
    "public tokenPositions: Int32Array\n",
    "\n",
    "constructor(buffer: ArrayBuffer) \x7b\n",
    "const tokenCount = Int32Array.wrap(buffer, 0, 1)[0]\n",
    "this.dataView = new DataView(buffer)\n",
    "this.tokenCount = tokenCount\n",
    "this.tokenTypes = Int32Array.wrap(buffer, <Int>sizeof<Int>(), tokenCount)\n",
    "this.tokenPositions = Int32Array.wrap(buffer, (1 + tokenCount) * <Int>sizeof<Int>(), ",
    "tokenCount + 1)\n",
    "\x7d\n",
    "\x7d"]
  create := messageTokens ++ messageLayout
  getLength := ["return m.tokenCount"]
  getTokenType := ["return m.tokenTypes[i]"]
  writeFloatToken := [
    "m.dataView.setFloat", text bits, "(m.tokenPositions[i], value, true)"]
  writeStringToken := [
    "const start = m.tokenPositions[i]\n",
    "const length = (m.tokenPositions[i + 1] - start) / <Int>sizeof<Int>()\n",
    "for (let j: Int = 0; j < length && j < value.length; j++) \x7b\n",
    "m.dataView.setInt32(start + j * <Int>sizeof<Int>(), value.charCodeAt(j), true)\n",
    "\x7d"]
  readFloatToken := [
    "return m.dataView.getFloat", text bits, "(m.tokenPositions[i], true)"]
  readStringToken := [
    "const start = m.tokenPositions[i]\n",
    "const length = (m.tokenPositions[i + 1] - start) / <Int>sizeof<Int>()\n",
    "const chars: Array<Int> = []\n",
    "for (let j: Int = 0; j < length; j++) \x7b\n",
    "const code = m.dataView.getInt32(start + j * <Int>sizeof<Int>(), true)\n",
    "if (code === 0) \x7b\n",
    "break\n",
    "\x7d\n",
    "chars.push(code)\n",
    "\x7d\n",
    "return String.fromCharCodes(chars)"]

def messageBodies (settings : Settings) : MessageBodies :=
  if settings.isAssemblyScript then
    messagesInAssemblyScript (if settings.bitDepth = 32 then "32" else "64")
  else messagesInJavaScript

def messageKeys : List String :=
  ["FLOAT_TOKEN", "STRING_TOKEN", "create", "getLength", "getTokenType", "isStringToken",
    "isFloatToken", "isMatching", "writeFloatToken", "writeStringToken", "readFloatToken",
    "readStringToken", "floats", "strings", "bang", "isBang", "display", "emptyMessage",
    "nullMessageReceiver"]

def messageCode (settings : Settings) : Template :=
  let m := ("Message", "m")
  let i := ("Int", "i")
  let bodies := messageBodies settings
  lines [
    reserve messageKeys,
    const "Int" (own "FLOAT_TOKEN") ["0"],
    const "Int" (own "STRING_TOKEN") ["1"],
    bodies.types,
    fn (own "create") [("MessageTemplate", "template")] "Message" bodies.create,
    fn (own "getLength") [m] "Int" bodies.getLength,
    fn (own "getTokenType") [m, i] "Int" bodies.getTokenType,
    fn (own "isStringToken") [m, i] "boolean" [
      "return ", own "getTokenType", "(m, i) === ", own "STRING_TOKEN"],
    fn (own "isFloatToken") [m, i] "boolean" [
      "return ", own "getTokenType", "(m, i) === ", own "FLOAT_TOKEN"],
    fn (own "isMatching") [m, ("Array<Int>", "tokenTypes")] "boolean" [
      "if (tokenTypes.length !== ", own "getLength", "(m)) \x7b\n",
      "return false\n",
      "\x7d\n",
      "for (let i = 0; i < tokenTypes.length; i++) \x7b\n",
      "if (", own "getTokenType", "(m, i) !== tokenTypes[i]) \x7b\n",
      "return false\n",
      "\x7d\n",
      "\x7d\n",
      "return true"],
    fn (own "writeFloatToken") [m, i, ("Float", "value")] "void" bodies.writeFloatToken,
    fn (own "writeStringToken") [m, i, ("string", "value")] "void" bodies.writeStringToken,
    fn (own "readFloatToken") [m, i] "Float" bodies.readFloatToken,
    fn (own "readStringToken") [m, i] "string" bodies.readStringToken,
    fn (own "floats") [("Array<Float>", "values")] "Message" [
      const "MessageTemplate" "template" ["[]"], "\n",
      "for (let i = 0; i < values.length; i++) \x7b\n",
      "template.push(", own "FLOAT_TOKEN", ")\n",
      "\x7d\n",
      "const m = ", own "create", "(template)\n",
      "for (let i = 0; i < values.length; i++) \x7b\n",
      own "writeFloatToken", "(m, i, values[i])\n",
      "\x7d\n",
      "return m"],
    fn (own "strings") [("Array<string>", "values")] "Message" [
      const "MessageTemplate" "template" ["[]"], "\n",
      "for (let i = 0; i < values.length; i++) \x7b\n",
      "template.push(", own "STRING_TOKEN", ")\n",
      "template.push(values[i].length)\n",
      "\x7d\n",
      "const m = ", own "create", "(template)\n",
      "for (let i = 0; i < values.length; i++) \x7b\n",
      own "writeStringToken", "(m, i, values[i])\n",
      "\x7d\n",
      "return m"],
    fn (own "bang") [] "Message" ["return ", own "strings", "(['bang'])"],
    fn (own "isBang") [m] "boolean" [
      "return ", own "getLength", "(m) === 1 && ", own "isStringToken", "(m, 0) && ",
      own "readStringToken", "(m, 0) === 'bang'"],
    fn (own "display") [m] "string" [
      "let result = '['\n",
      "for (let i = 0; i < ", own "getLength", "(m); i++) \x7b\n",
      "if (i > 0) \x7b\n",
      "result += ', '\n",
      "\x7d\n",
      "if (", own "isStringToken", "(m, i)) \x7b\n",
      "result += '\"' + ", own "readStringToken", "(m, i) + '\"'\n",
      "\x7d else \x7b\n",
      "result += ", own "readFloatToken", "(m, i).toString()\n",
      "\x7d\n",
      "\x7d\n",
      "return result + ']'"],
    const "Message" (own "emptyMessage") [own "create", "([])"],
    fn (own "nullMessageReceiver") [m] "void"]

def messages : Module where
  namespaceName := "msg"
  code := some messageCode
  exports :=
    ["FLOAT_TOKEN", "STRING_TOKEN", "create", "getLength", "getTokenType", "isStringToken",
      "isFloatToken", "writeFloatToken", "writeStringToken", "readFloatToken", "readStringToken"]

end Patchbay.Module
