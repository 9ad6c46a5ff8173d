import Patchbay.Module.Basic

namespace Patchbay.Module

open Code (Template)
open Code.Template

/-! Registries that are looked up while a program runs: named arrays, callbacks for a frame, and
named message buses.
-/

def arraysCode (settings : Settings) : Template :=
  let name := ("string", "name")
  lines [
    reserve ["arrays", "skeduler", "getArray", "hasArray", "setArray", "subscribeArrayChanges",
      "cancelArrayChangesSubscription"],
    const "Map<string, FloatArray>" (own "arrays") [newMap settings "string" "FloatArray"],
    const "Skeduler" (own "skeduler") [shared "sked" "create", "(false)"],
    fn (own "getArray") [name] "FloatArray" [
      "if (!", own "arrays", ".has(name)) \x7b\n",
      "throw new Error('unknown array ' + name)\n",
      "\x7d\n",
      "return ", own "arrays", ".get(name)"],
    fn (own "hasArray") [name] "boolean" ["return ", own "arrays", ".has(name)"],
    fn (own "setArray") [name, ("FloatArray", "array")] "void" [
      own "arrays", ".set(name, array)\n",
      shared "sked" "emit", "(", own "skeduler", ", name)"],
    fn (own "subscribeArrayChanges") [name, ("SkedCallback", "callback")] "Int" [
      "const id = ", shared "sked" "subscribe", "(", own "skeduler", ", name, callback)\n",
      "if (", own "arrays", ".has(name)) \x7b\n",
      "callback(name)\n",
      "\x7d\n",
      "return id"],
    fn (own "cancelArrayChangesSubscription") [("Int", "id")] "void" [
      shared "sked" "cancel", "(", own "skeduler", ", id)"]]

/-- Arrays by name.  Reading an array that was never set fails when the program runs. -/
def arrays : Module where
  namespaceName := "commonsArrays"
  dependencies := ["sked"]
  code := some arraysCode
  exports := ["getArray", "setArray"]

def framesCode (_ : Settings) : Template :=
  let frame := ("Int", "frame")
  lines [
    reserve ["skeduler"],
    const "Skeduler" (own "skeduler") [shared "sked" "create", "(false)"],
    fn (own "waitFrame") [frame, ("SkedCallback", "callback")] "Int" [
      "return ", shared "sked" "waitFuture", "(", own "skeduler", ", frame.toString(), callback)"],
    fn (own "cancelWaitFrame") [("Int", "id")] "void" [
      shared "sked" "cancel", "(", own "skeduler", ", id)"],
    fn (own "emitFrame") [frame] "void" [
      shared "sked" "emit", "(", own "skeduler", ", frame.toString())"]]

/-- Callbacks that run when the engine reaches a frame. -/
def frames : Module where
  namespaceName := "commonsFrames"
  dependencies := ["sked"]
  code := some framesCode

def busesCode (settings : Settings) : Template :=
  let busName := ("string", "busName")
  let callback := ("MessageHandler", "callback")
  lines [
    reserve ["buses"],
    const "Map<string, Array<MessageHandler>>" (own "buses") [
      newMap settings "string" "Array<MessageHandler>"],
    fn (own "publish") [busName, ("Message", "m")] "void" [
      "if (!", own "buses", ".has(busName)) \x7b\n",
      "return\n",
      "\x7d\n",
      "const callbacks = ", own "buses", ".get(busName)\n",
      "for (let i = 0; i < callbacks.length; i++) \x7b\n",
      "callbacks[i](m)\n",
      "\x7d"],
    fn (own "subscribe") [busName, callback] "void" [
      "if (!", own "buses", ".has(busName)) \x7b\n",
      own "buses", ".set(busName, [])\n",
      "\x7d\n",
      own "buses", ".get(busName).push(callback)"],
    fn (own "unsubscribe") [busName, callback] "void" [
      "if (!", own "buses", ".has(busName)) \x7b\n",
      "return\n",
      "\x7d\n",
      "const callbacks = ", own "buses", ".get(busName)\n",
      "const found = callbacks.indexOf(callback)\n",
      "if (found !== -1) \x7b\n",
      "callbacks.splice(found, 1)\n",
      "\x7d"]]

/-- Named message buses, to which messages are published. -/
def buses : Module where
  namespaceName := "msgBuses"
  dependencies := ["msg"]
  code := some busesCode

end Patchbay.Module
