import Patchbay.Module.Basic

namespace Patchbay.Module

open Code (Template)
open Code.Template

/-! The cooperative scheduler.  Callbacks wait for an event, known by a text key, either once or on
every occurrence.  Where events are logged, waiting for one that has happened calls back at once.
-/

structure SchedulerBodies where
  types : Template := .absent
  create : Template
  request : Template

def schedulerInJavaScript : SchedulerBodies where
  create := .code [
    "return \x7b\n",
    "events: new Map(),\n",
    "requests: new Map(),\n",
    "eventLog: new Set(),\n",
    "isLoggingEvents: isLoggingEvents,\n",
    "idCounter: 1,\n",
    "\x7d"]
  request := .code ["const request = \x7b id: id, mode: mode, callback: callback \x7d"]

def schedulerInAssemblyScript : SchedulerBodies where
  types := .code [
    "type SkedCallback = (event: string) => void\n",
    "\n",
    "class SkedRequest \x7b\n",
    "id: Int\n",
    "mode: Int\n",
    "callback: SkedCallback\n",
    "\x7d\n",
    "\n",
    "class Skeduler \x7b\n",
    "events: Map<string, Array<Int>>\n",
    "requests: Map<Int, SkedRequest>\n",
    "eventLog: Set<string>\n",
    "isLoggingEvents: boolean\n",
    "idCounter: Int\n",
    "\x7d"]
  create := .code [
    "return \x7b\n",
    "events: new Map<string, Array<Int>>(),\n",
    "requests: new Map<Int, SkedRequest>(),\n",
    "eventLog: new Set<string>(),\n",
    "isLoggingEvents: isLoggingEvents,\n",
    "idCounter: 1,\n",
    "\x7d"]
  request := .code [
    const "SkedRequest" "request" ["\x7b id: id, mode: mode, callback: callback \x7d"]]

def schedulerCode (settings : Settings) : Template :=
  let skeduler := ("Skeduler", "skeduler")
  let event := ("string", "event")
  let callback := ("SkedCallback", "callback")
  let bodies :=
    if settings.isAssemblyScript then schedulerInAssemblyScript else schedulerInJavaScript
  lines [
    reserve ["ID_NULL", "MODE_WAIT", "MODE_SUBSCRIBE", "create", "wait", "waitFuture", "subscribe",
      "emit", "cancel", "createRequest"],
    bodies.types,
    const "Int" (own "ID_NULL") ["-1"],
    const "Int" (own "MODE_WAIT") ["0"],
    const "Int" (own "MODE_SUBSCRIBE") ["1"],
    fn (own "create") [("boolean", "isLoggingEvents")] "Skeduler" [bodies.create],
    fn (own "wait") [skeduler, event, callback] "Int" [
      "if (skeduler.isLoggingEvents === false) \x7b\n",
      "throw new Error('skeduler is not logging events')\n",
      "\x7d\n",
      "if (skeduler.eventLog.has(event)) \x7b\n",
      "callback(event)\n",
      "return ", own "ID_NULL", "\n",
      "\x7d\n",
      "return ", own "createRequest", "(skeduler, event, callback, ", own "MODE_WAIT", ")"],
    fn (own "waitFuture") [skeduler, event, callback] "Int" [
      "return ", own "createRequest", "(skeduler, event, callback, ", own "MODE_WAIT", ")"],
    fn (own "subscribe") [skeduler, event, callback] "Int" [
      "return ", own "createRequest", "(skeduler, event, callback, ", own "MODE_SUBSCRIBE", ")"],
    fn (own "emit") [skeduler, event] "void" [
      "if (skeduler.isLoggingEvents === true) \x7b\n",
      "skeduler.eventLog.add(event)\n",
      "\x7d\n",
      "if (!skeduler.events.has(event)) \x7b\n",
      "return\n",
      "\x7d\n",
      "const ids = skeduler.events.get(event)\n",
      const "Array<Int>" "staying" ["[]"], "\n",
      "skeduler.events.set(event, [])\n",
      "for (let i = 0; i < ids.length; i++) \x7b\n",
      "if (!skeduler.requests.has(ids[i])) \x7b\n",
      "continue\n",
      "\x7d\n",
      "const request = skeduler.requests.get(ids[i])\n",
      "request.callback(event)\n",
      "if (request.mode === ", own "MODE_WAIT", ") \x7b\n",
      "skeduler.requests.delete(request.id)\n",
      "\x7d else if (skeduler.requests.has(request.id)) \x7b\n",
      "staying.push(request.id)\n",
      "\x7d\n",
      "\x7d\n",
      "const added = skeduler.events.get(event)\n",
      "if (staying.length === 0 && added.length === 0) \x7b\n",
      "skeduler.events.delete(event)\n",
      "\x7d else \x7b\n",
      "skeduler.events.set(event, staying.concat(added))\n",
      "\x7d"],
    fn (own "cancel") [skeduler, ("Int", "id")] "void" ["skeduler.requests.delete(id)"],
    fn (own "createRequest") [skeduler, event, callback, ("Int", "mode")] "Int" [
      "const id = skeduler.idCounter++\n",
      bodies.request, "\n",
      "skeduler.requests.set(id, request)\n",
      "if (!skeduler.events.has(event)) \x7b\n",
      "skeduler.events.set(event, [])\n",
      "\x7d\n",
      "skeduler.events.get(event).push(id)\n",
      "return id"]]

def scheduler : Module where
  namespaceName := "sked"
  code := some schedulerCode

end Patchbay.Module
