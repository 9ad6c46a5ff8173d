import Patchbay.Module.Basic

namespace Patchbay.Module

open Code (Template FunctionTemplate)
open Code.Template

/-! Sound files of the host.  A program asks through functions that the host provides; the host
answers through an exported function with the id of the operation.
-/

def soundFileImports (_ : Settings) : List FunctionTemplate :=
  [{ name := "sendReadSoundFileRequest"
     args := [("Int", "id", none), ("string", "url", none)]
     result := "void" },
   { name := "sendWriteSoundFileRequest"
     args := [("Int", "id", none), ("Array<FloatArray>", "sound", none), ("string", "url", none)]
     result := "void" }]

def soundFileTypes (settings : Settings) : Template :=
  if settings.isAssemblyScript then
    .code [
      "type FsReadCallback = (id: Int, status: Int, sound: Array<FloatArray>) => void\n",
      "type FsWriteCallback = (id: Int, status: Int) => void"]
  else .absent

def soundFileCode (settings : Settings) : Template :=
  let id := ("Int", "id")
  let status := ("Int", "status")
  let sound := ("Array<FloatArray>", "sound")
  let url := ("string", "url")
  lines [
    reserve ["readOperations", "writeOperations", "operationCounter", "sendReadSoundFileRequest",
      "sendWriteSoundFileRequest"],
    soundFileTypes settings,
    const "Map<Int, FsReadCallback>" (own "readOperations") [
      newMap settings "Int" "FsReadCallback"],
    const "Map<Int, FsWriteCallback>" (own "writeOperations") [
      newMap settings "Int" "FsWriteCallback"],
    var "Int" (own "operationCounter") ["0"],
    fn (own "readSoundFile") [url, ("FsReadCallback", "callback")] "Int" [
      "const id = ++", own "operationCounter", "\n",
      own "readOperations", ".set(id, callback)\n",
      own "sendReadSoundFileRequest", "(id, url)\n",
      "return id"],
    fn (own "writeSoundFile") [sound, url, ("FsWriteCallback", "callback")] "Int" [
      "const id = ++", own "operationCounter", "\n",
      own "writeOperations", ".set(id, callback)\n",
      own "sendWriteSoundFileRequest", "(id, sound, url)\n",
      "return id"],
    fn (own "onReadSoundFileResponse") [id, status, sound] "void" [
      "if (!", own "readOperations", ".has(id)) \x7b\n",
      "throw new Error('unknown read operation ' + id.toString())\n",
      "\x7d\n",
      "const callback = ", own "readOperations", ".get(id)\n",
      own "readOperations", ".delete(id)\n",
      "callback(id, status, sound)"],
    fn (own "onWriteSoundFileResponse") [id, status] "void" [
      "if (!", own "writeOperations", ".has(id)) \x7b\n",
      "throw new Error('unknown write operation ' + id.toString())\n",
      "\x7d\n",
      "const callback = ", own "writeOperations", ".get(id)\n",
      own "writeOperations", ".delete(id)\n",
      "callback(id, status)"]]

def soundFiles : Module where
  namespaceName := "fs"
  dependencies := ["msg"]
  code := some soundFileCode
  exports := ["onReadSoundFileResponse", "onWriteSoundFileResponse"]
  imports := some soundFileImports

end Patchbay.Module
