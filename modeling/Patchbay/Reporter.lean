import Patchbay.Program.Metadata

namespace Patchbay

/-! Diagnostics: entries of a log, how they are written, and a reporter that collects them.

An entry has a level, a message and named fields.  A field that has the name of a
part of every entry is written under a longer name, so that it cannot hide it.
-/

inductive Level where
  | error
  | warning
  | debug
deriving DecidableEq, Repr

def Level.name : Level → String
  | .error => "error"
  | .warning => "warning"
  | .debug => "debug"

structure LogEntry where
  level : Level
  message : String
  fields : Table Value := ∅

inductive LogFormat where
  | text
  | json
deriving DecidableEq, Repr, Inhabited

/-- The format of a name; a name that is not known stands for text. -/
def LogFormat.ofName : String → LogFormat
  | "json" => .json
  | _ => .text

namespace LogEntry

/-- The names that parts of an entry have. -/
def reserved : List String := ["time", "msg", "level", "logrus_error"]

/-- The fields under the names they are written with. -/
def namedFields (entry : LogEntry) : Table Value :=
  reserved.foldl (fun fields name =>
    match fields.get? name with
    | some value => (fields.set ("fields." ++ name) value).erase name
    | none => fields) entry.fields

/-- Characters that a text may have and still be written without quotes. -/
def isBare (c : Char) : Bool :=
  c.isAlphanum || "-._/@^+".toList.contains c

def showText (text : String) : String :=
  if text.toList.all isBare then text else Text.quoted text

/-- The entry on one line of text: level, message unless it is empty, and fields by name. -/
def toText (entry : LogEntry) : String :=
  let fields := entry.namedFields
  let parts := [("level", entry.level.name)] ++
    (if entry.message = "" then [] else [("msg", entry.message)]) ++
    (Text.sortTexts fields.keys).map fun name => (name, (fields.getD name .null).listed)
  String.intercalate " " (parts.map fun (name, text) => name ++ "=" ++ showText text)

/-- The entry as an object; one that cannot be serialised has none. -/
def toJson? (entry : LogEntry) : Option Json :=
  let fields := (entry.namedFields.set "msg" (.text entry.message)).set "level"
    (.text entry.level.name)
  (Metadata.ofValue (.table fields.entries) {}).toOption

/-- The line that is written for an entry. -/
def line (entry : LogEntry) : LogFormat → String
  | .text => entry.toText ++ "\n"
  | .json => match entry.toJson? with
    | some document => document.write ++ "\n"
    | none => ""

end LogEntry

structure Reporter where
  format : LogFormat
  /-- Whether entries for debugging are written. -/
  isVerbose : Bool := false
  /-- Whether nothing is written at all; errors and warnings are counted all the same. -/
  isSilent : Bool := false
  output : String := ""
  errors : Nat := 0
  warnings : Nat := 0
deriving Inhabited

namespace Reporter

def new (format : String) : Reporter := { format := .ofName format }

def discarding : Reporter := { format := .text, isSilent := true }

def shows (reporter : Reporter) (level : Level) : Bool :=
  !reporter.isSilent && (level ≠ .debug || reporter.isVerbose)

def log (reporter : Reporter) (entry : LogEntry) : Reporter :=
  if reporter.shows entry.level then
    { reporter with output := reporter.output ++ entry.line reporter.format }
  else reporter

/-- Reports an error about a node, a file or another subject. -/
def errorAbout (reporter : Reporter) (subject message : String) : Reporter :=
  { reporter with errors := reporter.errors + 1 }.log
    { level := .error, message, fields := .ofList [("subject", .text subject)] }

def error (reporter : Reporter) (message : String) : Reporter :=
  { reporter with errors := reporter.errors + 1 }.log { level := .error, message }

def warn (reporter : Reporter) (message : String) : Reporter :=
  { reporter with warnings := reporter.warnings + 1 }.log { level := .warning, message }

def debug (reporter : Reporter) (message : String) : Reporter :=
  reporter.log { level := .debug, message }

def hasErrors (reporter : Reporter) : Bool := 0 < reporter.errors

/-- The duration that is logged for a pass: passes are functions, and the log does not time them. -/
def untimed : String := "0s"

/-- Logs the passes of a layout that were done. -/
def passesDone (reporter : Reporter) (passes : List String) : Reporter :=
  passes.foldl (fun reporter pass => reporter.log
    { level := .debug
      message := "pass done"
      fields := .ofList [("duration", .text untimed), ("pass", .text pass)] }) reporter

end Reporter

end Patchbay
