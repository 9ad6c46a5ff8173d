import Patchbay.Proofs.Code.Writable
import Patchbay.Proofs.Module.Linking
import Patchbay.Proofs.Program.Modules
import Patchbay.Proofs.Program.Portlets

namespace Patchbay

/-! What the code of runtime modules relies on.

A module is sound when it only refers to keys that it declares itself and to keys of modules that it
depends on, declares every key once, whatever the settings are, and can be written in every language.
-/

namespace Code

/-- The key of a name of the own name space. -/
def Template.ownKey? : Template → Option String
  | .own key => some key
  | _ => none

def Template.fixedText? : Template → Option String
  | .text value => some value
  | _ => none

/-- The keys that a template declares at its top level. -/
def Template.keys (template : Template) : List String := template.declared.filterMap Template.ownKey?

def Read.isPortlet : Read → Bool
  | .portlet .. => true
  | _ => false

/-- Whether the name that a hole stands for is declared: a name of the own space among the own keys, a
name of a module among the keys that the module has, provided the module is depended on. -/
def Read.isBacked (shared : String → List String) (dependencies own : List String) : Read → Bool
  | .portlet .. => true
  | .own key => own.contains key
  | .shared namespaceName key =>
      dependencies.contains namespaceName && (shared namespaceName).contains key

mutual

/-- What is declared at the top level of a template is named by holes of it. -/
theorem Template.reads_of_declared : (template : Template) →
    ∀ name ∈ template.declared, ∀ read ∈ name.reads, read ∈ template.reads
  | .list _ items => by
      rw [Template.declared, Template.reads]
      exact reads_of_declaredOf items
  | .code parts | .lines parts | .raw parts => by
      rw [Template.declared, Template.reads]
      exact reads_of_declaredOf parts
  | .var _ name _ | .const _ name _ => by
      intro declared isName read member
      rw [Template.declared, List.mem_singleton] at isName
      subst isName
      rw [Template.reads]
      exact List.mem_append_right _ (List.mem_append_left _ member)
  | .func name _ _ _ | .record name _ => by
      intro declared isName read member
      rw [Template.declared, List.mem_singleton] at isName
      subst isName
      rw [Template.reads]
      exact List.mem_append_left _ member
  | .absent | .text _ | .number _ | .single _ | .integer _ | .wide _ | .flag _ | .missing _
  | .state | .floatArg .. | .textArg .. | .portlet .. | .own _ | .shared .. | .ahead _ => by
      simp [Template.declared]

theorem reads_of_declaredOf : (templates : List Template) →
    ∀ name ∈ declaredOf templates, ∀ read ∈ name.reads, read ∈ readsOf templates
  | [] => by simp [declaredOf]
  | template :: rest => by
      intro name isName read member
      rw [declaredOf] at isName
      rw [readsOf]
      rcases List.mem_append.mp isName with first | later
      · exact List.mem_append_left _ (template.reads_of_declared name first read member)
      · exact List.mem_append_right _ (reads_of_declaredOf rest name later read member)

end

end Code

namespace Module

def templates (module : Module) (settings : Settings) : List Code.Template :=
  module.code.toList.map fun template => template settings

def codeKeys (module : Module) : List String := (module.templates {}).flatMap Code.Template.keys

def importKeys (module : Module) : List String :=
  (module.importTemplates {}).filterMap fun template => template.name.fixedText?

/-- The keys of the name space of a module that are declared: those of its code and those of the
functions that the host provides. -/
def keys (module : Module) : List String := module.codeKeys ++ module.importKeys

end Module

/-- The keys that the modules of a library declare. -/
def Library.keyTable (library : Library) : Table (List String) := library.map fun _ => Module.keys

def Library.keysOf (library : Library) (namespaceName : String) : List String :=
  library.keyTable.getD namespaceName []

theorem Library.keysOf_eq {library : Library} {definition : String} {module : Module}
    (found : library.get? definition = some module) : library.keysOf definition = module.keys := by
  simp [keysOf, keyTable, Table.getD, found]

/-- What the modules that come with the compiler declare. -/
def Library.standardKeys : Table (List String) :=
  .ofList [
    ("msg", Module.messageKeys),
    ("sked", ["ID_NULL", "MODE_WAIT", "MODE_SUBSCRIBE", "create", "wait", "waitFuture", "subscribe",
      "emit", "cancel", "createRequest"]),
    ("commonsArrays", ["arrays", "skeduler", "getArray", "hasArray", "setArray",
      "subscribeArrayChanges", "cancelArrayChangesSubscription"]),
    ("commonsFrames", ["skeduler", "waitFrame", "cancelWaitFrame", "emitFrame"]),
    ("msgBuses", ["buses", "publish", "subscribe", "unsubscribe"]),
    ("fs", ["readOperations", "writeOperations", "operationCounter", "readSoundFile",
      "writeSoundFile", "onReadSoundFileResponse", "onWriteSoundFileResponse",
      "sendReadSoundFileRequest", "sendWriteSoundFileRequest"])]

theorem Library.keysOf_standard : Library.standard.keysOf = fun namespaceName =>
    standardKeys.getD namespaceName [] := by
  have same : Library.standard.keyTable = standardKeys := Table.ext rfl
  unfold keysOf
  rw [same]

structure Module.Sound (library : Library) (module : Module) : Prop where
  backed : ∀ settings, (module.reads settings).all (fun read => !read.isPortlet &&
    read.isBacked library.keysOf module.dependencies module.keys) = true
  declares : ∀ settings, (module.templates settings).flatMap Code.Template.declared =
    module.codeKeys.map .own
  imports : ∀ settings, (module.importTemplates settings).map (·.name) =
    module.importKeys.map .text
  distinct : module.keys.Nodup
  exports : module.exports.all module.keys.contains = true
  writable : ∀ settings, (module.templates settings).all Code.Template.isWritable = true
  plainImports : ∀ settings, (module.importTemplates settings).all
    (fun template => Code.argsWritable template.args) = true

/-- The keys of required modules that programs refer to by themselves. -/
def Library.essential : List (String × String) :=
  [("msg", "nullMessageReceiver"), ("msg", "emptyMessage"), ("commonsArrays", "setArray"),
    ("commonsFrames", "emitFrame")]

/-- Every module stands under its own name space and is sound, and the essential keys are there. -/
structure Library.Sound (library : Library) : Prop where
  named : ∀ {definition module}, library.get? definition = some module →
    module.namespaceName = definition
  modules : ∀ {definition module}, library.get? definition = some module → module.Sound library
  essential : ∀ use ∈ essential, use.2 ∈ library.keysOf use.1

namespace Module

/-- A module whose code is one template. -/
theorem Sound.of_code {library : Library} {module : Module} {code : Settings → Code.Template}
    (given : module.code = some code)
    (backed : ∀ settings, (code settings).reads.all (fun read => !read.isPortlet &&
      read.isBacked library.keysOf module.dependencies module.keys) = true)
    (declares : ∀ settings, (code settings).declared = (code {}).keys.map .own)
    (writable : ∀ settings, (code settings).isWritable = true)
    (importReads : ∀ settings, ((module.importTemplates settings).flatMap
      Code.FunctionTemplate.reads).isEmpty = true)
    (imports : ∀ settings, (module.importTemplates settings).map (·.name) =
      module.importKeys.map .text)
    (plainImports : ∀ settings, (module.importTemplates settings).all
      (fun template => Code.argsWritable template.args) = true)
    (distinct : module.keys.Nodup) (exports : module.exports.all module.keys.contains = true) :
    module.Sound library where
  backed settings := by
    simp only [reads, given, Option.toList_some, List.flatMap_singleton,
      List.isEmpty_iff.mp (importReads settings), List.append_nil]
    exact backed settings
  declares settings := by
    simp only [templates, codeKeys, given, Option.toList_some, List.map_singleton,
      List.flatMap_singleton]
    exact declares settings
  imports := imports
  distinct := distinct
  exports := exports
  writable settings := by
    simp only [templates, given, Option.toList_some, List.map_singleton, List.all_cons,
      List.all_nil, Bool.and_true]
    exact writable settings
  plainImports := plainImports

theorem messages_sound : messages.Sound .standard := by
  refine .of_code (show messages.code = some messageCode from rfl) ?_ ?_ ?_ (fun _ => rfl)
    (fun _ => rfl) (fun _ => rfl) (by decide) rfl
  all_goals
    intro settings
    unfold messageCode messageBodies
    cases settings.isAssemblyScript <;> rfl

theorem scheduler_sound : scheduler.Sound .standard := by
  refine .of_code (show scheduler.code = some schedulerCode from rfl) ?_ ?_ ?_ (fun _ => rfl)
    (fun _ => rfl) (fun _ => rfl) (by decide) rfl
  all_goals
    intro settings
    unfold schedulerCode
    cases settings.isAssemblyScript <;> rfl

theorem arrays_sound : arrays.Sound .standard := by
  refine .of_code (show arrays.code = some arraysCode from rfl) ?_ ?_ ?_ (fun _ => rfl)
    (fun _ => rfl) (fun _ => rfl) (by decide) rfl
  all_goals
    intro settings
    unfold arraysCode newMap
    cases settings.isAssemblyScript <;> rfl

theorem frames_sound : frames.Sound .standard :=
  .of_code (show frames.code = some framesCode from rfl) (fun _ => rfl) (fun _ => rfl)
    (fun _ => rfl) (fun _ => rfl) (fun _ => rfl) (fun _ => rfl) (by decide) rfl

theorem buses_sound : buses.Sound .standard := by
  refine .of_code (show buses.code = some busesCode from rfl) ?_ ?_ ?_ (fun _ => rfl)
    (fun _ => rfl) (fun _ => rfl) (by decide) rfl
  all_goals
    intro settings
    unfold busesCode newMap
    cases settings.isAssemblyScript <;> rfl

theorem soundFiles_sound : soundFiles.Sound .standard := by
  refine .of_code (show soundFiles.code = some soundFileCode from rfl) ?_ ?_ ?_ (fun _ => rfl)
    (fun _ => rfl) (fun _ => rfl) (by decide) rfl
  all_goals
    intro settings
    unfold soundFileCode soundFileTypes newMap
    cases settings.isAssemblyScript <;> rfl

end Module

theorem Library.standard_sound : Library.standard.Sound where
  named found := by
    have listed := Table.mem_of_get?_ofList found
    simp only [List.mem_cons, Prod.mk.injEq, List.not_mem_nil, or_false] at listed
    rcases listed with ⟨rfl, rfl⟩ | ⟨rfl, rfl⟩ | ⟨rfl, rfl⟩ | ⟨rfl, rfl⟩ | ⟨rfl, rfl⟩ | ⟨rfl, rfl⟩ <;>
      rfl
  modules found := by
    have listed := Table.mem_of_get?_ofList found
    simp only [List.mem_cons, Prod.mk.injEq, List.not_mem_nil, or_false] at listed
    rcases listed with ⟨_, rfl⟩ | ⟨_, rfl⟩ | ⟨_, rfl⟩ | ⟨_, rfl⟩ | ⟨_, rfl⟩ | ⟨_, rfl⟩
    · exact Module.messages_sound
    · exact Module.scheduler_sound
    · exact Module.arrays_sound
    · exact Module.frames_sound
    · exact Module.buses_sound
    · exact Module.soundFiles_sound
  essential := by
    rw [keysOf_standard]
    decide

end Patchbay
