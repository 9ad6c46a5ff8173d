import Patchbay.Proofs.Code.Unmarked
import Patchbay.Proofs.Module.Sound

namespace Patchbay

/-! Runtime modules without marker lines: all their texts are fixed, whatever the settings are. -/

open Code (Template areUnmarked argsUnmarked)
open Text (isUnmarked isUnmarked_of_letters)

theorem unmarked_newMap {settings : Settings} {key value : String} {node : Node}
    (keyed : isUnmarked key = true) (valued : isUnmarked value = true) :
    (newMap settings key value).isUnmarked node = true := by
  unfold newMap
  split <;> rw [Template.isUnmarked]
  · exact Text.isUnmarked_append (Text.isUnmarked_append (Text.isUnmarked_append
      (Text.isUnmarked_append (by decide) keyed) (by decide)) valued) (by decide)
  · decide

namespace Module

/-- The code of a module and the functions that it asks of the host hold no marker lines. -/
structure Unmarked (module : Module) : Prop where
  code : ∀ template, module.code = some template → ∀ settings node,
    (template settings).isUnmarked node = true
  imports : ∀ settings node, ∀ template ∈ module.importTemplates settings,
    template.isUnmarked node = true

/-- A module that asks nothing of the host. -/
theorem Unmarked.of_code {module : Module} {code : Settings → Template} (given : module.code = some code)
    (unasked : module.imports = none)
    (unmarked : ∀ settings node, (code settings).isUnmarked node = true) : module.Unmarked where
  code template same := by
    cases given.symm.trans same
    exact unmarked
  imports settings node template member := by
    simp [importTemplates, unasked] at member

/-! ## Messages -/

/-- All bodies that depend on how messages are stored. -/
structure MessageBodies.Unmarked (bodies : MessageBodies) (node : Node) : Prop where
  types : bodies.types.isUnmarked node = true
  create : areUnmarked node bodies.create = true
  getLength : areUnmarked node bodies.getLength = true
  getTokenType : areUnmarked node bodies.getTokenType = true
  writeFloatToken : areUnmarked node bodies.writeFloatToken = true
  writeStringToken : areUnmarked node bodies.writeStringToken = true
  readFloatToken : areUnmarked node bodies.readFloatToken = true
  readStringToken : areUnmarked node bodies.readStringToken = true

theorem messagesInJavaScript_unmarked (node : Node) : messagesInJavaScript.Unmarked node := by
  constructor
  case types => rfl
  all_goals
    simp only [messagesInJavaScript, areUnmarked, Template.isUnmarked, Bool.true_and, Bool.and_true,
      Bool.and_eq_true]
    and_intros <;> exact isUnmarked_of_letters (by decide)

theorem messagesInAssemblyScript_unmarked {bits : String} (unmarked : isUnmarked bits = true) (node : Node) :
    (messagesInAssemblyScript bits).Unmarked node := by
  constructor
  all_goals
    simp only [messagesInAssemblyScript, messageTokens, messageLayout, List.cons_append, List.nil_append,
      areUnmarked, Template.isUnmarked, unmarked, Bool.true_and, Bool.and_true, Bool.and_eq_true]
    and_intros <;> exact isUnmarked_of_letters (by decide)

theorem messageBodies_unmarked (settings : Settings) (node : Node) :
    (messageBodies settings).Unmarked node := by
  unfold messageBodies
  split
  · exact messagesInAssemblyScript_unmarked (by split <;> decide) node
  · exact messagesInJavaScript_unmarked node

theorem messages_unmarked : messages.Unmarked :=
  .of_code (show messages.code = some messageCode from rfl) rfl fun settings node => by
    have bodies := messageBodies_unmarked settings node
    simp only [messageCode, Template.fn, Template.reserve, List.map_cons, List.map_nil, areUnmarked,
      argsUnmarked, Template.isUnmarked, bodies.types, bodies.create, bodies.getLength,
      bodies.getTokenType, bodies.writeFloatToken, bodies.writeStringToken, bodies.readFloatToken,
      bodies.readStringToken, Bool.true_and, Bool.and_true, Bool.and_eq_true]
    and_intros <;> exact isUnmarked_of_letters (by decide)

/-! ## The other modules -/

theorem scheduler_unmarked : scheduler.Unmarked :=
  .of_code (show scheduler.code = some schedulerCode from rfl) rfl fun settings node => by
    unfold schedulerCode
    cases settings.isAssemblyScript
    all_goals
      simp only [schedulerInJavaScript, schedulerInAssemblyScript, Template.fn, Template.reserve,
        List.map_cons, List.map_nil, areUnmarked, argsUnmarked, Template.isUnmarked, if_true,
        Bool.false_eq_true, if_false, Bool.true_and, Bool.and_true, Bool.and_eq_true]
      and_intros <;> exact isUnmarked_of_letters (by decide)

theorem arrays_unmarked : arrays.Unmarked :=
  .of_code (show arrays.code = some arraysCode from rfl) rfl fun settings node => by
    have map : (newMap settings "string" "FloatArray").isUnmarked node = true :=
      unmarked_newMap (by decide) (by decide)
    simp only [arraysCode, Template.fn, Template.reserve, List.map_cons, List.map_nil, areUnmarked,
      argsUnmarked, Template.isUnmarked, map, Bool.true_and, Bool.and_true, Bool.and_eq_true]
    and_intros <;> exact isUnmarked_of_letters (by decide)

theorem frames_unmarked : frames.Unmarked :=
  .of_code (show frames.code = some framesCode from rfl) rfl fun settings node => by
    simp only [framesCode, Template.fn, Template.reserve, List.map_cons, List.map_nil, areUnmarked,
      argsUnmarked, Template.isUnmarked, Bool.true_and, Bool.and_true, Bool.and_eq_true]
    and_intros <;> exact isUnmarked_of_letters (by decide)

theorem buses_unmarked : buses.Unmarked :=
  .of_code (show buses.code = some busesCode from rfl) rfl fun settings node => by
    have map : (newMap settings "string" "Array<MessageHandler>").isUnmarked node = true :=
      unmarked_newMap (by decide) (by decide)
    simp only [busesCode, Template.fn, Template.reserve, List.map_cons, List.map_nil, areUnmarked,
      argsUnmarked, Template.isUnmarked, map, Bool.true_and, Bool.and_true, Bool.and_eq_true]
    and_intros <;> exact isUnmarked_of_letters (by decide)

theorem unmarked_soundFileTypes (settings : Settings) (node : Node) :
    (soundFileTypes settings).isUnmarked node = true := by
  unfold soundFileTypes
  split
  · simp only [areUnmarked, Template.isUnmarked, Bool.and_true, Bool.and_eq_true]
    and_intros <;> exact isUnmarked_of_letters (by decide)
  · rw [Template.isUnmarked]

theorem soundFiles_unmarked : soundFiles.Unmarked where
  code template given settings node := by
    cases given
    have reads : (newMap settings "Int" "FsReadCallback").isUnmarked node = true :=
      unmarked_newMap (by decide) (by decide)
    have writes : (newMap settings "Int" "FsWriteCallback").isUnmarked node = true :=
      unmarked_newMap (by decide) (by decide)
    simp only [soundFileCode, Template.fn, Template.reserve, List.map_cons, List.map_nil, areUnmarked,
      argsUnmarked, Template.isUnmarked, unmarked_soundFileTypes, reads, writes, Bool.true_and,
      Bool.and_true, Bool.and_eq_true]
    and_intros <;> exact isUnmarked_of_letters (by decide)
  imports settings node := by
    change ∀ template ∈ soundFileImports settings, _
    simp only [soundFileImports, List.mem_cons, List.not_mem_nil, or_false, forall_eq_or_imp, forall_eq,
      Code.FunctionTemplate.isUnmarked, areUnmarked, argsUnmarked, Template.isUnmarked, Bool.and_true,
      Bool.and_eq_true, and_true]
    and_intros <;> exact isUnmarked_of_letters (by decide)

end Module

/-- All modules of a library are unmarked. -/
def Library.Unmarked (library : Library) : Prop :=
  ∀ definition module, library.get? definition = some module → module.Unmarked

theorem Library.standard_unmarked : Library.standard.Unmarked := by
  intro definition module found
  have listed := Table.mem_of_get?_ofList found
  simp only [List.mem_cons, Prod.mk.injEq, List.not_mem_nil, or_false] at listed
  rcases listed with ⟨_, rfl⟩ | ⟨_, rfl⟩ | ⟨_, rfl⟩ | ⟨_, rfl⟩ | ⟨_, rfl⟩ | ⟨_, rfl⟩
  · exact Module.messages_unmarked
  · exact Module.scheduler_unmarked
  · exact Module.arrays_unmarked
  · exact Module.frames_unmarked
  · exact Module.buses_unmarked
  · exact Module.soundFiles_unmarked

end Patchbay
