import Patchbay.Proofs.Program.Frame

namespace Patchbay

/-! Runtime modules in a program.

Embedding registers the name space of every linked module, fills the code of the modules one after
the other and collects what they share with the host.  It can only fail at a hole of that code.
-/

open Code (Naming Ask Fills Function Sequence Part)
open Outcome (Ends ends_pure)

namespace Module

variable {module : Module} {settings : Settings} {naming : Naming}

def scope (module : Module) : Code.Scope := { space := .module module.namespaceName }

/-- The code of a module with its holes replaced. -/
def resolved (module : Module) (settings : Settings) (naming : Naming) : Option Sequence :=
  module.code.map fun template => ((template settings).resolve module.scope naming).toSequence

def importTemplates (module : Module) (settings : Settings) : List Code.FunctionTemplate :=
  (module.imports.map fun imports => imports settings).getD []

/-- The functions that the host provides, under their keys. -/
def imported (module : Module) (settings : Settings) (naming : Naming) : List Function :=
  (module.importTemplates settings).map fun template => template.resolve module.scope naming

/-- The holes of the code of a module and of the functions that it imports. -/
def reads (module : Module) (settings : Settings) : List Code.Read :=
  (module.code.toList.flatMap fun template => (template settings).reads) ++
    (module.importTemplates settings).flatMap Code.FunctionTemplate.reads

/-- Everything that filling a module asks for. -/
def asks (module : Module) (settings : Settings) (naming : Naming) : List Ask :=
  (module.reads settings).map (Code.Read.ask module.scope) ++
    ((module.imported settings naming).map (fun function =>
      .name (.module module.namespaceName) function.name) ++
    module.exports.map (.name (.module module.namespaceName)))

/-- Adds a function of the host, unless its name is there already. -/
def addImport (module : Module) (naming : Naming) (dependencies : Dependencies)
    (function : Function) : Dependencies :=
  let name := naming (.module module.namespaceName) function.name
  if dependencies.imports.any (·.function.name = name) then dependencies
  else { dependencies with
    imports := dependencies.imports ++
      [⟨module.namespaceName, function.name, function.withName name⟩] }

def addExport (module : Module) (naming : Naming) (dependencies : Dependencies) (key : String) :
    Dependencies :=
  let name := naming (.module module.namespaceName) key
  if dependencies.exports.any (·.name = name) then dependencies
  else { dependencies with
    exports := dependencies.exports ++ [⟨module.namespaceName, key, name⟩] }

/-- What the program shares with the host after a module was added. -/
def share (module : Module) (settings : Settings) (naming : Naming) (dependencies : Dependencies) :
    Dependencies :=
  module.exports.foldl (module.addExport naming)
    ((module.imported settings naming).foldl (module.addImport naming) dependencies)

end Module

namespace Program

variable {program : Program} {settings : Settings}

/-- Reads a name of a module and continues without another hole. -/
def readOwn {α : Type} (module : Module) (key : String) (continued : String → α) : Code.Fill α := do
  let (name, ledger) := (← get).read (.module module.namespaceName) key
  set ledger
  return continued name

theorem fillModule_eq (module : Module) (dependencies : Dependencies) :
    fillModule module settings dependencies = (do
      let code ← module.code.mapM fun template => (template settings).fillSequence module.scope
      let functions ← (module.importTemplates settings).mapM fun template =>
        template.fill module.scope
      let dependencies ← functions.foldlM (fun dependencies function =>
        readOwn module function.name fun name => module.addImport (fun _ _ => name) dependencies
          function) dependencies
      let dependencies ← module.exports.foldlM (fun dependencies key =>
        readOwn module key fun name => module.addExport (fun _ _ => name) dependencies key)
        dependencies
      return (code, dependencies)) := by
  have joined {condition : Prop} [Decidable condition] {first second : Dependencies} :
      (if condition then pure first else pure second : Code.Fill Dependencies) =
        pure (if condition then first else second) := by
    split <;> rfl
  unfold fillModule Module.importTemplates readOwn Module.addImport Module.addExport
  simp only [joined]
  cases module.imports <;> rfl

theorem fillModule_fills (settings : Settings) (module : Module) (dependencies : Dependencies) :
    Fills (fillModule module settings dependencies) (fun naming => module.asks settings naming)
      fun naming => (module.resolved settings naming, module.share settings naming dependencies) := by
  rw [fillModule_eq]
  have code : Fills (module.code.mapM fun template => (template settings).fillSequence module.scope)
      (fun _ => (module.code.toList.flatMap fun template => (template settings).reads).map
        (Code.Read.ask module.scope)) (module.resolved settings) := by
    simp only [List.map_flatMap]
    exact .optionMapM fun template _ => (template settings).fillSequence_fills module.scope
  have functions : Fills ((module.importTemplates settings).mapM fun template =>
      template.fill module.scope)
      (fun _ => ((module.importTemplates settings).flatMap Code.FunctionTemplate.reads).map
        (Code.Read.ask module.scope)) (module.imported settings) := by
    simp only [List.map_flatMap]
    exact .mapM fun template _ => template.fill_fills module.scope
  have imports (functions : List Function) (dependencies : Dependencies) :
      Fills (functions.foldlM (fun dependencies function => readOwn module function.name fun name =>
          module.addImport (fun _ _ => name) dependencies function) dependencies)
        (fun _ => functions.map fun function => .name (.module module.namespaceName) function.name)
        fun naming => functions.foldl (module.addImport naming) dependencies := by
    simp only [List.map_eq_flatMap]
    exact .foldlM fun dependencies function _ => .name (.module module.namespaceName) function.name
      fun name => module.addImport (fun _ _ => name) dependencies function
  have exports (dependencies : Dependencies) :
      Fills (module.exports.foldlM (fun dependencies key => readOwn module key fun name =>
          module.addExport (fun _ _ => name) dependencies key) dependencies)
        (fun _ => module.exports.map (.name (.module module.namespaceName)))
        fun naming => module.exports.foldl (module.addExport naming) dependencies := by
    simp only [List.map_eq_flatMap]
    exact .foldlM fun dependencies key _ => .name (.module module.namespaceName) key
      fun name => module.addExport (fun _ _ => name) dependencies key
  simp only [Module.asks, Module.reads, List.map_append, List.append_assoc]
  exact code.bind fun own => functions.bind fun functions => (imports functions dependencies).bind
    fun dependencies => (exports dependencies).map fun dependencies => (own, dependencies)

/-- What a program shares with its host and the code of its modules, in the order of the modules. -/
def link (settings : Settings) (naming : Naming) (modules : List Module) (code : List Sequence)
    (dependencies : Dependencies) : Dependencies :=
  { modules.foldl (fun dependencies module => module.share settings naming dependencies)
      dependencies with
    code := some (Code.lines ((code ++ modules.flatMap fun module =>
      (module.resolved settings naming).toList).map Part.sequence)) }

theorem fillModules_fills (settings : Settings) (modules : List Module) (code : List Sequence)
    (dependencies : Dependencies) :
    Fills (fillModules settings modules code dependencies)
      (fun naming => modules.flatMap fun module => module.asks settings naming)
      fun naming => link settings naming modules code dependencies := by
  induction modules generalizing code dependencies with
  | nil =>
      simp only [link, List.flatMap_nil, List.append_nil]
      exact .pure _
  | cons module rest ih =>
      simp only [fillModules, List.flatMap_cons]
      have both := (fillModule_fills settings module dependencies).bind fun filled =>
        ih (code ++ filled.1.toList) filled.2
      simpa only [link, List.flatMap_cons, List.foldl_cons, List.append_assoc] using both

/-- The runtime modules of a program, those that every program has first. -/
def linked (program : Program) : List Module :=
  program.library.flatten (Library.required ++
    program.types.values.flatMap fun type => type.implementation.dependencies)

/-- The index with the name spaces of the modules. -/
def registered (program : Program) : NameIndex :=
  program.linked.foldl (fun names module => names.registerModule module.namespaceName) program.names

theorem mem_modules_registerAll {modules : List Module} {names : NameIndex} {namespaceName : String} :
    namespaceName ∈ (modules.foldl (fun names module =>
        names.registerModule module.namespaceName) names).modules ↔
      namespaceName ∈ names.modules ∨ namespaceName ∈ modules.map Module.namespaceName := by
  induction modules generalizing names with
  | nil => simp
  | cons module rest ih =>
      have one : namespaceName ∈ (names.registerModule module.namespaceName).modules ↔
          namespaceName ∈ names.modules ∨ namespaceName = module.namespaceName := by
        unfold NameIndex.registerModule
        split
        · next known => exact ⟨.inl, fun given => given.elim (fun member => member) (· ▸ known)⟩
        · simp
      rw [List.foldl_cons, ih, one, List.map_cons, List.mem_cons, or_assoc]

theorem registered_eq (program : Program) :
    ∃ modules, program.registered = { program.names with modules } := by
  unfold registered
  generalize program.linked = linked
  generalize program.names = names
  induction linked generalizing names with
  | nil => exact ⟨names.modules, rfl⟩
  | cons module rest ih =>
      obtain ⟨modules, same⟩ := ih (names.registerModule module.namespaceName)
      refine ⟨modules, ?_⟩
      rw [List.foldl_cons, same]
      unfold NameIndex.registerModule
      split <;> rfl

theorem nameOf_registered (program : Program) : program.registered.nameOf = program.names.nameOf := by
  obtain ⟨modules, same⟩ := program.registered_eq
  rw [same]
  funext space key
  cases space <;> rfl

/-- Everything that the code of the modules asks for. -/
def moduleAsks (program : Program) : List Ask :=
  program.linked.flatMap fun module => module.asks program.settings program.names.nameOf

/-- Embedding fails only at a hole of the modules. -/
theorem embedModules_ends (program : Program) :
    Ends program.embedModules
      (fun fault => ∃ ask ∈ program.moduleAsks, ¬ ask.Granted program.registered ∧
        fault = .within "runtime module code" ask.fault)
      fun after => (∀ ask ∈ program.moduleAsks, ask.Granted program.registered) ∧
        ∃ names, after = { program with
            names
            dependencies := link program.settings program.names.nameOf program.linked []
              { modules := program.linked } } ∧
          program.registered.Took names (program.moduleAsks.filterMap Ask.handle?) := by
  have filled := fill_ends { program with names := program.registered } "runtime module code"
    (fillModules_fills program.settings program.linked [] { modules := program.linked })
  dsimp only at filled
  rw [program.nameOf_registered] at filled
  change Ends (_ >>= _) _ _
  refine filled.bind fun result _ given => ?_
  obtain ⟨granted, names, rfl, took⟩ := given
  exact ends_pure ⟨granted, names, rfl, took⟩

end Program

end Patchbay
