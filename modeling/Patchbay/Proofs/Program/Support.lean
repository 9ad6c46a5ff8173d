import Patchbay.Proofs.NodeType.Sound
import Patchbay.Proofs.Program.Layout

namespace Patchbay

/-! What the code of a program can rely on.

A sound library and a sound catalog give a program whose modules are complete: whatever the code of a
module or of a node type refers to is declared by a module of the program or by the type itself.  No
pass after the embedding of the modules takes any of this away.
-/

open Code (Template Read handlesOf)

theorem Library.exists_of_mem_keysOf {library : Library} {namespaceName key : String}
    (isKey : key ∈ library.keysOf namespaceName) :
    ∃ module, library.get? namespaceName = some module ∧ key ∈ module.keys := by
  cases found : library.get? namespaceName with
  | none => simp [keysOf, keyTable, Table.getD, found] at isKey
  | some module => exact ⟨module, rfl, keysOf_eq found ▸ isKey⟩

namespace Program

variable {program before after : Program}

/-- The modules of a program only refer to modules of the program. -/
theorem granted_of_sound (sound : program.library.Sound) {ask : Code.Ask} (asked : ask ∈ program.moduleAsks) :
    ask.Granted program.registered := by
  have linking : program.library.Linked _ program.linked := program.library.flatten_linked _
  have opens : ∀ namespaceName ∈ program.linked.map Module.namespaceName,
      program.registered.Opens (.module namespaceName) := fun _ member =>
    mem_modules_registerAll.mpr (.inr member)
  obtain ⟨module, member, asked⟩ := List.mem_flatMap.mp asked
  have opensOwn := opens _ (List.mem_map_of_mem member)
  obtain ⟨definition, found⟩ := linking.known module member
  have soundModule := sound.modules found
  rcases List.mem_append.mp asked with reading | sharing
  · obtain ⟨read, isRead, rfl⟩ := List.mem_map.mp reading
    have backed := List.all_eq_true.mp (soundModule.backed _) read isRead
    obtain ⟨isName, backed⟩ := Bool.and_eq_true_iff.mp backed
    cases read with
    | portlet => cases isName
    | own key => exact opensOwn
    | shared namespaceName key =>
        obtain ⟨isNeeded, isKey⟩ := Bool.and_eq_true_iff.mp backed
        obtain ⟨other, otherFound, _⟩ :=
          Library.exists_of_mem_keysOf (List.contains_iff_mem.mp isKey)
        have needed := linking.closed namespaceName
          (.inr ⟨module, member, List.contains_iff_mem.mp isNeeded⟩) other otherFound
        rw [sound.named otherFound] at needed
        exact opens _ needed
  · rcases List.mem_append.mp sharing with imported | exported
    · obtain ⟨function, _, rfl⟩ := List.mem_map.mp imported
      exact opensOwn
    · obtain ⟨key, _, rfl⟩ := List.mem_map.mp exported
      exact opensOwn

/-- A key that a module of the program or a node type declares. -/
inductive Backed (program : Program) : NameSpace → String → Prop where
  | module {module : Module} {key : String} (linked : module ∈ program.dependencies.modules)
      (isKey : key ∈ module.keys) : Backed program (.module module.namespaceName) key
  | nodeType {name key : String} {type : TypeCode}
      (registered : program.types.entries.get? name = some type)
      (isKey : key ∈ type.implementation.keys) : Backed program (.nodeType name) key

/-- What is depended on in a program. -/
inductive DependsOn (program : Program) : String → Prop where
  | required {definition : String} (isRequired : definition ∈ Library.required) :
      DependsOn program definition
  | type {name definition : String} {type : TypeCode}
      (registered : program.types.entries.get? name = some type)
      (isNeeded : definition ∈ type.implementation.dependencies) : DependsOn program definition
  | module {module : Module} {definition : String} (linked : module ∈ program.dependencies.modules)
      (isNeeded : definition ∈ module.dependencies) : DependsOn program definition

/-- The modules and types of a program are sound, and the modules are complete. -/
structure Supported (program : Program) : Prop where
  library : program.library.Sound
  types : ∀ {name type}, program.types.entries.get? name = some type →
    type.implementation.Sound program.library
  distinct : (program.dependencies.modules.map Module.namespaceName).Nodup
  modules : ∀ module ∈ program.dependencies.modules,
    program.library.get? module.namespaceName = some module
  closed : ∀ {definition key}, program.DependsOn definition →
    key ∈ program.library.keysOf definition → program.Backed (.module definition) key
  opened : ∀ module ∈ program.dependencies.modules, module.namespaceName ∈ program.names.modules

/-! ## What stays -/

/-- The passes after the embedding keep the types and the modules. -/
structure KeepsSupport (before after : Program) : Prop where
  library : after.library = before.library
  dependencies : after.dependencies = before.dependencies
  types : ∀ name, (after.types.entries.get? name).map TypeCode.implementation =
    (before.types.entries.get? name).map TypeCode.implementation
  modules : after.names.modules = before.names.modules

namespace KeepsSupport

theorem of_keeps (kept : KeepsFrame before after) (library : after.library = before.library)
    (dependencies : after.dependencies = before.dependencies)
    (akin : before.names.Akin after.names) : KeepsSupport before after where
  library := library
  dependencies := dependencies
  types name := by
    have same := congrArg (Option.map Prod.snd) (kept.types name)
    simpa [Option.map_map, Function.comp_def] using same
  modules := akin.modules

theorem symm (kept : KeepsSupport before after) : KeepsSupport after before :=
  ⟨kept.library.symm, kept.dependencies.symm, fun name => (kept.types name).symm,
    kept.modules.symm⟩

theorem trans {between : Program} (first : KeepsSupport before between)
    (second : KeepsSupport between after) : KeepsSupport before after :=
  ⟨second.library.trans first.library, second.dependencies.trans first.dependencies,
    fun name => (second.types name).trans (first.types name), second.modules.trans first.modules⟩

theorem type (kept : KeepsSupport before after) {name : String} {type : TypeCode}
    (registered : after.types.entries.get? name = some type) :
    ∃ old, before.types.entries.get? name = some old ∧ old.implementation = type.implementation := by
  have same := kept.types name
  rw [registered, Option.map_some] at same
  exact Option.map_eq_some_iff.mp same.symm

theorem backed (kept : KeepsSupport before after) {space : NameSpace} {key : String}
    (backed : after.Backed space key) : before.Backed space key := by
  cases backed with
  | module linked isKey => exact .module (kept.dependencies ▸ linked) isKey
  | nodeType registered isKey =>
      obtain ⟨old, found, same⟩ := kept.type registered
      exact .nodeType found (same ▸ isKey)

theorem dependsOn (kept : KeepsSupport before after) {definition : String}
    (depends : after.DependsOn definition) : before.DependsOn definition := by
  cases depends with
  | required isRequired => exact .required isRequired
  | type registered isNeeded =>
      obtain ⟨old, found, same⟩ := kept.type registered
      exact .type found (same ▸ isNeeded)
  | module linked isNeeded => exact .module (kept.dependencies ▸ linked) isNeeded

theorem supported (kept : KeepsSupport before after) (supported : before.Supported) :
    after.Supported where
  library := kept.library ▸ supported.library
  types registered := by
    obtain ⟨old, found, same⟩ := kept.type registered
    rw [kept.library, ← same]
    exact supported.types found
  distinct := kept.dependencies ▸ supported.distinct
  modules := by
    rw [kept.dependencies, kept.library]
    exact supported.modules
  closed depends isKey := by
    rw [kept.library] at isKey
    exact kept.symm.backed (supported.closed (kept.dependsOn depends) isKey)
  opened := by
    rw [kept.dependencies, kept.modules]
    exact supported.opened

end KeepsSupport

theorem DeclaredSo.keepsSupport {done : List TypeCode} (declared : DeclaredSo before done after) :
    KeepsSupport before after := by
  have akin := declared.names.toAkin
  obtain ⟨_, _, same⟩ := declared.frame
  refine .of_keeps declared.keeps ?_ ?_ akin <;> rw [same]

theorem Reworked.keepsSupport {change : String → NodeCode → NodeCode}
    {handles : String → List (NameSpace × String)} {states : String → List String} {done : List String}
    (reworked : Reworked before change handles states done after) : KeepsSupport before after := by
  have akin := reworked.names.toAkin
  obtain ⟨_, _, same⟩ := reworked.frame
  refine .of_keeps reworked.keeps ?_ ?_ akin <;> rw [same]

theorem Divided.keepsSupport {groups : List DspGroup} (divided : Divided before after groups) :
    KeepsSupport before after := by
  obtain ⟨_, _, _, _, _, _, _, same⟩ := divided.frame
  have modules := divided.names.modules
  refine ⟨?_, ?_, fun name => ?_, modules⟩ <;> rw [same]

theorem Running.keepsSupport {log : List WiringEvent} (running : Running before after log) :
    KeepsSupport before after := by
  obtain ⟨_, _, same⟩ := running.frame
  refine .of_keeps running.keeps ?_ ?_ running.akin <;> rw [same]

/-! ## What templates refer to -/

namespace Supported

variable (supported : program.Supported)

include supported

theorem backed_of_isBacked {shared : String → List String} {dependencies own : List String}
    {scope : Code.Scope} {read : Read} {handle : NameSpace × String}
    (isShared : shared = program.library.keysOf)
    (isBacked : read.isBacked shared dependencies own = true)
    (depends : ∀ definition ∈ dependencies, program.DependsOn definition)
    (backs : ∀ key ∈ own, program.Backed scope.space key)
    (isHandle : (read.ask scope).handle? = some handle) : program.Backed handle.1 handle.2 := by
  subst isShared
  cases read with
  | portlet wiring id => cases isHandle
  | own key =>
      cases isHandle
      exact backs key (List.contains_iff_mem.mp isBacked)
  | shared namespaceName key =>
      cases isHandle
      obtain ⟨isNeeded, isKey⟩ := Bool.and_eq_true_iff.mp isBacked
      exact supported.closed (depends _ (List.contains_iff_mem.mp isNeeded))
        (List.contains_iff_mem.mp isKey)

/-- The name that a hole of a supported template hands out is declared. -/
theorem backed_of_supports {name : String} {type : TypeCode} {template : Template}
    {scope : Code.Scope} {read : Read} {handle : NameSpace × String}
    (registered : program.types.entries.get? name = some type)
    (space : scope.space = .nodeType name)
    (supports : type.implementation.supports program.library template = true)
    (asked : read ∈ template.reads) (isHandle : (read.ask scope).handle? = some handle) :
    program.Backed handle.1 handle.2 := by
  have isBacked := List.all_eq_true.mp (Bool.and_eq_true_iff.mp supports).2 read asked
  refine supported.backed_of_isBacked rfl isBacked (fun _ => .type registered) ?_ isHandle
  intro key isKey
  rw [space]
  exact .nodeType registered isKey

theorem essential (use : String × String) (isEssential : use ∈ Library.essential) :
    program.Backed (.module use.1) use.2 := by
  refine supported.closed (.required ?_) (supported.library.essential use isEssential)
  simp only [Library.essential, List.mem_cons, List.not_mem_nil, or_false] at isEssential
  rcases isEssential with rfl | rfl | rfl | rfl <;> simp [Library.required]

end Supported

/-! ## From the embedding on -/

theorem modules_foldl_addImport {module : Module} {naming : Code.Naming}
    {functions : List Code.Function} {dependencies : Dependencies} :
    (functions.foldl (module.addImport naming) dependencies).modules = dependencies.modules := by
  induction functions generalizing dependencies with
  | nil => rfl
  | cons function rest ih =>
      rw [List.foldl_cons, ih]
      unfold Module.addImport
      dsimp only
      split <;> rfl

theorem modules_foldl_addExport {module : Module} {naming : Code.Naming} {keys : List String}
    {dependencies : Dependencies} :
    (keys.foldl (module.addExport naming) dependencies).modules = dependencies.modules := by
  induction keys generalizing dependencies with
  | nil => rfl
  | cons key rest ih =>
      rw [List.foldl_cons, ih]
      unfold Module.addExport
      dsimp only
      split <;> rfl

theorem modules_link {settings : Settings} {naming : Code.Naming} {modules : List Module}
    {code : List Code.Sequence} {dependencies : Dependencies} :
    (link settings naming modules code dependencies).modules = dependencies.modules := by
  change (modules.foldl _ dependencies).modules = _
  clear code
  induction modules generalizing dependencies with
  | nil => rfl
  | cons module rest ih =>
      rw [List.foldl_cons, ih]
      unfold Module.share
      rw [modules_foldl_addExport, modules_foldl_addImport]

section

variable {graph : Graph} {catalog : Catalog} {library : Library} {settings : Settings}
  {grafted reachable embedded : Program} {done : List PortRequest}

theorem Embedding.modules_eq (embedding : Embedding reachable embedded) :
    embedded.dependencies.modules = reachable.linked := by
  obtain ⟨names, rfl, _⟩ := embedding
  exact modules_link

variable (grafting : Grafted (start graph catalog library settings) done grafted)
  (keeping : Reachable grafted reachable)

include grafting keeping

theorem Reachable.library_eq : reachable.library = library := by
  obtain ⟨_, _, _, _, rfl⟩ := keeping.frame
  obtain ⟨_, _, _, _, rfl⟩ := grafting.frame
  rfl

theorem Reachable.implemented {name : String} {type : TypeCode}
    (registered : reachable.types.entries.get? name = some type) :
    (withAdapters catalog).implementation? name = some type.implementation := by
  have found := (keeping.typed registered).1
  obtain ⟨_, _, _, _, rfl⟩ := grafting.frame
  exact found

theorem Embedding.supported (embedding : Embedding reachable embedded)
    (sound : (withAdapters catalog).Sound library) (soundLibrary : library.Sound) :
    embedded.Supported := by
  have isLinked := embedding.modules_eq
  obtain ⟨names, same, took⟩ := embedding
  have linking := library.flatten_linked (Library.required ++
    reachable.types.values.flatMap fun type => type.implementation.dependencies)
  have sameLinked : library.flatten (Library.required ++
      reachable.types.values.flatMap fun type => type.implementation.dependencies) =
        embedded.dependencies.modules := by
    rw [isLinked, linked, keeping.library_eq grafting]
  have sameLibrary : embedded.library = library := by
    rw [same]
    exact (keeping.library_eq grafting : reachable.library = library)
  have sameTypes : embedded.types = reachable.types := by rw [same]
  rw [sameLinked] at linking
  have known : ∀ module ∈ embedded.dependencies.modules,
      library.get? module.namespaceName = some module := by
    intro module member
    obtain ⟨definition, found⟩ := linking.known module member
    rwa [soundLibrary.named found]
  refine ⟨sameLibrary ▸ soundLibrary, ?_, linking.distinct, sameLibrary ▸ known, ?_, ?_⟩
  · intro name type registered
    rw [sameTypes] at registered
    exact sameLibrary ▸ sound.implementations (keeping.implemented grafting registered)
  · intro definition key depends isKey
    rw [sameLibrary] at isKey
    obtain ⟨module, found, isOwn⟩ := Library.exists_of_mem_keysOf isKey
    have isAsked : definition ∈ Library.required ++ (reachable.types.values.flatMap fun type =>
        type.implementation.dependencies) ∨
        ∃ module ∈ embedded.dependencies.modules, definition ∈ module.dependencies := by
      cases depends with
      | required isRequired => exact .inl (List.mem_append_left _ isRequired)
      | type registered isNeeded =>
          rw [sameTypes] at registered
          exact .inl (List.mem_append_right _ (List.mem_flatMap.mpr
            ⟨_, Table.mem_values_iff.mpr ⟨_, registered⟩, isNeeded⟩))
      | module linked isNeeded => exact .inr ⟨_, linked, isNeeded⟩
    obtain ⟨other, member, sameName⟩ := List.mem_map.mp (linking.closed definition isAsked module found)
    have isSame := known other member
    rw [sameName, soundLibrary.named found, found, Option.some_inj] at isSame
    subst isSame
    rw [← soundLibrary.named found]
    exact .module member isOwn
  · intro module member
    rw [same] at member ⊢
    change module ∈ (link ..).modules at member
    rw [modules_link] at member
    change _ ∈ names.modules
    rw [took.modules]
    exact mem_modules_registerAll.mpr (.inr (List.mem_map_of_mem member))

end

theorem Setup.supported {graph : Graph} {catalog : Catalog} {library : Library} {settings : Settings}
    {grafted reachable embedded declared ready : Program}
    (setup : Setup graph catalog library settings grafted reachable embedded declared ready)
    (sound : (withAdapters catalog).Sound library) (soundLibrary : library.Sound) :
    embedded.Supported :=
  setup.embedding.supported setup.grafting setup.keeping sound soundLibrary

end Program

end Patchbay
