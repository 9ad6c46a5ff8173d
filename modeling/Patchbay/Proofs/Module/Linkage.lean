import Patchbay.Proofs.Module.Sound

namespace Patchbay

/-! What linked modules declare and share.

The code of sound modules declares the keys of the modules, each under the name of its name space.
Functions of the host and exported keys are collected under their names, and a name that is there
already is passed over.
-/

open Code (Naming)

/-- A name is put at the end of some names, unless it is among them. -/
def withName (names : List String) (name : String) : List String :=
  if name ∈ names then names else names ++ [name]

theorem mem_foldl_withName {names added : List String} {name : String} :
    name ∈ added.foldl withName names ↔ name ∈ names ∨ name ∈ added := by
  induction added generalizing names with
  | nil => simp
  | cons first rest ih =>
      have one : name ∈ withName names first ↔ name ∈ names ∨ name = first := by
        unfold withName
        split
        · next known => exact ⟨.inl, fun given => given.elim (fun member => member) (· ▸ known)⟩
        · simp
      rw [List.foldl_cons, ih, one, List.mem_cons, or_assoc]

theorem nodup_foldl_withName {names added : List String} (distinct : names.Nodup) :
    (added.foldl withName names).Nodup := by
  induction added generalizing names with
  | nil => exact distinct
  | cons first rest ih =>
      refine ih ?_
      unfold withName
      split
      · exact distinct
      · next fresh => exact List.concat_eq_append ▸ distinct.concat fresh

namespace Dependencies

def importNames (dependencies : Dependencies) : List String :=
  dependencies.imports.map fun entry => entry.function.name

def exportNames (dependencies : Dependencies) : List String :=
  dependencies.exports.map fun entry => entry.name

end Dependencies

namespace Module

variable {library : Library} {module : Module} {naming : Naming} {settings : Settings}
  {dependencies : Dependencies}

section

variable (module naming dependencies)

theorem names_addImport (function : Code.Function) :
    (module.addImport naming dependencies function).importNames =
      withName dependencies.importNames (naming (.module module.namespaceName) function.name) ∧
    (module.addImport naming dependencies function).exportNames = dependencies.exportNames := by
  have known : dependencies.imports.any (fun entry => entry.function.name =
      naming (.module module.namespaceName) function.name) = true ↔
        naming (.module module.namespaceName) function.name ∈ dependencies.importNames := by
    simp [Dependencies.importNames]
  unfold addImport withName
  dsimp only
  simp only [known]
  split
  · exact ⟨rfl, rfl⟩
  · exact ⟨List.map_append, rfl⟩

theorem names_addExport (key : String) :
    (module.addExport naming dependencies key).exportNames =
      withName dependencies.exportNames (naming (.module module.namespaceName) key) ∧
    (module.addExport naming dependencies key).importNames = dependencies.importNames := by
  have known : dependencies.exports.any (fun entry => entry.name =
      naming (.module module.namespaceName) key) = true ↔
        naming (.module module.namespaceName) key ∈ dependencies.exportNames := by
    simp [Dependencies.exportNames]
  unfold addExport withName
  dsimp only
  simp only [known]
  split
  · exact ⟨rfl, rfl⟩
  · exact ⟨List.map_append, rfl⟩

theorem names_addImports (functions : List Code.Function) :
    (functions.foldl (module.addImport naming) dependencies).importNames =
      (functions.map fun function =>
        naming (.module module.namespaceName) function.name).foldl withName
          dependencies.importNames ∧
    (functions.foldl (module.addImport naming) dependencies).exportNames =
      dependencies.exportNames := by
  induction functions generalizing dependencies with
  | nil => exact ⟨rfl, rfl⟩
  | cons function rest ih =>
      obtain ⟨imports, exports⟩ := names_addImport module naming dependencies function
      rw [List.foldl_cons, List.map_cons, List.foldl_cons, ← imports, ← exports]
      exact ih _

theorem names_addExports (keys : List String) :
    (keys.foldl (module.addExport naming) dependencies).exportNames =
      (keys.map (naming (.module module.namespaceName))).foldl withName dependencies.exportNames ∧
    (keys.foldl (module.addExport naming) dependencies).importNames = dependencies.importNames := by
  induction keys generalizing dependencies with
  | nil => exact ⟨rfl, rfl⟩
  | cons key rest ih =>
      obtain ⟨exports, imports⟩ := names_addExport module naming dependencies key
      rw [List.foldl_cons, List.map_cons, List.foldl_cons, ← exports, ← imports]
      exact ih _

end

/-- The functions of the host come under the keys of the module. -/
theorem Sound.imported_names (sound : module.Sound library) (settings : Settings) (naming : Naming) :
    (module.imported settings naming).map (fun function => function.name) = module.importKeys := by
  have named := congrArg (List.map fun name => (name.resolve module.scope naming).plainText)
    (sound.imports settings)
  have plain : (module.importKeys.map fun key =>
      ((Code.Template.text key).resolve module.scope naming).plainText) = module.importKeys := by
    simp [Code.Template.resolve, Code.Part.plainText, Code.Part.pieces]
  rw [List.map_map, List.map_map] at named
  rw [imported, List.map_map]
  exact named.trans plain

theorem Sound.names_share (sound : module.Sound library) (settings : Settings) (naming : Naming)
    (dependencies : Dependencies) :
    (module.share settings naming dependencies).importNames =
      (module.importKeys.map (naming (.module module.namespaceName))).foldl withName
        dependencies.importNames ∧
    (module.share settings naming dependencies).exportNames =
      (module.exports.map (naming (.module module.namespaceName))).foldl withName
        dependencies.exportNames := by
  obtain ⟨exports, kept⟩ := names_addExports module naming
    ((module.imported settings naming).foldl (module.addImport naming) dependencies) module.exports
  obtain ⟨imports, keptExports⟩ := names_addImports module naming dependencies
    (module.imported settings naming)
  unfold share
  rw [kept, exports, imports, keptExports, ← sound.imported_names settings naming, List.map_map]
  exact ⟨rfl, rfl⟩

/-- The code of a module declares the keys of its name space. -/
theorem Sound.declaredNames (sound : module.Sound library) (settings : Settings) :
    ((module.resolved settings naming).toList.flatMap fun code =>
      Code.declaredNames (Code.piecesOf code)) =
      module.codeKeys.map (naming (.module module.namespaceName)) := by
  have declares := sound.declares settings
  unfold resolved templates at *
  cases given : module.code with
  | none =>
      rw [given] at declares
      simp only [Option.toList_none, List.map_nil, List.flatMap_nil] at declares
      simp [List.map_eq_nil_iff.mp declares.symm]
  | some template =>
      rw [given] at declares
      simp only [Option.toList_some, List.map_cons, List.map_nil, List.flatMap_cons,
        List.flatMap_nil, List.append_nil] at declares
      rw [Option.map_some, Option.toList_some, List.flatMap_singleton]
      exact Code.Template.declaredNames_own module.scope naming declares

end Module

namespace Program

variable {library : Library} {settings : Settings} {naming : Naming} {modules : List Module}
  {dependencies : Dependencies}

theorem names_shared (dependencies : Dependencies)
    (sound : ∀ module ∈ modules, module.Sound library) :
    (modules.foldl (fun dependencies module => module.share settings naming dependencies)
      dependencies).importNames =
      (modules.flatMap fun module => module.importKeys.map
        (naming (.module module.namespaceName))).foldl withName dependencies.importNames ∧
    (modules.foldl (fun dependencies module => module.share settings naming dependencies)
      dependencies).exportNames =
      (modules.flatMap fun module => module.exports.map
        (naming (.module module.namespaceName))).foldl withName dependencies.exportNames := by
  induction modules generalizing dependencies with
  | nil => exact ⟨rfl, rfl⟩
  | cons module rest ih =>
      obtain ⟨imports, exports⟩ := (sound module (List.mem_cons_self ..)).names_share settings naming
        dependencies
      rw [List.foldl_cons, List.flatMap_cons, List.flatMap_cons, List.foldl_append,
        List.foldl_append, ← imports, ← exports]
      exact ih _ fun other later => sound other (List.mem_cons_of_mem _ later)

/-- What linked modules import: every function of the host under its key, once. -/
theorem names_link (sound : ∀ module ∈ modules, module.Sound library) :
    (link settings naming modules [] { modules }).importNames =
      (modules.flatMap fun module => module.importKeys.map
        (naming (.module module.namespaceName))).foldl withName [] ∧
    (link settings naming modules [] { modules }).exportNames =
      (modules.flatMap fun module => module.exports.map
        (naming (.module module.namespaceName))).foldl withName [] :=
  names_shared { modules } sound

/-- The code of linked modules declares the keys of the modules. -/
theorem declaredNames_link (sound : ∀ module ∈ modules, module.Sound library) :
    (link settings naming modules [] dependencies).code.toList.flatMap Code.declaredNames =
      modules.flatMap fun module => module.codeKeys.map (naming (.module module.namespaceName)) := by
  simp only [link, Option.toList_some, List.flatMap_singleton, List.nil_append]
  rw [Code.declaredNames, Code.declarations_lines, List.flatMap_map, List.map_flatMap,
    List.flatMap_assoc]
  refine List.flatMap_congr fun module member => ?_
  rw [← (sound module member).declaredNames settings]
  rfl

end Program

end Patchbay
