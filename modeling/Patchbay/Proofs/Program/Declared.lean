import Patchbay.Proofs.Module.Linkage
import Patchbay.Proofs.Program.Generation

namespace Patchbay

/-! What a program declares.

Every region of the generated code declares the names of one kind of thing that the program has: the
modules, the types, the states, the portlets, the cold groups and the ports of the host.  Each name is
declared in one place and once there, because a name tells what it stands for.
-/

open Code (Part Template)

namespace Code

theorem declaredNames_lines_flatMap {α : Type u} {items : List α} {parts : α → List Part}
    {names : α → List String}
    (declares : ∀ item ∈ items, ((parts item).flatMap fun part => declaredNames part.pieces) =
      names item) : declaredNames (Code.lines (items.flatMap parts)) = items.flatMap names := by
  rw [declaredNames, declarations_lines, List.map_flatMap, List.flatMap_assoc]
  exact List.flatMap_congr declares

theorem declaredNames_lines_of_all {parts : List Part} (all : ∀ part ∈ parts, part.isDeclaration = true) :
    declaredNames (Code.lines parts) = parts.map Part.declaredName := by
  rw [declaredNames, declarations_lines_of_all all]

/-- What renders to nothing declares nothing. -/
theorem declaredNames_of_isEmpty {content : Sequence} (empty : content.isEmpty = true) :
    declaredNames (piecesOf content) = [] := by
  have none : declarations (piecesOf content) = [] := by
    rw [declarations_piecesOf, List.flatMap_eq_nil_iff]
    intro part member
    have isEmpty := List.all_eq_true.mp empty part member
    cases part with
    | text value => rfl
    | _ => cases isEmpty
  rw [declaredNames, none]
  rfl

end Code

namespace Program

variable {graph : Graph} {catalog : Catalog} {library : Library} {settings : Settings}
  {program grafted reachable embedded declared ready : Program} {id : String} {node : Node}

/-! ## Names tell what they stand for -/

theorem Named.isLabelled (framed : program.Framed) {subject : Subject}
    (named : program.Named subject) : subject.IsLabelled program.names := by
  cases named with
  | backed held =>
      cases held with
      | module => trivial
      | nodeType registered _ =>
          obtain ⟨_, _, id, node, found, rfl⟩ := framed.typed registered
          exact framed.labels found
  | _ => trivial

theorem Framed.tells (framed : program.Framed) (labels : program.names.labels.values.Nodup) :
    program.names.Tells program.Named := fun _ _ isLeft isRight same =>
  NameIndex.nameFor_inj labels (isLeft.isLabelled framed) (isRight.isLabelled framed) same

/-- The names of some things that the program has, listed one by one. -/
theorem lists_of_map (tells : program.names.Tells program.Named) {listed : List Subject}
    (distinct : listed.Nodup) {place : Subject.Place}
    (mem_iff : ∀ subject, subject ∈ listed ↔ program.Named subject ∧ subject.place = place) :
    program.names.Lists (fun subject => program.Named subject ∧ subject.place = place)
      (listed.map program.names.nameFor) := by
  refine (NameIndex.Lists.of_map (fun left right isLeft isRight => ?_) distinct).congr mem_iff
  exact tells ((mem_iff left).mp isLeft).1 ((mem_iff right).mp isRight).1

theorem Setup.labels (setup : Setup graph catalog library settings grafted reachable embedded declared ready) :
    reachable.names.labels = (withAdapters catalog).labels := by
  have grafted := setup.grafting.names.labels
  obtain ⟨_, _, _, _, rfl⟩ := setup.keeping.frame
  exact grafted

theorem Setup.labels_embedded
    (setup : Setup graph catalog library settings grafted reachable embedded declared ready) :
    embedded.names.labels = reachable.names.labels := by
  obtain ⟨names, rfl, took⟩ := setup.embedding
  obtain ⟨_, registered⟩ := reachable.registered_eq
  rw [registered] at took
  exact took.labels

/-! ## Modules -/

/-- The modules and the host declare the keys of the modules. -/
theorem Supported.lists_modules (supported : program.Supported)
    (tells : program.names.Tells program.Named)
    (linking : program.dependencies = link program.settings program.names.nameOf
      program.dependencies.modules [] { modules := program.dependencies.modules }) :
    program.names.Lists (fun subject => program.Named subject ∧ subject.place = .modules)
      (program.dependencies.importNames ++
        program.dependencies.code.toList.flatMap Code.declaredNames) := by
  have sound : ∀ module ∈ program.dependencies.modules, module.Sound program.library :=
    fun module linked => supported.library.modules (supported.modules module linked)
  have named : ∀ module ∈ program.dependencies.modules, ∀ key ∈ module.keys,
      program.Named (.handle (.module module.namespaceName) key) :=
    fun module linked key isKey => .backed (.module linked isKey)
  have spaces : (program.dependencies.modules.map fun module =>
      NameSpace.module module.namespaceName).Nodup := by
    have distinct := supported.distinct.map (f := NameSpace.module) fun _ _ => NameSpace.module.inj
    rwa [List.map_map] at distinct
  have imports : program.names.Lists (fun subject => ∃ module ∈ program.dependencies.modules,
      ∃ key ∈ module.importKeys, Subject.handle (.module module.namespaceName) key = subject)
      program.dependencies.importNames := by
    rw [linking, (names_link sound).1, ← linking]
    refine ⟨nodup_foldl_withName .nil, fun {name} => ?_⟩
    simp only [mem_foldl_withName, List.not_mem_nil, false_or, List.mem_flatMap, List.mem_map]
    constructor
    · rintro ⟨module, linked, key, isKey, rfl⟩
      exact ⟨_, ⟨module, linked, key, isKey, rfl⟩, rfl⟩
    · rintro ⟨_, ⟨module, linked, key, isKey, rfl⟩, rfl⟩
      exact ⟨module, linked, key, isKey, rfl⟩
  have codeNamed : ∀ subject ∈ program.dependencies.modules.flatMap (fun module =>
      module.codeKeys.map (Subject.handle (.module module.namespaceName))),
      program.Named subject := by
    intro subject member
    obtain ⟨module, linked, member⟩ := List.mem_flatMap.mp member
    obtain ⟨key, isKey, rfl⟩ := List.mem_map.mp member
    exact named module linked key (List.mem_append_left _ isKey)
  have code : program.names.Lists (· ∈ program.dependencies.modules.flatMap fun module =>
      module.codeKeys.map (Subject.handle (.module module.namespaceName)))
      (program.dependencies.code.toList.flatMap Code.declaredNames) := by
    rw [linking, declaredNames_link sound, ← linking]
    have listed : program.names.Lists _ _ := NameIndex.Lists.of_map
      (fun _ _ isLeft isRight => tells (codeNamed _ isLeft) (codeNamed _ isRight))
      (Subject.nodup_handles spaces fun module linked =>
        (List.nodup_append.mp (sound module linked).distinct).1)
    rw [List.map_flatMap] at listed
    simp only [List.map_map] at listed
    exact listed
  refine (imports.append tells code ?_ codeNamed ?_).congr fun subject => ?_
  · rintro _ ⟨module, linked, key, isKey, rfl⟩
    exact named module linked key (List.mem_append_right _ isKey)
  · -- a key of two modules of one name space would be a key of one module twice
    rintro _ ⟨module, linked, key, isKey, rfl⟩ member
    obtain ⟨other, otherLinked, member⟩ := List.mem_flatMap.mp member
    obtain ⟨otherKey, isOther, same⟩ := List.mem_map.mp member
    obtain ⟨sameSpace, rfl⟩ := Subject.handle.inj same
    have sameModule : other = module :=
      List.inj_on_of_nodup_map spaces otherLinked linked sameSpace
    subst sameModule
    exact (List.nodup_append.mp (sound other linked).distinct).2.2 otherKey isOther otherKey isKey rfl
  · constructor
    · rintro (⟨module, linked, key, isKey, rfl⟩ | member)
      · exact ⟨named module linked key (List.mem_append_right _ isKey), rfl⟩
      · refine ⟨codeNamed subject member, ?_⟩
        obtain ⟨module, linked, member⟩ := List.mem_flatMap.mp member
        obtain ⟨key, isKey, rfl⟩ := List.mem_map.mp member
        rfl
    · rintro ⟨isNamed, isPlace⟩
      cases isNamed with
      | @backed space key held =>
          cases held with
          | @module module _ linked isKey =>
              rcases List.mem_append.mp isKey with isCode | isImport
              · exact .inr (List.mem_flatMap.mpr ⟨module, linked, List.mem_map_of_mem isCode⟩)
              · exact .inl ⟨module, linked, key, isImport, rfl⟩
          | nodeType => cases isPlace
      | _ => cases isPlace

/-! ## Types -/

/-- What the code of a type declares. -/
def typeNames (type : TypeCode) : List String :=
  type.stateRecord.toList.map (fun record => record.name) ++
    type.core.toList.flatMap fun core => Code.declaredNames (Code.piecesOf core)

theorem declaredNames_nodeTypes : Code.declaredNames program.nodeTypesRegion =
    program.types.values.flatMap typeNames := by
  refine Code.declaredNames_lines_flatMap fun type _ => ?_
  rw [List.flatMap_append, typeNames]
  congr 1
  · cases type.stateRecord <;> rfl
  · cases core : type.core with
    | none => rfl
    | some content =>
        unfold rendersNothing
        dsimp only
        split
        · next empty => simp [Code.declaredNames_of_isEmpty empty]
        · simp [Part.ofSequence?, Part.pieces]

/-- What declaring the types makes of a type. -/
theorem DeclaredSo.type_eq {base : Program} (declaring : DeclaredSo base base.types.values declared)
    (framed : base.Framed) (undeclared : ∀ {name type}, base.types.entries.get? name = some type →
      type = { type := name, implementation := type.implementation }) {name : String} {type : TypeCode}
    (registered : declared.types.entries.get? name = some type) :
    ∃ old, base.types.entries.get? name = some old ∧ type.implementation = old.implementation ∧
      type.core = old.implementation.core.map (fun template =>
        ((template base.settings).resolve (coreScope name) base.names.nameOf).toSequence) ∧
      type.stateRecord = old.implementation.state.bind fun template =>
        (base.firstOfType name).bind fun first => base.stateRecordOf first template := by
  have listed : name ∈ base.types.values.map TypeCode.type := by
    obtain ⟨old, found, _⟩ := declaring.keeps.type registered
    rw [← (framed.typed found).1]
    exact List.mem_map_of_mem (Table.mem_values_iff.mpr ⟨name, found⟩)
  rw [declaring.types, if_pos listed] at registered
  obtain ⟨old, found, rfl⟩ := Option.map_eq_some_iff.mp registered
  have fresh := undeclared found
  have noRecord : old.stateRecord = none := by rw [fresh]
  have noCore : old.core = none := by rw [fresh]
  refine ⟨old, found, rfl, ?_, ?_⟩
  · change Option.or _ old.core = _
    rw [noCore, Option.or_none, (framed.typed found).1]
  · change Option.or _ old.stateRecord = _
    rw [noRecord, Option.or_none, (framed.typed found).1]

theorem Setup.undeclared
    (setup : Setup graph catalog library settings grafted reachable embedded declared ready)
    {name : String} {type : TypeCode} (registered : embedded.types.entries.get? name = some type) :
    type = { type := name, implementation := type.implementation } := by
  obtain ⟨_, rfl, _⟩ := setup.embedding
  exact (setup.keeping.typed registered).2

theorem Setup.typeNames_eq
    (setup : Setup graph catalog library settings grafted reachable embedded declared ready)
    (supported : embedded.Supported) {name : String} {type : TypeCode}
    (registered : declared.types.entries.get? name = some type) :
    typeNames type = type.implementation.keys.map (embedded.names.nameOf (.nodeType name)) := by
  obtain ⟨old, found, same, core, stateRecord⟩ :=
    setup.declaring.type_eq setup.framedEmbedded setup.undeclared registered
  have sound := supported.types found
  unfold typeNames Implementation.keys
  rw [same, core, stateRecord, List.map_append]
  congr 1
  · cases given : old.implementation.state with
    | none => rfl
    | some template =>
        obtain ⟨first, node, entry, isFirst, isNode, rfl, stored⟩ :=
          setup.framedEmbedded.firstOfType_eq found
        obtain ⟨members, _, _, isRecord⟩ := supported.stateRecordOf_eq isNode stored found given
        simp [isFirst, isRecord, name_stateRecord]
  · cases given : old.implementation.core with
    | none => simp [Implementation.coreKeys, given]
    | some template =>
        obtain ⟨_, _, declares⟩ := sound.core template given embedded.settings
        rw [Option.map_some, Option.toList_some, List.flatMap_singleton,
          Template.declaredNames_own _ _ declares]
        rfl

theorem Framed.lists_types (framed : program.Framed) (supported : program.Supported)
    (tells : program.names.Tells program.Named)
    (declares : ∀ {name type}, program.types.entries.get? name = some type →
      typeNames type = type.implementation.keys.map (program.names.nameOf (.nodeType name))) :
    program.names.Lists (fun subject => program.Named subject ∧ subject.place = .types)
      (Code.declaredNames program.nodeTypesRegion) := by
  have spaces : (program.types.values.map fun type => NameSpace.nodeType type.type).Nodup := by
    have named : program.types.values.map TypeCode.type = program.types.keys := by
      unfold Register.values Register.keys Table.values Table.keys
      rw [List.map_map]
      refine List.map_congr_left fun pair member => ?_
      exact (framed.typed (Table.mem_entries_iff.mp member)).1
    have distinct : (program.types.values.map TypeCode.type).Nodup :=
      named ▸ program.types.entries.distinct
    have mapped := distinct.map (f := NameSpace.nodeType) fun _ _ => NameSpace.nodeType.inj
    rwa [List.map_map] at mapped
  have names : Code.declaredNames program.nodeTypesRegion =
      (program.types.values.flatMap fun type => type.implementation.keys.map
        (Subject.handle (.nodeType type.type))).map program.names.nameFor := by
    rw [declaredNames_nodeTypes, List.map_flatMap]
    refine List.flatMap_congr fun type listed => ?_
    rw [declares (framed.registered_of_mem listed), List.map_map]
    rfl
  rw [names]
  refine lists_of_map tells (Subject.nodup_handles spaces fun type listed =>
    (supported.types (framed.registered_of_mem listed)).distinct) fun subject => ?_
  constructor
  · intro member
    obtain ⟨type, listed, member⟩ := List.mem_flatMap.mp member
    obtain ⟨key, isKey, rfl⟩ := List.mem_map.mp member
    exact ⟨.backed (.nodeType (framed.registered_of_mem listed) isKey), rfl⟩
  · rintro ⟨isNamed, isPlace⟩
    cases isNamed with
    | @backed space key held =>
        cases held with
        | module => cases isPlace
        | @nodeType name _ type registered isKey =>
            refine List.mem_flatMap.mpr ⟨type, Table.mem_values_iff.mpr ⟨name, registered⟩, ?_⟩
            rw [(framed.typed registered).1]
            exact List.mem_map_of_mem isKey
    | _ => cases isPlace

/-! ## States -/

theorem declaredNames_stateConst (entry : NodeCode) (record : Code.Record) (literal : Code.Sequence) :
    Code.declaredNames (stateConst entry record literal).pieces = [entry.stateName] := by
  rw [stateConst, Part.pieces, Code.piecesOf_code, Code.declaredNames, Code.declarations_code]
  rfl

/-- The nodes that have state. -/
def statefulNodes (program : Program) : List String :=
  program.fullTraversal.filter fun id => (program.stateTemplate? id).isSome

theorem Framed.lists_states (framed : program.Framed) (tells : program.names.Tells program.Named)
    {region : Code.Sequence} (names : Code.declaredNames region =
      program.statefulNodes.map NameIndex.stateName) :
    program.names.Lists (fun subject => program.Named subject ∧ subject.place = .states)
      (Code.declaredNames region) := by
  have mapped : program.statefulNodes.map NameIndex.stateName =
      (program.statefulNodes.map Subject.state).map program.names.nameFor := by
    rw [List.map_map]
    rfl
  rw [names, mapped]
  refine lists_of_map tells ((framed.distinct.filter _).map fun _ _ => Subject.state.inj)
    fun subject => ?_
  constructor
  · intro member
    obtain ⟨id, isStateful, rfl⟩ := List.mem_map.mp member
    obtain ⟨template, given⟩ := Option.isSome_iff_exists.mp (List.mem_filter.mp isStateful).2
    exact ⟨.state given, rfl⟩
  · rintro ⟨isNamed, isPlace⟩
    cases isNamed with
    | @state id template given =>
        obtain ⟨node, found, _⟩ := Option.bind_eq_some_iff.mp given
        refine List.mem_map_of_mem (List.mem_filter.mpr ⟨framed.listed.mpr ⟨node, found⟩, ?_⟩)
        simp [given]
    | backed held => cases held <;> cases isPlace
    | _ => cases isPlace

/-- The state instances declare the state variables. -/
theorem Laying.declaredNames_states (laying : Laying graph catalog library settings program)
    (supported : laying.declared.Supported) {parts : List (List Part)} {ids : List String}
    (instances : List.Forall₂ program.IsInstance ids parts) :
    Code.declaredNames (Code.lines parts.flatten) =
      (ids.filter fun id => (program.stateTemplate? id).isSome).map NameIndex.stateName := by
  have declares : ∀ id own, program.IsInstance id own →
      (own.flatMap fun part => Code.declaredNames part.pieces) =
        if (program.stateTemplate? id).isSome then [NameIndex.stateName id] else [] := by
    intro id own isInstance
    obtain ⟨entry, stored, isInstance⟩ := isInstance
    obtain ⟨node, found⟩ := laying.framed.known stored
    obtain ⟨foundBefore, before, storedBefore⟩ := laying.declared_entry found
    obtain ⟨sameState, sameName⟩ := laying.state_eq stored
    rw [laying.stateTemplate?.1]
    cases given : laying.declared.stateTemplate? id with
    | none =>
        have stateless : entry.state = none := by rw [sameState, ownState?, given]; rfl
        rcases isInstance with ⟨_, rfl⟩ | ⟨record, _, isState, _⟩
        · rfl
        · cases stateless.symm.trans isState
    | some template =>
        obtain ⟨_, _, _, isRecord⟩ := supported.ownState?_eq foundBefore storedBefore given
        rw [isRecord] at sameState
        rcases isInstance with ⟨isStateless, _⟩ | ⟨record, members, isState, _, rfl⟩
        · cases sameState.symm.trans isStateless
        · rw [List.flatMap_singleton, declaredNames_stateConst, sameName record isState]
          rfl
  rw [Code.declaredNames, Code.declarations_lines, List.map_flatMap]
  change (parts.flatten.flatMap fun part => Code.declaredNames part.pieces) = _
  induction instances with
  | nil => rfl
  | cons isInstance rest ih =>
      rw [List.flatten_cons, List.flatMap_append, ih, declares _ _ isInstance, List.filter_cons]
      split <;> rfl

end Program

end Patchbay
