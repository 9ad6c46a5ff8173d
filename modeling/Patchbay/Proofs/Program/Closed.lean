import Patchbay.Compile
import Patchbay.Proofs.Program.DeclaredPorts

namespace Patchbay

/-! Generated names are closed.

A program declares every name that was handed out once, and it declares no other generated name: the
index has names for what the program has, and each place of the code declares what the program has of
one kind.  The names that the metadata tell the host are among them.
-/

open Outcome (Yields)

/-! ## Names in metadata -/

namespace Json

mutual

/-- The texts that stand as values in a document. -/
def texts : Json → List String
  | .text value => [value]
  | .array items => textsOfItems items
  | .object members => textsOfMembers members
  | _ => []

def textsOfItems : List Json → List String
  | [] => []
  | item :: rest => item.texts ++ textsOfItems rest

def textsOfMembers : List (String × Json) → List String
  | [] => []
  | member :: rest => member.2.texts ++ textsOfMembers rest

end

theorem mem_texts_object {members : List (String × Json)} {name : String} :
    name ∈ (Json.object members).texts ↔ ∃ member ∈ members, name ∈ member.2.texts := by
  rw [texts]
  induction members with
  | nil => simp [textsOfMembers]
  | cons member rest ih => simp [textsOfMembers, ih]

theorem mem_texts_sorted {members : List (String × Json)} {name : String} :
    name ∈ (Json.sorted members).texts ↔ ∃ member ∈ members, name ∈ member.2.texts := by
  simp only [sorted, mem_texts_object, List.mem_mergeSort]

end Json

namespace Metadata

/-- A table of names has a name. -/
def Publishes (table : NameTable) (name : String) : Prop :=
  ∃ outer names inner, table.get? outer = some names ∧ names.get? inner = some name

theorem publishes_of_mem_texts {table : NameTable} {name : String}
    (member : name ∈ (ofNames table).texts) : Publishes table name := by
  obtain ⟨_, listed, member⟩ := Json.mem_texts_sorted.mp member
  obtain ⟨⟨outer, names⟩, isNames, rfl⟩ := List.mem_map.mp listed
  obtain ⟨_, listed, member⟩ := Json.mem_texts_sorted.mp member
  obtain ⟨⟨inner, own⟩, isName, rfl⟩ := List.mem_map.mp listed
  cases List.mem_singleton.mp member
  exact ⟨outer, names, inner, Table.mem_entries_iff.mp isNames, Table.mem_entries_iff.mp isName⟩

theorem publishes_addName {table : NameTable} {outer inner added name : String}
    (published : Publishes (addName table outer inner added) name) :
    Publishes table name ∨ name = added := by
  obtain ⟨other, names, key, isNames, isName⟩ := published
  unfold addName at isNames
  rw [Table.get?_set] at isNames
  split at isNames
  · cases isNames
    rw [Table.get?_set] at isName
    split at isName
    · cases isName
      exact .inr rfl
    · cases found : table.get? outer with
      | none =>
          rw [Table.getD, found] at isName
          cases isName
      | some old =>
          rw [Table.getD, found] at isName
          exact .inl ⟨outer, old, key, found, isName⟩
  · exact .inl ⟨other, names, key, isNames, isName⟩

theorem publishes_foldl {α : Type u} {outer inner added : α → String} {items : List α}
    {table : NameTable} {name : String}
    (published : Publishes (items.foldl (fun table item =>
      addName table (outer item) (inner item) (added item)) table) name) :
    Publishes table name ∨ name ∈ items.map added := by
  induction items generalizing table with
  | nil => exact .inl published
  | cons item rest ih =>
      rcases ih published with earlier | later
      · rcases publishes_addName earlier with before | rfl
        · exact .inl before
        · exact .inr (List.mem_cons_self ..)
      · exact .inr (List.mem_cons_of_mem _ later)

theorem not_publishes_empty (name : String) : ¬ Publishes ∅ name := by
  rintro ⟨outer, names, _, isNames, _⟩
  cases isNames

/-- The names that the metadata tell are those of the ports of the host and those that the modules
share with it. -/
theorem mem_texts_variableNames {program : Program} {name : String}
    (member : name ∈ (variableNames program).texts) :
    name ∈ program.hostReceivers.values.map HostPort.functionName ∨
      name ∈ program.hostSenders.values.map HostPort.functionName ∨
      name ∈ program.dependencies.importNames ∨ name ∈ program.dependencies.exportNames := by
  have ports : ∀ {hostPorts : List HostPort}, name ∈ (ofNames (hostNames hostPorts)).texts →
      name ∈ hostPorts.map HostPort.functionName := by
    intro hostPorts member
    exact (publishes_foldl (publishes_of_mem_texts member)).resolve_left (not_publishes_empty name)
  obtain ⟨field, isField, member⟩ := Json.mem_texts_object.mp member
  simp only [List.mem_cons, List.not_mem_nil, or_false] at isField
  rcases isField with rfl | rfl
  · obtain ⟨side, isSide, member⟩ := Json.mem_texts_object.mp member
    simp only [List.mem_cons, List.not_mem_nil, or_false] at isSide
    rcases isSide with rfl | rfl
    · exact .inl (ports member)
    · exact .inr (.inl (ports member))
  · rcases publishes_foldl (publishes_of_mem_texts member) with imported | exported
    · exact .inr (.inr (.inl
        ((publishes_foldl imported).resolve_left (not_publishes_empty name))))
    · exact .inr (.inr (.inr exported))

end Metadata

/-! ## The names at the top level -/

namespace Code

theorem declaredNames_of_isEmptyText {content : Sequence} (empty : content.isEmpty = true) :
    declaredNames content = [] := by
  have none : declarations content = [] := by
    refine List.filter_eq_nil_iff.mpr fun part member => ?_
    have isEmpty := List.all_eq_true.mp empty part member
    cases part with
    | text value => exact Bool.false_ne_true
    | _ => cases isEmpty
  rw [declaredNames, none]
  rfl

end Code

/-- The names that the regions of a program declare at the top level. -/
def Regions.declaredNames (regions : Regions) : List String :=
  regions.declarations.flatMap Code.declaredNames

/-- The functions of the host, as the code of a target declares them: those that modules import and
those that messages are sent to. -/
def Target.hostNames (target : Target) (program : Program) : List String :=
  match target with
  | .javaScript =>
      Code.declaredNames (Engine.JavaScript.importForwarders program) ++
        Code.declaredNames (Engine.JavaScript.hostSenders program)
  | .assemblyScript =>
      (program.dependencies.imports.map (fun entry => entry.function) ++
        program.hostSenderFunctions).map fun function => function.name

/-- The generated names that the code of a target declares at the top level. -/
def Target.declaredNames (target : Target) (program : Program) (regions : Regions) : List String :=
  target.hostNames program ++ regions.declaredNames

/-- Regions that render to nothing are left out, but they declare nothing either. -/
theorem Regions.declaredNames_eq (regions : Regions) : regions.declaredNames =
    [regions.dependencies, some regions.nodeTypes, some regions.stateInstances,
      some regions.portlets, some regions.coldDsp, some regions.hostReceivers].flatMap
        fun region => region.toList.flatMap Code.declaredNames := by
  unfold declaredNames declarations
  generalize [regions.dependencies, _, _, _, _, _] = all
  induction all with
  | nil => rfl
  | cons region rest ih =>
      rw [List.filter_cons, List.flatMap_cons, ← ih]
      cases region with
      | none => rfl
      | some content =>
          unfold rendersNothing
          dsimp only
          split
          · simp
          · next empty =>
            have silent := Code.declaredNames_of_isEmptyText (by simpa using empty)
            simp [silent]

theorem Target.hostNames_eq (target : Target) (program : Program) : target.hostNames program =
    program.dependencies.importNames ++
      program.hostSenderFunctions.map fun function => function.name := by
  cases target with
  | javaScript =>
      have declared : ∀ part ∈ program.hostSenders.values.map (fun hostPort =>
          Code.Part.ofFunction <| Code.func hostPort.functionName [messageArg] "void" [
            "engine.io.messageSenders[", Text.literal hostPort.node, "][",
            Text.literal hostPort.portlet, "](m)"]), part.isDeclaration = true := by
        intro part member
        obtain ⟨_, _, rfl⟩ := List.mem_map.mp member
        rfl
      unfold hostNames Engine.JavaScript.importForwarders Engine.JavaScript.hostSenders
      dsimp only
      rw [Code.declaredNames_lines_of_all declared, Code.declaredNames_lines_of_all, List.map_map,
        List.map_map]
      · simp only [Dependencies.importNames, Program.hostSenderFunctions, List.map_map]
        rfl
      · intro part member
        obtain ⟨_, _, rfl⟩ := List.mem_map.mp member
        rfl
  | assemblyScript =>
      unfold hostNames
      rw [List.map_append, List.map_map]
      rfl

namespace Program

variable {graph : Graph} {catalog : Catalog} {library : Library} {settings : Settings}
  {program : Program} {regions : Regions}

/-- The names that a program declares in one of its places. -/
def placeNames (program : Program) (regions : Regions) : Subject.Place → List String
  | .modules => program.dependencies.importNames ++
      regions.dependencies.toList.flatMap Code.declaredNames
  | .types => Code.declaredNames regions.nodeTypes
  | .states => Code.declaredNames regions.stateInstances
  | .portlets => Code.declaredNames regions.portlets
  | .coldGroups => Code.declaredNames regions.coldDsp
  | .hostReceivers => Code.declaredNames regions.hostReceivers
  | .hostSenders => program.hostSenderFunctions.map fun function => function.name

theorem declaredNames_perm_places (target : Target) :
    (target.declaredNames program regions).Perm
      (Subject.Place.all.flatMap (program.placeNames regions)) := by
  rw [Target.declaredNames, Target.hostNames_eq, Regions.declaredNames_eq]
  simp only [Subject.Place.all, placeNames, List.flatMap_cons, List.flatMap_nil, List.append_nil,
    Option.toList_some, List.append_assoc]
  refine .append_left _ (List.perm_append_comm.trans ?_)
  simp only [List.append_assoc]
  exact .refl _

namespace Laying

variable (laying : Laying graph catalog library settings program)

include laying

theorem labels_eq : program.names.labels = laying.reachable.names.labels ∧
    program.names.labels = laying.embedded.names.labels := by
  have setup := laying.setup
  have same : program.names.labels = laying.embedded.names.labels := by
    rw [laying.keeps.labels, laying.keepsFrameSplit.labels, setup.instantiating.keeps.labels,
      setup.declaring.keeps.labels]
  exact ⟨same.trans setup.labels_embedded, same⟩

theorem tells (labels : (withAdapters catalog).labels.values.Nodup) :
    program.names.Tells program.Named := by
  refine laying.framed.tells ?_
  rw [laying.labels_eq.1, laying.setup.labels]
  exact labels

theorem settings_eq : program.settings = settings :=
  (laying.keeps.settings.trans laying.keepsFrameSplit.settings).trans laying.setup.settings_eq

theorem linking : program.dependencies = link program.settings program.names.nameOf
    program.dependencies.modules [] { modules := program.dependencies.modules } := by
  have nameOf := NameIndex.nameOf_congr laying.labels_eq.1
  have same : program.settings = laying.reachable.settings := by
    rw [laying.keeps.settings, laying.keepsFrameSplit.settings,
      laying.setup.instantiating.keeps.settings, laying.setup.declaring.keeps.settings]
    obtain ⟨_, embedded, _⟩ := laying.setup.embedding
    rw [embedded]
  obtain ⟨_, embedded, _⟩ := laying.setup.embedding
  have linked : laying.embedded.dependencies = link laying.reachable.settings
      laying.reachable.names.nameOf laying.reachable.linked []
        { modules := laying.reachable.linked } := by
    rw [embedded]
  rw [laying.keepsEmbedded.dependencies, laying.setup.embedding.modules_eq, nameOf, same]
  exact linked

theorem types_eq : program.types = laying.declared.types := by
  have ready : laying.ready.types = laying.declared.types := by
    obtain ⟨_, _, same⟩ := laying.setup.instantiating.frame
    rw [same]
  have split : laying.split.types = laying.ready.types := by
    obtain ⟨_, _, _, _, _, _, _, same⟩ := laying.divided.frame
    rw [same]
  obtain ⟨_, _, same⟩ := laying.frame
  exact (congrArg Program.types same).trans (split.trans ready)

/-- What a program declares at the top level is named after what it has, each once. -/
theorem lists_declaredNames (sound : (withAdapters catalog).Sound library)
    (soundLibrary : library.Sound) (generated : program.regions = .ok regions) (target : Target) :
    program.names.Lists program.Named (target.declaredNames program regions) := by
  have supported := laying.setup.supported sound soundLibrary
  have supportedNow := laying.keepsEmbedded.supported supported
  have tells := laying.tells sound.labels
  obtain ⟨_, again, isGenerated⟩ := laying.regions_yields supported
  cases generated.symm.trans again
  obtain ⟨parts, stateInstances, instances⟩ := isGenerated.stateInstances
  have types := laying.framed.lists_types supportedNow tells fun {name type} registered => by
    rw [laying.types_eq] at registered
    rw [laying.setup.typeNames_eq supported registered,
      NameIndex.nameOf_congr laying.labels_eq.2]
  have states := laying.framed.lists_states tells
    (laying.declaredNames_states (laying.setup.keepsDeclared.supported supported) instances)
  have lists : ∀ place, program.names.Lists
      (fun subject => program.Named subject ∧ subject.place = place)
      (program.placeNames regions place) := by
    intro place
    cases place with
    | modules =>
        rw [placeNames, isGenerated.dependencies]
        exact supportedNow.lists_modules tells laying.linking
    | types =>
        rw [placeNames, isGenerated.nodeTypes]
        exact types
    | states =>
        rw [placeNames, stateInstances]
        exact states
    | portlets =>
        rw [placeNames, isGenerated.portlets]
        exact laying.lists_portlets tells
    | coldGroups =>
        rw [placeNames, isGenerated.coldDsp]
        exact laying.lists_coldGroups tells
    | hostReceivers =>
        rw [placeNames, isGenerated.hostReceivers]
        exact laying.lists_hostReceivers tells
    | hostSenders => exact laying.lists_hostSenders tells
  refine ((NameIndex.Lists.of_places tells lists Subject.Place.all_nodup).congr
    fun subject => ?_).perm (declaredNames_perm_places target).symm
  exact ⟨fun held => held.1, fun isNamed => ⟨isNamed, Subject.Place.mem_all _⟩⟩

theorem named_of_import {name : String} (supported : program.Supported)
    (imported : name ∈ program.dependencies.importNames) :
    ∃ subject, program.Named subject ∧ program.names.nameFor subject = name := by
  have sound : ∀ module ∈ program.dependencies.modules, module.Sound program.library :=
    fun module linked => supported.library.modules (supported.modules module linked)
  rw [laying.linking, (names_link sound).1] at imported
  obtain ⟨module, linked, member⟩ :=
    List.mem_flatMap.mp ((mem_foldl_withName.mp imported).resolve_left List.not_mem_nil)
  obtain ⟨key, isKey, rfl⟩ := List.mem_map.mp member
  exact ⟨_, .backed (.module linked (List.mem_append_right _ isKey)), rfl⟩

theorem named_of_export {name : String} (supported : program.Supported)
    (exported : name ∈ program.dependencies.exportNames) :
    ∃ subject, program.Named subject ∧ program.names.nameFor subject = name := by
  have sound : ∀ module ∈ program.dependencies.modules, module.Sound program.library :=
    fun module linked => supported.library.modules (supported.modules module linked)
  rw [laying.linking, (names_link sound).2] at exported
  obtain ⟨module, linked, member⟩ :=
    List.mem_flatMap.mp ((mem_foldl_withName.mp exported).resolve_left List.not_mem_nil)
  obtain ⟨key, isKey, rfl⟩ := List.mem_map.mp member
  have declared := List.all_eq_true.mp (sound module linked).exports key isKey
  exact ⟨_, .backed (.module linked (List.contains_iff_mem.mp declared)), rfl⟩

/-- The metadata tell names of things that the program has. -/
theorem named_of_metadata {name : String} (supported : program.Supported)
    (told : name ∈ (Metadata.variableNames program).texts) :
    ∃ subject, program.Named subject ∧ program.names.nameFor subject = name := by
  rcases Metadata.mem_texts_variableNames told with receiver | sender | imported | exported
  · obtain ⟨hostPort, registered, rfl⟩ := List.mem_map.mp receiver
    refine ⟨.handle (.hostReceivers hostPort.node) hostPort.portlet, .hostReceiver registered, ?_⟩
    rw [laying.hostReceivers_eq] at registered
    obtain ⟨request, _, rfl⟩ := List.mem_map.mp registered
    rfl
  · obtain ⟨hostPort, registered, rfl⟩ := List.mem_map.mp sender
    refine ⟨.handle (.hostSenders hostPort.node) hostPort.portlet, .hostSender registered, ?_⟩
    rw [laying.hostSenders_eq] at registered
    obtain ⟨request, _, rfl⟩ := List.mem_map.mp registered
    rfl
  · exact laying.named_of_import supported imported
  · exact laying.named_of_export supported exported

end Laying

end Program

end Patchbay
