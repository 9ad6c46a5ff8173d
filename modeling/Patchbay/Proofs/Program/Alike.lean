import Patchbay.Proofs.Code.Alike
import Patchbay.Proofs.NodeType.Uniform
import Patchbay.Proofs.Program.Emission

namespace Patchbay

/-! Programs side by side.

Two programs are alike when they lay out one graph, of which they may hold different records, under
settings that differ at most in the target.  All that they share is equal apart from what is written
for a target: the loops of nodes and the code of the runtime modules.  Where the targets are the same,
which `exact` stands for, these are equal too.
-/

open Outcome (Alike)

variable {exact : Prop}

/-! ## Tables -/

/-- Two tables with the same keys, in one order, and related values. -/
def Table.Alike {α : Type u} {β : Type v} (related : α → β → Prop) (table : Table α) (twin : Table β) :
    Prop :=
  List.Forall₂ (fun entry other => entry.1 = other.1 ∧ related entry.2 other.2) table.entries twin.entries

namespace Table.Alike

variable {α : Type u} {β : Type v} {related : α → β → Prop} {table : Table α} {twin : Table β}
  {key : String}

theorem empty : Table.Alike related ∅ ∅ := .nil

variable (alike : table.Alike related twin)

include alike

theorem keys : table.keys = twin.keys := by
  unfold Table.Alike at alike
  unfold Table.keys
  generalize table.entries = entries at *
  generalize twin.entries = others at *
  induction alike with
  | nil => rfl
  | cons held _ ih => rw [List.map_cons, List.map_cons, held.1, ih]

theorem get? (key : String) : Option.Rel related (table.get? key) (twin.get? key) := by
  unfold Table.Alike at alike
  unfold Table.get?
  generalize table.entries = entries at *
  generalize twin.entries = others at *
  induction alike with
  | nil => exact .none
  | @cons entry other _ _ held _ ih =>
      obtain ⟨name, value⟩ := entry
      obtain ⟨nameToo, valueToo⟩ := other
      obtain ⟨rfl, held⟩ := held
      rw [List.lookup_cons, List.lookup_cons]
      cases key == name with
      | true => exact .some held
      | false => exact ih

theorem set (key : String) {value : α} {other : β} (given : related value other) :
    (table.set key value).Alike related (twin.set key other) := by
  change List.Forall₂ _ (setEntry key value table.entries) (setEntry key other twin.entries)
  unfold Table.Alike at alike
  generalize table.entries = entries at *
  generalize twin.entries = others at *
  induction alike with
  | nil => exact .cons ⟨rfl, given⟩ .nil
  | @cons entry other _ _ held rest ih =>
      obtain ⟨name, value⟩ := entry
      obtain ⟨nameToo, valueToo⟩ := other
      obtain ⟨rfl, held⟩ := held
      unfold setEntry
      split
      · exact .cons ⟨rfl, given⟩ rest
      · exact .cons ⟨rfl, held⟩ ih

theorem modify (key : String) {change : α → α} {changeToo : β → β}
    (kept : ∀ value other, related value other → related (change value) (changeToo other)) :
    (table.modify key change).Alike related (twin.modify key changeToo) := by
  change List.Forall₂ _ (table.entries.map _) (twin.entries.map _)
  rw [List.forall₂_map_left_iff, List.forall₂_map_right_iff]
  refine List.Forall₂.imp (fun entry other held => ⟨held.1, ?_⟩) alike
  dsimp only
  rw [← held.1]
  split
  · exact kept _ _ held.2
  · exact held.2

theorem map_eq {γ : Type w} {view : α → γ} {viewToo : β → γ}
    (same : ∀ value other, related value other → view value = viewToo other) :
    (table.map fun _ value => view value) = twin.map fun _ value => viewToo value := by
  refine Table.ext ?_
  change table.entries.map _ = twin.entries.map _
  rw [← List.forall₂_eq_eq_eq, List.forall₂_map_left_iff, List.forall₂_map_right_iff]
  exact List.Forall₂.imp (fun entry other held => Prod.ext held.1 (same _ _ held.2)) alike

end Table.Alike

/-- Two registers with alike tables. -/
structure Register.Alike {α : Type u} {β : Type v} (related : α → β → Prop) (register : Register α)
    (twin : Register β) : Prop where
  label : register.label = twin.label
  entries : register.entries.Alike related twin.entries

namespace Register.Alike

variable {α β : Type} {related : α → β → Prop} {register : Register α} {twin : Register β}
  (alike : register.Alike related twin)

include alike

theorem get (key : String) : Outcome.Alike related (register.get key) (twin.get key) := by
  have held := alike.entries.get? key
  unfold Register.get
  generalize register.entries.get? key = slot at *
  generalize twin.entries.get? key = slotToo at *
  cases held with
  | none => exact alike.label ▸ .fault _
  | some held => exact .result held

theorem add (key : String) {value : α} {other : β} (given : related value other) :
    Outcome.Alike (Register.Alike related) (register.add key value) (twin.add key other) := by
  have taken : register.entries.contains key = twin.entries.contains key := by
    rw [Bool.eq_iff_iff, Table.contains_iff, Table.contains_iff, alike.entries.keys]
  unfold Register.add
  rw [taken, alike.label]
  split
  · exact .fault _
  · exact .result ⟨rfl, alike.entries.set key given⟩

theorem refine (key : String) {change : α → α} {changeToo : β → β}
    (kept : ∀ value other, related value other → related (change value) (changeToo other)) :
    (register.refine key change).Alike related (twin.refine key changeToo) :=
  ⟨alike.label, alike.entries.modify key kept⟩

end Register.Alike

/-! ## Programs -/

/-- The code of one node in two programs. -/
structure NodeCode.Alike (exact : Prop) (entry twin : NodeCode) : Prop where
  rest : twin = { entry with loop := twin.loop }
  loop : exact → twin.loop = entry.loop

theorem NodeCode.Alike.refl (entry : NodeCode) : entry.Alike exact entry := ⟨rfl, fun _ => rfl⟩

theorem NodeCode.Alike.blind {β : Type} {entry twin : NodeCode} (alike : entry.Alike exact twin)
    (view : NodeCode → β) (unseen : ∀ (entry : NodeCode) loop, view { entry with loop } = view entry) :
    view entry = view twin :=
  (unseen entry twin.loop).symm.trans (congrArg view alike.rest.symm)

theorem NodeCode.Alike.eq {entry twin : NodeCode} (alike : entry.Alike exact twin) (same : exact) :
    entry = twin := by
  rw [alike.rest, alike.loop same]

/-- The runtime modules of two programs. -/
structure Dependencies.Alike (exact : Prop) (dependencies twin : Dependencies) : Prop where
  rest : twin = { dependencies with code := twin.code }
  code : exact → twin.code = dependencies.code

theorem Dependencies.Alike.refl (dependencies : Dependencies) : dependencies.Alike exact dependencies :=
  ⟨rfl, fun _ => rfl⟩

theorem Dependencies.Alike.eq {dependencies twin : Dependencies} (alike : dependencies.Alike exact twin)
    (same : exact) : dependencies = twin := by
  rw [alike.rest, alike.code same]

namespace Program

structure Alike (exact : Prop) (program twin : Program) : Prop where
  graph : program.graph.Alike twin.graph
  catalog : program.catalog = twin.catalog
  library : program.library = twin.library
  settings : program.settings.Alike exact twin.settings
  names : program.names.Alike twin.names
  nodes : program.nodes.Alike (NodeCode.Alike exact) twin.nodes
  types : program.types = twin.types
  fullTraversal : program.fullTraversal = twin.fullTraversal
  rootDsp : program.rootDsp = twin.rootDsp
  hotDsp : program.hotDsp = twin.hotDsp
  coldDsp : program.coldDsp = twin.coldDsp
  inlineDsp : program.inlineDsp = twin.inlineDsp
  dependencies : program.dependencies.Alike exact twin.dependencies
  hostReceivers : program.hostReceivers = twin.hostReceivers
  hostSenders : program.hostSenders = twin.hostSenders
  coldOf : program.coldOf = twin.coldOf
  inlined : program.inlined = twin.inlined
  supplied : program.library.Uniform
  /-- No type of the catalog or of the program looks further than it may. -/
  listed : program.catalog.Uniform exact
  typed : ∀ {name type}, program.types.entries.get? name = some type → type.implementation.Uniform exact

/-- Related results, each with its program. -/
def AlikeWith {β γ : Type} (exact : Prop) (held : β → γ → Prop) (result : β × Program)
    (other : γ × Program) : Prop :=
  held result.1 other.1 ∧ result.2.Alike exact other.2

namespace Alike

variable {program twin : Program} {id : String} (alike : program.Alike exact twin)

include alike

theorem withNames {names namesToo : NameIndex} (indices : names.Alike namesToo) :
    Program.Alike exact { program with names } { twin with names := namesToo } :=
  { alike with names := indices, listed := alike.listed, typed := alike.typed }

theorem refineNode (id : String) {change changeToo : NodeCode → NodeCode}
    (kept : ∀ entry other : NodeCode, entry.Alike exact other → (change entry).Alike exact (changeToo other)) :
    (program.refineNode id change).Alike exact (twin.refineNode id changeToo) :=
  { alike with
    nodes := alike.nodes.refine id kept, listed := alike.listed, typed := alike.typed }

/-- A change that does not look at loops. -/
theorem refineRest (id : String) {change : NodeCode → NodeCode}
    (unseen : ∀ (entry : NodeCode) loop, change { entry with loop } = { change entry with loop })
    (loop : ∀ entry, (change entry).loop = entry.loop) :
    (program.refineNode id change).Alike exact (twin.refineNode id change) := by
  refine alike.refineNode id fun entry other held => ⟨?_, fun same => ?_⟩
  · rw [loop, held.rest, unseen]
  · rw [loop, loop, held.loop same]

theorem setType (type : String) {change : TypeCode → TypeCode}
    (kept : ∀ entry, (change entry).implementation = entry.implementation) :
    (program.setType type change).Alike exact (twin.setType type change) where
  graph := alike.graph
  catalog := alike.catalog
  library := alike.library
  settings := alike.settings
  names := alike.names
  nodes := alike.nodes
  types := congrArg (Register.refine · type change) alike.types
  fullTraversal := alike.fullTraversal
  rootDsp := alike.rootDsp
  hotDsp := alike.hotDsp
  coldDsp := alike.coldDsp
  inlineDsp := alike.inlineDsp
  dependencies := alike.dependencies
  hostReceivers := alike.hostReceivers
  hostSenders := alike.hostSenders
  coldOf := alike.coldOf
  inlined := alike.inlined
  supplied := alike.supplied
  listed := alike.listed
  typed {name entry} found := by
    change (program.types.entries.modify type change).get? name = _ at found
    rw [Table.get?_modify] at found
    split at found
    · obtain ⟨before, stored, rfl⟩ := Option.map_eq_some_iff.mp found
      rw [kept]
      exact alike.typed stored
    · exact alike.typed found

theorem typeOf {name : String} {type : TypeCode} (registered : program.types.get name = .ok type) :
    type.implementation.Uniform exact :=
  alike.typed (register_get_eq_ok_iff.mp registered)

theorem site {node nodeToo : Node} (nodes : node.Alike nodeToo) :
    Site.Alike exact ⟨node, program.settings⟩ ⟨nodeToo, twin.settings⟩ :=
  ⟨nodes, alike.settings⟩

theorem loopNodes : program.loopNodes = twin.loopNodes := by
  unfold Program.loopNodes
  rw [alike.hotDsp, alike.coldDsp]

theorem readName (space : NameSpace) (key : String) :
    Outcome.Alike (AlikeWith exact Eq) (program.readName space key) (twin.readName space key) :=
  (alike.names.read space key).bind fun _ _ held => .pure ⟨held.1, alike.withNames held.2⟩

/-- The type of a node. -/
theorem typeGet {node nodeToo : Node} (nodes : node.Alike nodeToo) :
    Outcome.Alike Eq (program.types.get node.type) (twin.types.get nodeToo.type) :=
  .of_eq (by rw [alike.types, nodes.type])

theorem scopeOf (id : String) :
    Outcome.Alike (AlikeWith exact Code.Scope.Alike) (program.scopeOf id) (twin.scopeOf id) := by
  refine (alike.graph.lookup id).bind fun node nodeToo nodes => ?_
  refine (alike.nodes.get id).bind fun entry entryToo entries => ?_
  refine (alike.typeGet nodes).bind fun _ _ _ => ?_
  refine (alike.names.enterNode id).bind fun names namesToo known => ?_
  rw [← nodes.type]
  refine (known.enter _).bind fun names namesToo known => .pure ⟨⟨?_, nodes⟩, alike.withNames known⟩
  rw [entries.rest, known.stateOf]

end Alike

theorem contextOf_congr {node nodeToo : Node} (nodes : node.Alike nodeToo) (what : String) :
    contextOf what node = contextOf what nodeToo :=
  nodes.blind (contextOf what) fun _ => rfl

/-! ## Filling templates -/

section

variable {program twin : Program} {β γ : Type} {filling : Code.Fill β} {fillingToo : Code.Fill γ}
  {asks asksToo : Code.Naming → List Code.Ask} {value : Code.Naming → β} {valueToo : Code.Naming → γ}
  {related : β → γ → Prop}

theorem Alike.fill_of_granted (alike : program.Alike exact twin) (context : String)
    (fills : Code.Fills filling asks value) (fillsToo : Code.Fills fillingToo asksToo valueToo)
    (granted : ∀ ask ∈ asks program.names.nameOf, ask.Granted program.names)
    (grantedToo : ∀ ask ∈ asksToo program.names.nameOf, ask.Granted twin.names)
    (given : related (value program.names.nameOf) (valueToo program.names.nameOf)) :
    Outcome.Alike (AlikeWith exact related) (program.fill context filling) (twin.fill context fillingToo) := by
  obtain ⟨names, filled, took⟩ := program.fill_of_granted context fills granted
  rw [alike.names.nameOf] at grantedToo
  obtain ⟨namesToo, filledToo, tookToo⟩ := twin.fill_of_granted context fillsToo grantedToo
  rw [filled, filledToo, ← alike.names.nameOf]
  exact .result ⟨given, alike.withNames (alike.names.took took tookToo)⟩

theorem Alike.fill (alike : program.Alike exact twin) (context : String)
    (fills : Code.Fills filling asks value) (fillsToo : Code.Fills fillingToo asksToo valueToo)
    (asked : List.Forall₂ (Code.Ask.Alike program.names twin.names) (asks program.names.nameOf)
      (asksToo program.names.nameOf))
    (given : related (value program.names.nameOf) (valueToo program.names.nameOf)) :
    Outcome.Alike (AlikeWith exact related) (program.fill context filling) (twin.fill context fillingToo) := by
  rcases Code.granted_or_refused program.names (asks program.names.nameOf) with
    granted | ⟨earlier, ask, later, split, granted, refused⟩
  · refine alike.fill_of_granted context fills fillsToo granted (fun other member => ?_) given
    obtain ⟨ask, isAsk, held⟩ := Outcome.exists_item asked member
    exact held.granted.mp (granted ask isAsk)
  · rw [split] at asked
    obtain ⟨earlierToo, askToo, laterToo, splitToo, grantedToo, refusedToo, same⟩ :=
      Code.Ask.Alike.refused asked granted refused
    rw [alike.names.nameOf] at splitToo
    rw [program.fill_of_refused context fills split granted refused,
      twin.fill_of_refused context fillsToo splitToo grantedToo refusedToo, same]
    exact .fault _

/-- The same for a computation whose holes are those of a template. -/
theorem Alike.fillReads (alike : program.Alike exact twin) (context : String) {scope scopeToo : Code.Scope}
    (scopes : scope.Alike scopeToo) {reads : List Code.Read}
    (fills : Code.Fills filling (fun _ => reads.map (Code.Read.ask scope)) value)
    (fillsToo : Code.Fills fillingToo (fun _ => reads.map (Code.Read.ask scopeToo)) valueToo)
    (given : related (value program.names.nameOf) (valueToo program.names.nameOf)) :
    Outcome.Alike (AlikeWith exact related) (program.fill context filling) (twin.fill context fillingToo) :=
  alike.fill context fills fillsToo (Code.asks_alike scopes alike.names reads) given

end

end Program

end Patchbay
