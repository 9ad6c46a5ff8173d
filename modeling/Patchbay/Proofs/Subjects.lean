import Mathlib.Data.List.Nodup
import Patchbay.Proofs.Names
import Patchbay.Proofs.Text.Identifier

namespace Patchbay

/-! What generated names stand for.

A name is built from the parts that lead to its space and from its key, and parts can be read back from
a name.  So two names are the same only if they stand for the same key of the same space, provided no
two node types go by one label.
-/

theorem Table.eq_of_get?_of_nodup {α : Type u} {table : Table α} {key other : String} {value : α}
    (distinct : table.values.Nodup) (found : table.get? key = some value)
    (again : table.get? other = some value) : key = other := by
  have pairs := List.inj_on_of_nodup_map distinct (mem_entries_iff.mpr found)
    (mem_entries_iff.mpr again) rfl
  exact congrArg Prod.fst pairs

/-- What a name stands for: a key of a name space, or the state of a node. -/
inductive Subject where
  | handle (space : NameSpace) (key : String)
  | state (node : String)

namespace Subject

/-- Where a program declares a name: in its modules or its types, as a state, with the portlets of its
nodes, or as a function of a cold group or of the host. -/
inductive Place where
  | modules
  | types
  | states
  | portlets
  | coldGroups
  | hostReceivers
  | hostSenders
deriving DecidableEq

namespace Place

def all : List Place := [.modules, .types, .states, .portlets, .coldGroups, .hostReceivers, .hostSenders]

theorem all_nodup : all.Nodup := by decide

theorem mem_all (place : Place) : place ∈ all := by
  cases place <;> decide

end Place

def place : Subject → Place
  | .handle (.module _) _ => .modules
  | .handle (.nodeType _) _ => .types
  | .state _ => .states
  | .handle (.outlets _) _ | .handle (.senders _) _ | .handle (.receivers _) _ => .portlets
  | .handle .coldGroups _ => .coldGroups
  | .handle (.hostReceivers _) _ => .hostReceivers
  | .handle (.hostSenders _) _ => .hostSenders

/-- The parts of the identifier. -/
def parts (index : NameIndex) : Subject → List String
  | .handle space key => index.pathOf space ++ [key]
  | .state node => ["N", node, "state"]

/-- A node type is called by a label of the index. -/
def IsLabelled (index : NameIndex) : Subject → Prop
  | .handle (.nodeType type) _ => index.labels.contains type = true
  | _ => True

variable {index : NameIndex} {left right : Subject}

theorem eq_of_parts_eq (labels : index.labels.values.Nodup) (leftLabelled : left.IsLabelled index)
    (rightLabelled : right.IsLabelled index) (same : left.parts index = right.parts index) :
    left = right := by
  have label : ∀ {type other : String}, index.labels.contains type = true →
      index.labels.contains other = true →
      index.labels.getD type type = index.labels.getD other other → type = other := by
    intro type other known otherKnown equal
    obtain ⟨own, found⟩ := Option.isSome_iff_exists.mp known
    obtain ⟨otherOwn, otherFound⟩ := Option.isSome_iff_exists.mp otherKnown
    simp only [Table.getD, found, otherFound, Option.getD_some] at equal
    exact Table.eq_of_get?_of_nodup labels found (equal ▸ otherFound)
  cases left with
  | state node =>
      cases right with
      | state other => simpa [parts] using same
      | handle space key => cases space <;> simp [parts, NameIndex.pathOf] at same
  | handle space key =>
      cases right with
      | state other => cases space <;> simp [parts, NameIndex.pathOf] at same
      | handle otherSpace otherKey =>
          cases space <;> cases otherSpace <;> simp [parts, NameIndex.pathOf] at same
          case nodeType.nodeType type other =>
            rw [label leftLabelled rightLabelled same.1, same.2]
          all_goals simp [same]

/-- Handles in name spaces that differ, of keys that differ in each space. -/
theorem nodup_handles {α : Type u} {items : List α} {space : α → NameSpace}
    {keys : α → List String} (spaces : (items.map space).Nodup)
    (distinct : ∀ item ∈ items, (keys item).Nodup) :
    (items.flatMap fun item => (keys item).map (Subject.handle (space item))).Nodup := by
  refine List.nodup_flatMap.mpr ⟨fun item member => ?_, ?_⟩
  · exact (distinct item member).map fun left right same => (Subject.handle.inj same).2
  · refine (List.pairwise_map.mp spaces).imp fun apart => ?_
    refine List.disjoint_left.mpr fun subject isFirst isSecond => apart ?_
    obtain ⟨_, _, rfl⟩ := List.mem_map.mp isFirst
    obtain ⟨_, _, same⟩ := List.mem_map.mp isSecond
    exact (Subject.handle.inj same).1.symm

theorem isLabelled_congr {before after : NameIndex} (labels : after.labels = before.labels)
    {subject : Subject} : subject.IsLabelled after ↔ subject.IsLabelled before := by
  unfold IsLabelled
  rw [labels]

end Subject

namespace NameIndex

variable {index : NameIndex} {name : String}

def nameFor (index : NameIndex) : Subject → String
  | .handle space key => index.nameOf space key
  | .state node => stateName node

theorem nameFor_eq_join (subject : Subject) : index.nameFor subject = Text.join (subject.parts index) := by
  cases subject <;> rfl

/-- A name stands for one subject. -/
theorem nameFor_inj {left right : Subject} (labels : index.labels.values.Nodup)
    (leftLabelled : left.IsLabelled index) (rightLabelled : right.IsLabelled index)
    (same : index.nameFor left = index.nameFor right) : left = right := by
  rw [nameFor_eq_join, nameFor_eq_join] at same
  refine Subject.eq_of_parts_eq labels leftLabelled rightLabelled (Text.join_injective ?_ ?_ same)
  · cases left <;> simp [Subject.parts]
  · cases right <;> simp [Subject.parts]

theorem nameFor_congr {before after : NameIndex} (labels : after.labels = before.labels) :
    after.nameFor = before.nameFor := by
  funext subject
  cases subject with
  | handle space key => exact congrFun (congrFun (nameOf_congr labels) space) key
  | state node => rfl

/-- Whether the name of a subject was handed out. -/
def HandedOut (index : NameIndex) : Subject → Prop
  | .handle space key => (space, key) ∈ index.handed
  | .state node => node ∈ index.states

/-- The names of an index are those of the subjects that were handed out. -/
theorem mem_allNames_iff :
    name ∈ index.allNames ↔ ∃ subject, index.HandedOut subject ∧ index.nameFor subject = name := by
  unfold allNames Text.sortTexts
  rw [List.mem_mergeSort, List.mem_append]
  constructor
  · rintro (keyed | stated)
    · obtain ⟨⟨space, keys⟩, listed, member⟩ := List.mem_flatMap.mp keyed
      obtain ⟨key, isKey, rfl⟩ := List.mem_map.mp member
      exact ⟨.handle space key, List.mem_flatMap.mpr ⟨_, listed, List.mem_map_of_mem isKey⟩, rfl⟩
    · obtain ⟨node, member, rfl⟩ := List.mem_map.mp stated
      exact ⟨.state node, member, rfl⟩
  · rintro ⟨subject, handedOut, rfl⟩
    cases subject with
    | handle space key =>
        obtain ⟨⟨other, keys⟩, listed, member⟩ := List.mem_flatMap.mp handedOut
        obtain ⟨_, isKey, same⟩ := List.mem_map.mp member
        cases same
        exact .inl (List.mem_flatMap.mpr ⟨_, listed, List.mem_map_of_mem isKey⟩)
    | state node => exact .inr (List.mem_map_of_mem handedOut)

/-! ## Lists of names -/

/-- Some names are those of some subjects, each once. -/
structure Lists (index : NameIndex) (subjects : Subject → Prop) (names : List String) : Prop where
  distinct : names.Nodup
  mem_iff : ∀ {name}, name ∈ names ↔ ∃ subject, subjects subject ∧ index.nameFor subject = name

/-- Two of some subjects have different names. -/
def Tells (index : NameIndex) (subjects : Subject → Prop) : Prop :=
  ∀ ⦃left right⦄, subjects left → subjects right → index.nameFor left = index.nameFor right →
    left = right

namespace Lists

variable {subjects first second : Subject → Prop} {names others : List String}

theorem congr (lists : index.Lists first names) (same : ∀ subject, first subject ↔ second subject) :
    index.Lists second names := by
  rwa [← show first = second from funext fun subject => propext (same subject)]

theorem perm (lists : index.Lists first names) (same : names.Perm others) :
    index.Lists first others where
  distinct := same.nodup_iff.mp lists.distinct
  mem_iff := same.mem_iff.symm.trans lists.mem_iff

theorem perm_of (one : index.Lists subjects names) (two : index.Lists subjects others) :
    names.Perm others :=
  (List.perm_ext_iff_of_nodup one.distinct two.distinct).mpr fun _ => one.mem_iff.trans two.mem_iff.symm

theorem of_map {listed : List Subject} (tells : index.Tells (· ∈ listed)) (distinct : listed.Nodup) :
    index.Lists (· ∈ listed) (listed.map index.nameFor) where
  distinct := distinct.map_on fun _ isLeft _ isRight => tells isLeft isRight
  mem_iff := List.mem_map

theorem append (tells : index.Tells subjects) (one : index.Lists first names)
    (two : index.Lists second others) (firstWithin : ∀ subject, first subject → subjects subject)
    (secondWithin : ∀ subject, second subject → subjects subject)
    (apart : ∀ subject, first subject → ¬ second subject) :
    index.Lists (fun subject => first subject ∨ second subject) (names ++ others) where
  distinct := by
    refine List.nodup_append.mpr ⟨one.distinct, two.distinct, ?_⟩
    intro name inNames other inOthers same
    obtain ⟨left, isFirst, rfl⟩ := one.mem_iff.mp inNames
    obtain ⟨right, isSecond, rfl⟩ := two.mem_iff.mp inOthers
    have equal := tells (firstWithin _ isFirst) (secondWithin _ isSecond) same
    exact apart left isFirst (equal ▸ isSecond)
  mem_iff := by
    intro name
    rw [List.mem_append, one.mem_iff, two.mem_iff, ← exists_or]
    simp only [or_and_right]

/-- What is listed place by place is listed as a whole. -/
theorem of_places {namesAt : Subject.Place → List String} (tells : index.Tells subjects)
    (lists : ∀ place, index.Lists (fun subject => subjects subject ∧ subject.place = place)
      (namesAt place)) {places : List Subject.Place} (distinct : places.Nodup) :
    index.Lists (fun subject => subjects subject ∧ subject.place ∈ places)
      (places.flatMap namesAt) := by
  induction places with
  | nil => exact ⟨.nil, by simp⟩
  | cons place rest ih =>
      obtain ⟨fresh, distinctRest⟩ := List.nodup_cons.mp distinct
      refine ((lists place).append tells (ih distinctRest) (fun _ held => held.1)
        (fun _ held => held.1) fun subject isFirst isLater => ?_).congr fun subject => ?_
      · exact fresh (isFirst.2 ▸ isLater.2)
      · rw [List.mem_cons, and_or_left]

end Lists

end NameIndex

end Patchbay
