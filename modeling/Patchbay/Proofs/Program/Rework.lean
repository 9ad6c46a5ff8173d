import Patchbay.Proofs.Program.Frame

namespace Patchbay.Program

/-! Passes that work off the nodes of a program one by one.

A step hands out names and changes the code of the node at hand.  A run over nodes without repetition
then changes every one of them once, as if the others had not been touched.
-/

open Outcome (Ends ends_foldlM)

variable {base program before between after : Program} {id : String} {node : Node}
  {change first second : NodeCode → NodeCode} {handles others : List (NameSpace × String)}
  {states more : List String}

/-- An item of a list without repetition does not stand before itself. -/
theorem fresh_of_nodup {α : Type u} {items done rest : List α} {item : α} (distinct : items.Nodup)
    (split : items = done ++ item :: rest) : item ∉ done ∧ done.Nodup := by
  rw [split, List.nodup_append] at distinct
  exact ⟨fun earlier => distinct.2.2 _ earlier _ (List.mem_cons_self ..) rfl, distinct.1⟩

/-- Names were handed out, and the code of one node was changed. -/
structure Refines (before after : Program) (id : String) (change : NodeCode → NodeCode)
    (handles : List (NameSpace × String)) (states : List String) : Prop where
  frame : ∃ names nodes, after = { before with names, nodes }
  keys : after.nodes.keys = before.nodes.keys
  nodes : ∀ other, after.nodes.entries.get? other =
    if other = id then (before.nodes.entries.get? other).map change
    else before.nodes.entries.get? other
  names : before.names.Adds after.names handles states

namespace Refines

theorem of_names {names : NameIndex} (adds : program.names.Adds names handles states)
    (unchanged : ∀ entry, change entry = entry) :
    Refines program { program with names } id change handles states where
  frame := ⟨names, program.nodes, rfl⟩
  keys := rfl
  nodes other := by
    split
    · cases program.nodes.entries.get? other <;> simp [unchanged]
    · rfl
  names := adds

theorem refineNode {names : NameIndex} (adds : program.names.Adds names handles states) :
    Refines program ({ program with names }.refineNode id change) id change handles states where
  frame := ⟨names, program.nodes.refine id change, rfl⟩
  keys := Table.keys_modify change id
  nodes _ := Table.get?_modify change id
  names := adds

theorem trans (one : Refines before between id first handles states)
    (two : Refines between after id second others more) :
    Refines before after id (second ∘ first) (handles ++ others) (states ++ more) where
  frame := by
    obtain ⟨_, _, rfl⟩ := one.frame
    obtain ⟨names, nodes, rfl⟩ := two.frame
    exact ⟨names, nodes, rfl⟩
  keys := two.keys.trans one.keys
  nodes other := by
    rw [two.nodes, one.nodes]
    split
    · rw [Option.map_map]
    · rfl
  names := one.names.trans two.names

/-- A change is known by what it does to the entry that is there. -/
theorem congr (refines : Refines before after id first handles states) {entry : NodeCode}
    (stored : before.nodes.entries.get? id = some entry) (same : first entry = second entry) :
    Refines before after id second handles states where
  frame := refines.frame
  keys := refines.keys
  nodes other := by
    rw [refines.nodes]
    split
    · next isNode => rw [isNode, stored, Option.map_some, Option.map_some, same]
    · rfl
  names := refines.names

/-- One more step at the same node, which adds no state variable. -/
theorem next (refines : Refines before between id first handles []) {entry : NodeCode}
    (stored : before.nodes.entries.get? id = some entry) {names : NameIndex}
    (took : between.names.Took names others) (same : change (first entry) = second entry) :
    Refines before ({ between with names }.refineNode id change) id second (handles ++ others) [] :=
  (refines.trans (refineNode took.adds)).congr stored same

theorem entry (refines : Refines before after id change handles states) {entry : NodeCode}
    (stored : before.nodes.entries.get? id = some entry) :
    after.nodes.entries.get? id = some (change entry) := by
  rw [refines.nodes, if_pos rfl, stored, Option.map_some]

theorem keeps (refines : Refines before after id change handles states) : KeepsFrame before after := by
  have keys := refines.keys
  have akin := refines.names.toAkin
  obtain ⟨names, nodes, rfl⟩ := refines.frame
  exact ⟨rfl, rfl, rfl, rfl, keys, fun _ => rfl, akin.graph, akin.labels⟩

end Refines

/-- The program after some of its nodes were worked off. -/
structure Reworked (base : Program) (change : String → NodeCode → NodeCode)
    (handles : String → List (NameSpace × String)) (states : String → List String)
    (done : List String) (program : Program) : Prop where
  frame : ∃ names nodes, program = { base with names, nodes }
  keys : program.nodes.keys = base.nodes.keys
  nodes : ∀ id, program.nodes.entries.get? id =
    if id ∈ done then (base.nodes.entries.get? id).map (change id)
    else base.nodes.entries.get? id
  names : base.names.Adds program.names (done.flatMap handles) (done.flatMap states)

namespace Reworked

variable {change : String → NodeCode → NodeCode} {handles : String → List (NameSpace × String)}
  {states : String → List String} {done : List String}

theorem refl (base : Program) : Reworked base change handles states [] base :=
  ⟨⟨_, _, rfl⟩, rfl, fun id => by simp, .refl _⟩

theorem step (held : Reworked base change handles states done program) (fresh : id ∉ done)
    (refines : Refines program after id (change id) (handles id) (states id)) :
    Reworked base change handles states (done ++ [id]) after where
  frame := by
    obtain ⟨_, _, rfl⟩ := held.frame
    obtain ⟨names, nodes, rfl⟩ := refines.frame
    exact ⟨names, nodes, rfl⟩
  keys := refines.keys.trans held.keys
  nodes other := by
    rw [refines.nodes, held.nodes]
    by_cases same : other = id
    · subst same
      simp [fresh]
    · simp [same]
  names := by simpa [List.flatMap_append] using held.names.trans refines.names

theorem keeps (held : Reworked base change handles states done program) :
    KeepsFrame base program := by
  have keys := held.keys
  have akin := held.names.toAkin
  obtain ⟨names, nodes, rfl⟩ := held.frame
  exact ⟨rfl, rfl, rfl, rfl, keys, fun _ => rfl, akin.graph, akin.labels⟩

end Reworked

theorem noStates (ids : List String) : (ids.flatMap fun _ => ([] : List String)) = [] :=
  List.flatMap_eq_nil_iff.mpr fun _ _ => rfl

section Run

variable {step : Program → String → Outcome Program} {ids : List String} {refused : Fault → Prop}
  {change : String → NodeCode → NodeCode} {handles : String → List (NameSpace × String)}
  {states : String → List String}

/-- A run over some nodes ends with all of them changed, when every step changes its node.  What a
successful step tells about its node is then known of all of them. -/
theorem Framed.rework_tells {told : String → Prop} (framed : base.Framed) (distinct : ids.Nodup)
    (listed : ∀ id ∈ ids, id ∈ base.fullTraversal)
    (steps : ∀ {done program id node entry}, Reworked base change handles states done program →
      program.Framed → id ∈ ids → base.graph.node? id = some node →
      base.nodes.entries.get? id = some entry → program.nodes.entries.get? id = some entry →
      Ends (step program id) refused fun after =>
        told id ∧ Refines program after id (change id) (handles id) (states id)) :
    Ends (ids.foldlM step base) refused fun after =>
      (∀ id ∈ ids, told id) ∧ Reworked base change handles states ids after := by
  refine ends_foldlM (fun done program =>
      (∀ id ∈ done, told id) ∧ Reworked base change handles states done program)
    ⟨by simp, .refl base⟩ fun done id rest program split ⟨toldDone, held⟩ => ?_
  have member : id ∈ ids := by simp [split]
  have fresh := (fresh_of_nodup distinct split).1
  obtain ⟨node, found⟩ := framed.listed.mp (listed id member)
  obtain ⟨entry, stored⟩ := framed.entry found
  have current : program.nodes.entries.get? id = some entry := by
    rw [held.nodes, if_neg fresh, stored]
  refine (steps held (framed.of_keeps held.keeps) member found stored current).mono
    (fun _ fault => fault) fun after _ ⟨toldNow, refines⟩ => ⟨?_, held.step fresh refines⟩
  intro other within
  rcases List.mem_append.mp within with earlier | now
  · exact toldDone other earlier
  · exact List.mem_singleton.mp now ▸ toldNow

theorem Framed.rework_ends (framed : base.Framed) (distinct : ids.Nodup)
    (listed : ∀ id ∈ ids, id ∈ base.fullTraversal)
    (steps : ∀ {done program id node entry}, Reworked base change handles states done program →
      program.Framed → id ∈ ids → base.graph.node? id = some node →
      base.nodes.entries.get? id = some entry → program.nodes.entries.get? id = some entry →
      Ends (step program id) refused fun after =>
        Refines program after id (change id) (handles id) (states id)) :
    Ends (ids.foldlM step base) refused (Reworked base change handles states ids) := by
  have runs : Ends (ids.foldlM step base) refused fun after =>
      (∀ id ∈ ids, True) ∧ Reworked base change handles states ids after :=
    framed.rework_tells distinct listed ?_
  · exact runs.mono (fun _ fault => fault) fun _ _ held => held.2
  intro done program id node entry held framedNow member found stored current
  exact (steps held framedNow member found stored current).mono (fun _ fault => fault)
    fun _ _ refines => ⟨trivial, refines⟩

end Run

end Patchbay.Program
