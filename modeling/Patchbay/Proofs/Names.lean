import Mathlib.Data.List.Nodup
import Mathlib.Tactic.Tauto
import Patchbay.Names
import Patchbay.Proofs.Table

namespace Patchbay.NameIndex

/-! What reading names does to an index.

A space opens when the node, type or module that it belongs to is known.  Reading a name of an open
space succeeds and hands the name out; nothing that was known or handed out before is lost, and no
space opens or closes.
-/

variable {index before between after : NameIndex} {handles others : List (NameSpace × String)}
  {space : NameSpace} {key id : String}

/-- Whether names of a space can be read. -/
def Opens (index : NameIndex) : NameSpace → Prop
  | .outlets node | .senders node | .receivers node =>
      node ∈ index.nodes ∨ ∃ stored, index.graph.node? node = some stored
  | .nodeType type => index.labels.contains type = true
  | .module namespaceName => namespaceName ∈ index.modules
  | .coldGroups | .hostReceivers _ | .hostSenders _ => True

/-- The names handed out, each as its space and its key. -/
def handedIn (spaces : List (NameSpace × List String)) : List (NameSpace × String) :=
  spaces.flatMap fun entry => entry.2.map fun key => (entry.1, key)

def handed (index : NameIndex) : List (NameSpace × String) := handedIn index.spaces

theorem mem_handedIn_addKey {spaces : List (NameSpace × List String)}
    {handle : NameSpace × String} : handle ∈ handedIn (addKey space key spaces) ↔
      handle = (space, key) ∨ handle ∈ handedIn spaces := by
  induction spaces with
  | nil => simp [addKey, handedIn]
  | cons entry rest ih =>
      obtain ⟨other, keys⟩ := entry
      unfold addKey
      by_cases same : other = space
      · subst same
        rw [if_pos rfl]
        by_cases known : key ∈ keys
        · rw [if_pos known]
          refine ⟨.inr, fun given => given.elim (fun equal => ?_) fun earlier => earlier⟩
          subst equal
          exact List.mem_append_left _ (List.mem_map_of_mem known)
        · rw [if_neg known]
          simp only [handedIn, List.flatMap_cons, List.map_append, List.map_cons, List.map_nil,
            List.mem_append, List.mem_singleton]
          tauto
      · rw [if_neg same]
        simp only [handedIn, List.flatMap_cons, List.mem_append] at ih ⊢
        rw [ih]
        tauto

/-- An index lists every space, every key of a space and every node with a state once. -/
structure Tidy (index : NameIndex) : Prop where
  spaces : (index.spaces.map Prod.fst).Nodup
  keys : ∀ entry ∈ index.spaces, entry.2.Nodup
  states : index.states.Nodup

theorem mem_fst_addKey {spaces : List (NameSpace × List String)} {other : NameSpace} :
    other ∈ (addKey space key spaces).map Prod.fst ↔ other = space ∨ other ∈ spaces.map Prod.fst := by
  induction spaces with
  | nil => simp [addKey]
  | cons entry rest ih =>
      unfold addKey
      split
      · next same => simp [same]
      · rw [List.map_cons, List.mem_cons, ih, List.map_cons, List.mem_cons]
        tauto

theorem nodup_fst_addKey {spaces : List (NameSpace × List String)}
    (distinct : (spaces.map Prod.fst).Nodup) : ((addKey space key spaces).map Prod.fst).Nodup := by
  induction spaces with
  | nil => exact List.nodup_singleton _
  | cons entry rest ih =>
      obtain ⟨fresh, distinctRest⟩ := List.nodup_cons.mp distinct
      unfold addKey
      split
      · next same => exact List.nodup_cons.mpr ⟨same ▸ fresh, distinctRest⟩
      · next different =>
        refine List.nodup_cons.mpr ⟨fun member => ?_, ih distinctRest⟩
        exact (mem_fst_addKey.mp member).elim different fresh

theorem nodup_keys_addKey {spaces : List (NameSpace × List String)}
    (distinct : ∀ entry ∈ spaces, entry.2.Nodup) :
    ∀ entry ∈ addKey space key spaces, entry.2.Nodup := by
  induction spaces with
  | nil =>
      intro entry member
      cases List.mem_singleton.mp member
      exact List.nodup_singleton _
  | cons entry rest ih =>
      obtain ⟨first, later⟩ := List.forall_mem_cons.mp distinct
      unfold addKey
      split
      · refine List.forall_mem_cons.mpr ⟨?_, later⟩
        dsimp only
        split
        · exact first
        · next fresh => simpa using List.Nodup.concat fresh first
      · exact List.forall_mem_cons.mpr ⟨first, ih later⟩

theorem Tidy.enableState (tidy : index.Tidy) : (index.enableState id).Tidy := by
  unfold NameIndex.enableState
  split
  · exact tidy
  · next fresh => exact { tidy with states := by simpa using List.Nodup.concat fresh tidy.states }

theorem nameOf_congr (labels : after.labels = before.labels) :
    after.nameOf = before.nameOf := by
  funext space key
  have path : after.pathOf space = before.pathOf space := by
    cases space with
    | nodeType type => simp [pathOf, labels]
    | _ => rfl
  simp [nameOf, path]

/-- Two indices with the same names, of which the second may know more nodes. -/
structure Akin (before after : NameIndex) : Prop where
  graph : after.graph = before.graph
  labels : after.labels = before.labels
  modules : after.modules = before.modules
  grown : ∀ node ∈ before.nodes, node ∈ after.nodes
  known : ∀ node ∈ after.nodes,
    node ∈ before.nodes ∨ ∃ stored, before.graph.node? node = some stored

namespace Akin

theorem refl (index : NameIndex) : Akin index index :=
  ⟨rfl, rfl, rfl, fun _ member => member, fun _ member => .inl member⟩

theorem trans (first : Akin before between) (second : Akin between after) : Akin before after where
  graph := second.graph.trans first.graph
  labels := second.labels.trans first.labels
  modules := second.modules.trans first.modules
  grown node member := second.grown node (first.grown node member)
  known node member := by
    rcases second.known node member with earlier | stored
    · exact first.known node earlier
    · exact .inr (first.graph ▸ stored)

theorem opens_iff (akin : Akin before after) : after.Opens space ↔ before.Opens space := by
  cases space with
  | outlets node | senders node | receivers node =>
      change (node ∈ after.nodes ∨ _) ↔ (node ∈ before.nodes ∨ _)
      rw [akin.graph]
      constructor
      · intro given
        exact given.elim (akin.known node) .inr
      · intro given
        exact given.imp_left (akin.grown node)
  | nodeType type =>
      change after.labels.contains type = true ↔ _
      rw [akin.labels]
      rfl
  | module namespaceName =>
      change namespaceName ∈ after.modules ↔ _
      rw [akin.modules]
      rfl
  | coldGroups | hostReceivers node | hostSenders node => exact Iff.rfl

theorem nameOf (akin : Akin before after) : after.nameOf = before.nameOf := nameOf_congr akin.labels

theorem enableState (index : NameIndex) (id : String) : Akin index (index.enableState id) := by
  unfold NameIndex.enableState
  split
  · exact .refl index
  · exact ⟨rfl, rfl, rfl, fun _ member => member, fun _ member => .inl member⟩

end Akin

theorem mem_states_enableState {node : String} :
    node ∈ (index.enableState id).states ↔ node = id ∨ node ∈ index.states := by
  unfold enableState
  split
  · next known => exact ⟨.inr, fun given => given.elim (· ▸ known) fun member => member⟩
  · simp only [List.mem_append, List.mem_singleton]
    exact or_comm

@[simp]
theorem handed_enableState : (index.enableState id).handed = index.handed := by
  unfold enableState
  split <;> rfl

/-- The index after names were read. -/
structure Took (before after : NameIndex) (handles : List (NameSpace × String)) : Prop extends
    Akin before after where
  states : after.states = before.states
  spaces : after.spaces =
    handles.foldl (fun spaces handle => addKey handle.1 handle.2 spaces) before.spaces

namespace Took

theorem refl (index : NameIndex) : Took index index [] := ⟨.refl index, rfl, rfl⟩

theorem trans (first : Took before between handles) (second : Took between after others) :
    Took before after (handles ++ others) where
  toAkin := first.toAkin.trans second.toAkin
  states := second.states.trans first.states
  spaces := by rw [second.spaces, first.spaces, List.foldl_append]

theorem mem_handed_iff (took : Took before after handles) {handle : NameSpace × String} :
    handle ∈ after.handed ↔ handle ∈ handles ∨ handle ∈ before.handed := by
  unfold handed
  rw [took.spaces]
  generalize before.spaces = spaces
  clear took
  induction handles generalizing spaces with
  | nil => simp
  | cons first rest ih =>
      rw [List.foldl_cons, ih, mem_handedIn_addKey, List.mem_cons]
      tauto

theorem tidy (took : Took before after handles) (held : before.Tidy) : after.Tidy where
  spaces := by
    rw [took.spaces]
    exact List.foldlRecOn (motive := fun spaces => (List.map Prod.fst spaces).Nodup) handles _
      held.spaces fun _ earlier _ _ => nodup_fst_addKey earlier
  keys := by
    rw [took.spaces]
    exact List.foldlRecOn (motive := fun (spaces : List (NameSpace × List String)) =>
      ∀ entry ∈ spaces, entry.2.Nodup) handles _ held.keys fun _ earlier _ _ => nodup_keys_addKey earlier
  states := took.states ▸ held.states

end Took

/-- The index after names were read and nodes were given state variables. -/
structure Adds (before after : NameIndex) (handles : List (NameSpace × String))
    (nodes : List String) : Prop extends Akin before after where
  handed : ∀ {handle}, handle ∈ after.handed ↔ handle ∈ handles ∨ handle ∈ before.handed
  states : ∀ {id}, id ∈ after.states ↔ id ∈ nodes ∨ id ∈ before.states
  tidy : before.Tidy → after.Tidy

namespace Adds

variable {nodes more : List String}

theorem refl (index : NameIndex) : Adds index index [] [] := ⟨.refl index, by simp, by simp, id⟩

theorem trans (first : Adds before between handles nodes) (second : Adds between after others more) :
    Adds before after (handles ++ others) (nodes ++ more) where
  toAkin := first.toAkin.trans second.toAkin
  handed := by
    intro handle
    rw [second.handed, first.handed, List.mem_append]
    tauto
  states := by
    intro id
    rw [second.states, first.states, List.mem_append]
    tauto
  tidy held := second.tidy (first.tidy held)

theorem stateOf (adds : Adds before after handles []) : after.stateOf = before.stateOf := by
  funext node
  unfold NameIndex.stateOf
  simp only [adds.states, List.not_mem_nil, false_or]

theorem enableState (index : NameIndex) (id : String) :
    Adds index (index.enableState id) [] [id] where
  toAkin := .enableState index id
  handed := by simp
  states := by simp [mem_states_enableState]
  tidy := Tidy.enableState

end Adds

theorem Took.adds (took : Took before after handles) : Adds before after handles [] where
  toAkin := took.toAkin
  handed := took.mem_handed_iff
  states := by simp [took.states]
  tidy := took.tidy

theorem enterNode_eq_ok (known : id ∈ index.nodes ∨ ∃ stored, index.graph.node? id = some stored) :
    ∃ after, index.enterNode id = .ok after ∧ Took index after [] ∧ id ∈ after.nodes := by
  by_cases member : id ∈ index.nodes
  · exact ⟨index, by simp [enterNode, member], .refl index, member⟩
  · obtain ⟨stored, found⟩ := known.resolve_left member
    refine ⟨{ index with nodes := index.nodes ++ [id] }, by simp [enterNode, member, found],
      ⟨⟨rfl, rfl, rfl, fun _ earlier => List.mem_append_left _ earlier, ?_⟩, rfl, rfl⟩, by simp⟩
    intro node added
    rcases List.mem_append.mp added with earlier | last
    · exact .inl earlier
    · exact .inr ⟨stored, List.mem_singleton.mp last ▸ found⟩

theorem enter_eq_ok (open_ : index.Opens space) :
    ∃ after, index.enter space = .ok after ∧ Took index after [] := by
  cases space with
  | outlets node | senders node | receivers node =>
      obtain ⟨after, entered, took, _⟩ := enterNode_eq_ok open_
      exact ⟨after, entered, took⟩
  | nodeType type =>
      have listed : index.labels.contains type = true := open_
      exact ⟨index, by simp [enter, listed], .refl index⟩
  | module namespaceName =>
      have registered : namespaceName ∈ index.modules := open_
      exact ⟨index, by simp [enter, registered], .refl index⟩
  | coldGroups | hostReceivers node | hostSenders node => exact ⟨index, rfl, .refl index⟩

theorem read_eq_ok (key : String) (open_ : index.Opens space) :
    ∃ after, index.read space key = .ok (index.nameOf space key, after) ∧
      Took index after [(space, key)] := by
  obtain ⟨entered, entering, took⟩ := enter_eq_ok open_
  refine ⟨(entered.take space key).2, ?_, ?_⟩
  · rw [← took.nameOf]
    simp [read, entering, take, bind, Except.bind, pure, Except.pure]
  · exact took.trans
      ⟨⟨rfl, rfl, rfl, fun _ member => member, fun _ member => .inl member⟩, rfl, rfl⟩

/-- What is missing where a space does not open. -/
def closedFault : NameSpace → Fault
  | .outlets node | .senders node | .receivers node | .hostReceivers node | .hostSenders node =>
      .unknownNode node
  | .nodeType type => .unnamedNodeType type
  | .module namespaceName => .unnamedModule namespaceName
  | .coldGroups => .unnamedModule ""

theorem enter_eq_error (closed : ¬ index.Opens space) :
    index.enter space = .error (closedFault space) := by
  cases space with
  | outlets node | senders node | receivers node =>
      simp only [Opens, not_or, not_exists] at closed
      have absent : index.graph.node? node = none :=
        Option.eq_none_iff_forall_ne_some.mpr closed.2
      simp [enter, enterNode, closed.1, absent, closedFault]
  | nodeType type =>
      have unlisted : index.labels.contains type = false := by simpa [Opens] using closed
      simp [enter, unlisted, closedFault]
  | module namespaceName =>
      have unregistered : namespaceName ∉ index.modules := closed
      simp [enter, unregistered, closedFault]
  | coldGroups | hostReceivers node | hostSenders node => exact absurd trivial closed

theorem read_eq_error (key : String) (closed : ¬ index.Opens space) :
    index.read space key = .error (closedFault space) := by
  simp [read, enter_eq_error closed, bind, Except.bind]

theorem enter_took (entered : index.enter space = .ok after) : Took index after [] := by
  by_cases open_ : index.Opens space
  · obtain ⟨found, again, took⟩ := enter_eq_ok open_
    rw [entered] at again
    cases again
    exact took
  · rw [enter_eq_error open_] at entered
    cases entered

theorem enterNode_took (entered : index.enterNode id = .ok after) : Took index after [] :=
  enter_took (show index.enter (.outlets id) = .ok after from entered)

theorem read_took {name : String} (read : index.read space key = .ok (name, after)) :
    name = index.nameOf space key ∧ Took index after [(space, key)] := by
  by_cases open_ : index.Opens space
  · obtain ⟨found, again, took⟩ := read_eq_ok key open_
    rw [read] at again
    cases again
    exact ⟨rfl, took⟩
  · rw [read_eq_error key open_] at read
    cases read

end Patchbay.NameIndex
