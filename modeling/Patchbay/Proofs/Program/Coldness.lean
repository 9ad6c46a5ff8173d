import Mathlib.Data.Set.Finite.List
import Mathlib.Order.WellFounded
import Patchbay.Program.Groups
import Patchbay.Proofs.Graph.Signals

namespace Patchbay.Coldness

/-! What the coldness test answers.

`Cold` is the definition: a node of a pure type all of whose sources are cold.  As a least fixed
point it holds of no node on a feedback path or downstream of one.  A memo is sound when it answers
by the definition; every query keeps it so, whatever was asked before.
-/

/-- A node of a pure type whose signal sources are all cold. -/
inductive Cold (graph : Graph) (isPure : Node → Bool) : String → Prop where
  | intro {id : String} {node : Node} (found : graph.node? id = some node)
      (pure : isPure node = true)
      (sources : ∀ source, graph.Feeds source id → Cold graph isPure source) : Cold graph isPure id

variable {graph : Graph} {isPure : Node → Bool} {id source : String} {memo : Memo}
  {path : List String}

namespace Cold

theorem known (cold : Cold graph isPure id) : ∃ node, graph.node? id = some node := by
  obtain ⟨found, _, _⟩ := cold
  exact ⟨_, found⟩

theorem of_feeds (cold : Cold graph isPure id) (feeds : graph.Feeds source id) :
    Cold graph isPure source := by
  obtain ⟨_, _, sources⟩ := cold
  exact sources source feeds

theorem of_reaches (cold : Cold graph isPure id)
    (reaches : Relation.ReflTransGen graph.Feeds source id) : Cold graph isPure source := by
  induction reaches with
  | refl => exact cold
  | tail _ feeds ih => exact ih (cold.of_feeds feeds)

theorem acyclic (cold : Cold graph isPure id) : ¬ Relation.TransGen graph.Feeds id id := by
  induction cold with
  | @intro id node found pure sources ih =>
      intro loop
      obtain ⟨last, reaches, feeds⟩ := Relation.TransGen.tail'_iff.mp loop
      exact ih last feeds (Relation.TransGen.head' feeds reaches)

end Cold

def Sound (graph : Graph) (isPure : Node → Bool) (memo : Memo) : Prop :=
  ∀ id answer, memo.get? id = some answer → (answer = true ↔ Cold graph isPure id)

theorem Sound.set (sound : Sound graph isPure memo) {answer : Bool}
    (right : answer = true ↔ Cold graph isPure id) : Sound graph isPure (memo.set id answer) := by
  intro other held found
  rw [Table.get?_set] at found
  split at found
  · next same =>
    cases found
    rw [same]
    exact right
  · exact sound other held found

/-- What a query leaves behind: a sound memo that has forgotten nothing. -/
structure Remembers (graph : Graph) (isPure : Node → Bool) (before after : Memo) : Prop where
  sound : Sound graph isPure after
  grown : ∀ key ∈ before.keys, key ∈ after.keys

theorem Remembers.set {before : Memo} (held : Remembers graph isPure before memo) {answer : Bool}
    (right : answer = true ↔ Cold graph isPure id) :
    Remembers graph isPure before (memo.set id answer) where
  sound := held.sound.set right
  grown key member := by
    have kept := held.grown key member
    rw [Table.keys_set]
    split
    · exact kept
    · exact List.mem_append_left _ kept

theorem mem_keys_set {answer : Bool} : id ∈ (memo.set id answer).keys := by
  have found : (memo.set id answer).get? id = some answer := by
    rw [Table.get?_set, if_pos rfl]
  exact Table.mem_keys_of_get? found

theorem foldl_visit_answers (path : List String) (sources : List Endpoint)
    (answers : ∀ source ∈ sources, ∀ memo, Sound graph isPure memo →
      ((visit graph isPure path source.node memo).1 = true ↔ Cold graph isPure source.node) ∧
        Remembers graph isPure memo (visit graph isPure path source.node memo).2)
    (state : Bool × Memo) (sound : Sound graph isPure state.2) :
    let final := sources.foldl (fun (state : Bool × Memo) source =>
      if state.1 then visit graph isPure path source.node state.2 else state) state
    (final.1 = true ↔ state.1 = true ∧ ∀ source ∈ sources, Cold graph isPure source.node) ∧
      Remembers graph isPure state.2 final.2 := by
  induction sources generalizing state with
  | nil => exact ⟨by simp, sound, fun _ member => member⟩
  | cons source rest ih =>
      rw [List.foldl_cons]
      have later := ih (fun other member => answers other (List.mem_cons_of_mem _ member))
      by_cases going : state.1 = true
      · obtain ⟨right, held⟩ := answers source (by simp) state.2 sound
        obtain ⟨rightLater, heldLater⟩ := later _ held.sound
        rw [if_pos going]
        refine ⟨?_, heldLater.sound, fun key member => heldLater.grown key (held.grown key member)⟩
        rw [rightLater, right]
        simp [going]
      · rw [if_neg going]
        obtain ⟨right, held⟩ := later state sound
        refine ⟨?_, held⟩
        rw [right]
        simp [going]

/-- A visit answers by the definition.  The open nodes all depend on the one that is visited, so
that meeting one of them again closes a loop. -/
theorem visit_answers (sound : Sound graph isPure memo)
    (below : ∀ isOpen ∈ path, Relation.TransGen graph.Feeds id isOpen) :
    ((visit graph isPure path id memo).1 = true ↔ Cold graph isPure id) ∧
      Remembers graph isPure memo (visit graph isPure path id memo).2 ∧
      (id ∉ path → id ∈ (visit graph isPure path id memo).2.keys) := by
  induction path, id, memo using visit.induct graph isPure with
  | case1 path id memo answer remembered =>
      rw [visit, remembered]
      exact ⟨sound id answer remembered, ⟨sound, fun _ member => member⟩,
        fun _ => Table.mem_keys_of_get? remembered⟩
  | case2 path id memo unknown onPath =>
      have warm : ¬ Cold graph isPure id := fun cold => cold.acyclic (below id onPath)
      rw [visit, unknown]
      simp only [if_pos onPath]
      exact ⟨by simp [warm], ⟨sound, fun _ member => member⟩, fun absent => absurd onPath absent⟩
  | case3 path id memo unknown offPath missing =>
      have warm : ¬ Cold graph isPure id := fun cold => by
        obtain ⟨node, found⟩ := cold.known
        rw [missing] at found
        cases found
      rw [visit, unknown]
      simp only [if_neg offPath]
      split
      · have wrong : false = true ↔ Cold graph isPure id := by simp [warm]
        exact ⟨wrong, Remembers.set ⟨sound, fun _ member => member⟩ wrong, fun _ => mem_keys_set⟩
      · next stored => simp [missing] at stored
  | case4 path id memo unknown offPath node found isPureNode cold after folded ih =>
      have answers := foldl_visit_answers (id :: path) node.signalSources
        (fun source member memo sound => by
          have feeds : graph.Feeds source.node id :=
            (Graph.feeds_iff found).mpr ⟨source, member, rfl⟩
          have visited := ih (true, memo) source sound fun isOpen onPath => by
            rcases List.mem_cons.mp onPath with same | older
            · exact same ▸ .single feeds
            · exact .head feeds (below isOpen older)
          exact ⟨visited.1, visited.2.1⟩) (true, memo) sound
      simp only [dite_eq_ite] at folded
      rw [folded] at answers
      obtain ⟨sourcesCold, held⟩ := answers
      have right : cold = true ↔ Cold graph isPure id := by
        rw [sourcesCold]
        constructor
        · intro given
          obtain ⟨_, all⟩ := given
          refine .intro found isPureNode fun source feeds => ?_
          obtain ⟨endpoint, member, same⟩ := (Graph.feeds_iff found).mp feeds
          exact same ▸ all endpoint member
        · intro isCold
          exact ⟨rfl, fun source member =>
            isCold.of_feeds ((Graph.feeds_iff found).mpr ⟨source, member, rfl⟩)⟩
      rw [visit, unknown]
      simp only [if_neg offPath]
      split
      · next missing => simp [found] at missing
      · next stored lookup =>
        have same : stored = node := Option.some.inj (lookup.symm.trans found)
        subst same
        simp only [isPureNode, if_true]
        rw [folded]
        exact ⟨right, held.set right, fun _ => mem_keys_set⟩
  | case5 path id memo unknown offPath node found impure =>
      have warm : ¬ Cold graph isPure id := fun cold => by
        obtain ⟨lookup, isPureNode, _⟩ := cold
        rw [found] at lookup
        cases lookup
        exact impure isPureNode
      have wrong : false = true ↔ Cold graph isPure id := by simp [warm]
      rw [visit, unknown]
      simp only [if_neg offPath]
      split
      · next missing => simp [found] at missing
      · next stored lookup =>
        have same : stored = node := Option.some.inj (lookup.symm.trans found)
        subst same
        simp only [impure]
        exact ⟨wrong, Remembers.set ⟨sound, fun _ member => member⟩ wrong, fun _ => mem_keys_set⟩

theorem query_answers (id : String) (sound : Sound graph isPure memo) :
    ((query graph isPure id memo).1 = true ↔ Cold graph isPure id) ∧
      Remembers graph isPure memo (query graph isPure id memo).2 ∧
      id ∈ (query graph isPure id memo).2.keys := by
  have noneOpen : ∀ isOpen ∈ [], Relation.TransGen graph.Feeds id isOpen := by simp
  obtain ⟨right, held, remembered⟩ := visit_answers sound noneOpen
  exact ⟨right, held, remembered List.not_mem_nil⟩

theorem foldl_query_remembers (ids : List String) (sound : Sound graph isPure memo) :
    let after := ids.foldl (fun memo id => (query graph isPure id memo).2) memo
    Remembers graph isPure memo after ∧ ∀ id ∈ ids, id ∈ after.keys := by
  induction ids generalizing memo with
  | nil => exact ⟨⟨sound, fun _ member => member⟩, by simp⟩
  | cons id rest ih =>
      rw [List.foldl_cons]
      obtain ⟨_, held, remembered⟩ := query_answers id sound
      obtain ⟨heldLater, rememberedLater⟩ := ih held.sound
      refine ⟨⟨heldLater.sound, fun key member => heldLater.grown key (held.grown key member)⟩, ?_⟩
      intro other member
      rcases List.mem_cons.mp member with same | later
      · exact same ▸ heldLater.grown id remembered
      · exact rememberedLater other later

/-- The survey of a graph answers by the definition, for any id. -/
theorem survey_getD_iff : (survey graph isPure).getD id false = true ↔ Cold graph isPure id := by
  have empty : Sound graph isPure ∅ := by
    intro id answer found
    cases found
  obtain ⟨held, complete⟩ := foldl_query_remembers graph.sortedIds empty
  change ((survey graph isPure).get? id).getD false = true ↔ _
  cases found : (survey graph isPure).get? id with
  | some answer => exact held.sound id answer found
  | none =>
      constructor
      · intro impossible
        cases impossible
      · intro cold
        obtain ⟨node, stored⟩ := cold.known
        have member := complete id (Graph.mem_sortedIds_iff.mpr (Graph.mem_ids_of_node? stored))
        exact absurd member (Table.get?_eq_none_iff.mp found)

/-! ## Sequences of queries

An answer is found while a path is open, and is remembered for later queries.  It is right all the same:
a node is cold exactly when everything that it depends on through signals is stored and pure and lies on
no feedback loop, and this says nothing about the path or about earlier queries.
-/

open Relation (ReflTransGen TransGen)

/-- Everything upstream of a node, the node included, is stored, of a pure type and on no feedback
loop. -/
def PureUpstream (graph : Graph) (isPure : Node → Bool) (id : String) : Prop :=
  ∀ source, ReflTransGen graph.Feeds source id →
    (∃ node, graph.node? source = some node ∧ isPure node = true) ∧ ¬ TransGen graph.Feeds source source

theorem Cold.pureUpstream (cold : Cold graph isPure id) : PureUpstream graph isPure id := by
  intro source reaches
  have sourceCold := cold.of_reaches reaches
  refine ⟨?_, sourceCold.acyclic⟩
  obtain ⟨found, isPureNode, _⟩ := sourceCold
  exact ⟨_, found, isPureNode⟩

/-- Without loops the steps upstream of a node come to an end, since only stored nodes are met. -/
theorem PureUpstream.wellFounded (upstream : PureUpstream graph isPure id) :
    WellFounded fun before after : { source // ReflTransGen graph.Feeds source id } =>
      TransGen graph.Feeds before.1 after.1 := by
  have stored : { source | ReflTransGen graph.Feeds source id } ⊆ { source | source ∈ graph.ids } := by
    intro source reaches
    obtain ⟨⟨node, found, _⟩, _⟩ := upstream source reaches
    exact Graph.mem_ids_of_node? found
  have finite : Finite { source // ReflTransGen graph.Feeds source id } :=
    ((List.finite_toSet graph.ids).subset stored).to_subtype
  have transitive : IsTrans { source // ReflTransGen graph.Feeds source id }
      fun before after => TransGen graph.Feeds before.1 after.1 :=
    ⟨fun _ _ _ => TransGen.trans⟩
  have irreflexive : Std.Irrefl fun before after : { source // ReflTransGen graph.Feeds source id } =>
      TransGen graph.Feeds before.1 after.1 :=
    ⟨fun source => (upstream source.1 source.2).2⟩
  exact Finite.wellFounded_of_trans_of_irrefl _

theorem PureUpstream.cold (upstream : PureUpstream graph isPure id) : Cold graph isPure id := by
  suffices all : ∀ member : { source // ReflTransGen graph.Feeds source id }, Cold graph isPure member.1 from
    all ⟨id, .refl⟩
  intro member
  induction member using upstream.wellFounded.induction with
  | h member ih =>
      obtain ⟨⟨node, found, isPureNode⟩, _⟩ := upstream member.1 member.2
      exact .intro found isPureNode fun source feeds => ih ⟨source, .head feeds member.2⟩ (.single feeds)

theorem cold_iff_pureUpstream : Cold graph isPure id ↔ PureUpstream graph isPure id :=
  ⟨Cold.pureUpstream, PureUpstream.cold⟩

/-- Whatever was asked before, the next query of a program's coldness test answers by the definition. -/
theorem queries_decide_pureUpstream (program : Program) (asked : List String) (id : String) :
    (query program.graph program.isPure id (asked.foldl
        (fun memo other => (query program.graph program.isPure other memo).2) ∅)).1 = true ↔
      PureUpstream program.graph program.isPure id := by
  have fresh : Sound program.graph program.isPure ∅ := fun _ _ found => nomatch found
  obtain ⟨remembered, _⟩ := foldl_query_remembers asked fresh
  obtain ⟨answer, _⟩ := query_answers id remembered.sound
  exact answer.trans cold_iff_pureUpstream

end Patchbay.Coldness
