import Patchbay.Proofs.Alike
import Patchbay.Proofs.Graph.Edit
import Patchbay.Proofs.Graph.Traversal
import Patchbay.Proofs.Text.NaturalOrder

namespace Patchbay.Graph

/-! What a walk over a graph depends on.

A walk looks nodes up and follows their connections, so two graphs in which the nodes that it can come to
have the same neighbours are walked in the same way.
-/

variable {graph other : Graph} {admits admitsToo : Node → Bool} {within : String → Prop}
  {path order pending : List String} {id : String} {node : Node} {related : Node → Node → Prop}

/-- Two graphs hold related nodes under an id, or none. -/
def AlikeAt (related : Node → Node → Prop) (graph other : Graph) (id : String) : Prop :=
  Option.Rel related (graph.node? id) (other.node? id)

namespace AlikeAt

theorem of_some (alike : AlikeAt related graph other id) (found : graph.node? id = some node) :
    ∃ twin, other.node? id = some twin ∧ related node twin := by
  rw [AlikeAt, found] at alike
  generalize foundToo : other.node? id = slot at alike
  cases alike with
  | some held => exact ⟨_, rfl, held⟩

theorem of_none (alike : AlikeAt related graph other id) (missing : graph.node? id = none) :
    other.node? id = none := by
  rw [AlikeAt, missing] at alike
  generalize other.node? id = slot at alike
  cases alike
  rfl

theorem map {wider : Node → Node → Prop} {change changeToo : Node → Node}
    (alike : AlikeAt related graph other id)
    (kept : ∀ node twin, related node twin → wider (change node) (changeToo twin)) :
    Option.Rel wider ((graph.node? id).map change) ((other.node? id).map changeToo) := by
  unfold AlikeAt at alike
  generalize graph.node? id = slot at *
  generalize other.node? id = slotToo at *
  cases alike with
  | none => exact .none
  | some held => exact .some (kept _ _ held)

theorem mono {wider : Node → Node → Prop} (alike : AlikeAt related graph other id)
    (weaker : ∀ node twin, related node twin → wider node twin) : AlikeAt wider graph other id := by
  have mapped := alike.map weaker
  rwa [Option.map_id', Option.map_id'] at mapped

theorem lookup (alike : AlikeAt related graph other id) :
    Outcome.Alike related (graph.node id) (other.node id) := by
  unfold AlikeAt at alike
  unfold Graph.node
  generalize graph.node? id = slot at *
  generalize other.node? id = slotToo at *
  cases alike with
  | none => exact .fault _
  | some held => exact .result held

end AlikeAt

/-! ## Against signals -/

/-- Both nodes have the same nodes upstream, all of them within a set, and a walk admits both or none. -/
structure SameUpstream (admits admitsToo : Node → Bool) (within : String → Prop) (node twin : Node) :
    Prop where
  sources : node.signalSources.map Endpoint.node = twin.signalSources.map Endpoint.node
  admitted : admits node = admitsToo twin
  inside : ∀ source ∈ node.signalSources, within source.node

theorem visitSignal_eq : graph.visitSignal admits path id order =
    if id ∈ path ∨ id ∈ order then .ok order
    else do
      let node ← graph.node id
      let listed ← (node.signalSources.map Endpoint.node).foldlM (fun order source =>
        if source ∈ id :: path ∨ source ∈ order then pure order
        else do
          let sourceNode ← graph.node source
          if admits sourceNode then graph.visitSignal admits (id :: path) source order
          else pure order) order
      return if id ∈ listed then listed else listed ++ [id] := by
  rw [visitSignal]
  unfold Graph.node
  simp only [List.foldlM_map]
  split
  · rfl
  · split
    · next missing => rw [missing]; rfl
    · next found => rw [found]; rfl

theorem visitSignal_congr
    (same : ∀ id, within id → AlikeAt (SameUpstream admits admitsToo within) graph other id)
    (inside : within id) :
    graph.visitSignal admits path id order = other.visitSignal admitsToo path id order := by
  induction path, id, order using visitSignal.induct graph with
  | case1 path id order listed =>
      rw [visitSignal_eq, visitSignal_eq, if_pos listed, if_pos listed]
  | case2 path id order unlisted missing =>
      have missingToo := (same id inside).of_none missing
      rw [visitSignal_eq, visitSignal_eq, if_neg unlisted, if_neg unlisted]
      simp only [Graph.node, missing, missingToo]
      rfl
  | case3 path id order unlisted node found ih =>
      obtain ⟨twin, foundToo, alike⟩ := (same id inside).of_some found
      rw [visitSignal_eq, visitSignal_eq, if_neg unlisted, if_neg unlisted,
        node_eq_ok_iff.mpr found, node_eq_ok_iff.mpr foundToo]
      refine Outcome.Alike.eq (.bind (.result alike) fun node twin alike => ?_)
      rw [← alike.sources]
      refine .bind (.foldlM_same rfl ?_) fun _ _ equal => .of_eq (by rw [equal])
      rintro state _ source isSource rfl
      obtain ⟨endpoint, isEndpoint, rfl⟩ := List.mem_map.mp isSource
      have sourceInside := alike.inside endpoint isEndpoint
      split
      · exact .of_eq rfl
      · refine (same _ sourceInside).lookup.bind fun sourceNode sourceTwin sourceAlike => ?_
        rw [sourceAlike.admitted, ih state endpoint sourceInside]
        exact .of_eq rfl

theorem signalNodesWhere_congr {roots : List String}
    (same : ∀ id, within id → AlikeAt (SameUpstream admits admitsToo within) graph other id)
    (inside : ∀ root ∈ roots, within root) :
    graph.signalNodesWhere roots admits = other.signalNodesWhere roots admitsToo := by
  refine Outcome.Alike.eq (.foldlM_same rfl ?_)
  rintro state _ root isRoot rfl
  exact .of_eq (visitSignal_congr same (inside root isRoot))

/-! ## Along messages -/

structure SameDownstream (within : String → Prop) (node twin : Node) : Prop where
  sinks : node.messageSinks.map Endpoint.node = twin.messageSinks.map Endpoint.node
  inside : ∀ sink ∈ node.messageSinks, within sink.node

theorem walkMessages_congr (same : ∀ id, within id → AlikeAt (SameDownstream within) graph other id)
    (inside : ∀ id ∈ pending, within id) :
    graph.walkMessages pending order = other.walkMessages pending order := by
  induction pending, order using walkMessages.induct graph with
  | case1 order => rw [walkMessages, walkMessages]
  | case2 order id rest listed ih =>
      rw [walkMessages, walkMessages, if_pos listed, if_pos listed]
      exact ih fun other later => inside other (List.mem_cons_of_mem _ later)
  | case3 order id rest unlisted missing =>
      have missingToo := (same id (inside id (List.mem_cons_self ..))).of_none missing
      rw [walkMessages, walkMessages, if_neg unlisted, if_neg unlisted]
      split
      · split
        · rfl
        · next found => rw [missingToo] at found; cases found
      · next found => rw [missing] at found; cases found
  | case4 order id rest unlisted node found ih =>
      obtain ⟨twin, foundToo, alike⟩ := (same id (inside id (List.mem_cons_self ..))).of_some found
      rw [walkMessages, walkMessages, if_neg unlisted, if_neg unlisted]
      split
      · next missing => rw [missing] at found; cases found
      · next stored lookup =>
        cases lookup.symm.trans found
        split
        · next missing => rw [missing] at foundToo; cases foundToo
        · next storedToo lookupToo =>
          cases lookupToo.symm.trans foundToo
          rw [← alike.sinks]
          refine ih fun other member => ?_
          rcases List.mem_append.mp member with isSink | later
          · obtain ⟨sink, fed, rfl⟩ := List.mem_map.mp isSink
            exact alike.inside sink fed
          · exact inside other (List.mem_cons_of_mem _ later)

/-! ## Roots -/

theorem ids_trim {keep : List String} :
    (graph.trim keep).ids = graph.ids.filter fun id => keep.contains id := by
  unfold trim ids
  rw [Table.keys_map]
  unfold Table.keys Table.filter
  rw [List.filter_map]
  rfl

end Patchbay.Graph
