import Patchbay.NodeType.Catalog
import Patchbay.Proofs.Graph.Reachable
import Patchbay.Proofs.Graph.SignalExtent

namespace Patchbay

open Relation (ReflTransGen TransGen)

/-! The order of the full traversal.

The walk against signals comes first, so a node that an audio sink depends on stands before everything
that it feeds.  Nodes that only messages come to are listed as the messages reach them, whatever signals
run between them.
-/

namespace Text

/-- What stands in front without repetition stays as it is. -/
theorem exists_unique_append {ids : List String} (distinct : ids.Nodup) (rest : List String) :
    ∃ later, unique (ids ++ rest) = ids ++ later := by
  have own : ∀ front before : List String, (before ++ front).Nodup → front.foldl
      (fun kept id => if kept.contains id then kept else kept ++ [id]) before = before ++ front := by
    intro front
    induction front with
    | nil => simp
    | cons first front ih =>
        intro before apart
        have fresh : first ∉ before := fun member =>
          (List.nodup_append.mp apart).2.2 first member first (List.mem_cons_self ..) rfl
        rw [List.append_cons] at apart
        rw [List.foldl_cons, if_neg (by simpa using fresh), ih _ apart, ← List.append_cons]
  have grows : ∀ rest kept : List String, ∃ later, rest.foldl
      (fun kept id => if kept.contains id then kept else kept ++ [id]) kept = kept ++ later := by
    intro rest
    induction rest with
    | nil => exact fun kept => ⟨[], (List.append_nil _).symm⟩
    | cons first rest ih =>
        intro kept
        rw [List.foldl_cons]
        split
        · exact ih kept
        · obtain ⟨later, extended⟩ := ih (kept ++ [first])
          exact ⟨first :: later, by rw [extended, ← List.append_cons]⟩
  unfold unique
  rw [List.foldl_append, own ids [] distinct, List.nil_append]
  exact grows rest ids

end Text

namespace Graph

variable {graph : Graph} {full : List String} {source sink : String}

/-- A node that an audio sink depends on stands before every node that it feeds, wherever that is listed,
unless the two lie on a feedback loop. -/
theorem precedes_of_heard (wellFormed : graph.WellFormed) (walked : graph.fullTraversal = .ok full)
    (feeds : graph.Feeds source sink) (listed : sink ∈ full)
    (heard : ∃ root ∈ graph.pulling, ReflTransGen graph.Feeds source root) :
    Precedes full source sink ∨ graph.OnLoop source sink := by
  obtain ⟨signal, signalWalked, walked⟩ := Outcome.bind_eq_ok_iff.mp walked
  obtain ⟨message, _, finished⟩ := Outcome.bind_eq_ok_iff.mp walked
  cases finished
  have ordered := ordered_of_signalNodesWhere signalWalked
  have isListed : source ∈ signal := by
    rw [ordered.mem_iff, wellFormed.upstream_all]
    exact heard
  obtain ⟨later, split⟩ := Text.exists_unique_append ordered.distinct message
  rw [split] at listed ⊢
  rcases List.mem_append.mp listed with isHeard | isTold
  · refine (ordered.precedes_or_onLoop isHeard ?_).imp_left fun before =>
      before.mono (List.sublist_append_left ..)
    rw [wellFormed.upstream_all]
    exact feeds
  · exact .inl ((List.singleton_sublist.mpr isListed).append (List.singleton_sublist.mpr isTold))

/-- In an accepted graph without feedback, a signal connection of the full traversal leads forward as soon
as an audio sink depends on its source. -/
theorem fullTraversal_orders_heard {table : Option Catalog} {reporter : Reporter}
    (accepted : (graph.check table reporter).2 = .ok ())
    (acyclic : ∀ id, ¬ TransGen graph.Feeds id id) :
    ∃ full, graph.fullTraversal = .ok full ∧
      ∀ source sink, graph.Feeds source sink → sink ∈ full →
        (∃ root ∈ graph.pulling, ReflTransGen graph.Feeds source root) → Precedes full source sink := by
  have wellFormed := wellFormed_of_check accepted
  obtain ⟨full, walked, _⟩ := fullTraversal_yields wellFormed
  refine ⟨full, walked, fun source sink feeds listed heard => ?_⟩
  refine (precedes_of_heard wellFormed walked feeds listed heard).resolve_right fun loop => ?_
  exact acyclic source (loop.1.trans loop.2)

/-! A button `p` bangs an oscillator `b` and then a constant `a`, which feeds the oscillator.  No audio sink
listens to either. -/

def toldNodes : List (Option Node) := [
  some { id := "p", type := "loadbang", outlets := [⟨"0", .message⟩], isPushingMessages := true },
  some { id := "a", type := "sig~", inlets := [⟨"0", .message⟩], outlets := [⟨"0", .signal⟩] },
  some { id := "b", type := "osc~", inlets := [⟨"0", .signal⟩, ⟨"1", .message⟩],
         outlets := [⟨"0", .signal⟩] }]

def toldConnections : List Connection := [
  ⟨⟨"p", "0"⟩, ⟨"b", "1"⟩⟩, ⟨⟨"p", "0"⟩, ⟨"a", "0"⟩⟩, ⟨⟨"a", "0"⟩, ⟨"b", "0"⟩⟩]

theorem told_built : ∃ graph, build toldNodes toldConnections = .ok graph ∧
    (graph.check (some .standard) .discarding).2 = .ok () ∧
    graph.fullTraversal = .ok ["p", "b", "a"] ∧ graph.ids = ["p", "a", "b"] ∧
    (graph.node? "p").map Node.signalSources = some [] ∧
    (graph.node? "a").map Node.signalSources = some [] ∧
    (graph.node? "b").map Node.signalSources = some [⟨"a", "0"⟩] := by
  refine ⟨_, rfl, ?_⟩
  cbv

/-- The full traversal lists the oscillator before the constant that feeds it, although no feedback loop
is there: messages reach the oscillator first. -/
theorem fullTraversal_reverses_told : ∃ graph, build toldNodes toldConnections = .ok graph ∧
    (graph.check (some .standard) .discarding).2 = .ok () ∧ (∀ id, ¬ TransGen graph.Feeds id id) ∧
    graph.fullTraversal = .ok ["p", "b", "a"] ∧ graph.Feeds "a" "b" ∧
    ¬ Precedes ["p", "b", "a"] "a" "b" := by
  obtain ⟨graph, built, accepted, walked, ids, sourcesOfP, sourcesOfA, sourcesOfB⟩ := told_built
  have only : ∀ source sink, graph.Feeds source sink → source = "a" ∧ sink = "b" := by
    rintro source sink ⟨node, found, endpoint, isSource, rfl⟩
    have member := mem_ids_of_node? found
    rw [ids] at member
    simp only [List.mem_cons, List.not_mem_nil, or_false] at member
    rcases member with rfl | rfl | rfl
    · rw [found] at sourcesOfP
      simp [Option.some.inj sourcesOfP] at isSource
    · rw [found] at sourcesOfA
      simp [Option.some.inj sourcesOfA] at isSource
    · rw [found] at sourcesOfB
      rw [Option.some.inj sourcesOfB, List.mem_singleton] at isSource
      exact ⟨congrArg Endpoint.node isSource, rfl⟩
  refine ⟨graph, built, accepted, fun id loop => ?_, walked, ?_, ?_⟩
  · obtain ⟨first, feeds, _⟩ := TransGen.head'_iff.mp loop
    obtain ⟨last, _, feedsBack⟩ := TransGen.tail'_iff.mp loop
    have isA := (only _ _ feeds).1
    have isB := (only _ _ feedsBack).2
    exact absurd (isA.symm.trans isB) (by decide)
  · obtain ⟨node, found, sources⟩ := Option.map_eq_some_iff.mp sourcesOfB
    exact ⟨node, found, ⟨"a", "0"⟩, sources ▸ List.mem_singleton_self _, rfl⟩
  · rw [precedes_iff_idxOf (by decide)]
    decide

end Graph

end Patchbay
