import Mathlib
import Patchbay.Proofs.Graph.SignalOrder

namespace Patchbay.Graph

open Relation (ReflTransGen TransGen)

/-! How far a walk against signals goes.

A walk asks for every signal source of the nodes that it lists, admitted or not, unless the source is
listed or still open.  So it fails exactly when a root or one of these sources is not stored.  When it
succeeds it lists what the roots depend on through admitted nodes, each node once and after its admitted
sources, but for a source that closes a feedback loop.
-/

variable {graph : Graph} {admits : Node → Bool} {path order result roots : List String}
  {id source sink : String}

/-- Whether two nodes lie on a feedback loop together. -/
def OnLoop (graph : Graph) (first second : String) : Prop :=
  TransGen graph.Feeds first second ∧ TransGen graph.Feeds second first

/-- What a stretch of a walk has asked the graph for. -/
structure Asked (graph : Graph) (order result : List String) : Prop where
  stored : ∀ id ∈ result, ∃ node, graph.node? id = some node
  sourced : ∀ id ∈ result, id ∈ order ∨ graph.Sourced id

theorem Asked.trans {between : List String} (before : graph.Asked order between)
    (after : graph.Asked between result) : graph.Asked order result where
  stored := after.stored
  sourced id member := (after.sourced id member).elim (before.sourced id) .inr

theorem visitSignal_asked (visited : graph.visitSignal admits path id order = .ok result)
    (openStored : ∀ isOpen ∈ path, ∃ node, graph.node? isOpen = some node)
    (listedStored : ∀ listed ∈ order, ∃ node, graph.node? listed = some node) :
    graph.Asked order result := by
  induction path, id, order using visitSignal.induct graph generalizing result with
  | case1 path id order known =>
      rw [visitSignal, if_pos known] at visited
      cases visited
      exact ⟨listedStored, fun _ => .inl⟩
  | case2 path id order unknown missing =>
      rw [visitSignal, if_neg unknown] at visited
      split at visited
      · cases visited
      · next stored lookup => cases missing.symm.trans lookup
  | case3 path id order unknown node found ih =>
      rw [visitSignal, if_neg unknown] at visited
      split at visited
      · cases visited
      · next stored lookup =>
        cases found.symm.trans lookup
        obtain ⟨listed, folded, closed⟩ := Outcome.bind_eq_ok_iff.mp visited
        have openToo : ∀ isOpen ∈ id :: path, ∃ node, graph.node? isOpen = some node :=
          List.forall_mem_cons.mpr ⟨⟨node, found⟩, openStored⟩
        -- the sources that were worked off are stored: skipped ones are open or listed
        have walked := Outcome.foldlM_invariant
          (fun done state => graph.Asked order state ∧
            ∀ source ∈ done, ∃ sourceNode, graph.node? source.node = some sourceNode)
          ⟨⟨listedStored, fun _ => .inl⟩, fun _ member => absurd member List.not_mem_nil⟩ ?_ folded
        · obtain ⟨asked, sources⟩ := walked
          have sourced : graph.Sourced id := by
            intro source feeds
            obtain ⟨endpoint, member, rfl⟩ := (feeds_iff found).mp feeds
            exact sources endpoint member
          cases Outcome.pure_eq_ok_iff.mp closed
          split
          · exact asked
          · refine ⟨List.forall_mem_append.mpr ⟨asked.stored, ?_⟩,
              List.forall_mem_append.mpr ⟨asked.sourced, ?_⟩⟩
            · exact List.forall_mem_singleton.mpr ⟨node, found⟩
            · exact List.forall_mem_singleton.mpr (.inr sourced)
        · intro done source state after _ held stepped
          obtain ⟨asked, sources⟩ := held
          by_cases skipped : source.node ∈ id :: path ∨ source.node ∈ state
          · rw [if_pos skipped] at stepped
            cases stepped
            exact ⟨asked, List.forall_mem_append.mpr ⟨sources, List.forall_mem_singleton.mpr
              (skipped.elim (openToo _) (asked.stored _))⟩⟩
          · rw [if_neg skipped] at stepped
            obtain ⟨sourceNode, sourceFound, admission⟩ := Outcome.bind_eq_ok_iff.mp stepped
            have sourcesToo : ∀ other ∈ done ++ [source],
                ∃ otherNode, graph.node? other.node = some otherNode :=
              List.forall_mem_append.mpr ⟨sources, List.forall_mem_singleton.mpr
                ⟨sourceNode, node_eq_ok_iff.mp sourceFound⟩⟩
            split at admission
            · exact ⟨asked.trans (ih state source admission openToo asked.stored), sourcesToo⟩
            · cases admission
              exact ⟨asked, sourcesToo⟩

theorem signalNodesWhere_asked (listed : graph.signalNodesWhere roots admits = .ok order) :
    graph.Asked [] order :=
  Outcome.foldlM_invariant (fun _ state => graph.Asked [] state)
    ⟨fun _ member => absurd member List.not_mem_nil, fun _ => .inl⟩
    (fun _ _ _ _ _ asked visited => asked.trans (visitSignal_asked visited
      (fun _ member => absurd member List.not_mem_nil) asked.stored)) listed

/-- A walk fails exactly when a root, or some signal source of a node that it comes to, is not stored. -/
theorem signalNodesWhere_fails_iff :
    (∃ fault, graph.signalNodesWhere roots admits = .error fault) ↔
      (∃ root ∈ roots, graph.node? root = none) ∨
      ∃ root ∈ roots, ∃ reached, ReflTransGen (graph.Upstream admits) reached root ∧
        ∃ source, graph.Feeds source reached ∧ graph.node? source = none := by
  constructor
  · rintro ⟨fault, failed⟩
    by_contra complete
    obtain ⟨rootsStored, sourcesStored⟩ := not_or.mp complete
    have walked : Outcome.Yields (graph.signalNodesWhere roots admits) (graph.Ordered admits roots) :=
      signalNodesWhere_yields
        (fun root isRoot => Option.ne_none_iff_exists'.mp fun missing =>
          rootsStored ⟨root, isRoot, missing⟩)
        (fun root isRoot reached reaches source feeds => Option.ne_none_iff_exists'.mp fun missing =>
          sourcesStored ⟨root, isRoot, reached, reaches, source, feeds, missing⟩)
    obtain ⟨order, listed, _⟩ := walked
    cases failed.symm.trans listed
  · intro incomplete
    cases listed : graph.signalNodesWhere roots admits with
    | error fault => exact ⟨fault, rfl⟩
    | ok order =>
        exfalso
        have ordered := ordered_of_signalNodesWhere listed
        rcases incomplete with ⟨root, isRoot, missing⟩ | ⟨root, isRoot, reached, reaches, source, feeds, missing⟩
        · obtain ⟨node, found⟩ := ordered.known (ordered.covers root isRoot)
          cases missing.symm.trans found
        · have member : reached ∈ order := ordered.mem_iff.mpr ⟨root, isRoot, reaches⟩
          obtain ⟨node, found⟩ := ((signalNodesWhere_asked listed).sourced reached member).resolve_left
            List.not_mem_nil source feeds
          cases missing.symm.trans found

/-- A source that is not listed before its sink closes a feedback loop with it. -/
theorem Ordered.precedes_or_onLoop (ordered : graph.Ordered admits roots order) (member : sink ∈ order)
    (upstream : graph.Upstream admits source sink) :
    Precedes order source sink ∨ graph.OnLoop source sink := by
  refine (ordered.precedes_or_reaches member upstream).imp_right fun reaches => ?_
  have back : ReflTransGen graph.Feeds sink source := ReflTransGen.mono (fun _ _ => And.left) _ _ reaches
  rcases Relation.reflTransGen_iff_eq_or_transGen.mp back with rfl | loop
  · exact ⟨.single upstream.1, .single upstream.1⟩
  · exact ⟨.single upstream.1, loop⟩

/-- A walk against signals, from any roots over any graph, fails exactly when something that it has to
look at is not stored.  Otherwise it lists the roots and what they depend on through admitted nodes, each
once, and every admitted source before its sink unless the two lie on a feedback loop. -/
theorem signalNodesWhere_lists_upstream (graph : Graph) (roots : List String) (admits : Node → Bool) :
    ((∃ fault, graph.signalNodesWhere roots admits = .error fault) ↔
      (∃ root ∈ roots, graph.node? root = none) ∨
      ∃ root ∈ roots, ∃ reached, ReflTransGen (graph.Upstream admits) reached root ∧
        ∃ source, graph.Feeds source reached ∧ graph.node? source = none) ∧
    ∀ order, graph.signalNodesWhere roots admits = .ok order →
      order.Nodup ∧
      (∀ id, id ∈ order ↔ ∃ root ∈ roots, ReflTransGen (graph.Upstream admits) id root) ∧
      ∀ source sink, sink ∈ order → graph.Upstream admits source sink →
        source ∈ order ∧ (Precedes order source sink ∨ graph.OnLoop source sink) := by
  refine ⟨signalNodesWhere_fails_iff, fun order listed => ?_⟩
  have ordered := ordered_of_signalNodesWhere listed
  exact ⟨ordered.distinct, fun _ => ordered.mem_iff, fun source sink member upstream =>
    ⟨ordered.mem_of_upstream member upstream, ordered.precedes_or_onLoop member upstream⟩⟩

/-! An oscillator `a` and a gain `b` feed each other, `d` listens to `b`, and a switch `s` feeds `a`. -/

def feedbackGraph : Graph :=
  ⟨.ofList [
    ("a", some { id := "a", type := "osc", inlets := [⟨"0", .signal⟩, ⟨"1", .signal⟩],
                 sources := .ofList [("0", [⟨"b", "0"⟩]), ("1", [⟨"s", "0"⟩])] }),
    ("b", some { id := "b", type := "gain", inlets := [⟨"0", .signal⟩],
                 sources := .ofList [("0", [⟨"a", "0"⟩])] }),
    ("d", some { id := "d", type := "dac", inlets := [⟨"0", .signal⟩],
                 sources := .ofList [("0", [⟨"b", "0"⟩])] }),
    ("s", some { id := "s", type := "switch" })]⟩

/-- The walk from `d` that does not go through switches. -/
def walkPastSwitches (graph : Graph) : Outcome (List String) :=
  graph.signalNodesWhere ["d"] fun node => node.type ≠ "switch"

/-- The loop is cut behind `a`, the switch is not listed, and the walk fails once the switch is not even
stored. -/
theorem signalNodesWhere_cuts_feedback :
    walkPastSwitches feedbackGraph = .ok ["a", "b", "d"] ∧ Precedes ["a", "b", "d"] "b" "d" ∧
    feedbackGraph.OnLoop "b" "a" ∧
    (¬ ∃ root ∈ ["d"], ReflTransGen (feedbackGraph.Upstream fun node => node.type ≠ "switch") "s" root) ∧
    ∃ fault, walkPastSwitches ⟨feedbackGraph.slots.erase "s"⟩ = .error fault := by
  have walked : walkPastSwitches feedbackGraph = .ok ["a", "b", "d"] := by cbv
  obtain ⟨_, listed⟩ := signalNodesWhere_lists_upstream feedbackGraph ["d"] fun node => node.type ≠ "switch"
  obtain ⟨distinct, members, sources⟩ := listed _ walked
  have sourceOfA : feedbackGraph.Upstream (fun node => node.type ≠ "switch") "b" "a" :=
    ⟨⟨_, rfl, ⟨"b", "0"⟩, by decide, rfl⟩, _, rfl, by decide⟩
  have backward : ¬ Precedes ["a", "b", "d"] "b" "a" := by
    rw [precedes_iff_idxOf distinct]
    decide
  refine ⟨walked, List.sublist_cons_self "a" ["b", "d"],
    (sources "b" "a" (by simp) sourceOfA).2.resolve_left backward, ?_, ?_⟩
  · rw [← members]
    simp
  · have fails := (signalNodesWhere_lists_upstream ⟨feedbackGraph.slots.erase "s"⟩ ["d"]
      fun node => node.type ≠ "switch").1
    refine fails.mpr (.inr ⟨"d", by simp, "a", ?_, "s", ⟨_, rfl, ⟨"s", "0"⟩, by decide, rfl⟩, rfl⟩)
    have first : (⟨feedbackGraph.slots.erase "s"⟩ : Graph).Upstream
        (fun node => node.type ≠ "switch") "a" "b" :=
      ⟨⟨_, rfl, ⟨"a", "0"⟩, by decide, rfl⟩, _, rfl, by decide⟩
    have second : (⟨feedbackGraph.slots.erase "s"⟩ : Graph).Upstream
        (fun node => node.type ≠ "switch") "b" "d" :=
      ⟨⟨_, rfl, ⟨"b", "0"⟩, by decide, rfl⟩, _, rfl, by decide⟩
    exact .head first (.single second)

end Patchbay.Graph
