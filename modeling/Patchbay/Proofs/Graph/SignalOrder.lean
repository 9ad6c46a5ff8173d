import Mathlib.Data.List.Chain
import Patchbay.Proofs.Graph.Signals
import Patchbay.Proofs.Outcome

namespace Patchbay.Graph

open Relation (ReflTransGen)

/-! The order in which signal nodes are listed.

A walk lists a node after its sources, and cuts a loop at the first node whose sources are being
listed already.  `Lineage` keeps, for every listed node, the line of nodes that were open when it was
listed: each feeds the next, the last is a root, and a source that does not precede the node is on
the line.  Everything else about the order follows from lineages: the listed nodes are those that
the roots depend on, and a source that is listed late lies on a loop with its sink.
-/

/-- One step of a walk: an admitted source of a node. -/
def Upstream (graph : Graph) (admits : Node → Bool) (source sink : String) : Prop :=
  graph.Feeds source sink ∧ ∃ node, graph.node? source = some node ∧ admits node = true

/-- Whether one node is listed before another. -/
def Precedes (order : List String) (first second : String) : Prop :=
  [first, second].Sublist order

variable {graph : Graph} {admits : Node → Bool} {roots : String → Prop} {path : List String}
  {order result : List String} {id first second : String}

theorem Precedes.mono (before : Precedes order first second) (grown : order.Sublist result) :
    Precedes result first second :=
  List.Sublist.trans before grown

theorem precedes_append_singleton (member : first ∈ order) :
    Precedes (order ++ [second]) first second :=
  (List.singleton_sublist.mpr member).append (List.Sublist.refl [second])

theorem Precedes.mem_first (before : Precedes order first second) : first ∈ order :=
  before.subset (by simp)

theorem Precedes.mem_second (before : Precedes order first second) : second ∈ order :=
  before.subset (by simp)

theorem precedes_cons_iff {head : String} :
    Precedes (head :: order) first second ↔
      Precedes order first second ∨ first = head ∧ second ∈ order := by
  unfold Precedes
  rw [List.sublist_cons_iff]
  refine or_congr_right ?_
  constructor
  · intro given
    obtain ⟨rest, equal, sublist⟩ := given
    cases equal
    exact ⟨rfl, List.singleton_sublist.mp sublist⟩
  · intro given
    obtain ⟨rfl, member⟩ := given
    exact ⟨[second], rfl, List.singleton_sublist.mpr member⟩

theorem precedes_iff_idxOf (distinct : order.Nodup) :
    Precedes order first second ↔ second ∈ order ∧ order.idxOf first < order.idxOf second := by
  induction order with
  | nil => simp [Precedes]
  | cons head rest ih =>
      obtain ⟨absent, restDistinct⟩ := List.nodup_cons.mp distinct
      rw [precedes_cons_iff, ih restDistinct, List.idxOf_cons, List.idxOf_cons, List.mem_cons]
      by_cases isFirst : head = first
      · subst isFirst
        by_cases isSecond : head = second
        · subst isSecond
          simp [absent]
        · have later : second ≠ head := fun equal => isSecond equal.symm
          simp only [beq_self_eq_true, cond_true, later, false_or, true_and]
          have apart : (head == second) = false := beq_eq_false_iff_ne.mpr isSecond
          simp only [apart, cond_false, Nat.zero_lt_succ, and_true]
          exact ⟨fun either => either.elim And.left (fun member => member), .inr⟩
      · have apart : (head == first) = false := beq_eq_false_iff_ne.mpr isFirst
        have different : first ≠ head := fun equal => isFirst equal.symm
        by_cases isSecond : head = second
        · subst isSecond
          simp [absent, different]
        · have later : second ≠ head := fun equal => isSecond equal.symm
          have apartSecond : (head == second) = false := beq_eq_false_iff_ne.mpr isSecond
          simp [apart, apartSecond, different, later]

theorem Precedes.asymm (before : Precedes order first second) (distinct : order.Nodup) :
    ¬ Precedes order second first := by
  rw [precedes_iff_idxOf distinct] at before ⊢
  omega

theorem Precedes.trans {third : String} (before : Precedes order first second)
    (after : Precedes order second third) (distinct : order.Nodup) :
    Precedes order first third := by
  rw [precedes_iff_idxOf distinct] at before after ⊢
  exact ⟨after.1, before.2.trans after.2⟩

theorem precedes_filter_iff {keep : String → Bool} :
    Precedes (order.filter keep) first second ↔
      Precedes order first second ∧ keep first = true ∧ keep second = true := by
  constructor
  · intro before
    exact ⟨before.mono List.filter_sublist, (List.mem_filter.mp before.mem_first).2,
      (List.mem_filter.mp before.mem_second).2⟩
  · intro given
    obtain ⟨before, keptFirst, keptSecond⟩ := given
    have filtered := List.Sublist.filter keep before
    rw [List.filter_cons_of_pos keptFirst, List.filter_cons_of_pos keptSecond] at filtered
    exact filtered

/-- What precedes a listed node was listed earlier. -/
theorem Precedes.mem_done {done rest : List String} {item : String}
    (before : Precedes (done ++ item :: rest) first second)
    (distinct : (done ++ item :: rest).Nodup) (reached : second ∈ done ++ [item]) :
    first ∈ done := by
  rw [precedes_iff_idxOf distinct] at before
  have fresh : item ∉ done := fun member =>
    (List.nodup_append.mp distinct).2.2 item member item (by simp) rfl
  by_contra late
  rw [List.idxOf_append_of_notMem late] at before
  rcases List.mem_append.mp reached with earlier | last
  · rw [List.idxOf_append_of_mem earlier] at before
    have bound := List.idxOf_lt_length_of_mem earlier
    omega
  · rw [List.mem_singleton.mp last, List.idxOf_append_of_notMem fresh, List.idxOf_cons_self]
      at before
    omega

/-- The line of open nodes under which a node is listed, innermost first.  `path` holds the nodes
that were open before the walk began at one of its roots. -/
structure Lineage (graph : Graph) (admits : Node → Bool) (roots : String → Prop)
    (path order : List String) (id : String) (line : List String) : Prop where
  known : ∃ node, graph.node? id = some node
  chain : (id :: line).IsChain (graph.Upstream admits)
  listed : (id :: line).Sublist order
  rooted : ∃ root, roots root ∧ (id :: line).getLast? = some root
  sources : ∀ source, graph.Upstream admits source id →
    Precedes order source id ∨ source ∈ id :: (line ++ path)

/-- What a stretch of a walk adds to the order. -/
structure Listing (graph : Graph) (admits : Node → Bool) (roots : String → Prop)
    (path order result : List String) : Prop where
  grown : order.Sublist result
  distinct : order.Nodup → result.Nodup
  fresh : ∀ id ∈ result, id ∉ order → id ∉ path
  lineage : ∀ id ∈ result, id ∉ order → ∃ line, Lineage graph admits roots path result id line

theorem Lineage.mono {line : List String} (held : Lineage graph admits roots path order id line)
    (grown : order.Sublist result) : Lineage graph admits roots path result id line where
  known := held.known
  chain := held.chain
  listed := held.listed.trans grown
  rooted := held.rooted
  sources source upstream := (held.sources source upstream).imp_left fun before =>
    before.mono grown

namespace Listing

theorem refl (graph : Graph) (admits : Node → Bool) (roots : String → Prop)
    (path order : List String) : Listing graph admits roots path order order where
  grown := List.Sublist.refl order
  distinct := id
  fresh _ member absent := absurd member absent
  lineage _ member absent := absurd member absent

theorem trans {between : List String} (before : Listing graph admits roots path order between)
    (after : Listing graph admits roots path between result) :
    Listing graph admits roots path order result where
  grown := before.grown.trans after.grown
  distinct distinct := after.distinct (before.distinct distinct)
  fresh id member absent := by
    by_cases early : id ∈ between
    · exact before.fresh id early absent
    · exact after.fresh id member early
  lineage id member absent := by
    by_cases early : id ∈ between
    · obtain ⟨line, held⟩ := before.lineage id early absent
      exact ⟨line, held.mono after.grown⟩
    · exact after.lineage id member early

theorem weaken {wider : String → Prop} (held : Listing graph admits roots path order result)
    (included : ∀ root, roots root → wider root) :
    Listing graph admits wider path order result where
  grown := held.grown
  distinct := held.distinct
  fresh := held.fresh
  lineage id member absent := by
    obtain ⟨line, known, chain, listed, ⟨root, isRoot, last⟩, sources⟩ :=
      held.lineage id member absent
    exact ⟨line, known, chain, listed, ⟨root, included root isRoot, last⟩, sources⟩

/-- Closing a node after its sources: every line that ended at a source now ends at the node. -/
theorem close (listed : Listing graph admits (graph.Upstream admits · id) (id :: path) order result)
    (known : ∃ node, graph.node? id = some node) (unlisted : id ∉ order) (notOpen : id ∉ path)
    (visited : ∀ source, graph.Upstream admits source id → source ∈ id :: path ∨ source ∈ result) :
    Listing graph admits (· = id) path order (result ++ [id]) := by
  have absent : id ∉ result := fun member =>
    listed.fresh id member unlisted (List.mem_cons_self ..)
  refine ⟨listed.grown.trans (List.sublist_append_left ..), ?_, ?_, ?_⟩
  · intro distinct
    refine List.nodup_append.mpr ⟨listed.distinct distinct, by simp, ?_⟩
    intro earlier member other singleton equal
    rw [List.mem_singleton.mp singleton] at equal
    exact absent (equal ▸ member)
  · intro other member new
    rcases List.mem_append.mp member with earlier | last
    · exact fun isOpen => listed.fresh other earlier new (List.mem_cons_of_mem _ isOpen)
    · rw [List.mem_singleton.mp last]
      exact notOpen
  · intro other member new
    rcases List.mem_append.mp member with earlier | last
    · obtain ⟨line, otherKnown, chain, sublist, ⟨root, upstream, isLast⟩, sources⟩ :=
        listed.lineage other earlier new
      refine ⟨line ++ [id], otherKnown, ?_, ?_, ⟨id, rfl, ?_⟩, ?_⟩
      · rw [← List.cons_append]
        refine List.isChain_append.mpr ⟨chain, List.isChain_singleton id, ?_⟩
        intro final isFinal head isHead
        simp only [isLast, Option.mem_def, Option.some.injEq] at isFinal
        simp only [List.head?_cons, Option.mem_def, Option.some.injEq] at isHead
        subst isFinal isHead
        exact upstream
      · exact sublist.append (List.Sublist.refl [id])
      · simp [List.getLast?_cons]
      · intro source fed
        rcases sources source fed with before | onLine
        · exact .inl (before.mono (List.sublist_append_left ..))
        · exact .inr (by simpa using onLine)
    · rw [List.mem_singleton.mp last]
      refine ⟨[], known, List.isChain_singleton id, ?_, ⟨id, rfl, rfl⟩, ?_⟩
      · exact List.sublist_append_right ..
      · intro source fed
        rcases visited source fed with isOpen | earlier
        · exact .inr (by simpa using isOpen)
        · exact .inl (precedes_append_singleton earlier)

end Listing

/-- How far the sources of an open node were walked: what they added, and that each admitted one is
open or listed. -/
structure Gathered (graph : Graph) (admits : Node → Bool) (path order : List String) (id : String)
    (done : List Endpoint) (state : List String) : Prop where
  listing : Listing graph admits (graph.Upstream admits · id) (id :: path) order state
  complete : ∀ source ∈ done, graph.Upstream admits source.node id →
    source.node ∈ id :: path ∨ source.node ∈ state

namespace Gathered

variable {done : List Endpoint} {source : Endpoint} {state after : List String}

theorem skip (held : Gathered graph admits path order id done state)
    (known : graph.Upstream admits source.node id →
      source.node ∈ id :: path ∨ source.node ∈ state) :
    Gathered graph admits path order id (done ++ [source]) state := by
  refine ⟨held.listing, ?_⟩
  intro other member upstream
  rcases List.mem_append.mp member with earlier | last
  · exact held.complete other earlier upstream
  · rw [List.mem_singleton.mp last] at upstream ⊢
    exact known upstream

theorem visit (held : Gathered graph admits path order id done state)
    (upstream : graph.Upstream admits source.node id)
    (added : Listing graph admits (· = source.node) (id :: path) state after)
    (reached : source.node ∈ id :: path ∨ source.node ∈ after) :
    Gathered graph admits path order id (done ++ [source]) after := by
  have widened : Listing graph admits (graph.Upstream admits · id) (id :: path) state after :=
    added.weaken fun root same => same ▸ upstream
  refine ⟨held.listing.trans widened, ?_⟩
  intro other member otherUpstream
  rcases List.mem_append.mp member with earlier | last
  · exact (held.complete other earlier otherUpstream).imp_right fun listed =>
      added.grown.subset listed
  · rw [List.mem_singleton.mp last]
    exact reached

end Gathered

/-- A visit lists what was not listed, under the nodes that are open, and the node itself unless it
is open. -/
theorem visitSignal_listing (visited : graph.visitSignal admits path id order = .ok result) :
    Listing graph admits (· = id) path order result ∧ (id ∈ path ∨ id ∈ result) := by
  induction path, id, order using visitSignal.induct graph generalizing result with
  | case1 path id order known =>
      rw [visitSignal, if_pos known] at visited
      cases visited
      exact ⟨.refl .., known⟩
  | case2 path id order unknown missing =>
      rw [visitSignal, if_neg unknown] at visited
      split at visited
      · cases visited
      · next stored lookup =>
        rw [missing] at lookup
        cases lookup
  | case3 path id order unknown node found ih =>
      rw [visitSignal, if_neg unknown] at visited
      split at visited
      · cases visited
      · next stored lookup =>
        have same : stored = node := Option.some.inj (lookup.symm.trans found)
        subst same
        rw [Outcome.bind_eq_ok_iff] at visited
        obtain ⟨listed, folded, closed⟩ := visited
        rw [Outcome.pure_eq_ok_iff] at closed
        have gathered := Outcome.foldlM_invariant (Gathered graph admits path order id)
          ⟨.refl .., by simp⟩ ?_ folded
        · obtain ⟨notOpen, unlisted⟩ := not_or.mp unknown
          have absent : id ∉ listed := fun member =>
            gathered.listing.fresh id member unlisted (List.mem_cons_self ..)
          rw [if_neg absent] at closed
          subst closed
          refine ⟨gathered.listing.close ⟨stored, found⟩ unlisted notOpen ?_, .inr (by simp)⟩
          intro source upstream
          obtain ⟨endpoint, member, sameSource⟩ := (feeds_iff found).mp upstream.1
          subst sameSource
          exact gathered.complete endpoint member upstream
        · intro done source state after member held stepped
          by_cases skipped : source.node ∈ id :: path ∨ source.node ∈ state
          · rw [if_pos skipped] at stepped
            cases stepped
            exact held.skip fun _ => skipped
          · rw [if_neg skipped, Outcome.bind_eq_ok_iff] at stepped
            obtain ⟨sourceNode, sourceFound, admission⟩ := stepped
            rw [node_eq_ok_iff] at sourceFound
            by_cases admitted : admits sourceNode = true
            · rw [if_pos admitted] at admission
              obtain ⟨added, reached⟩ := ih state source admission
              exact held.visit ⟨(feeds_iff found).mpr ⟨source, member, rfl⟩, sourceNode, sourceFound,
                admitted⟩ added reached
            · rw [if_neg admitted] at admission
              cases admission
              refine held.skip fun upstream => ?_
              obtain ⟨_, otherNode, otherFound, otherAdmitted⟩ := upstream
              rw [sourceFound] at otherFound
              cases otherFound
              exact absurd otherAdmitted admitted

/-! ## Whole walks -/

theorem mem_pulling_iff :
    id ∈ graph.pulling ↔ ∃ node, graph.node? id = some node ∧ node.isPullingSignal = true := by
  simp only [pulling, sortedNodes, List.mem_map, List.mem_filter, List.mem_filterMap,
    mem_sortedIds_iff, Option.map_eq_some_iff]
  constructor
  · intro given
    obtain ⟨_, ⟨⟨key, _, node, found, rfl⟩, pulls⟩, rfl⟩ := given
    exact ⟨node, found, pulls⟩
  · intro given
    obtain ⟨node, found, pulls⟩ := given
    exact ⟨(id, node), ⟨⟨id, mem_ids_of_node? found, node, found, rfl⟩, pulls⟩, rfl⟩

/-- An order of evaluation: each listed node has a line of listed nodes to a root. -/
structure Ordered (graph : Graph) (admits : Node → Bool) (roots order : List String) : Prop where
  distinct : order.Nodup
  covers : ∀ root ∈ roots, root ∈ order
  lineage : ∀ id ∈ order, ∃ line, Lineage graph admits (· ∈ roots) [] order id line

theorem ordered_of_signalNodesWhere {roots : List String}
    (listed : graph.signalNodesWhere roots admits = .ok order) :
    graph.Ordered admits roots order := by
  have walked := Outcome.foldlM_invariant
    (fun done state => Listing graph admits (· ∈ roots) [] [] state ∧ ∀ root ∈ done, root ∈ state)
    ⟨.refl .., by simp⟩ ?_ listed
  · obtain ⟨listing, complete⟩ := walked
    exact ⟨listing.distinct List.nodup_nil, complete,
      fun id member => listing.lineage id member List.not_mem_nil⟩
  · intro done root state after isRoot held visited
    obtain ⟨listing, complete⟩ := held
    obtain ⟨added, reached⟩ := visitSignal_listing visited
    refine ⟨listing.trans (added.weaken fun other same => same ▸ isRoot), ?_⟩
    intro other member
    rcases List.mem_append.mp member with earlier | last
    · exact added.grown.subset (complete other earlier)
    · rw [List.mem_singleton.mp last]
      exact reached.resolve_left List.not_mem_nil

/-- A visit succeeds when the node is stored and so is every signal source that is met on the way,
admitted or not. -/
theorem visitSignal_succeeds (stored : ∃ node, graph.node? id = some node)
    (sourced : ∀ reached, ReflTransGen (graph.Upstream admits) reached id → graph.Sourced reached) :
    Outcome.Yields (graph.visitSignal admits path id order) fun _ => True := by
  induction path, id, order using visitSignal.induct graph with
  | case1 path id order listed =>
      rw [visitSignal, if_pos listed]
      exact Outcome.yields_pure trivial
  | case2 path id order unlisted missing =>
      obtain ⟨node, found⟩ := stored
      rw [missing] at found
      cases found
  | case3 path id order unlisted node found ih =>
      rw [visitSignal, if_neg unlisted]
      split
      · next missing =>
        rw [missing] at found
        cases found
      · next held lookup =>
        refine (Outcome.yields_foldlM (fun _ _ => True) trivial ?_).bind fun listed _ =>
          Outcome.yields_pure trivial
        intro done source rest state split _
        have member : source ∈ held.signalSources := by simp [split]
        have feeds : graph.Feeds source.node id := (feeds_iff lookup).mpr ⟨source, member, rfl⟩
        obtain ⟨sourceNode, sourceFound⟩ := sourced id .refl source.node feeds
        by_cases skipped : source.node ∈ id :: path ∨ source.node ∈ state
        · rw [if_pos skipped]
          exact Outcome.yields_pure trivial
        · rw [if_neg skipped, node_eq_ok_iff.mpr sourceFound]
          by_cases admitted : admits sourceNode = true
          · have upstream : graph.Upstream admits source.node id :=
              ⟨feeds, sourceNode, sourceFound, admitted⟩
            have visited := ih state source ⟨sourceNode, sourceFound⟩ fun reached reaches =>
              sourced reached (reaches.tail upstream)
            simpa [bind, Except.bind, admitted] using visited
          · simpa [bind, Except.bind, admitted] using Outcome.yields_pure trivial

/-- A walk from stored nodes succeeds when every signal source that it meets is stored. -/
theorem signalNodesWhere_yields {roots : List String}
    (stored : ∀ root ∈ roots, ∃ node, graph.node? root = some node)
    (sourced : ∀ root ∈ roots, ∀ reached, ReflTransGen (graph.Upstream admits) reached root →
      graph.Sourced reached) :
    Outcome.Yields (graph.signalNodesWhere roots admits) (graph.Ordered admits roots) := by
  have walked : Outcome.Yields (graph.signalNodesWhere roots admits) fun _ => True :=
    Outcome.yields_foldlM (fun _ _ => True) trivial fun done root rest _ split _ =>
      visitSignal_succeeds (stored root (by simp [split])) (sourced root (by simp [split]))
  obtain ⟨order, listed, _⟩ := walked
  exact ⟨order, listed, ordered_of_signalNodesWhere listed⟩

/-- In a well-formed graph a walk from stored nodes never gets stuck. -/
theorem signalNodesWhere_succeeds (wellFormed : graph.WellFormed) {roots : List String}
    (known : ∀ root ∈ roots, ∃ node, graph.node? root = some node) :
    Outcome.Yields (graph.signalNodesWhere roots admits) (graph.Ordered admits roots) :=
  signalNodesWhere_yields known fun _ _ reached _ => wellFormed.sourced reached

namespace Ordered

variable {roots : List String} {source : String}

theorem known (ordered : graph.Ordered admits roots order) (member : id ∈ order) :
    ∃ node, graph.node? id = some node := by
  obtain ⟨line, held⟩ := ordered.lineage id member
  exact held.known

/-- A source that does not precede its sink stands on the line of the sink. -/
theorem mem_of_upstream (ordered : graph.Ordered admits roots order) (member : id ∈ order)
    (upstream : graph.Upstream admits source id) : source ∈ order := by
  obtain ⟨line, held⟩ := ordered.lineage id member
  rcases held.sources source upstream with before | onLine
  · exact before.mem_first
  · exact held.listed.subset (by simpa using onLine)

theorem mem_of_reaches (ordered : graph.Ordered admits roots order) (member : id ∈ order)
    (reaches : ReflTransGen (graph.Upstream admits) source id) : source ∈ order := by
  induction reaches with
  | refl => exact member
  | tail _ upstream ih => exact ih (ordered.mem_of_upstream member upstream)

end Ordered

theorem reaches_of_chain {line : List String} {relation : String → String → Prop}
    (chain : (id :: line).IsChain relation) {later : String} (member : later ∈ id :: line) :
    ReflTransGen relation id later := by
  induction line generalizing id with
  | nil =>
      rw [List.mem_singleton.mp member]
  | cons next rest ih =>
      rw [List.isChain_cons_cons] at chain
      rcases List.mem_cons.mp member with rfl | onRest
      · exact .refl
      · exact .head chain.1 (ih chain.2 onRest)

namespace Ordered

variable {roots : List String} {source : String}

theorem mem_iff (ordered : graph.Ordered admits roots order) :
    id ∈ order ↔ ∃ root ∈ roots, ReflTransGen (graph.Upstream admits) id root := by
  constructor
  · intro member
    obtain ⟨line, held⟩ := ordered.lineage id member
    obtain ⟨root, isRoot, last⟩ := held.rooted
    exact ⟨root, isRoot, reaches_of_chain held.chain (List.mem_of_getLast? last)⟩
  · intro given
    obtain ⟨root, isRoot, reaches⟩ := given
    exact ordered.mem_of_reaches (ordered.covers root isRoot) reaches

/-- A source that does not precede its sink depends on it. -/
theorem precedes_or_reaches (ordered : graph.Ordered admits roots order) (member : id ∈ order)
    (upstream : graph.Upstream admits source id) :
    Precedes order source id ∨ ReflTransGen (graph.Upstream admits) id source := by
  obtain ⟨line, held⟩ := ordered.lineage id member
  refine (held.sources source upstream).imp_right fun onLine => ?_
  exact reaches_of_chain held.chain (by simpa using onLine)

end Ordered

end Patchbay.Graph
