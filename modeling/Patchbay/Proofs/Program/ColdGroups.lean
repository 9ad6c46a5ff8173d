import Patchbay.Proofs.Graph.SignalOrder
import Patchbay.Proofs.Program.Coldness
import Patchbay.Proofs.Program.Merge

namespace Patchbay.Program

/-! Cold groups.

A flow is what one boundary node depends on; a cold group is made of flows that overlap.  Since a
cold node has cold sources only, a group holds exactly what its out nodes depend on, and no signal
leads into it from outside.
-/

variable {program : Program} {id source : String} {group : DspGroup} {groups : List DspGroup}

def Cold (program : Program) (id : String) : Prop :=
  Coldness.Cold program.graph program.isPure id

/-- A cold node that feeds a node which is not cold. -/
def Boundary (program : Program) (id : String) : Prop :=
  program.Cold id ∧ ∃ sink, program.graph.Feeds id sink ∧ ¬ program.Cold sink

def isCold (program : Program) (id : String) : Bool :=
  (Coldness.survey program.graph program.isPure).getD id false

def isBoundary (program : Program) (id : String) : Bool :=
  program.isCold id && match program.graph.node? id with
    | some node => node.signalSinks.any fun sink => !program.isCold sink.node
    | none => false

def coldClosure (program : Program) (outNodes : List String) : Outcome (List String) :=
  program.graph.signalNodesWhere outNodes fun node => program.isCold node.id

theorem coldGroups_eq : program.coldGroups = (do
    let flows ← (program.rootDsp.traversal.filter program.isBoundary).mapM fun id => do
      return ⟨← program.coldClosure [id], [id]⟩
    (DspGroup.mergeOverlapping flows).mapM fun group => do
      let traversal ← program.coldClosure group.outNodes
      return ⟨traversal.filter program.isCold, group.outNodes⟩) := rfl

theorem isCold_iff : program.isCold id = true ↔ program.Cold id := Coldness.survey_getD_iff

theorem isBoundary_iff (wellFormed : program.graph.WellFormed) :
    program.isBoundary id = true ↔ program.Boundary id := by
  unfold isBoundary Boundary
  rw [Bool.and_eq_true, isCold_iff]
  refine and_congr_right fun cold => ?_
  obtain ⟨node, found⟩ := cold.known
  have sinkCold : ∀ sink : String, (!program.isCold sink) = true ↔ ¬ program.Cold sink := by
    intro sink
    rw [← isCold_iff]
    simp
  simp only [found, List.any_eq_true, sinkCold]
  constructor
  · intro given
    obtain ⟨sink, member, warm⟩ := given
    exact ⟨sink.node, (wellFormed.feeds_iff_signalSinks found).mpr ⟨sink, member, rfl⟩, warm⟩
  · intro given
    obtain ⟨sink, feeds, warm⟩ := given
    obtain ⟨endpoint, member, rfl⟩ := (wellFormed.feeds_iff_signalSinks found).mp feeds
    exact ⟨endpoint, member, warm⟩

/-- A walk through cold nodes takes every signal connection from a cold node to a cold one. -/
theorem upstream_isCold_iff (wellFormed : program.graph.WellFormed) {sink : String} :
    program.graph.Upstream (fun node => program.isCold node.id) source sink ↔
      program.graph.Feeds source sink ∧ program.Cold source := by
  refine and_congr_right fun feeds => ?_
  constructor
  · intro given
    obtain ⟨node, found, cold⟩ := given
    have ownId := (wellFormed.fits found).ownId
    exact isCold_iff.mp (ownId ▸ cold)
  · intro cold
    obtain ⟨node, found⟩ := cold.known
    have ownId := (wellFormed.fits found).ownId
    exact ⟨node, found, isCold_iff.mpr (ownId.symm ▸ cold)⟩

/-- What a cold node depends on can be reached through cold nodes only. -/
theorem reaches_isCold_iff (wellFormed : program.graph.WellFormed) {sink : String}
    (cold : program.Cold sink) :
    Relation.ReflTransGen (program.graph.Upstream fun node => program.isCold node.id) source sink ↔
      Relation.ReflTransGen program.graph.Feeds source sink := by
  constructor
  · intro reaches
    exact Relation.ReflTransGen.mono (fun _ _ upstream => upstream.1) _ _ reaches
  · intro reaches
    induction reaches with
    | refl => exact .refl
    | tail _ feeds ih =>
        have sourceCold := cold.of_feeds feeds
        exact (ih sourceCold).tail ((upstream_isCold_iff wellFormed).mpr ⟨feeds, sourceCold⟩)

/-- The order in which a whole program evaluates its signal nodes. -/
def Rooted (program : Program) : Prop :=
  program.graph.Ordered (fun _ => true) program.rootDsp.outNodes program.rootDsp.traversal

theorem upstream_true_iff (wellFormed : program.graph.WellFormed) {sink : String} :
    program.graph.Upstream (fun _ => true) source sink ↔ program.graph.Feeds source sink := by
  constructor
  · exact And.left
  · intro feeds
    obtain ⟨node, found⟩ := wellFormed.node?_of_feeds_source feeds
    exact ⟨feeds, node, found, rfl⟩

theorem Rooted.mem_of_reaches (rooted : program.Rooted) (wellFormed : program.graph.WellFormed)
    {sink : String} (listed : sink ∈ program.rootDsp.traversal)
    (reaches : Relation.ReflTransGen program.graph.Feeds source sink) :
    source ∈ program.rootDsp.traversal :=
  Graph.Ordered.mem_of_reaches rooted listed
    (Relation.ReflTransGen.mono (fun _ _ feeds => (upstream_true_iff wellFormed).mpr feeds) _ _
      reaches)

/-! ## One group -/

/-- A group of cold nodes: what some boundary nodes depend on, in an order of evaluation. -/
structure ColdGroupOf (program : Program) (group : DspGroup) : Prop where
  outs : ∀ out ∈ group.outNodes, out ∈ program.rootDsp.traversal ∧ program.Boundary out
  walked : program.coldClosure group.outNodes = .ok group.traversal

namespace ColdGroupOf

theorem ordered (held : program.ColdGroupOf group) :
    program.graph.Ordered (fun node => program.isCold node.id) group.outNodes group.traversal :=
  Graph.ordered_of_signalNodesWhere held.walked

theorem mem_iff (held : program.ColdGroupOf group) (wellFormed : program.graph.WellFormed) :
    id ∈ group.traversal ↔
      ∃ out ∈ group.outNodes, Relation.ReflTransGen program.graph.Feeds id out := by
  rw [held.ordered.mem_iff]
  refine exists_congr fun out => and_congr_right fun isOut => ?_
  exact reaches_isCold_iff wellFormed (held.outs out isOut).2.1

theorem cold (held : program.ColdGroupOf group) (wellFormed : program.graph.WellFormed)
    (member : id ∈ group.traversal) : program.Cold id := by
  obtain ⟨out, isOut, reaches⟩ := (held.mem_iff wellFormed).mp member
  exact (held.outs out isOut).2.1.of_reaches reaches

theorem mem_of_feeds (held : program.ColdGroupOf group) (wellFormed : program.graph.WellFormed)
    (member : id ∈ group.traversal) (feeds : program.graph.Feeds source id) :
    source ∈ group.traversal := by
  obtain ⟨out, isOut, reaches⟩ := (held.mem_iff wellFormed).mp member
  exact (held.mem_iff wellFormed).mpr ⟨out, isOut, .head feeds reaches⟩

theorem mem_root (held : program.ColdGroupOf group) (wellFormed : program.graph.WellFormed)
    (rooted : program.Rooted) (member : id ∈ group.traversal) :
    id ∈ program.rootDsp.traversal := by
  obtain ⟨out, isOut, reaches⟩ := (held.mem_iff wellFormed).mp member
  exact rooted.mem_of_reaches wellFormed (held.outs out isOut).1 reaches

end ColdGroupOf

/-! ## All groups -/

/-- The cold groups of a program: no two share a node, and every boundary node is an out node. -/
structure ColdGroupsOf (program : Program) (groups : List DspGroup) : Prop where
  group : ∀ group ∈ groups, program.ColdGroupOf group
  apart : groups.Pairwise fun left right => ∀ id ∈ left.traversal, id ∉ right.traversal
  complete : ∀ id ∈ program.rootDsp.traversal, program.Boundary id →
    ∃ group ∈ groups, id ∈ group.outNodes

theorem ColdGroupsOf.unique (held : program.ColdGroupsOf groups) {other : DspGroup}
    (member : group ∈ groups) (otherMember : other ∈ groups) (inGroup : id ∈ group.traversal)
    (inOther : id ∈ other.traversal) : group = other := by
  by_contra different
  have symmetric : Std.Symm fun left right : DspGroup =>
      ∀ id ∈ left.traversal, id ∉ right.traversal :=
    ⟨fun left right apart id inRight inLeft => apart id inLeft inRight⟩
  exact held.apart.forall member otherMember different id inGroup inOther

theorem ColdGroupsOf.mem_outNodes_iff (held : program.ColdGroupsOf groups)
    (wellFormed : program.graph.WellFormed) (rooted : program.Rooted) (member : group ∈ groups) :
    id ∈ group.outNodes ↔
      id ∈ group.traversal ∧ ∃ sink, program.graph.Feeds id sink ∧ ¬ program.Cold sink := by
  have held' := held.group group member
  constructor
  · intro isOut
    exact ⟨held'.ordered.covers id isOut, (held'.outs id isOut).2.2⟩
  · intro given
    obtain ⟨inGroup, warm⟩ := given
    have boundary : program.Boundary id := ⟨held'.cold wellFormed inGroup, warm⟩
    obtain ⟨other, otherMember, isOut⟩ :=
      held.complete id (held'.mem_root wellFormed rooted inGroup) boundary
    have inOther := (held.group other otherMember).ordered.covers id isOut
    rw [held.unique member otherMember inGroup inOther]
    exact isOut

theorem coldClosure_yields (wellFormed : program.graph.WellFormed) {outNodes : List String}
    (outs : ∀ out ∈ outNodes, out ∈ program.rootDsp.traversal ∧ program.Boundary out) :
    Outcome.Yields (program.coldClosure outNodes) fun traversal =>
      program.ColdGroupOf ⟨traversal, outNodes⟩ := by
  have known : ∀ out ∈ outNodes, ∃ node, program.graph.node? out = some node :=
    fun out isOut => (outs out isOut).2.1.known
  obtain ⟨order, walked, _⟩ := Graph.signalNodesWhere_succeeds wellFormed known
  exact ⟨order, walked, outs, walked⟩

/-- A merged group holds what its out nodes depend on, so walking it again changes the order of its
members at most, and there is nothing to drop. -/
theorem reorder_yields (wellFormed : program.graph.WellFormed) {cluster : List DspGroup}
    (flows : ∀ flow ∈ cluster, program.ColdGroupOf flow) (unites : DspGroup.Unites cluster group) :
    Outcome.Yields (do
        let traversal ← program.coldClosure group.outNodes
        return (⟨traversal.filter program.isCold, group.outNodes⟩ : DspGroup)) fun final =>
      program.ColdGroupOf final ∧ final.outNodes = group.outNodes ∧
        ∀ id, id ∈ final.traversal ↔ id ∈ group.traversal := by
  have outs : ∀ out ∈ group.outNodes, out ∈ program.rootDsp.traversal ∧ program.Boundary out := by
    intro out isOut
    obtain ⟨flow, member, isFlowOut⟩ := (unites.outs out).mp isOut
    exact (flows flow member).outs out isFlowOut
  refine (coldClosure_yields wellFormed outs).bind fun traversal held => Outcome.yields_pure ?_
  have allCold : traversal.filter program.isCold = traversal :=
    List.filter_eq_self.mpr fun id member => isCold_iff.mpr (held.cold wellFormed member)
  rw [allCold]
  refine ⟨held, rfl, fun id => ?_⟩
  rw [held.mem_iff wellFormed, unites.members]
  constructor
  · intro given
    obtain ⟨out, isOut, reaches⟩ := given
    obtain ⟨flow, member, isFlowOut⟩ := (unites.outs out).mp isOut
    exact ⟨flow, member, ((flows flow member).mem_iff wellFormed).mpr ⟨out, isFlowOut, reaches⟩⟩
  · intro given
    obtain ⟨flow, member, inFlow⟩ := given
    obtain ⟨out, isFlowOut, reaches⟩ := ((flows flow member).mem_iff wellFormed).mp inFlow
    exact ⟨out, (unites.outs out).mpr ⟨flow, member, isFlowOut⟩, reaches⟩

theorem coldGroups_yields (wellFormed : program.graph.WellFormed) :
    Outcome.Yields program.coldGroups program.ColdGroupsOf := by
  rw [coldGroups_eq]
  have flowOf : ∀ id ∈ program.rootDsp.traversal.filter program.isBoundary,
      Outcome.Yields (do return (⟨← program.coldClosure [id], [id]⟩ : DspGroup)) fun flow =>
        program.ColdGroupOf flow ∧ flow.outNodes = [id] := by
    intro id member
    obtain ⟨listed, boundary⟩ := List.mem_filter.mp member
    have outs : ∀ out ∈ [id], out ∈ program.rootDsp.traversal ∧ program.Boundary out := by
      intro out isOut
      rw [List.mem_singleton.mp isOut]
      exact ⟨listed, (isBoundary_iff wellFormed).mp boundary⟩
    exact (coldClosure_yields wellFormed outs).bind fun traversal held =>
      Outcome.yields_pure ⟨held, rfl⟩
  refine (Outcome.yields_mapM flowOf).bind fun flows held => ?_
  have isFlow : ∀ flow ∈ flows, program.ColdGroupOf flow ∧ ∃ id, flow.outNodes = [id] := by
    intro flow member
    obtain ⟨id, _, facts⟩ := Outcome.exists_item held member
    exact ⟨facts.1, id, facts.2⟩
  have singles : List.Forall₂ DspGroup.Unites (flows.map fun flow => [flow]) flows := by
    rw [List.forall₂_map_left_iff, List.forall₂_same]
    intro flow member
    obtain ⟨held, id, outs⟩ := isFlow flow member
    exact DspGroup.unites_singleton held.ordered.distinct (by simp [outs])
  obtain ⟨clusters, unites, shared, apart⟩ := DspGroup.unites_mergeOverlapping singles
  have sharedOut : ∀ flow, (∃ cluster ∈ clusters, flow ∈ cluster) ↔ flow ∈ flows := by
    intro flow
    rw [← List.mem_flatten, shared.mem_iff]
    simp
  have reordered : ∀ group ∈ DspGroup.mergeOverlapping flows, Outcome.Yields (do
        let traversal ← program.coldClosure group.outNodes
        return (⟨traversal.filter program.isCold, group.outNodes⟩ : DspGroup)) fun final =>
      program.ColdGroupOf final ∧ final.outNodes = group.outNodes ∧
        ∀ id, id ∈ final.traversal ↔ id ∈ group.traversal := by
    intro group member
    obtain ⟨cluster, inClusters, unitesGroup⟩ := Outcome.exists_item unites member
    refine reorder_yields wellFormed (fun flow inCluster => ?_) unitesGroup
    exact (isFlow flow ((sharedOut flow).mp ⟨cluster, inClusters, inCluster⟩)).1
  refine (Outcome.yields_mapM reordered).mono fun groups final => ⟨?_, ?_, ?_⟩
  · intro group member
    obtain ⟨merged, _, facts⟩ := Outcome.exists_item final member
    exact facts.1
  · refine Outcome.pairwise_results final apart ?_
    intro left right leftFinal rightFinal leftFacts rightFacts disjoint id inLeft inRight
    have overlapping : left.overlaps right = true := DspGroup.overlaps_iff.mpr
      ⟨id, (leftFacts.2.2 id).mp inLeft, (rightFacts.2.2 id).mp inRight⟩
    rw [disjoint] at overlapping
    cases overlapping
  · intro id listed boundary
    -- the flow of the boundary node went into some cluster, with its out node
    have candidate : id ∈ program.rootDsp.traversal.filter program.isBoundary :=
      List.mem_filter.mpr ⟨listed, (isBoundary_iff wellFormed).mpr boundary⟩
    obtain ⟨flow, inFlows, _, outs⟩ := Outcome.exists_result held candidate
    obtain ⟨cluster, inClusters, inCluster⟩ := (sharedOut flow).mpr inFlows
    obtain ⟨merged, inMerged, unitesMerged⟩ := Outcome.exists_result unites inClusters
    obtain ⟨group, inGroups, _, sameOuts, _⟩ := Outcome.exists_result final inMerged
    refine ⟨group, inGroups, ?_⟩
    rw [sameOuts]
    exact (unitesMerged.outs id).mpr ⟨flow, inCluster, by simp [outs]⟩

theorem coldGroupsOf_of_eq (wellFormed : program.graph.WellFormed)
    (grouped : program.coldGroups = .ok groups) : program.ColdGroupsOf groups := by
  obtain ⟨found, regrouped, held⟩ := coldGroups_yields wellFormed
  rw [grouped] at regrouped
  cases regrouped
  exact held

end Patchbay.Program
