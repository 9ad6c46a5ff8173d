import Mathlib.Data.List.Nodup
import Patchbay.Proofs.Program.ColdGroups

namespace Patchbay.Program

/-! Inline groups.

An inlinable node feeds one inlet only, so its readers form a single line, which ends at the first
node that is not inlinable.  In a group whose members all lead to an out node this line never leaves
the group and never closes on itself.  The inline groups of such a group are therefore disjoint and
hold all of its inlinable members.
-/

variable {program : Program} {parent group : DspGroup} {groups : List DspGroup}
  {id source sink : String}

theorem isInlinable_facts (inlinable : program.isInlinable parent id = true) :
    ∃ node only, program.graph.node? id = some node ∧ node.signalSinks = [only] ∧
      id ∈ parent.traversal ∧ id ∉ parent.outNodes := by
  unfold isInlinable at inlinable
  cases found : program.graph.node? id with
  | none => simp [found] at inlinable
  | some node =>
      simp only [found, Bool.and_eq_true, List.contains_eq_mem, decide_eq_true_eq,
        Bool.not_eq_true', decide_eq_false_iff_not, beq_iff_eq] at inlinable
      obtain ⟨⟨⟨member, inner⟩, _⟩, single⟩ := inlinable
      obtain ⟨only, sinks⟩ := List.length_eq_one_iff.mp single
      exact ⟨node, only, rfl, sinks, member, inner⟩

theorem mem_of_isInlinable (inlinable : program.isInlinable parent id = true) :
    id ∈ parent.traversal := by
  obtain ⟨_, _, _, _, member, _⟩ := isInlinable_facts inlinable
  exact member

theorem not_isInlinable_of_out (isOut : id ∈ parent.outNodes) :
    program.isInlinable parent id = false := by
  cases inlinable : program.isInlinable parent id with
  | false => rfl
  | true =>
      obtain ⟨_, _, _, _, _, inner⟩ := isInlinable_facts inlinable
      exact absurd isOut inner

theorem reader_unique (wellFormed : program.graph.WellFormed)
    (inlinable : program.isInlinable parent id = true) {other : String}
    (feeds : program.graph.Feeds id sink) (feedsOther : program.graph.Feeds id other) :
    sink = other := by
  obtain ⟨node, only, found, single, _⟩ := isInlinable_facts inlinable
  rw [wellFormed.feeds_iff_of_single found single] at feeds feedsOther
  exact feeds.symm.trans feedsOther

/-- The last node of an inline group: its reader is a member that is not inlinable. -/
def InlineEnd (program : Program) (parent : DspGroup) (id : String) : Prop :=
  program.isInlinable parent id = true ∧
    ∃ sink, program.graph.Feeds id sink ∧ sink ∈ parent.traversal ∧
      program.isInlinable parent sink = false

def isInlineEnd (program : Program) (parent : DspGroup) (id : String) : Bool :=
  program.isInlinable parent id &&
    match (program.graph.node? id).bind fun node => node.signalSinks.head? with
    | some sink => parent.traversal.contains sink.node && !program.isInlinable parent sink.node
    | none => false

theorem inlineGroups_eq : program.inlineGroups parent =
    (parent.traversal.filter (program.isInlineEnd parent)).mapM fun id => do
      let traversal ← program.graph.signalNodesWhere [id] fun source =>
        program.isInlinable parent source.id
      return ⟨traversal, [id]⟩ := rfl

theorem isInlineEnd_iff (wellFormed : program.graph.WellFormed) :
    program.isInlineEnd parent id = true ↔ program.InlineEnd parent id := by
  unfold isInlineEnd InlineEnd
  rw [Bool.and_eq_true]
  refine and_congr_right fun inlinable => ?_
  obtain ⟨node, only, found, single, _⟩ := isInlinable_facts inlinable
  have reader : ∀ sink, program.graph.Feeds id sink ↔ only.node = sink := fun sink =>
    wellFormed.feeds_iff_of_single found single
  simp [found, single, reader]

theorem upstream_isInlinable_iff (wellFormed : program.graph.WellFormed) :
    program.graph.Upstream (fun node => program.isInlinable parent node.id) source sink ↔
      program.graph.Feeds source sink ∧ program.isInlinable parent source = true := by
  refine and_congr_right fun feeds => ?_
  constructor
  · intro given
    obtain ⟨node, found, inlinable⟩ := given
    have ownId := (wellFormed.fits found).ownId
    exact ownId ▸ inlinable
  · intro inlinable
    obtain ⟨node, found⟩ := wellFormed.node?_of_feeds_source feeds
    have ownId := (wellFormed.fits found).ownId
    exact ⟨node, found, by simpa only [ownId] using inlinable⟩

/-- One step along the line of readers. -/
def ReadBy (program : Program) (parent : DspGroup) (source sink : String) : Prop :=
  program.graph.Feeds source sink ∧ program.isInlinable parent source = true

theorem readBy_rightUnique (wellFormed : program.graph.WellFormed) :
    Relator.RightUnique (program.ReadBy parent) := by
  intro id sink other first second
  exact reader_unique wellFormed first.2 first.1 second.1

/-- A group that ends at an inline end and holds the inlinable nodes that lead to it. -/
structure InlineGroupOf (program : Program) (parent group : DspGroup) (last : String) : Prop where
  outs : group.outNodes = [last]
  isEnd : program.InlineEnd parent last
  walked : program.graph.signalNodesWhere [last] (fun node => program.isInlinable parent node.id) =
    .ok group.traversal

namespace InlineGroupOf

variable {last : String}

theorem ordered (held : program.InlineGroupOf parent group last) :
    program.graph.Ordered (fun node => program.isInlinable parent node.id) [last]
      group.traversal :=
  Graph.ordered_of_signalNodesWhere held.walked

theorem mem_iff (held : program.InlineGroupOf parent group last)
    (wellFormed : program.graph.WellFormed) :
    id ∈ group.traversal ↔ Relation.ReflTransGen (program.ReadBy parent) id last := by
  have sameSteps : program.graph.Upstream (fun node => program.isInlinable parent node.id) =
      program.ReadBy parent := by
    funext source sink
    exact propext (upstream_isInlinable_iff wellFormed)
  rw [held.ordered.mem_iff, sameSteps]
  simp

theorem inlinable (held : program.InlineGroupOf parent group last)
    (wellFormed : program.graph.WellFormed) (member : id ∈ group.traversal) :
    program.isInlinable parent id = true := by
  rw [held.mem_iff wellFormed] at member
  rcases Relation.ReflTransGen.cases_head member with same | ⟨next, step, _⟩
  · exact same ▸ held.isEnd.1
  · exact step.2

end InlineGroupOf

/-- The line of readers passes through one inline end only. -/
theorem inlineEnd_unique (wellFormed : program.graph.WellFormed) {last other : String}
    (isEnd : program.InlineEnd parent last) (otherEnd : program.InlineEnd parent other)
    (toLast : Relation.ReflTransGen (program.ReadBy parent) id last)
    (toOther : Relation.ReflTransGen (program.ReadBy parent) id other) : last = other := by
  have stops : ∀ {first second}, program.InlineEnd parent first →
      program.InlineEnd parent second →
      Relation.ReflTransGen (program.ReadBy parent) first second → first = second := by
    intro first second firstEnd secondEnd reaches
    rcases Relation.ReflTransGen.cases_head reaches with same | ⟨next, step, rest⟩
    · exact same
    · -- the reader of the first end is not inlinable, but it would have to be
      obtain ⟨inlinable, sink, feeds, _, blocked⟩ := firstEnd
      have sameReader := reader_unique wellFormed inlinable step.1 feeds
      rcases Relation.ReflTransGen.cases_head rest with atEnd | ⟨_, further, _⟩
      · rw [sameReader] at atEnd
        rw [atEnd, secondEnd.1] at blocked
        cases blocked
      · rw [sameReader] at further
        rw [further.2] at blocked
        cases blocked
  rcases Relation.ReflTransGen.total_of_right_unique (readBy_rightUnique wellFormed) toLast
    toOther with forward | backward
  · exact stops isEnd otherEnd forward
  · exact (stops otherEnd isEnd backward).symm

/-! ## Groups whose members lead out -/

/-- A group in which every member leads to an out node through members. -/
structure LeadsOut (program : Program) (parent : DspGroup) : Prop where
  distinct : parent.traversal.Nodup
  line : ∀ id ∈ parent.traversal, ∃ line, (id :: line).IsChain program.graph.Feeds ∧
    (∀ member ∈ line, member ∈ parent.traversal) ∧
    ∃ out ∈ parent.outNodes, (id :: line).getLast? = some out

theorem LeadsOut.exists_inlineEnd (leads : program.LeadsOut parent)
    (inlinable : program.isInlinable parent id = true) :
    ∃ last, program.InlineEnd parent last ∧
      Relation.ReflTransGen (program.ReadBy parent) id last := by
  obtain ⟨line, chain, within, out, isOut, isLast⟩ := leads.line id (mem_of_isInlinable inlinable)
  induction line generalizing id with
  | nil =>
      simp only [List.getLast?_singleton, Option.some.injEq] at isLast
      rw [isLast, not_isInlinable_of_out isOut] at inlinable
      cases inlinable
  | cons next rest ih =>
      rw [List.isChain_cons_cons] at chain
      cases nextInlinable : program.isInlinable parent next with
      | false =>
          exact ⟨id, ⟨inlinable, next, chain.1, within next (by simp), nextInlinable⟩, .refl⟩
      | true =>
          obtain ⟨last, isEnd, reaches⟩ := ih nextInlinable chain.2
            (fun member later => within member (List.mem_cons_of_mem _ later))
            (by simpa [List.getLast?_cons_cons] using isLast)
          exact ⟨last, isEnd, .head ⟨chain.1, inlinable⟩ reaches⟩

/-- The inline groups of a group, one for each of its inline ends. -/
def InlineGroupsOf (program : Program) (parent : DspGroup) (groups : List DspGroup) : Prop :=
  List.Forall₂ (fun last group => program.InlineGroupOf parent group last)
    (parent.traversal.filter (program.isInlineEnd parent)) groups

theorem inlineGroups_yields (parent : DspGroup) (wellFormed : program.graph.WellFormed) :
    Outcome.Yields (program.inlineGroups parent) (program.InlineGroupsOf parent) := by
  rw [inlineGroups_eq]
  refine Outcome.yields_mapM fun last member => ?_
  have isEnd := (isInlineEnd_iff wellFormed).mp (List.mem_filter.mp member).2
  obtain ⟨node, _, found, _⟩ := isInlinable_facts isEnd.1
  have known : ∀ root ∈ [last], ∃ node, program.graph.node? root = some node := by
    intro root isRoot
    rw [List.mem_singleton.mp isRoot]
    exact ⟨node, found⟩
  obtain ⟨order, walked, _⟩ := Graph.signalNodesWhere_succeeds wellFormed known
  rw [walked]
  exact Outcome.yields_pure ⟨rfl, isEnd, walked⟩

namespace InlineGroupsOf

theorem exists_last (held : program.InlineGroupsOf parent groups) (member : group ∈ groups) :
    ∃ last, program.InlineGroupOf parent group last := by
  obtain ⟨last, _, facts⟩ := Outcome.exists_item held member
  exact ⟨last, facts⟩

theorem mem_flatMap_iff (held : program.InlineGroupsOf parent groups)
    (wellFormed : program.graph.WellFormed) (leads : program.LeadsOut parent) :
    id ∈ groups.flatMap DspGroup.traversal ↔ program.isInlinable parent id = true := by
  rw [List.mem_flatMap]
  constructor
  · intro given
    obtain ⟨group, member, inGroup⟩ := given
    obtain ⟨last, facts⟩ := held.exists_last member
    exact facts.inlinable wellFormed inGroup
  · intro inlinable
    obtain ⟨last, isEnd, reaches⟩ := leads.exists_inlineEnd inlinable
    have candidate : last ∈ parent.traversal.filter (program.isInlineEnd parent) :=
      List.mem_filter.mpr ⟨mem_of_isInlinable isEnd.1, (isInlineEnd_iff wellFormed).mpr isEnd⟩
    obtain ⟨group, member, facts⟩ := Outcome.exists_result held candidate
    exact ⟨group, member, (facts.mem_iff wellFormed).mpr reaches⟩

theorem nodup_flatMap (held : program.InlineGroupsOf parent groups)
    (wellFormed : program.graph.WellFormed) (leads : program.LeadsOut parent) :
    (groups.flatMap DspGroup.traversal).Nodup := by
  rw [List.nodup_flatMap]
  constructor
  · intro group member
    obtain ⟨last, facts⟩ := held.exists_last member
    exact facts.ordered.distinct
  · have endsDistinct : (parent.traversal.filter (program.isInlineEnd parent)).Nodup :=
      leads.distinct.filter _
    refine Outcome.pairwise_results held endsDistinct ?_
    intro last other group otherGroup facts otherFacts different id inGroup inOther
    exact different (inlineEnd_unique wellFormed facts.isEnd otherFacts.isEnd
      ((facts.mem_iff wellFormed).mp inGroup) ((otherFacts.mem_iff wellFormed).mp inOther))

theorem perm (held : program.InlineGroupsOf parent groups)
    (wellFormed : program.graph.WellFormed) (leads : program.LeadsOut parent) :
    ((parent.traversal.filter fun id => !program.isInlinable parent id) ++
      groups.flatMap DspGroup.traversal).Perm parent.traversal := by
  have sameInlined : (groups.flatMap DspGroup.traversal).Perm
      (parent.traversal.filter (program.isInlinable parent)) := by
    refine (List.perm_ext_iff_of_nodup (held.nodup_flatMap wellFormed leads)
      (leads.distinct.filter _)).mpr fun id => ?_
    rw [held.mem_flatMap_iff wellFormed leads, List.mem_filter]
    exact ⟨fun inlinable => ⟨mem_of_isInlinable inlinable, inlinable⟩, And.right⟩
  refine (sameInlined.append_left _).trans ?_
  refine List.perm_append_comm.trans ?_
  exact List.filter_append_perm (program.isInlinable parent) parent.traversal

end InlineGroupsOf

end Patchbay.Program
