import Patchbay.Proofs.Program.Partition

namespace Patchbay.Program

/-! Inlining and the order of evaluation.

An inlined node is evaluated where its consumer stands, which is later than its own place in the
root order.  Since an inlinable node has one reader, the line of open nodes under which it was listed
runs through its inline group to the consumer.  A source of it that was not listed before it stands
on that line beyond the consumer, so it is not listed before the consumer either.
-/

open Patchbay.Graph (Precedes)

variable {program split : Program} {groups : List DspGroup} {parent group : DspGroup}
  {id source last consumer : String}

/-- A line that starts at an inlinable node and ends at an out node runs through inlinable nodes to
the consumer. -/
theorem line_through_consumer (wellFormed : program.graph.WellFormed)
    (isEnd : program.InlineEnd parent last) (feeds : program.graph.Feeds last consumer)
    (reads : Relation.ReflTransGen (program.ReadBy parent) id last) {line : List String}
    (chain : (id :: line).IsChain program.graph.Feeds) {out : String}
    (isOut : out ∈ parent.outNodes) (isLast : (id :: line).getLast? = some out) :
    ∃ inner beyond, line = inner ++ consumer :: beyond ∧
      ∀ member ∈ id :: inner, program.isInlinable parent member = true := by
  induction reads using Relation.ReflTransGen.head_induction_on generalizing line with
  | refl =>
      cases line with
      | nil =>
          simp only [List.getLast?_singleton, Option.some.injEq] at isLast
          have outside : program.isInlinable parent out = false := not_isInlinable_of_out isOut
          rw [← isLast, isEnd.1] at outside
          cases outside
      | cons next rest =>
          rw [List.isChain_cons_cons] at chain
          have same : next = consumer := reader_unique wellFormed isEnd.1 chain.1 feeds
          subst same
          refine ⟨[], rest, rfl, fun member onLine => ?_⟩
          rw [List.mem_singleton.mp onLine]
          exact isEnd.1
  | @head id reader step _ ih =>
      cases line with
      | nil =>
          simp only [List.getLast?_singleton, Option.some.injEq] at isLast
          have outside : program.isInlinable parent out = false := not_isInlinable_of_out isOut
          rw [← isLast, step.2] at outside
          cases outside
      | cons next rest =>
          rw [List.isChain_cons_cons] at chain
          have same : next = reader := reader_unique wellFormed step.2 chain.1 step.1
          subst same
          rw [List.getLast?_cons_cons] at isLast
          obtain ⟨inner, beyond, split, inlinable⟩ := ih chain.2 isLast
          refine ⟨next :: inner, beyond, by rw [split]; rfl, fun member onLine => ?_⟩
          rcases List.mem_cons.mp onLine with rfl | later
          · exact step.2
          · exact inlinable member later

/-! ## Cold groups -/

/-- A cold node lies on no loop, so it comes before whatever reads it in every order. -/
theorem precedes_of_cold {admits : Node → Bool} {roots order : List String}
    (ordered : program.graph.Ordered admits roots order) (cold : program.Cold source)
    (listed : id ∈ order) (upstream : program.graph.Upstream admits source id) :
    Precedes order source id := by
  refine (ordered.precedes_or_reaches listed upstream).resolve_right fun reaches => ?_
  have closes : Relation.ReflTransGen program.graph.Feeds id source :=
    Relation.ReflTransGen.mono (fun _ _ step => step.1) _ _ reaches
  exact cold.acyclic (Relation.TransGen.head' upstream.1 closes)

theorem Rooted.precedes_of_cold (rooted : program.Rooted) (wellFormed : program.graph.WellFormed)
    (cold : program.Cold source) (listed : id ∈ program.rootDsp.traversal)
    (feeds : program.graph.Feeds source id) : Precedes program.rootDsp.traversal source id :=
  Program.precedes_of_cold rooted cold listed ((upstream_true_iff wellFormed).mpr feeds)

theorem ColdGroupOf.precedes_of_feeds (held : program.ColdGroupOf group)
    (wellFormed : program.graph.WellFormed) (member : id ∈ group.traversal)
    (feeds : program.graph.Feeds source id) : Precedes group.traversal source id := by
  have sourceCold := held.cold wellFormed (held.mem_of_feeds wellFormed member feeds)
  exact precedes_of_cold held.ordered sourceCold member
    ((upstream_isCold_iff wellFormed).mpr ⟨feeds, sourceCold⟩)

theorem ColdGroupOf.precedes_consumer (held : program.ColdGroupOf parent)
    (wellFormed : program.graph.WellFormed)
    (reads : Relation.ReflTransGen (program.ReadBy parent) id last)
    (feeds : program.graph.Feeds last consumer) (listed : consumer ∈ parent.traversal) :
    Precedes parent.traversal id consumer := by
  induction reads using Relation.ReflTransGen.head_induction_on with
  | refl => exact held.precedes_of_feeds wellFormed listed feeds
  | head step _ ih =>
      have next := held.precedes_of_feeds wellFormed ih.mem_first step.1
      exact next.trans ih held.ordered.distinct

/-! ## The hot group -/

/-- Where a node that is inlined into the hot group stands in the root order. -/
structure HotLine (split : Program) (id consumer : String) (inner beyond : List String) : Prop where
  chain : (id :: (inner ++ consumer :: beyond)).IsChain split.graph.Feeds
  listed : (id :: (inner ++ consumer :: beyond)).Sublist split.rootDsp.traversal
  inlinable : ∀ member ∈ id :: inner, split.isInlinable split.hotParent member = true
  sources : ∀ source, split.graph.Feeds source id →
    Precedes split.rootDsp.traversal source id ∨ source ∈ id :: (inner ++ consumer :: beyond)

theorem SplitInto.exists_hotLine (held : split.SplitInto groups)
    (isEnd : split.InlineEnd split.hotParent last) (feeds : split.graph.Feeds last consumer)
    (reads : Relation.ReflTransGen (split.ReadBy split.hotParent) id last) :
    ∃ inner beyond, split.HotLine id consumer inner beyond := by
  have inHot : id ∈ split.hotParent.traversal := by
    rcases Relation.ReflTransGen.cases_head reads with same | ⟨_, step, _⟩
    · exact same ▸ mem_of_isInlinable isEnd.1
    · exact mem_of_isInlinable step.2
  obtain ⟨line, lineage⟩ := held.rooted.lineage id (held.mem_hotParent_iff.mp inHot).1
  obtain ⟨out, isOut, isLast⟩ := lineage.rooted
  have chain := lineage.chain.imp fun _ _ upstream => upstream.1
  obtain ⟨inner, beyond, rfl, inlinable⟩ :=
    line_through_consumer held.wellFormed isEnd feeds reads chain isOut isLast
  refine ⟨inner, beyond, chain, lineage.listed, inlinable, fun source fed => ?_⟩
  have upstream := (upstream_true_iff held.wellFormed).mpr fed
  simpa using lineage.sources source upstream

namespace HotLine

variable {inner beyond : List String}

theorem precedes_consumer (held : split.HotLine id consumer inner beyond) :
    Precedes split.rootDsp.traversal id consumer := by
  refine List.Sublist.trans ?_ held.listed
  exact List.Sublist.cons_cons id (List.singleton_sublist.mpr (by simp))

theorem precedes_of_mem_beyond (held : split.HotLine id consumer inner beyond)
    (member : source ∈ beyond) : Precedes split.rootDsp.traversal consumer source := by
  have tail : [consumer, source].Sublist (consumer :: beyond) :=
    List.Sublist.cons_cons consumer (List.singleton_sublist.mpr member)
  refine List.Sublist.trans ?_ held.listed
  exact (tail.trans (List.sublist_append_right inner _)).cons id

theorem reaches_of_mem_beyond (held : split.HotLine id consumer inner beyond)
    (member : source ∈ beyond) : Relation.ReflTransGen split.graph.Feeds consumer source := by
  have tail : (consumer :: beyond).IsChain split.graph.Feeds :=
    held.chain.tail.right_of_append
  exact Graph.reaches_of_chain tail (List.mem_cons_of_mem _ member)

/-- A source that is not inlined was listed before the node, is its consumer, or stands beyond it. -/
theorem source_cases (held : split.HotLine id consumer inner beyond)
    (feeds : split.graph.Feeds source id)
    (solid : split.isInlinable split.hotParent source = false) :
    Precedes split.rootDsp.traversal source id ∨ source = consumer ∨ source ∈ beyond := by
  refine (held.sources source feeds).imp_right fun onLine => ?_
  rw [← List.cons_append, List.mem_append] at onLine
  rcases onLine with inside | outside
  · rw [held.inlinable source inside] at solid
    cases solid
  · exact List.mem_cons.mp outside

theorem precedes_iff (held : split.HotLine id consumer inner beyond) (rooted : split.Rooted)
    (feeds : split.graph.Feeds source id)
    (solid : split.isInlinable split.hotParent source = false) (other : source ≠ consumer) :
    Precedes split.rootDsp.traversal source consumer ↔
      Precedes split.rootDsp.traversal source id := by
  constructor
  · intro before
    rcases held.source_cases feeds solid with earlier | same | later
    · exact earlier
    · exact absurd same other
    · exact absurd before ((held.precedes_of_mem_beyond later).asymm rooted.distinct)
  · intro before
    exact before.trans held.precedes_consumer rooted.distinct

end HotLine

/-! ## Every parent -/

/-- A source that is not inlined stands on the same side of the consumer after inlining as it stood
of the inlined node before, and on its right side unless a loop runs through both. -/
theorem SplitInto.keeps_side (held : split.SplitInto groups)
    (isParent : parent ∈ split.parents groups)
    (inlineGroup : split.InlineGroupOf parent group last)
    (feeds : split.graph.Feeds last consumer) (listed : consumer ∈ parent.traversal)
    (solidConsumer : split.isInlinable parent consumer = false) (member : id ∈ group.traversal)
    (reads : split.graph.Feeds source id) (sourceLeft : source ∈ split.left parent)
    (other : source ≠ consumer) :
    (Precedes (split.left parent) source consumer ↔
      Precedes split.rootDsp.traversal source id) ∧
    (Precedes (split.left parent) source consumer ∨
      Relation.ReflTransGen split.graph.Feeds consumer source) := by
  obtain ⟨inParent, solid⟩ := List.mem_filter.mp sourceLeft
  rw [Bool.not_eq_true'] at solid
  have leftIff : Precedes (split.left parent) source consumer ↔
      Precedes parent.traversal source consumer := by
    unfold left
    rw [Graph.precedes_filter_iff]
    simp [solid, solidConsumer]
  rw [leftIff]
  rcases List.mem_cons.mp isParent with rfl | isCold
  · obtain ⟨inner, beyond, hotLine⟩ := held.exists_hotLine inlineGroup.isEnd feeds
      ((inlineGroup.mem_iff held.wellFormed).mp member)
    have hotIff : Precedes split.hotParent.traversal source consumer ↔
        Precedes split.rootDsp.traversal source consumer := by
      unfold hotParent at inParent listed ⊢
      rw [Graph.precedes_filter_iff]
      simp [(List.mem_filter.mp inParent).2, (List.mem_filter.mp listed).2]
    rw [hotIff, hotLine.precedes_iff held.rooted reads solid other]
    refine ⟨Iff.rfl, ?_⟩
    rcases hotLine.source_cases reads solid with before | same | later
    · exact .inl before
    · exact absurd same other
    · exact .inr (hotLine.reaches_of_mem_beyond later)
  · have cold := held.coldGroupsOf.group parent isCold
    have inlineMember := mem_of_isInlinable (inlineGroup.inlinable held.wellFormed member)
    have toConsumer := cold.precedes_consumer held.wellFormed
      ((inlineGroup.mem_iff held.wellFormed).mp member) feeds listed
    have before : Precedes parent.traversal source consumer :=
      (cold.precedes_of_feeds held.wellFormed inlineMember reads).trans toConsumer
        cold.ordered.distinct
    have rootBefore := held.rooted.precedes_of_cold held.wellFormed
      (cold.cold held.wellFormed inParent) (held.mem_root isParent inlineMember) reads
    exact ⟨iff_of_true before rootBefore, .inl before⟩

variable {graph : Graph} {catalog : Catalog} {library : Library} {settings : Settings}
  {known : Option Catalog} {reporter : Reporter}

/-- Inlining keeps every read on the same side of the write that it reads. -/
theorem inlining_keeps_reads (accepted : (graph.check known reporter).2 = .ok ())
    (ready : beforeSplit graph catalog library settings = .ok program) :
    ∃ split groups, program.splitSignal = .ok split ∧ split.coldGroups = .ok groups ∧
      ∀ group ∈ split.inlineDsp, ∃ parent last consumer,
        (∀ id ∈ group.traversal, split.MemberBefore groups id parent) ∧ group.outNodes = [last] ∧
        (∀ sink, split.graph.Feeds last sink ↔ sink = consumer) ∧
        consumer ∈ split.finalTraversal parent ∧ consumer ∉ split.inlined ∧
        ∀ id ∈ group.traversal, ∀ source ∈ split.finalTraversal parent,
          split.graph.Feeds source id → source ≠ consumer →
          (Precedes (split.finalTraversal parent) source consumer ↔
            Precedes split.rootDsp.traversal source id) ∧
          (¬ (Relation.TransGen split.graph.Feeds source consumer ∧
              Relation.TransGen split.graph.Feeds consumer source) →
            Precedes (split.finalTraversal parent) source consumer) := by
  obtain ⟨split, groups, ran, held⟩ := splitSignal_of_check accepted ready
  refine ⟨split, groups, ran, held.coldGroups, ?_⟩
  intro group member
  obtain ⟨parent, isParent, last, inlineGroup⟩ := held.exists_inline_parent member
  obtain ⟨inlinable, consumer, feeds, listed, solidConsumer⟩ := inlineGroup.isEnd
  obtain ⟨key, within, final⟩ := held.exists_key isParent
  have isLeft : consumer ∈ split.left parent := List.mem_filter.mpr ⟨listed, by simp [solidConsumer]⟩
  rw [← final] at isLeft
  refine ⟨key, last, consumer, ?_, inlineGroup.outs, ?_, isLeft,
    (held.mem_finalTraversal_iff.mp isLeft).2, ?_⟩
  · intro id inGroup
    exact within id (mem_of_isInlinable (inlineGroup.inlinable held.wellFormed inGroup))
  · intro sink
    refine ⟨fun feedsSink => reader_unique held.wellFormed inlinable feedsSink feeds, ?_⟩
    intro same
    subst same
    exact feeds
  · intro id inGroup source sourceLeft reads other
    rw [final] at sourceLeft ⊢
    obtain ⟨sameSide, beforeOrLoop⟩ := held.keeps_side isParent inlineGroup feeds listed
      solidConsumer inGroup reads sourceLeft other
    refine ⟨sameSide, fun noLoop => beforeOrLoop.resolve_right fun back => noLoop ⟨?_, ?_⟩⟩
    · have onward : Relation.ReflTransGen split.graph.Feeds id last :=
        Relation.ReflTransGen.mono (fun _ _ step => step.1) _ _
          ((inlineGroup.mem_iff held.wellFormed).mp inGroup)
      exact .head' reads (onward.tail feeds)
    · exact (Relation.reflTransGen_iff_eq_or_transGen.mp back).resolve_left other

theorem inlining_keeps_reads_tone :
    ∃ program split, (toneGraph.check (some toneCatalog) .discarding).2 = .ok () ∧
      beforeSplit toneGraph toneCatalog toneLibrary {} = .ok program ∧
      program.splitSignal = .ok split ∧ split.rootDsp.traversal = ["n", "t", "f", "o", "g", "d"] ∧
      split.hotDsp.traversal = ["o", "d"] ∧ split.inlineDsp.map DspGroup.traversal = [["g"], ["t"]] ∧
      ∀ group ∈ split.inlineDsp, ∃ parent last consumer, group.outNodes = [last] ∧
        (∀ sink, split.graph.Feeds last sink ↔ sink = consumer) ∧
        ∀ id ∈ group.traversal, ∀ source ∈ split.finalTraversal parent,
          split.graph.Feeds source id → source ≠ consumer →
          (Precedes (split.finalTraversal parent) source consumer ↔
            Precedes split.rootDsp.traversal source id) := by
  obtain ⟨program, split, ready, ran, root, hot, _, inlined⟩ := tone_split
  obtain ⟨other, groups, ranOther, _, placed⟩ := inlining_keeps_reads tone_accepted ready
  cases ran.symm.trans ranOther
  refine ⟨program, split, tone_accepted, ready, ran, root, hot, inlined, ?_⟩
  intro group member
  obtain ⟨parent, last, consumer, _, outs, reader, _, _, sides⟩ := placed group member
  exact ⟨parent, last, consumer, outs, reader, fun id inGroup source sourceLeft reads other =>
    (sides id inGroup source sourceLeft reads other).1⟩

end Patchbay.Program
