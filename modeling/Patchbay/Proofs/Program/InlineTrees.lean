import Patchbay.Proofs.Program.Composition

namespace Patchbay

/-- Two runs over a list agree when their steps do on the states that the first run comes through. -/
theorem Outcome.foldlM_congr {α β : Type} {first second : β → α → Outcome β} {items : List α}
    {initial : β} (invariant : β → Prop) (start : invariant initial)
    (same : ∀ state, ∀ item ∈ items, invariant state → first state item = second state item)
    (kept : ∀ state, ∀ item ∈ items, ∀ after, invariant state → first state item = .ok after →
      invariant after) : items.foldlM first initial = items.foldlM second initial := by
  induction items generalizing initial with
  | nil => rfl
  | cons item rest ih =>
      rw [List.foldlM_cons, List.foldlM_cons, ← same initial item (List.mem_cons_self ..) start]
      cases stepped : first initial item with
      | error fault => rfl
      | ok after =>
          exact ih (kept initial item (List.mem_cons_self ..) after start stepped)
            (fun state other later => same state other (List.mem_cons_of_mem _ later))
            fun state other later => kept state other (List.mem_cons_of_mem _ later)

namespace Program

/-! Inline groups are trees.

Composing the expression of a node goes back to its sources and remembers nothing of where it has been.
It comes to an end because an inlined node has one reader, which stands after it in the root order, also
where the graph has feedback.  For the same reason the branches at a node never meet, so the walk from
the out node of an inline group comes past every member once.
-/

variable {base program after : Program} {groups : List DspGroup} {parent group : DspGroup}
  {graph : Graph} {node : Node} {id last source member : String}
  {members others pending order : List String} {log now : List WiringEvent}
  {known : Option Catalog} {reporter : Reporter} {catalog : Catalog} {library : Library}
  {settings : Settings}

/-- The way of a composition through pending nodes: those that are members are composed, each after its
own sources.  The list gives them in the order in which they are finished. -/
inductive Expands (graph : Graph) (members : List String) : List String → List String → Prop where
  | done : Expands graph members [] []
  | skip {id : String} {rest order : List String} (outside : id ∉ members)
      (later : Expands graph members rest order) : Expands graph members (id :: rest) order
  | visit {id : String} {node : Node} {rest before after : List String} (inside : id ∈ members)
      (found : graph.node? id = some node)
      (sources : Expands graph members ((feeds node).map Prod.snd) before)
      (later : Expands graph members rest after) :
      Expands graph members (id :: rest) (before ++ id :: after)

namespace Expands

theorem unique {other : List String} (one : Expands graph members pending order)
    (two : Expands graph members pending other) : order = other := by
  induction one generalizing other with
  | done =>
      cases two
      rfl
  | skip outside _ ih =>
      cases two with
      | skip _ later => exact ih later
      | visit inside => exact absurd inside outside
  | visit inside found _ _ sourcesIH laterIH =>
      cases two with
      | skip outside => exact absurd inside outside
      | visit _ foundAgain sources later =>
          rw [found] at foundAgain
          cases foundAgain
          rw [sourcesIH sources, laterIH later]

theorem append {more later : List String} (first : Expands graph members pending order)
    (second : Expands graph members more later) :
    Expands graph members (pending ++ more) (order ++ later) := by
  induction first with
  | done => exact second
  | skip outside _ ih => exact .skip outside ih
  | visit inside found sources _ _ ih =>
      rw [List.cons_append, List.append_assoc, List.cons_append]
      exact .visit inside found sources ih

end Expands

/-- Inlined nodes that hold everything that is inlined into one of them. -/
structure Closed (base : Program) (members : List String) : Prop where
  inlined : ∀ id ∈ members, id ∈ base.inlined
  sources : ∀ {source id}, id ∈ members → base.InlinedInto source id → source ∈ members

namespace Closed

theorem of_reaches (closed : base.Closed members) (inside : id ∈ members)
    (line : Relation.ReflTransGen base.InlinedInto source id) : source ∈ members := by
  induction line using Relation.ReflTransGen.head_induction_on with
  | refl => exact inside
  | head step _ ih => exact closed.sources ih step

theorem suffices_of_mem (closed : base.Closed members) (inside : id ∈ members) :
    base.Suffices members id where
  inlined := closed.inlined
  complete _ line := closed.of_reaches inside line

theorem exists_node (closed : base.Closed members) (held : base.SplitInto groups) (inside : id ∈ members) :
    ∃ node, base.graph.node? id = some node :=
  held.rooted.known (held.mem_root_of_inlined (closed.inlined id inside))

end Closed

theorem SplitInto.feeds_of_mem (held : base.SplitInto groups)
    (found : base.graph.node? id = some node) {feed : String × String} (member : feed ∈ feeds node) :
    base.graph.Feeds feed.2 id := by
  obtain ⟨source, fed, isSource⟩ := (mem_feeds_iff held.wellFormed found).mp member
  exact isSource ▸ Graph.feeds_of_signalSource? held.wellFormed fed

/-- The nodes that are inlined into a node through its feeds are those that lead to it. -/
theorem SplitInto.leads_iff (held : base.SplitInto groups) (closed : base.Closed members)
    (inside : id ∈ members) (found : base.graph.node? id = some node) :
    Relation.ReflTransGen base.InlinedInto member id ↔ member = id ∨
      ∃ source ∈ (feeds node).map Prod.snd, source ∈ members ∧
        Relation.ReflTransGen base.InlinedInto member source := by
  constructor
  · intro line
    rcases Relation.ReflTransGen.cases_tail line with same | ⟨source, line, step⟩
    · exact .inl same.symm
    · obtain ⟨feed, isFeed, rfl⟩ := exists_feed found step.1
      exact .inr ⟨_, List.mem_map_of_mem isFeed, closed.sources inside step, line⟩
  · rintro (rfl | ⟨source, isSource, sourceInside, line⟩)
    · exact .refl
    · obtain ⟨feed, isFeed, rfl⟩ := List.mem_map.mp isSource
      exact line.tail ⟨held.feeds_of_mem found isFeed, closed.inlined _ sourceInside⟩

/-- The branches at a node that are composed have no node in common. -/
theorem SplitInto.branches_disjoint (held : base.SplitInto groups) (closed : base.Closed members)
    (found : base.graph.node? id = some node) :
    ((feeds node).map Prod.snd).Pairwise fun first second =>
      first ∈ members → second ∈ members → ∀ member,
        Relation.ReflTransGen base.InlinedInto member first →
          ¬ Relation.ReflTransGen base.InlinedInto member second := by
  refine List.pairwise_map.mpr ((feeds_nodup (held.wellFormed.fits found)).imp_of_mem ?_)
  intro first second isFirst isSecond different inside otherInside member line otherLine
  have step : base.InlinedInto first.2 id := ⟨held.feeds_of_mem found isFirst, closed.inlined _ inside⟩
  have otherStep : base.InlinedInto second.2 id :=
    ⟨held.feeds_of_mem found isSecond, closed.inlined _ otherInside⟩
  have sameSource := held.branches_apart step otherStep line otherLine
  -- one source at two inlets would have two signal sinks
  obtain ⟨source, fed, isSource⟩ := (mem_feeds_iff held.wellFormed found).mp isFirst
  obtain ⟨other, otherFed, isOther⟩ := (mem_feeds_iff held.wellFormed found).mp isSecond
  have sameInlet := held.inlet_unique (isSource ▸ step.2) fed otherFed
    (by rw [isOther, isSource, sameSource])
  exact different (Prod.ext (congrArg Endpoint.portlet sameInlet) sameSource)

namespace Expands

theorem mem_iff (run : Expands base.graph members pending order) (held : base.SplitInto groups)
    (closed : base.Closed members) : member ∈ order ↔
      ∃ id ∈ pending, id ∈ members ∧ Relation.ReflTransGen base.InlinedInto member id := by
  induction run with
  | done => simp
  | skip outside _ ih =>
      rw [ih]
      simp [outside]
  | visit inside found _ _ sourcesIH laterIH =>
      simp only [List.mem_append, List.mem_cons, sourcesIH, laterIH, exists_eq_or_imp, inside,
        true_and, held.leads_iff closed inside found]
      rw [or_assoc, or_left_comm]

theorem nodup (run : Expands base.graph members pending order) (held : base.SplitInto groups)
    (closed : base.Closed members) (apart : pending.Pairwise fun first second =>
      first ∈ members → second ∈ members → ∀ member,
        Relation.ReflTransGen base.InlinedInto member first →
          ¬ Relation.ReflTransGen base.InlinedInto member second) : order.Nodup := by
  induction run with
  | done => exact List.nodup_nil
  | skip _ _ ih => exact ih (List.pairwise_cons.mp apart).2
  | @visit id node rest before after inside found sources later sourcesIH laterIH =>
      obtain ⟨fromRest, restApart⟩ := List.pairwise_cons.mp apart
      have later_not_leads : ∀ member ∈ after, ¬ Relation.ReflTransGen base.InlinedInto member id := by
        intro member isLater line
        obtain ⟨other, isPending, otherInside, otherLine⟩ := (later.mem_iff held closed).mp isLater
        exact fromRest other isPending inside otherInside member line otherLine
      have before_leads : ∀ member ∈ before, member ≠ id ∧
          Relation.ReflTransGen base.InlinedInto member id := by
        intro member isBefore
        obtain ⟨source, isSource, sourceInside, line⟩ := (sources.mem_iff held closed).mp isBefore
        refine ⟨?_, (held.leads_iff closed inside found).mpr (.inr ⟨_, isSource, sourceInside, line⟩)⟩
        rintro rfl
        obtain ⟨feed, isFeed, rfl⟩ := List.mem_map.mp isSource
        exact held.not_reaches_source
          ⟨held.feeds_of_mem found isFeed, closed.inlined _ sourceInside⟩ line
      refine List.nodup_append.mpr ⟨sourcesIH (held.branches_disjoint closed found), ?_, ?_⟩
      · refine List.nodup_cons.mpr ⟨fun isLater => ?_, laterIH restApart⟩
        exact later_not_leads id isLater .refl
      · rintro member isBefore other isOther rfl
        rcases List.mem_cons.mp isOther with rfl | isLater
        · exact (before_leads member isBefore).1 rfl
        · exact later_not_leads member isLater (before_leads member isBefore).2

end Expands

/-- A composition comes to an end: it goes back in the root order with every member. -/
theorem SplitInto.exists_expands (held : base.SplitInto groups) (closed : base.Closed members)
    (pending : List String) : ∃ order, Expands base.graph members pending order := by
  suffices bounded : ∀ bound, ∀ pending : List String,
      (∀ id ∈ pending, id ∈ members → base.rootDsp.traversal.idxOf id < bound) →
        ∃ order, Expands base.graph members pending order from
    bounded (base.rootDsp.traversal.length + 1) pending
      fun id _ _ => Nat.lt_succ_of_le List.idxOf_le_length
  intro bound
  induction bound using Nat.strong_induction_on with
  | _ bound earlier =>
  intro pending within
  induction pending with
  | nil => exact ⟨[], .done⟩
  | cons id rest ih =>
      obtain ⟨later, expandsRest⟩ := ih fun other isLater => within other (List.mem_cons_of_mem _ isLater)
      by_cases inside : id ∈ members
      · obtain ⟨node, found⟩ := closed.exists_node held inside
        have bounded := within id (List.mem_cons_self ..) inside
        obtain ⟨before, expandsSources⟩ := earlier _ bounded ((feeds node).map Prod.snd) <| by
          intro source isSource sourceInside
          obtain ⟨feed, isFeed, rfl⟩ := List.mem_map.mp isSource
          exact held.place_lt_reader (closed.inlined _ sourceInside) (held.feeds_of_mem found isFeed)
        exact ⟨_, .visit inside found expandsSources expandsRest⟩
      · exact ⟨later, .skip inside expandsRest⟩

/-! ## The composition takes this way -/

/-- One call of the composition: the expression of a node, with the expressions of the members among its
sources.  It asks for these as often as it comes to a source. -/
def composeNode (compose : Program → String → Outcome (String × Program)) (members : List String)
    (program : Program) (id : String) : Outcome (String × Program) := do
  let node ← program.graph.node id
  let _ ← program.nodes.get id
  let program ← (feeds node).foldlM (fun program feed =>
    if feed.2 ∈ members then do
      let (expression, program) ← compose program feed.2
      return program.setInlet id feed.1 ("(" ++ expression ++ ")")
    else return program) program
  let (node, dsp, program) ← program.generateDsp id
  match dsp.expression with
  | none => throw (.missingExpression id node.type)
  | some expression => do
      let text ← flatText expression
      return (text, program)

theorem composeNode_congr {first second : Program → String → Outcome (String × Program)}
    (sameGraph : program.graph = base.graph) (found : base.graph.node? id = some node)
    (sameMembers : ∀ feed ∈ feeds node, feed.2 ∈ members ↔ feed.2 ∈ others)
    (same : ∀ {program : Program}, program.graph = base.graph → ∀ feed ∈ feeds node,
      feed.2 ∈ members → first program feed.2 = second program feed.2)
    (kept : ∀ {program after : Program} {text source}, first program source = .ok (text, after) →
      after.graph = program.graph) :
    composeNode first members program id = composeNode second others program id := by
  unfold composeNode
  rw [sameGraph, Graph.node_eq_ok_iff.mpr found]
  change (program.nodes.get id >>= _) = (program.nodes.get id >>= _)
  refine bind_congr fun _ => congrArg (fun run : Outcome Program => run >>= _) ?_
  refine Outcome.foldlM_congr (fun state => state.graph = base.graph) sameGraph ?_ ?_
  · intro state feed isFeed stateGraph
    by_cases inside : feed.2 ∈ members
    · rw [if_pos inside, if_pos ((sameMembers feed isFeed).mp inside), same stateGraph feed isFeed inside]
    · rw [if_neg inside, if_neg fun outside => inside ((sameMembers feed isFeed).mpr outside)]
  · intro state feed next _ stateGraph stepped
    split at stepped
    · obtain ⟨⟨text, composed⟩, composing, stepped⟩ := Outcome.bind_eq_ok_iff.mp stepped
      cases stepped
      exact (kept composing).trans stateGraph
    · cases stepped
      exact stateGraph

theorem inlineExpression_eq_composeNode (present : id ∈ members) :
    program.inlineExpression members id =
      composeNode (fun program source => program.inlineExpression (without members id) source)
        (without members id) program id :=
  inlineExpression_eq members present

theorem Suffices.mem_without_iff (enough : base.Suffices members id) (held : base.SplitInto groups)
    (feeding : base.graph.Feeds source id) : source ∈ without members id ↔ source ∈ base.inlined := by
  constructor
  · exact fun inner => enough.inlined source (List.mem_of_mem_filter inner)
  · exact fun isInlined => (enough.without_self held ⟨feeding, isInlined⟩).complete source .refl

theorem Closed.mem_iff_of_feeds (closed : base.Closed members) (inside : id ∈ members)
    (feeding : base.graph.Feeds source id) : source ∈ members ↔ source ∈ base.inlined :=
  ⟨closed.inlined source, fun isInlined => closed.sources inside ⟨feeding, isInlined⟩⟩

namespace SplitInto

/-- A composition finds all it needs among any members that suffice. -/
theorem inlineExpression_congr (held : base.SplitInto groups) (sameGraph : program.graph = base.graph)
    (enough : base.Suffices members id) (enoughToo : base.Suffices others id) :
    program.inlineExpression members id = program.inlineExpression others id := by
  induction place : base.rootDsp.traversal.idxOf id using Nat.strong_induction_on
    generalizing program id members others with
  | _ place ih =>
  subst place
  have present := enough.complete id .refl
  have isInlined := enough.inlined id present
  obtain ⟨node, found⟩ := held.rooted.known (held.mem_root_of_inlined isInlined)
  rw [inlineExpression_eq_composeNode present,
    inlineExpression_eq_composeNode (enoughToo.complete id .refl)]
  refine composeNode_congr sameGraph found (fun feed isFeed => ?_) ?_ ?_
  · have feeding := held.feeds_of_mem found isFeed
    rw [enough.mem_without_iff held feeding, enoughToo.mem_without_iff held feeding]
  · intro program sameGraph feed isFeed inner
    have feeding := held.feeds_of_mem found isFeed
    have step : base.InlinedInto feed.2 id := ⟨feeding, (enough.mem_without_iff held feeding).mp inner⟩
    exact ih _ (held.place_lt_reader step.2 feeding) sameGraph (enough.without_self held step)
      (enoughToo.without_self held step) rfl
  · exact fun composing => (Keeps.inlineExpression composing).graph

/-- The composition need not keep a node from being composed in itself: that never comes up. -/
theorem inlineExpression_eq_unguarded (held : base.SplitInto groups) (closed : base.Closed members)
    (sameGraph : program.graph = base.graph) (inside : id ∈ members) :
    program.inlineExpression members id =
      composeNode (fun program source => program.inlineExpression members source) members program id := by
  obtain ⟨node, found⟩ := closed.exists_node held inside
  have enough := closed.suffices_of_mem inside
  rw [inlineExpression_eq_composeNode inside]
  refine composeNode_congr sameGraph found (fun feed isFeed => ?_) ?_ ?_
  · have feeding := held.feeds_of_mem found isFeed
    rw [enough.mem_without_iff held feeding, closed.mem_iff_of_feeds inside feeding]
  · intro program sameGraph feed isFeed inner
    have feeding := held.feeds_of_mem found isFeed
    have isInlined := (enough.mem_without_iff held feeding).mp inner
    exact held.inlineExpression_congr sameGraph (enough.without_self held ⟨feeding, isInlined⟩)
      (closed.suffices_of_mem (closed.sources inside ⟨feeding, isInlined⟩))
  · exact fun composing => (Keeps.inlineExpression composing).graph

end SplitInto

theorem run_bind_eq_ok_iff {α β : Type} {logged : Logged α} {next : α → Logged β}
    {result : β × List WiringEvent} : (logged >>= next).run log = .ok result ↔
      ∃ value between, logged.run log = .ok (value, between) ∧ (next value).run between = .ok result := by
  rw [StateT.run_bind, Outcome.bind_eq_ok_iff]
  exact Prod.exists

theorem run_lift_eq_ok_iff {α : Type} {outcome : Outcome α} {value : α} :
    (liftM outcome : Logged α).run log = .ok (value, now) ↔ outcome = .ok value ∧ log = now := by
  cases outcome with
  | error fault => simp [liftM, monadLift, MonadLift.monadLift, StateT.lift, StateT.run, bind, Except.bind]
  | ok found =>
      simp [liftM, monadLift, MonadLift.monadLift, StateT.lift, StateT.run, bind, Except.bind, pure,
        Except.pure]

theorem generatedIn_of_noteGenerator {nothing : Unit}
    (run : (program.noteGenerator id).run log = .ok (nothing, now)) :
    generatedIn now = generatedIn log ++ [id] := by
  rw [run_noteGenerator] at run
  obtain ⟨⟨scope, opened⟩, _, run⟩ := Outcome.bind_eq_ok_iff.mp run
  obtain ⟨⟨node, dsp, filled⟩, _, run⟩ := Outcome.bind_eq_ok_iff.mp run
  cases run
  rw [generatedIn_append, generatedIn_generate]

theorem run_closeExpression {generated : Node × Dsp × Program} {result : String × Program}
    (run : (closeExpression id generated).run log = .ok (result, now)) : log = now := by
  unfold closeExpression at run
  cases isExpression : generated.2.1.expression with
  | none =>
      rw [isExpression] at run
      cases run
  | some expression =>
      rw [isExpression] at run
      dsimp only at run
      rw [run_bind_eq_ok_iff] at run
      obtain ⟨text, between, flat, run⟩ := run
      obtain ⟨_, rfl⟩ := run_lift_eq_ok_iff.mp flat
      cases run
      rfl

/-- A composition generates the audio code of the nodes that it comes past, in order. -/
theorem SplitInto.composes_expansion (held : base.SplitInto groups) (closed : base.Closed members)
    (sameGraph : program.graph = base.graph) (enough : base.Suffices others id) (inside : id ∈ members)
    {result : String × Program}
    (run : (program.inlineExpressionLogged others id).run log = .ok (result, now)) :
    ∃ order, Expands base.graph members [id] order ∧ generatedIn now = generatedIn log ++ order := by
  induction size : others.length using Nat.strong_induction_on
    generalizing program others id log now result with
  | _ size ih =>
  subst size
  have present := enough.complete id .refl
  obtain ⟨node, found⟩ := closed.exists_node held inside
  rw [inlineExpressionLogged_eq others present,
    run_lift_bind (Graph.node_eq_ok_iff.mpr (sameGraph ▸ found))] at run
  obtain ⟨_, _, looked, run⟩ := run_bind_eq_ok_iff.mp run
  obtain ⟨_, rfl⟩ := run_lift_eq_ok_iff.mp looked
  obtain ⟨fed, between, absorbing, run⟩ := run_bind_eq_ok_iff.mp run
  obtain ⟨_, noted, noting, run⟩ := run_bind_eq_ok_iff.mp run
  obtain ⟨generated, _, generating, run⟩ := run_bind_eq_ok_iff.mp run
  obtain ⟨_, rfl⟩ := run_lift_eq_ok_iff.mp generating
  obtain rfl := run_closeExpression run
  have sources : fed.graph = base.graph ∧
      ∃ order, Expands base.graph members ((feeds node).map Prod.snd) order ∧
        generatedIn between = generatedIn log ++ order := by
    unfold absorb at absorbing
    rw [run_foldlM] at absorbing
    refine Outcome.foldlM_invariant (fun done (state : Program × List WiringEvent) =>
      state.1.graph = base.graph ∧ ∃ order, Expands base.graph members (done.map Prod.snd) order ∧
        generatedIn state.2 = generatedIn log ++ order)
      ⟨sameGraph, [], .done, by simp⟩ (fun done feed state next isFeed earlier stepped => ?_) absorbing
    obtain ⟨stateGraph, order, expands, grown⟩ := earlier
    have feeding := held.feeds_of_mem found isFeed
    dsimp only at stepped
    split at stepped
    · next inner =>
      have step : base.InlinedInto feed.2 id := ⟨feeding, (enough.mem_without_iff held feeding).mp inner⟩
      obtain ⟨⟨text, composed⟩, reached, composing, stepped⟩ := run_bind_eq_ok_iff.mp stepped
      obtain ⟨more, expandsFeed, grownFeed⟩ := ih _ (length_without present) stateGraph
        (enough.without_self held step) (closed.sources inside step) composing rfl
      have kept : composed.graph = state.1.graph := by
        have plain := (inlineExpression_erases (without others id) feed.2 : Erases _ (state.1.inlineExpression _ _)) state.2
        rw [composing] at plain
        exact (Keeps.inlineExpression plain.symm).graph
      cases stepped
      refine ⟨kept.trans stateGraph, order ++ more, ?_, ?_⟩
      · rw [List.map_append]
        exact expands.append expandsFeed
      · rw [generatedIn_append, generatedIn_write, List.append_nil, grownFeed, grown, List.append_assoc]
    · next outer =>
      cases stepped
      have solid : feed.2 ∉ members := fun member =>
        outer ((enough.mem_without_iff held feeding).mpr (closed.inlined _ member))
      refine ⟨stateGraph, order, ?_, grown⟩
      rw [List.map_append, ← List.append_nil order]
      exact expands.append (.skip solid .done)
  obtain ⟨_, order, expands, grown⟩ := sources
  refine ⟨order ++ [id], .visit inside found expands .done, ?_⟩
  rw [generatedIn_of_noteGenerator noting, grown, List.append_assoc]

/-! ## Graphs that were checked -/

theorem isInlinable_iff : program.isInlinable parent id = true ↔
    id ∈ parent.traversal ∧ id ∉ parent.outNodes ∧ ∃ node implementation,
      program.graph.node? id = some node ∧
      program.catalog.implementation? node.type = some implementation ∧
      implementation.isInline = true ∧ node.signalSinks.length = 1 := by
  unfold isInlinable
  cases found : program.graph.node? id with
  | none => simp
  | some node =>
      cases given : program.catalog.implementation? node.type with
      | none => simp [given]
      | some implementation => simp [given, and_assoc]

theorem filter_eq_singleton (distinct : (groups.flatMap DspGroup.traversal).Nodup)
    (member : id ∈ groups.flatMap DspGroup.traversal) :
    ∃ group, groups.filter (fun group => group.traversal.contains id) = [group] := by
  induction groups with
  | nil => cases member
  | cons first rest ih =>
      rw [List.flatMap_cons, List.nodup_append] at distinct
      obtain ⟨_, restDistinct, apart⟩ := distinct
      rw [List.flatMap_cons, List.mem_append] at member
      by_cases inFirst : id ∈ first.traversal
      · refine ⟨first, ?_⟩
        have elsewhere : rest.filter (fun group => group.traversal.contains id) = [] := by
          refine List.filter_eq_nil_iff.mpr fun group isLater inGroup => ?_
          exact apart id inFirst id (List.mem_flatMap.mpr ⟨group, isLater, by simpa using inGroup⟩) rfl
        rw [List.filter_cons_of_pos (by simpa using inFirst), elsewhere]
      · obtain ⟨group, only⟩ := ih restDistinct (member.resolve_left inFirst)
        exact ⟨group, by simpa [inFirst] using only⟩

/-- An inline group that leads to its last node as a tree. -/
structure InlineTree (split : Program) (parent group : DspGroup) (last : String) : Prop where
  outs : group.outNodes = [last]
  within : ∀ id ∈ group.traversal, id ∈ parent.traversal
  /-- The one sink of a member is another member; that of the last node is in the parent and stays. -/
  reader : ∀ id ∈ group.traversal, ∃ node sink, split.graph.node? id = some node ∧
    node.signalSinks = [sink] ∧
    if id = last then sink.node ∈ parent.traversal ∧ sink.node ∉ split.inlined
    else sink.node ∈ group.traversal ∧ sink.node ≠ id
  /-- The composition keeps no account of where it has been, and needs none. -/
  unguarded : ∀ program id, program.graph = split.graph → id ∈ group.traversal →
    program.inlineExpression group.traversal id =
      composeNode (fun program source => program.inlineExpression group.traversal source)
        group.traversal program id
  /-- Its way from the last node is finite and comes past every member once. -/
  expands : ∃ order, Expands split.graph group.traversal [last] order ∧ order.Nodup ∧
    (∀ id, id ∈ order ↔ id ∈ group.traversal) ∧
    ∀ (program : Program) log result now, program.graph = split.graph →
      (program.inlineExpressionLogged group.traversal last).run log = .ok (result, now) →
        generatedIn now = generatedIn log ++ order

theorem SplitInto.closed_inlineGroup (held : base.SplitInto groups)
    (isParent : parent ∈ base.parents groups) (inlineGroup : base.InlineGroupOf parent group last) :
    base.Closed group.traversal where
  inlined := (held.suffices_inlineGroup isParent inlineGroup).inlined
  sources := by
    intro source id inside step
    rw [held.mem_inlineGroup_iff isParent inlineGroup] at inside ⊢
    exact .head step inside

theorem SplitInto.inlineTree (held : base.SplitInto groups) (isParent : parent ∈ base.parents groups)
    (inlineGroup : base.InlineGroupOf parent group last) : base.InlineTree parent group last := by
  have closed := held.closed_inlineGroup isParent inlineGroup
  have lastInside : last ∈ group.traversal := inlineGroup.ordered.covers last (by simp)
  refine ⟨inlineGroup.outs, ?_, ?_, ?_, ?_⟩
  · exact fun id inGroup => mem_of_isInlinable (inlineGroup.inlinable held.wellFormed inGroup)
  · intro id inGroup
    obtain ⟨node, only, found, single, _⟩ :=
      isInlinable_facts (inlineGroup.inlinable held.wellFormed inGroup)
    have reads : ∀ sink, base.graph.Feeds id sink ↔ only.node = sink := fun sink =>
      held.wellFormed.feeds_iff_of_single found single
    refine ⟨node, only, found, single, ?_⟩
    split
    · next isLast =>
      subst isLast
      obtain ⟨_, sink, feeding, inParent, notInlinable⟩ := inlineGroup.isEnd
      rw [(reads sink).mp feeding, held.inlined_iff isParent inParent, notInlinable]
      exact ⟨inParent, Bool.false_ne_true⟩
    · next inner =>
      have line := (inlineGroup.mem_iff held.wellFormed).mp inGroup
      rcases Relation.ReflTransGen.cases_head line with same | ⟨next, step, rest⟩
      · exact absurd same inner
      · rw [(reads next).mp step.1]
        refine ⟨(inlineGroup.mem_iff held.wellFormed).mpr rest, fun same => ?_⟩
        have later := held.place_lt_reader (closed.inlined id inGroup) step.1
        rw [same] at later
        exact Nat.lt_irrefl _ later
  · exact fun program id sameGraph inside => held.inlineExpression_eq_unguarded closed sameGraph inside
  · obtain ⟨order, expands⟩ := held.exists_expands closed [last]
    refine ⟨order, expands, expands.nodup held closed (List.pairwise_singleton ..), fun id => ?_, ?_⟩
    · rw [expands.mem_iff held closed, held.mem_inlineGroup_iff isParent inlineGroup]
      simp [lastInside]
    · intro program log result now sameGraph run
      obtain ⟨visits, again, grown⟩ := held.composes_expansion closed sameGraph
        (closed.suffices_of_mem lastInside) lastInside run
      rw [grown, expands.unique again]

/-- What is inlined is shared out among inline groups that are disjoint trees, and the composition of
every one of them comes to an end after every member was composed once. -/
theorem inline_groups_are_trees (accepted : (graph.check known reporter).2 = .ok ())
    (ready : beforeSplit graph catalog library settings = .ok program) :
    ∃ split groups, program.splitSignal = .ok split ∧ split.coldGroups = .ok groups ∧
      (∀ parent ∈ split.parents groups, ∀ id ∈ parent.traversal, id ∈ split.inlined ↔
        id ∉ parent.outNodes ∧ ∃ node implementation, split.graph.node? id = some node ∧
          split.catalog.implementation? node.type = some implementation ∧
          implementation.isInline = true ∧ node.signalSinks.length = 1) ∧
      (∀ id, id ∈ split.inlined ↔
        ∃ group, split.inlineDsp.filter (fun group => group.traversal.contains id) = [group]) ∧
      ∀ group ∈ split.inlineDsp, ∃ parent ∈ split.parents groups, ∃ last,
        split.InlineTree parent group last := by
  obtain ⟨split, groups, ran, held⟩ := splitSignal_of_check accepted ready
  refine ⟨split, groups, ran, held.coldGroups, ?_, fun id => ⟨fun isInlined => ?_, ?_⟩, ?_⟩
  · intro parent isParent id member
    rw [held.inlined_iff isParent member, isInlinable_iff]
    exact and_iff_right member
  · have distinct := (List.nodup_append.mp held.shared_nodup).2.1
    exact filter_eq_singleton distinct (held.mem_inlineDsp_iff.mpr isInlined)
  · rintro ⟨group, only⟩
    have member : group ∈ split.inlineDsp.filter fun group => group.traversal.contains id := by
      rw [only]
      exact List.mem_singleton_self group
    obtain ⟨registered, inGroup⟩ := List.mem_filter.mp member
    exact held.mem_inlineDsp_iff.mp (List.mem_flatMap.mpr ⟨group, registered, by simpa using inGroup⟩)
  · intro group registered
    obtain ⟨parent, isParent, last, inlineGroup⟩ := held.exists_inline_parent registered
    exact ⟨parent, isParent, last, held.inlineTree isParent inlineGroup⟩

/-! Two oscillators `o` and `k` in a feedback loop.  The way from `k` back to `o` leads over the inlined
`p`; in front of the output `d`, the branches `y` and `w`, `z` of a tree meet in `x`. -/

def feedbackNode (id type : String) (sources sinks : List (String × String)) : Node where
  id := id
  type := type
  inlets := sources.map fun (inlet, _) => ⟨inlet, .signal⟩
  outlets := [⟨"0", .signal⟩]
  sources := .ofList (sources.map fun (inlet, source) => (inlet, [⟨source, "0"⟩]))
  sinks := .ofList [("0", sinks.map fun (sink, inlet) => ⟨sink, inlet⟩)]

def feedbackNodes : List Node :=
  [feedbackNode "k" "osc" [("0", "o")] [("p", "0"), ("w", "0")],
   feedbackNode "p" "op" [("0", "k")] [("o", "0")],
   feedbackNode "o" "osc" [("0", "p")] [("k", "0"), ("y", "0")],
   feedbackNode "w" "op" [("0", "k")] [("z", "0")],
   feedbackNode "z" "op" [("0", "w")] [("x", "1")],
   feedbackNode "y" "op" [("0", "o")] [("x", "0")],
   feedbackNode "x" "op" [("0", "y"), ("1", "z")] [("d", "0")],
   { feedbackNode "d" "dac" [("0", "x")] [] with outlets := [], sinks := ∅, isPullingSignal := true }]

def feedbackGraph : Graph := ⟨.ofList (feedbackNodes.map fun node => (node.id, some node))⟩

theorem feedback_split : ∃ program split,
    beforeSplit feedbackGraph toneCatalog toneLibrary {} = .ok program ∧
      program.splitSignal = .ok split ∧
      split.rootDsp.traversal = ["k", "p", "o", "y", "w", "z", "x", "d"] ∧
      split.inlineDsp.map DspGroup.traversal = [["p"], ["y", "w", "z", "x"]] := by
  have evaluated : (do
      let program ← beforeSplit feedbackGraph toneCatalog toneLibrary {}
      let split ← program.splitSignal
      return (split.rootDsp.traversal, split.inlineDsp.map DspGroup.traversal)) =
      Except.ok (["k", "p", "o", "y", "w", "z", "x", "d"], [["p"], ["y", "w", "z", "x"]]) := by
    cbv
  obtain ⟨program, ready, evaluated⟩ := Outcome.bind_eq_ok_iff.mp evaluated
  obtain ⟨split, ran, evaluated⟩ := Outcome.bind_eq_ok_iff.mp evaluated
  have lists := Except.ok.inj evaluated
  simp only [Prod.mk.injEq] at lists
  exact ⟨program, split, ready, ran, lists⟩

theorem inline_groups_are_trees_feedback :
    ∃ program split groups,
      (feedbackGraph.check (some toneCatalog) .discarding).2 = .ok () ∧
      beforeSplit feedbackGraph toneCatalog toneLibrary {} = .ok program ∧
      program.splitSignal = .ok split ∧ split.coldGroups = .ok groups ∧
      split.inlineDsp.map DspGroup.traversal = [["p"], ["y", "w", "z", "x"]] ∧
      ∀ group ∈ split.inlineDsp, ∃ parent ∈ split.parents groups, ∃ last,
        split.InlineTree parent group last := by
  obtain ⟨program, split, ready, ran, _, inlined⟩ := feedback_split
  have accepted : (feedbackGraph.check (some toneCatalog) .discarding).2 = .ok () := by cbv
  obtain ⟨other, groups, ranOther, grouped, _, _, trees⟩ := inline_groups_are_trees accepted ready
  cases ran.symm.trans ranOther
  exact ⟨program, split, groups, accepted, ready, ran, grouped, inlined, trees⟩

end Program

end Patchbay
