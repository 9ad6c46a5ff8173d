import Patchbay.Proofs.Program.Emission

namespace Patchbay.Program

/-! Inline groups are composed.

The inlined nodes that lead to a node form a tree, because each of them has one reader.  Composing the
expression of a node walks this tree from the leaves to the root: it generates the audio code of every
node in it once, and it writes all inlets between them.
-/

open Outcome (Ends ends_pure)

variable {base wired program : Program} {groups : List DspGroup} {group : DspGroup}
  {id source : String} {node : Node} {log now : List WiringEvent} {inlet : Endpoint}

/-! ## Where inlined nodes are read -/

namespace SplitInto

theorem mem_loopNodes_iff (held : base.SplitInto groups) :
    id ∈ base.loopNodes ↔ id ∈ base.rootDsp.traversal ∧ id ∉ base.inlined := by
  have parents : base.loopNodes = (base.parents groups).flatMap base.left := by
    unfold loopNodes
    rw [held.hotDsp, held.coldDsp_values]
    rfl
  rw [parents, List.mem_flatMap]
  constructor
  · rintro ⟨parent, isParent, member⟩
    obtain ⟨inParent, solid⟩ := (held.mem_left_iff isParent).mp member
    exact ⟨held.mem_root isParent inParent, solid⟩
  · rintro ⟨listed, solid⟩
    obtain ⟨parent, isParent, inParent⟩ := held.exists_parent listed
    exact ⟨parent, isParent, (held.mem_left_iff isParent).mpr ⟨inParent, solid⟩⟩

theorem shared_nodup (held : base.SplitInto groups) :
    (base.loopNodes ++ base.inlineDsp.flatMap DspGroup.traversal).Nodup :=
  held.perm_root.nodup_iff.mpr held.rooted.distinct

theorem mem_inlineDsp_iff (held : base.SplitInto groups) :
    id ∈ base.inlineDsp.flatMap DspGroup.traversal ↔ id ∈ base.inlined := by
  constructor
  · intro member
    obtain ⟨group, registered, inGroup⟩ := List.mem_flatMap.mp member
    obtain ⟨parent, isParent, last, inlineGroup⟩ := held.exists_inline_parent registered
    exact (held.suffices_inlineGroup isParent inlineGroup).inlined id inGroup
  · intro isInlined
    obtain ⟨parent, isParent, inlinable⟩ := (held.inlined id).mp isInlined
    have listed := held.mem_root isParent (mem_of_isInlinable inlinable)
    rcases List.mem_append.mp (held.perm_root.mem_iff.mpr listed) with inLoop | inline
    · exact absurd isInlined (held.mem_loopNodes_iff.mp inLoop).2
    · exact inline

theorem mem_root_of_inlined (held : base.SplitInto groups) (isInlined : id ∈ base.inlined) :
    id ∈ base.rootDsp.traversal := by
  obtain ⟨parent, isParent, inlinable⟩ := (held.inlined id).mp isInlined
  exact held.mem_root isParent (mem_of_isInlinable inlinable)

/-- What feeds a signal node and is not inlined has a loop statement. -/
theorem mem_loopNodes_of_feeds (held : base.SplitInto groups) (listed : id ∈ base.rootDsp.traversal)
    (feeds : base.graph.Feeds source id) (solid : source ∉ base.inlined) :
    source ∈ base.loopNodes :=
  held.mem_loopNodes_iff.mpr
    ⟨held.rooted.mem_of_reaches held.wellFormed listed (.single feeds), solid⟩

theorem inlinedInto_rightUnique (held : base.SplitInto groups) :
    Relator.RightUnique base.InlinedInto := by
  intro id sink other first second
  obtain ⟨parent, _, inlinable⟩ := (held.inlined id).mp first.2
  exact reader_unique held.wellFormed inlinable first.1 second.1

/-- The sources of a node that are inlined into it lead to it apart from each other. -/
theorem branches_apart (held : base.SplitInto groups) {other member : String}
    (step : base.InlinedInto source id) (otherStep : base.InlinedInto other id)
    (reaches : Relation.ReflTransGen base.InlinedInto member source)
    (reachesOther : Relation.ReflTransGen base.InlinedInto member other) : source = other := by
  -- two branches that share a node are on one line, and a source cannot lead past its reader
  have cannotPass : ∀ {first second : String}, base.InlinedInto first id →
      base.InlinedInto second id → Relation.ReflTransGen base.InlinedInto first second →
      first = second := by
    intro first second firstStep secondStep line
    rcases Relation.ReflTransGen.cases_head line with same | ⟨next, isNext, rest⟩
    · exact same
    · cases held.inlinedInto_rightUnique isNext firstStep
      have before := Suffices.place_le held rest
      have after := held.place_lt_reader secondStep.2 secondStep.1
      omega
  rcases reaches.total_of_right_unique held.inlinedInto_rightUnique reachesOther with line | line
  · exact cannotPass step otherStep line
  · exact (cannotPass otherStep step line).symm

/-- An inlined node is read at one inlet. -/
theorem inlet_unique (held : base.SplitInto groups) {other : Endpoint} {source otherSource : Endpoint}
    (isInlined : source.node ∈ base.inlined) (fed : base.graph.signalSource? inlet = some source)
    (otherFed : base.graph.signalSource? other = some otherSource)
    (same : otherSource.node = source.node) : inlet = other := by
  obtain ⟨parent, _, inlinable⟩ := (held.inlined _).mp isInlined
  obtain ⟨node, only, found, single, _⟩ := isInlinable_facts inlinable
  obtain ⟨_, _, stored, _, _, isSink⟩ := Graph.recorded_of_signalSource? held.wellFormed fed
  obtain ⟨_, _, otherStored, _, _, otherSink⟩ :=
    Graph.recorded_of_signalSource? held.wellFormed otherFed
  rw [found] at stored
  rw [same, found] at otherStored
  cases stored
  cases otherStored
  rw [single, List.mem_singleton] at isSink otherSink
  exact isSink.trans otherSink.symm

theorem not_reaches_source (held : base.SplitInto groups) (step : base.InlinedInto source id) :
    ¬ Relation.ReflTransGen base.InlinedInto id source := by
  intro line
  have before := Suffices.place_le held line
  have after := held.place_lt_reader step.2 step.1
  omega

end SplitInto

/-- The feeds of a node are its signal inlets that have a source. -/
theorem mem_feeds_iff (wellFormed : base.graph.WellFormed) (found : base.graph.node? id = some node)
    {feed : String × String} : feed ∈ feeds node ↔
      ∃ source, base.graph.signalSource? ⟨id, feed.1⟩ = some source ∧ source.node = feed.2 := by
  unfold feeds
  rw [List.mem_flatMap]
  constructor
  · rintro ⟨portlet, isInlet, member⟩
    obtain ⟨source, fed, rfl⟩ := List.mem_map.mp member
    obtain ⟨isMember, isSignal⟩ := List.mem_filter.mp isInlet
    refine ⟨source, (Graph.signalSource?_eq_some_iff wellFormed).mpr ?_, rfl⟩
    exact ⟨node, portlet, found, isMember, decide_eq_true_eq.mp isSignal, rfl, fed⟩
  · rintro ⟨source, fed, isSource⟩
    obtain ⟨stored, portlet, isStored, isInlet, isSignal, sameId, feeding⟩ :=
      (Graph.signalSource?_eq_some_iff wellFormed).mp fed
    rw [found] at isStored
    cases isStored
    refine ⟨portlet, List.mem_filter.mpr ⟨isInlet, decide_eq_true_eq.mpr isSignal⟩, ?_⟩
    exact List.mem_map.mpr ⟨source, feeding, by rw [sameId, isSource]⟩

theorem exists_feed (found : base.graph.node? id = some node) (feeding : base.graph.Feeds source id) :
    ∃ feed ∈ feeds node, feed.2 = source := by
  obtain ⟨endpoint, member, rfl⟩ := (Graph.feeds_iff found).mp feeding
  obtain ⟨portlet, isInlet, fed⟩ := List.mem_flatMap.mp member
  exact ⟨(portlet.id, endpoint.node),
    List.mem_flatMap.mpr ⟨portlet, isInlet, List.mem_map_of_mem fed⟩, rfl⟩

theorem feeds_nodup (fits : node.FitsIn base.graph id) : (feeds node).Nodup := by
  unfold feeds
  refine List.nodup_flatMap.mpr ⟨fun portlet isInlet => ?_, ?_⟩
  · obtain ⟨isMember, isSignal⟩ := List.mem_filter.mp isInlet
    have atMostOne := fits.single_source isMember (decide_eq_true_eq.mp isSignal)
    match sources : node.sourcesOf portlet.id with
    | [] => simp
    | [source] => simp
    | first :: second :: rest =>
        rw [sources] at atMostOne
        simp at atMostOne
  · have distinct : ((node.inletsOfType .signal).map Portlet.id).Nodup :=
      fits.inletsDistinct.sublist (List.filter_sublist.map _)
    refine (List.pairwise_map.mp distinct).imp fun apart => ?_
    refine List.disjoint_left.mpr fun feed inFirst inSecond => apart ?_
    obtain ⟨_, _, rfl⟩ := List.mem_map.mp inFirst
    obtain ⟨_, _, same⟩ := List.mem_map.mp inSecond
    exact (congrArg Prod.fst same).symm

/-! ## Composing -/

/-- What is fixed while audio code is generated. -/
structure Stage (base wired : Program) (groups : List DspGroup) : Prop where
  split : base.SplitInto groups
  framed : base.Framed
  start : ∃ names nodes, wired = { base with names, nodes }

/-- The expression of a node was composed, with everything that is inlined into the node. -/
structure Composes (base wired : Program) (log : List WiringEvent) (id text : String)
    (program : Program) (now : List WiringEvent) : Prop extends Emitting base wired program now where
  solid : program.solid? = wired.solid?
  grown : ∃ more, now = log ++ more
  composed : Composed now id text
  generated : ∀ {member}, member ∈ generatedIn now ↔
    member ∈ generatedIn log ∨ Relation.ReflTransGen base.InlinedInto member id

/-- Some feeds of a node were worked off. -/
structure Absorbed (base wired : Program) (log : List WiringEvent) (id : String)
    (done : List (String × String)) (program : Program) (now : List WiringEvent) : Prop
    extends Emitting base wired program now where
  solid : program.solid? = wired.solid?
  grown : ∃ more, now = log ++ more
  generated : ∀ {member}, member ∈ generatedIn now ↔ member ∈ generatedIn log ∨
    ∃ feed ∈ done, base.InlinedInto feed.2 id ∧
      Relation.ReflTransGen base.InlinedInto member feed.2
  written : ∀ feed ∈ done, feed.2 ∈ base.inlined → Written now ⟨id, feed.1⟩

theorem Absorbed.skip {done : List (String × String)} {feed : String × String}
    (held : Absorbed base wired log id done program now) (solid : feed.2 ∉ base.inlined) :
    Absorbed base wired log id (done ++ [feed]) program now where
  toEmitting := held.toEmitting
  solid := held.solid
  grown := held.grown
  generated := by
    intro member
    rw [held.generated]
    refine or_congr_right ⟨?_, ?_⟩
    · rintro ⟨earlier, isDone, rest⟩
      exact ⟨earlier, List.mem_append_left _ isDone, rest⟩
    · rintro ⟨other, isDone, step, rest⟩
      rcases List.mem_append.mp isDone with earlier | last
      · exact ⟨other, earlier, step, rest⟩
      · cases List.mem_singleton.mp last
        exact absurd step.2 solid
  written other isDone isInlined := by
    rcases List.mem_append.mp isDone with earlier | last
    · exact held.written other earlier isInlined
    · cases List.mem_singleton.mp last
      exact absurd isInlined solid

theorem Absorbed.unread {done : List (String × String)} (split : base.SplitInto groups)
    (held : Absorbed base wired log id done program now) (unread : id ∉ generatedIn log) :
    id ∉ generatedIn now := by
  intro generated
  rcases held.generated.mp generated with earlier | ⟨_, _, step, line⟩
  · exact unread earlier
  · exact split.not_reaches_source step line

/-- What is upstream of a node along inlined nodes is the node, or upstream of one of its feeds. -/
theorem mem_line_iff {member : String} : Relation.ReflTransGen base.InlinedInto member id ↔
    (∃ source, base.InlinedInto source id ∧ Relation.ReflTransGen base.InlinedInto member source) ∨
      member = id := by
  constructor
  · intro line
    rcases Relation.ReflTransGen.cases_tail line with same | ⟨source, line, step⟩
    · exact .inr same.symm
    · exact .inl ⟨source, step, line⟩
  · rintro (⟨source, step, line⟩ | rfl)
    · exact line.tail step
    · exact .refl

theorem Absorbed.generated_feeds (held : Absorbed base wired log id (feeds node) program now)
    (found : base.graph.node? id = some node) {member : String} : member ∈ generatedIn now ↔
      member ∈ generatedIn log ∨
        ∃ source, base.InlinedInto source id ∧ Relation.ReflTransGen base.InlinedInto member source := by
  rw [held.generated]
  refine or_congr_right ⟨fun ⟨feed, _, step, line⟩ => ⟨_, step, line⟩, ?_⟩
  rintro ⟨source, step, line⟩
  obtain ⟨feed, isFeed, rfl⟩ := exists_feed found step.1
  exact ⟨feed, isFeed, step, line⟩

theorem Absorbed.absorb {done : List (String × String)} {feed : String × String} {text : String}
    {after : Program} {later : List WiringEvent} (stage : Stage base wired groups)
    (held : Absorbed base wired log id done program now) (found : base.graph.node? id = some node)
    (isInlined : id ∈ base.inlined) (unread : id ∉ generatedIn log) {source : Endpoint}
    (fed : base.graph.signalSource? ⟨id, feed.1⟩ = some source) (isSource : source.node = feed.2)
    (step : base.InlinedInto feed.2 id) (composes : Composes base wired now feed.2 text after later) :
    Absorbed base wired log id (done ++ [feed]) (after.setInlet id feed.1 ("(" ++ text ++ ")"))
      (later ++ [.write .inlineExpression ⟨id, feed.1⟩ ("(" ++ text ++ ")")]) := by
  have framed := stage.framed.of_keeps composes.keeps
  have foundNow : after.graph.node? id = some node := composes.keeps.graph ▸ found
  obtain ⟨entry, stored⟩ := framed.entry foundNow
  have fresh : id ∉ generatedIn later := by
    intro generated
    rcases composes.generated.mp generated with earlier | line
    · exact held.unread stage.split unread earlier
    · exact stage.split.not_reaches_source step line
  have isWriter : base.inletWriter ⟨id, feed.1⟩ = .inlineExpression := by
    simp [inletWriter, fed, isSource, step.2, isInlined]
  have carries : base.Carries later ⟨id, feed.1⟩ ("(" ++ text ++ ")") := by
    unfold Carries
    simp only [fed, isSource, step.2, if_true]
    exact ⟨text, composes.composed, rfl⟩
  have emitting : Emitting base wired (after.setInlet id feed.1 ("(" ++ text ++ ")"))
      (later ++ [.write (base.inletWriter ⟨id, feed.1⟩) ⟨id, feed.1⟩ ("(" ++ text ++ ")")]) :=
    composes.toEmitting.write stored (hasSignalInlet_of_fed stage.split.wellFormed fed) fresh carries
  rw [isWriter] at emitting
  obtain ⟨first, grownFirst⟩ := held.grown
  obtain ⟨second, grownSecond⟩ := composes.grown
  refine ⟨emitting, ?_, ?_, ?_, ?_⟩
  · exact solid?_setInlet.trans composes.solid
  · exact ⟨first ++ second ++ [_], by rw [grownSecond, grownFirst, List.append_assoc, List.append_assoc,
      List.append_assoc]⟩
  · intro member
    rw [generatedIn_append, generatedIn_write, List.append_nil, composes.generated, held.generated,
      or_assoc]
    simp only [List.mem_append, List.mem_singleton, or_and_right, exists_or, exists_eq_left, step,
      true_and]
  · intro other isDone otherInlined
    rcases List.mem_append.mp isDone with earlier | last
    · rw [grownSecond]
      exact (held.written other earlier otherInlined).mono.mono
    · cases List.mem_singleton.mp last
      exact ⟨_, _, List.mem_append_right _ (List.mem_singleton_self _)⟩

/-- All signal inlets of a node are written once those that an inlined node feeds are. -/
theorem Emitting.complete (emitting : Emitting base wired program log) (split : base.SplitInto groups)
    (listed : id ∈ base.rootDsp.traversal)
    (written : ∀ inlet source, base.graph.signalSource? ⟨id, inlet⟩ = some source →
      source.node ∈ base.inlined → Written log ⟨id, inlet⟩)
    {inlet : String} (hasInlet : base.HasSignalInlet ⟨id, inlet⟩) : Written log ⟨id, inlet⟩ := by
  cases fed : base.graph.signalSource? ⟨id, inlet⟩ with
  | none => exact emitting.unfed _ hasInlet fed
  | some source =>
      by_cases isInlined : source.node ∈ base.inlined
      · exact written inlet source fed isInlined
      · have feeds := Graph.feeds_of_signalSource? split.wellFormed fed
        exact emitting.fed _ source fed (split.mem_loopNodes_of_feeds listed feeds isInlined)

theorem ends_flatText (expression : Code.Sequence) :
    Ends (flatText expression) (fun fault => ∃ part, fault = .declarationInExpression part ∧
      flatText expression = .error (.declarationInExpression part))
      fun text => flatText expression = .ok text := by
  induction expression with
  | nil => exact ends_pure rfl
  | cons part rest ih =>
      cases part with
      | text value =>
          cases ran : flatText rest with
          | ok text =>
              have joined : flatText (.text value :: rest) = .ok (value ++ text) := by
                rw [flatText, ran]
                rfl
              rw [joined]
              exact ends_pure rfl
          | error fault =>
              rw [ran] at ih
              obtain ⟨kind, rfl, _⟩ := ih
              have failed : flatText (.text value :: rest) = .error (.declarationInExpression kind) := by
                rw [flatText, ran]
                rfl
              rw [failed]
              exact ⟨kind, rfl, rfl⟩
      | _ => exact ⟨_, rfl, rfl⟩

/-- Composes the sources of a node that are among some members, and writes the inlets that they feed. -/
def absorb (program : Program) (members : List String) (id : String)
    (pairs : List (String × String)) : Logged Program :=
  pairs.foldlM (fun program feed =>
    if feed.2 ∈ members then do
      let (expression, program) ← program.inlineExpressionLogged members feed.2
      program.writeInlet .inlineExpression ⟨id, feed.1⟩ ("(" ++ expression ++ ")")
    else return program) program

/-- The text of the expression of a node. -/
def closeExpression (id : String) (generated : Node × Dsp × Program) : Logged (String × Program) :=
  match generated.2.1.expression with
  | none => throw (.missingExpression id generated.1.type)
  | some expression => do
      let text ← flatText expression
      return (text, generated.2.2)

theorem inlineExpressionLogged_eq (members : List String) (present : id ∈ members) :
    program.inlineExpressionLogged members id = (do
      let node ← program.graph.node id
      let _ ← program.nodes.get id
      let program ← program.absorb (without members id) id (feeds node)
      program.noteGenerator id
      let generated ← program.generateDsp id
      closeExpression id generated) := by
  rw [inlineExpressionLogged, dif_pos present]
  rfl

/-- The feeds of a node are absorbed one by one, given that each of its inlined sources can be
composed. -/
theorem Stage.absorb_ends (stage : Stage base wired groups) {members : List String}
    (emitting : Emitting base wired program log) (same : program.solid? = wired.solid?)
    (enough : base.Suffices members id) (found : base.graph.node? id = some node)
    (unread : ∀ member, Relation.ReflTransGen base.InlinedInto member id →
      member ∉ generatedIn log)
    (compose : ∀ {program source log}, Emitting base wired program log →
      program.solid? = wired.solid? → base.Suffices (without members id) source →
      (∀ member, Relation.ReflTransGen base.InlinedInto member source → member ∉ generatedIn log) →
      Ends ((program.inlineExpressionLogged (without members id) source).run log) wired.AudioFault
        fun result => Composes base wired log source result.1.1 result.1.2 result.2) :
    Ends ((program.absorb (without members id) id (feeds node)).run log) wired.AudioFault fun result =>
      Absorbed base wired log id (feeds node) result.1 result.2 := by
  have split := stage.split
  have isInlined : id ∈ base.inlined := enough.inlined id (enough.complete id .refl)
  unfold absorb
  rw [run_foldlM]
  refine Outcome.ends_foldlM (fun done (state : Program × List WiringEvent) =>
    Absorbed base wired log id done state.1 state.2) ?_ ?_
  · exact ⟨emitting, same, ⟨[], by simp⟩, by simp, by simp⟩
  · intro done feed rest state isSplit held
    have member : feed ∈ feeds node := by simp [isSplit]
    obtain ⟨source, fed, isSource⟩ := (mem_feeds_iff split.wellFormed found).mp member
    have feeds' : base.graph.Feeds feed.2 id := isSource ▸ Graph.feeds_of_signalSource? split.wellFormed fed
    by_cases inner : feed.2 ∈ without members id
    · have step : base.InlinedInto feed.2 id :=
        ⟨feeds', enough.inlined _ (List.mem_of_mem_filter inner)⟩
      have untouched : ∀ member, Relation.ReflTransGen base.InlinedInto member feed.2 →
          member ∉ generatedIn state.2 := by
        intro member line generated
        rcases held.generated.mp generated with earlier | ⟨other, isDone, otherStep, otherLine⟩
        · exact unread member (line.tail step) earlier
        · -- a shared branch comes from one source, which feeds one inlet
          have sameSource := split.branches_apart step otherStep line otherLine
          obtain ⟨otherSource, otherFed, isOther⟩ := (mem_feeds_iff split.wellFormed found).mp
            (show other ∈ feeds node by rw [isSplit]; exact List.mem_append_left _ isDone)
          have sameInlet := split.inlet_unique (isSource ▸ step.2) fed otherFed
            (by rw [isOther, isSource, sameSource])
          have sameFeed : feed = other := Prod.ext (congrArg Endpoint.portlet sameInlet) sameSource
          exact (fresh_of_nodup (feeds_nodup (split.wellFormed.fits found)) isSplit).1
            (sameFeed ▸ isDone)
      rw [if_pos inner]
      refine ends_run_bind (compose held.toEmitting held.solid (enough.without_self split step)
        untouched) fun composed now _ composes => ?_
      exact held.absorb stage found isInlined (unread id .refl) fed isSource step composes
    · have solid : feed.2 ∉ base.inlined := fun feedInlined =>
        inner ((enough.without_self split ⟨feeds', feedInlined⟩).complete feed.2 .refl)
      rw [if_neg inner]
      exact ends_pure (held.skip solid)

/-- Once its feeds are absorbed, the code of an inlined node is generated and its expression is
composed. -/
theorem Stage.close_ends (stage : Stage base wired groups) (isInlined : id ∈ base.inlined)
    (found : base.graph.node? id = some node) (unread : id ∉ generatedIn log)
    (absorbed : Absorbed base wired log id (feeds node) program now) :
    Ends ((do
        program.noteGenerator id
        let generated ← program.generateDsp id
        closeExpression id generated : Logged (String × Program)).run now) wired.AudioFault
      fun result => Composes base wired log id result.1.1 result.1.2 result.2 := by
  have split := stage.split
  have listed := split.mem_root_of_inlined isInlined
  have foundNow : program.graph.node? id = some node := absorbed.keeps.graph ▸ found
  have framed := stage.framed.of_keeps absorbed.keeps
  obtain ⟨entry, stored⟩ := framed.entry foundNow
  have complete : ∀ {inlet}, base.HasSignalInlet ⟨id, inlet⟩ → Written now ⟨id, inlet⟩ := by
    refine absorbed.toEmitting.complete split listed fun inlet source isFed sourceInlined => ?_
    exact absorbed.written (inlet, source.node)
      ((mem_feeds_iff split.wellFormed found).mpr ⟨source, isFed, rfl⟩) sourceInlined
  have handed : ∀ {inlet}, program.HasSignalInlet ⟨id, inlet⟩ →
      ∃ code, entry.signalIns.get? inlet = some code :=
    fun hasInlet => absorbed.handed stored complete hasInlet
  have refused : ∀ {fault}, program.DspFault id fault → wired.AudioFault fault :=
    fun failed => absorbed.audioFault_of stage.start (congrFun absorbed.solid id) listed failed
  have inlinedNow : id ∈ program.inlined := absorbed.inlined_eq ▸ isInlined
  refine framed.noted_ends foundNow stored handed (fun _ => refused) fun dsp names generates took => ?_
  obtain ⟨asking, template, asks, isDsp⟩ := generates.asks handed
  cases asks.found.symm.trans foundNow
  have emitting := absorbed.toEmitting.generate stage.start (congrFun absorbed.solid id) foundNow stored
    (absorbed.unread split unread) complete generates took
  unfold closeExpression
  dsimp only
  cases isExpression : dsp.expression with
  | none =>
      rw [isDsp] at isExpression
      exact refused (.noExpression asks inlinedNow (Option.map_eq_none_iff.mp isExpression))
  | some expression =>
      have flattening : Ends (flatText expression) wired.AudioFault
          fun text => flatText expression = .ok text := by
        refine (ends_flatText expression).mono ?_ fun _ _ flat => flat
        rintro _ ⟨part, rfl, isPart⟩
        rw [isDsp] at isExpression
        obtain ⟨given, isGiven, rfl⟩ := Option.map_eq_some_iff.mp isExpression
        exact refused (.notFlat asks inlinedNow isGiven _ isPart)
      refine ends_lift_bind flattening fun text flat _ => ?_
      obtain ⟨more, rfl⟩ := absorbed.grown
      refine ends_pure ⟨emitting, absorbed.solid, ⟨_, List.append_assoc ..⟩, ?_, ?_⟩
      · exact ⟨_, dsp, expression, List.mem_append_right _ (List.mem_singleton_self _), isExpression, flat⟩
      · intro member
        rw [generatedIn_append, generatedIn_generate, List.mem_append, List.mem_singleton,
          absorbed.generated_feeds found, or_assoc]
        exact or_congr_right mem_line_iff.symm

theorem Stage.inlineExpression_ends (stage : Stage base wired groups) {members : List String}
    (emitting : Emitting base wired program log) (same : program.solid? = wired.solid?)
    (enough : base.Suffices members id)
    (unread : ∀ member, Relation.ReflTransGen base.InlinedInto member id →
      member ∉ generatedIn log) :
    Ends ((program.inlineExpressionLogged members id).run log) wired.AudioFault fun result =>
      Composes base wired log id result.1.1 result.1.2 result.2 := by
  induction size : members.length using Nat.strong_induction_on
    generalizing program members id log with
  | _ size ih =>
  subst size
  have present : id ∈ members := enough.complete id .refl
  have isInlined := enough.inlined id present
  obtain ⟨node, found⟩ := stage.split.rooted.known (stage.split.mem_root_of_inlined isInlined)
  have foundNow : program.graph.node? id = some node := emitting.keeps.graph ▸ found
  obtain ⟨entry, stored⟩ := (stage.framed.of_keeps emitting.keeps).entry foundNow
  rw [inlineExpressionLogged_eq members present, run_lift_bind (Graph.node_eq_ok_iff.mpr foundNow),
    run_lift_bind (register_get_eq_ok_iff.mpr stored)]
  refine ends_run_bind (stage.absorb_ends emitting same enough found unread ?_) fun fed now _ absorbed =>
    stage.close_ends isInlined found (unread id .refl) absorbed
  intro program source log emitting same enough unread
  exact ih _ (length_without present) emitting same enough unread rfl

/-! ## Inline groups -/

theorem SplitInto.mem_inlineGroup_iff (held : base.SplitInto groups) {parent : DspGroup}
    (isParent : parent ∈ base.parents groups) {last member : String}
    (inlineGroup : base.InlineGroupOf parent group last) :
    member ∈ group.traversal ↔ Relation.ReflTransGen base.InlinedInto member last := by
  refine ⟨fun inGroup => ?_, (held.suffices_inlineGroup isParent inlineGroup).complete member⟩
  rw [inlineGroup.mem_iff held.wellFormed] at inGroup
  have inlined : ∀ source sink, base.ReadBy parent source sink → base.InlinedInto source sink :=
    fun source _ step => ⟨step.1, (held.inlined source).mpr ⟨parent, isParent, step.2⟩⟩
  exact Relation.ReflTransGen.mono inlined _ _ inGroup

/-- The last node of an inline group is read at one inlet, by a node that is not inlined. -/
theorem SplitInto.inlineGroup_reader (held : base.SplitInto groups) {parent : DspGroup}
    (isParent : parent ∈ base.parents groups) {last : String}
    (inlineGroup : base.InlineGroupOf parent group last) :
    ∃ node only source, base.graph.node? last = some node ∧ node.signalSinks = [only] ∧
      base.graph.signalSource? only = some source ∧ source.node = last ∧
      only.node ∉ base.inlined := by
  obtain ⟨inlinable, sink, feeds, inParent, notInlinable⟩ := inlineGroup.isEnd
  obtain ⟨node, only, found, single, _⟩ := isInlinable_facts inlinable
  obtain ⟨source, fed, isSource⟩ := Graph.signalSource?_of_mem_signalSinks held.wellFormed found
    (show only ∈ node.signalSinks by simp [single])
  refine ⟨node, only, source, found, single, fed, isSource, ?_⟩
  rw [(held.wellFormed.feeds_iff_of_single found single).mp feeds, held.inlined_iff isParent inParent,
    notInlinable]
  exact Bool.false_ne_true

/-- Some inline groups were composed and handed to their readers. -/
structure HandedOver (base wired : Program) (done : List DspGroup) (program : Program)
    (now : List WiringEvent) : Prop extends Emitting base wired program now where
  solid : program.solid? = wired.solid?
  generated : ∀ {member}, member ∈ generatedIn now ↔ ∃ group ∈ done, member ∈ group.traversal
  written : ∀ group ∈ done, ∀ last node sink, group.outNodes.head? = some last →
    base.graph.node? last = some node → node.signalSinks.head? = some sink → Written now sink

/-- A group that was composed is handed to the one inlet that reads it. -/
theorem HandedOver.handOver {done rest : List DspGroup} {parent : DspGroup} {last text : String}
    {only source : Endpoint} {after : Program} (stage : Stage base wired groups)
    (isSplit : base.inlineDsp = done ++ group :: rest) (held : HandedOver base wired done program log)
    (isParent : parent ∈ base.parents groups) (inlineGroup : base.InlineGroupOf parent group last)
    (found : base.graph.node? last = some node) (single : node.signalSinks = [only])
    (fed : base.graph.signalSource? only = some source) (isSource : source.node = last)
    (solidReader : only.node ∉ base.inlined) (composes : Composes base wired log last text after now)
    {entry : NodeCode} (stored : after.nodes.entries.get? only.node = some entry) :
    HandedOver base wired (done ++ [group]) (after.setInlet only.node only.portlet ("(" ++ text ++ ")"))
      (now ++ [.write .inlineGroup only ("(" ++ text ++ ")")]) := by
  have split := stage.split
  have enough := split.suffices_inlineGroup isParent inlineGroup
  have lastInlined := enough.inlined last (enough.complete last .refl)
  have generated : ∀ {member}, member ∈ generatedIn now ↔
      ∃ other ∈ done ++ [group], member ∈ other.traversal := by
    intro member
    rw [composes.generated, held.generated, ← split.mem_inlineGroup_iff isParent inlineGroup]
    simp only [List.mem_append, List.mem_singleton, or_and_right, exists_or, exists_eq_left]
  have fresh : only.node ∉ generatedIn now := by
    intro isGenerated
    obtain ⟨other, isDone, inOther⟩ := generated.mp isGenerated
    refine solidReader (split.mem_inlineDsp_iff.mp (List.mem_flatMap.mpr ⟨other, ?_, inOther⟩))
    rw [isSplit, List.append_cons]
    exact List.mem_append_left _ isDone
  have isWriter : base.inletWriter only = .inlineGroup := by
    simp [inletWriter, fed, isSource, lastInlined, solidReader]
  have carries : base.Carries now only ("(" ++ text ++ ")") := by
    unfold Carries
    simp only [fed, isSource, lastInlined, if_true]
    exact ⟨text, composes.composed, rfl⟩
  have emitting := composes.toEmitting.write stored (hasSignalInlet_of_fed split.wellFormed fed) fresh
    carries
  rw [isWriter] at emitting
  refine ⟨emitting, solid?_setInlet.trans composes.solid, ?_, ?_⟩
  · intro member
    rw [generatedIn_append, generatedIn_write, List.append_nil, generated]
  · intro other isDone otherLast otherNode sink isLast isNode isSink
    rcases List.mem_append.mp isDone with earlier | now
    · obtain ⟨more, rfl⟩ := composes.grown
      exact (held.written other earlier otherLast otherNode sink isLast isNode isSink).mono.mono
    · cases List.mem_singleton.mp now
      rw [inlineGroup.outs, List.head?_cons] at isLast
      cases isLast
      rw [found] at isNode
      cases isNode
      rw [single, List.head?_cons] at isSink
      cases isSink
      exact ⟨_, _, List.mem_append_right _ (List.mem_singleton_self _)⟩

theorem Stage.emitInlineGroup_ends (stage : Stage base wired groups) {done rest : List DspGroup}
    (isSplit : base.inlineDsp = done ++ group :: rest)
    (held : HandedOver base wired done program log) :
    Ends ((program.emitInlineGroupLogged group).run log) wired.AudioFault fun result =>
      HandedOver base wired (done ++ [group]) result.1 result.2 := by
  have split := stage.split
  obtain ⟨parent, isParent, last, inlineGroup⟩ := split.exists_inline_parent
    (show group ∈ base.inlineDsp by simp [isSplit])
  obtain ⟨node, only, source, found, single, fed, isSource, solidReader⟩ :=
    split.inlineGroup_reader isParent inlineGroup
  have enough := split.suffices_inlineGroup isParent inlineGroup
  have unread : ∀ member, Relation.ReflTransGen base.InlinedInto member last →
      member ∉ generatedIn log := by
    intro member line generated
    obtain ⟨other, isDone, inOther⟩ := held.generated.mp generated
    have distinct := (List.nodup_append.mp split.shared_nodup).2.1
    rw [isSplit, List.flatMap_append, List.flatMap_cons] at distinct
    refine (List.nodup_append.mp distinct).2.2 member (List.mem_flatMap.mpr ⟨other, isDone, inOther⟩)
      member (List.mem_append_left _ (enough.complete member line)) rfl
  unfold emitInlineGroupLogged
  rw [inlineGroup.outs]
  refine ends_run_bind (stage.inlineExpression_ends held.toEmitting held.solid enough unread)
    fun composed now _ composes => ?_
  obtain ⟨text, after⟩ := composed
  have foundNow : after.graph.node? last = some node := composes.keeps.graph ▸ found
  rw [run_lift_bind (Graph.node_eq_ok_iff.mpr foundNow), single]
  obtain ⟨readerNode, _, readerFound, _⟩ := (Graph.signalSource?_eq_some_iff split.wellFormed).mp fed
  have readerNow : after.graph.node? only.node = some readerNode := composes.keeps.graph ▸ readerFound
  obtain ⟨entry, stored⟩ := (stage.framed.of_keeps composes.keeps).entry readerNow
  dsimp only
  rw [run_lift_bind (register_get_eq_ok_iff.mpr stored), run_writeInlet]
  exact ends_pure (held.handOver stage isSplit isParent inlineGroup found single fed isSource solidReader
    composes stored)

/-- All inline groups are composed; afterwards every inlet that an inlined node feeds is written. -/
theorem Stage.compose_ends (stage : Stage base wired groups) (emitting : Emitting base wired wired log)
    (quiet : generatedIn log = []) :
    Ends ((base.inlineDsp.foldlM emitInlineGroupLogged wired).run log) wired.AudioFault fun result =>
      Emitting base wired result.1 result.2 ∧ result.1.solid? = wired.solid? ∧
      (∀ {member}, member ∈ generatedIn result.2 ↔ member ∈ base.inlined) ∧
      ∀ inlet source, base.graph.signalSource? inlet = some source → source.node ∈ base.inlined →
        inlet.node ∉ base.inlined → Written result.2 inlet := by
  have split := stage.split
  rw [run_foldlM]
  refine Ends.mono (Outcome.ends_foldlM (fun done (state : Program × List WiringEvent) =>
    HandedOver base wired done state.1 state.2) ?_ ?_) (fun _ fault => fault) fun result _ held => ?_
  · exact ⟨emitting, rfl, by simp [quiet], by simp⟩
  · intro done group rest state isSplit held
    exact stage.emitInlineGroup_ends isSplit held
  · refine ⟨held.toEmitting, held.solid, fun {member} => ?_, fun inlet source fed isInlined solid => ?_⟩
    · rw [held.generated, ← split.mem_inlineDsp_iff, List.mem_flatMap]
    · obtain ⟨found, isFound⟩ := Option.isSome_iff_exists.mp
        (split.expressionAt?_isSome fed isInlined solid)
      unfold expressionAt? at isFound
      obtain ⟨group, registered, matched⟩ := List.exists_of_findSome?_eq_some isFound
      simp only [Option.bind_eq_bind, Option.bind_eq_some_iff] at matched
      obtain ⟨last, isLast, node, isNode, reader⟩ := matched
      split at reader
      · next isReader => exact held.written group registered last node inlet isLast isNode isReader
      · cases reader

end Patchbay.Program
