import Patchbay.Proofs.Semantics.Settled

namespace Patchbay.Program

/-! One sample under both schedules.

The reference schedule goes through the whole root order, the compiled one through its hot part.  At
every point of that order the two agree on all states and on what hot nodes store; a cold node that
was passed stores its effective value, and so does an inlined hot node until its consumer is passed.
A hot node therefore reads the same under both schedules.  Writing it does not change what a pending
inlined node reads, by the order of reads and writes around the consumer.
-/

open Patchbay.Graph (Precedes)

variable {V : Type u} {M : Type v} {S : Type w} {program : Program} {behaviour : Behaviour V M S}
  {groups : List DspGroup} {group : DspGroup} {memory reference compiled : Memory V S}
  {done rest : List String} {id source : String}

/-- Inlined nodes have one signal outlet. -/
def SingleOutlets (program : Program) : Prop :=
  ∀ id node, program.graph.node? id = some node → program.isInline node = true →
    (node.outletsOfType .signal).length = 1

instance (program : Program) : Decidable program.SingleOutlets :=
  decidable_of_iff (∀ id ∈ program.graph.ids, ∀ node ∈ program.graph.node? id,
      program.isInline node = true → (node.outletsOfType .signal).length = 1)
    ⟨fun checked id node found => checked id (Graph.mem_ids_of_node? found) node found,
      fun single id _ node found => single id node found⟩

theorem SingleOutlets.portlet_eq (single : program.SingleOutlets) (held : program.SplitInto groups)
    {inlet source : Endpoint} (fed : program.graph.signalSource? inlet = some source)
    (isInlined : source.node ∈ program.inlined) :
    source.portlet = program.graph.firstOutlet source.node := by
  obtain ⟨parent, _, inlinable⟩ := (held.inlined _).mp isInlined
  obtain ⟨node, outlet, found, isOutlet, sameId, _⟩ :=
    Graph.recorded_of_signalSource? held.wellFormed fed
  have one := single source.node node found (isInline_of_isInlinable inlinable found)
  obtain ⟨only, outlets⟩ := List.length_eq_one_iff.mp one
  rw [outlets, List.mem_singleton] at isOutlet
  subst isOutlet
  simp [Graph.firstOutlet, found, outlets, sameId]

/-! ## The hot part of the root order -/

def isHot (program : Program) (id : String) : Bool :=
  !program.coldOf.contains id && !program.isInlinable program.hotParent id

theorem SplitInto.hotDsp_traversal (held : program.SplitInto groups) :
    program.hotDsp.traversal = program.rootDsp.traversal.filter program.isHot := by
  rw [held.hotDsp]
  change (program.rootDsp.traversal.filter _).filter _ = _
  rw [List.filter_filter]
  refine List.filter_congr fun id _ => ?_
  unfold isHot
  rw [Bool.and_comm]

theorem SplitInto.mem_hotDsp_iff (held : program.SplitInto groups) :
    id ∈ program.hotDsp.traversal ↔ id ∈ program.rootDsp.traversal ∧
      (∀ group ∈ groups, id ∉ group.traversal) ∧ id ∉ program.inlined := by
  rw [held.hotDsp, held.mem_left_iff (List.mem_cons_self ..), held.mem_hotParent_iff, and_assoc]

theorem SplitInto.keeps_of_not_hot (held : program.SplitInto groups)
    (keeps : program.KeepsParameters behaviour) (listed : id ∈ program.rootDsp.traversal)
    (notHot : id ∉ program.hotDsp.traversal) (inputs : String → V) (state : S) :
    (behaviour.step id inputs state).2 = state := by
  by_cases cold : ∃ group ∈ groups, id ∈ group.traversal
  · obtain ⟨group, isCold, member⟩ := cold
    exact keeps.of_cold ((held.coldGroupsOf.group group isCold).cold held.wellFormed member) _ _
  · have isInlined : id ∈ program.inlined := by
      by_contra solid
      refine notHot (held.mem_hotDsp_iff.mpr ⟨listed, ?_, solid⟩)
      exact fun group isCold member => cold ⟨group, isCold, member⟩
    obtain ⟨parent, _, inlinable⟩ := (held.inlined id).mp isInlined
    exact keeps.of_inlinable inlinable _ _

/-! ## Pending nodes -/

/-- A node that is inlined into the hot group, was passed, and is still to be read. -/
def Pending (program : Program) (done : List String) (id : String) : Prop :=
  id ∈ done ∧ ∃ last consumer, Relation.ReflTransGen (program.ReadBy program.hotParent) id last ∧
    program.InlineEnd program.hotParent last ∧ program.graph.Feeds last consumer ∧ consumer ∉ done

theorem Pending.inlined (pending : program.Pending done id) (held : program.SplitInto groups) :
    id ∈ program.inlined := by
  obtain ⟨_, last, _, reads, isEnd, _⟩ := pending
  refine (held.inlined id).mpr ⟨program.hotParent, List.mem_cons_self .., ?_⟩
  rcases Relation.ReflTransGen.cases_head reads with same | ⟨_, step, _⟩
  · exact same ▸ isEnd.1
  · exact step.2

theorem Pending.earlier {waiting : String} (pending : program.Pending (done ++ [id]) waiting)
    (passed : waiting ∈ done) : program.Pending done waiting := by
  obtain ⟨_, last, consumer, reads, isEnd, feeds, notConsumed⟩ := pending
  exact ⟨passed, last, consumer, reads, isEnd, feeds, fun consumed =>
    notConsumed (List.mem_append_left _ consumed)⟩

theorem SplitInto.pending_of_feeds (held : program.SplitInto groups)
    (split : program.rootDsp.traversal = done ++ id :: rest) (isInlined : source ∈ program.inlined)
    (notCold : ∀ group ∈ groups, source ∉ group.traversal)
    (feeds : program.graph.Feeds source id) : program.Pending done source := by
  have distinct := held.rooted.distinct
  rw [split] at distinct
  have notDone : id ∉ done := fun member =>
    (List.nodup_append.mp distinct).2.2 id member id (by simp) rfl
  have precedes := held.precedes_reader isInlined feeds
  rw [split] at precedes
  refine ⟨precedes.mem_done distinct (by simp), ?_⟩
  obtain ⟨parent, isParent, inlinable⟩ := (held.inlined source).mp isInlined
  have isHotParent : parent = program.hotParent := by
    rcases List.mem_cons.mp isParent with same | isCold
    · exact same
    · exact absurd (mem_of_isInlinable inlinable) (notCold parent isCold)
  subst isHotParent
  obtain ⟨last, isEnd, reads⟩ := (held.leadsOut isParent).exists_inlineEnd inlinable
  obtain ⟨consumer, feedsConsumer, _⟩ := isEnd.2
  refine ⟨last, consumer, reads, isEnd, feedsConsumer, fun consumed => notDone ?_⟩
  -- the line starts with the only reader, so the consumer is not listed before it
  obtain ⟨inner, beyond, hotLine⟩ := held.exists_hotLine isEnd feedsConsumer reads
  cases inner with
  | nil =>
      have step := (List.isChain_cons_cons.mp hotLine.chain).1
      rw [reader_unique held.wellFormed inlinable feeds step]
      exact consumed
  | cons next inner =>
      have step := (List.isChain_cons_cons.mp hotLine.chain).1
      have same := reader_unique held.wellFormed inlinable feeds step
      subst same
      have beforeConsumer : Precedes program.rootDsp.traversal id consumer := by
        refine List.Sublist.trans ?_ hotLine.listed
        refine List.Sublist.cons source (List.Sublist.cons_cons id ?_)
        exact List.singleton_sublist.mpr (by simp)
      rw [split] at beforeConsumer
      exact beforeConsumer.mem_done distinct (List.mem_append_left _ consumed)

/-- A pending node does not read the node that is written next. -/
theorem SplitInto.pending_not_reads (held : program.SplitInto groups)
    (split : program.rootDsp.traversal = done ++ id :: rest) (solid : id ∉ program.inlined)
    {waiting : String} (pending : program.Pending (done ++ [id]) waiting)
    (reads : program.Reads waiting source) : source ≠ id := by
  have distinct := held.rooted.distinct
  rw [split] at distinct
  have notDone : id ∉ done := fun member =>
    (List.nodup_append.mp distinct).2.2 id member id (by simp) rfl
  induction reads with
  | @direct waiting source feeds =>
      intro same
      subst same
      obtain ⟨passed, last, consumer, toLast, isEnd, feedsConsumer, notConsumed⟩ := pending
      obtain ⟨inner, beyond, hotLine⟩ := held.exists_hotLine isEnd feedsConsumer toLast
      have solidHot : program.isInlinable program.hotParent source = false := by
        cases inlinable : program.isInlinable program.hotParent source with
        | false => rfl
        | true =>
            exact absurd ((held.inlined source).mpr ⟨_, List.mem_cons_self .., inlinable⟩) solid
      rcases hotLine.source_cases feeds solidHot with before | same | later
      · rw [split] at before
        exact notDone (before.mem_done distinct passed)
      · exact notConsumed (by simp [same])
      · have after := hotLine.precedes_of_mem_beyond later
        rw [split] at after
        exact notConsumed (List.mem_append_left _ (after.mem_done distinct (by simp)))
  | @through waiting between source step reads ih =>
      obtain ⟨passed, last, consumer, toLast, isEnd, feedsConsumer, notConsumed⟩ := pending
      obtain ⟨parent, isParent, inlinable, waitingMember⟩ := held.exists_reader_parent step.2 step.1
      have waitingHot : waiting ∈ program.hotParent.traversal := by
        rcases Relation.ReflTransGen.cases_head toLast with same | ⟨_, next, _⟩
        · exact same ▸ mem_of_isInlinable isEnd.1
        · exact mem_of_isInlinable next.2
      have isHotParent := held.parent_unique isParent (List.mem_cons_self ..) waitingMember waitingHot
      subst isHotParent
      have precedes := held.precedes_reader step.2 step.1
      rw [split] at precedes
      have earlier := precedes.mem_done distinct passed
      exact ih ⟨List.mem_append_left _ earlier, last, consumer, .head ⟨step.1, inlinable⟩ toLast,
        isEnd, feedsConsumer, notConsumed⟩

/-! ## The invariant -/

/-- The two schedules after some nodes of the root order were passed. -/
structure InStep (program : Program) (behaviour : Behaviour V M S) (groups : List DspGroup)
    (done : List String) (reference compiled : Memory V S) : Prop where
  states : compiled.states = reference.states
  hot : ∀ id ∈ program.hotDsp.traversal, ∀ outlet,
    reference.values ⟨id, outlet⟩ = compiled.values ⟨id, outlet⟩
  settled : ∀ group ∈ groups, program.Settled behaviour compiled group
  passed : ∀ id ∈ done, ((∃ group ∈ groups, id ∈ group.traversal) ∨ program.Pending done id) →
    ∀ outlet, reference.values ⟨id, outlet⟩ = program.effectiveOutlets behaviour compiled id outlet

/-- The next node finds the effective values of the compiled schedule. -/
theorem InStep.storedInputs_eq (inStep : program.InStep behaviour groups done reference compiled)
    (held : program.SplitInto groups) (single : program.SingleOutlets)
    (split : program.rootDsp.traversal = done ++ id :: rest) :
    program.storedInputs behaviour reference id =
      program.effectiveInputs behaviour compiled id := by
  funext inlet
  unfold storedInputs effectiveInputs
  cases fed : program.graph.signalSource? ⟨id, inlet⟩ with
  | none => rfl
  | some source =>
      obtain ⟨sourceId, portlet⟩ := source
      have feeds : program.graph.Feeds sourceId id :=
        Graph.feeds_of_signalSource? held.wellFormed fed
      have listed : id ∈ program.rootDsp.traversal := by simp [split]
      have distinct := held.rooted.distinct
      rw [split] at distinct
      dsimp only
      -- for an inlined source it is enough that its effective value is stored
      have ofInlined (isInlined : sourceId ∈ program.inlined) (stored : ∀ outlet,
          reference.values ⟨sourceId, outlet⟩ =
            program.effectiveOutlets behaviour compiled sourceId outlet) :
          reference.values ⟨sourceId, portlet⟩ =
            program.effective behaviour compiled ⟨sourceId, portlet⟩ := by
        rw [held.effective_of_inlined isInlined, stored portlet]
        exact congrArg _ (single.portlet_eq held fed isInlined)
      by_cases cold : ∃ group ∈ groups, sourceId ∈ group.traversal
      · obtain ⟨group, isCold, member⟩ := cold
        have sourceCold := (held.coldGroupsOf.group group isCold).cold held.wellFormed member
        have precedes := held.rooted.precedes_of_cold held.wellFormed sourceCold listed feeds
        rw [split] at precedes
        have stored := inStep.passed sourceId (precedes.mem_done distinct (by simp))
          (.inl ⟨group, isCold, member⟩)
        by_cases isInlined : sourceId ∈ program.inlined
        · exact ofInlined isInlined stored
        · unfold effective
          rw [if_neg isInlined, stored portlet]
          have isLeft := (held.mem_left_iff (List.mem_cons_of_mem _ isCold)).mpr ⟨member, isInlined⟩
          exact (inStep.settled group isCold sourceId isLeft portlet).symm
      · have notCold : ∀ group ∈ groups, sourceId ∉ group.traversal :=
          fun group isCold member => cold ⟨group, isCold, member⟩
        by_cases isInlined : sourceId ∈ program.inlined
        · have pending := held.pending_of_feeds split isInlined notCold feeds
          exact ofInlined isInlined (inStep.passed sourceId pending.1 (.inr pending))
        · unfold effective
          rw [if_neg isInlined]
          have sourceListed := held.rooted.mem_of_reaches held.wellFormed listed (.single feeds)
          exact inStep.hot sourceId
            (held.mem_hotDsp_iff.mpr ⟨sourceListed, notCold, isInlined⟩) portlet

theorem InStep.pass (inStep : program.InStep behaviour groups done reference compiled)
    (held : program.SplitInto groups) (keeps : program.KeepsParameters behaviour)
    (single : program.SingleOutlets) (split : program.rootDsp.traversal = done ++ id :: rest)
    (notHot : id ∉ program.hotDsp.traversal) :
    program.InStep behaviour groups (done ++ [id])
      (stepNode behaviour (program.storedInputs behaviour reference id) reference id) compiled := by
  rw [inStep.storedInputs_eq held single split]
  have listed : id ∈ program.rootDsp.traversal := by simp [split]
  have sameStates : (stepNode behaviour (program.effectiveInputs behaviour compiled id) reference
      id).states = reference.states :=
    states_stepNode_of_kept (held.keeps_of_not_hot keeps listed notHot _ _)
  refine ⟨inStep.states.trans sameStates.symm, ?_, inStep.settled, ?_⟩
  · intro other isHot outlet
    have apart : other ≠ id := fun same => notHot (same ▸ isHot)
    rw [values_stepNode, if_neg apart]
    exact inStep.hot other isHot outlet
  · intro other isDone tracked outlet
    rw [values_stepNode]
    split
    · next same =>
      rw [same, ← inStep.states]
      rfl
    · next apart =>
      have earlier : other ∈ done := (List.mem_append.mp isDone).resolve_right fun last =>
        apart (List.mem_singleton.mp last)
      exact inStep.passed other earlier (tracked.imp_right fun pending => pending.earlier earlier)
        outlet

theorem InStep.run (inStep : program.InStep behaviour groups done reference compiled)
    (held : program.SplitInto groups) (single : program.SingleOutlets)
    (split : program.rootDsp.traversal = done ++ id :: rest)
    (isHot : id ∈ program.hotDsp.traversal) :
    program.InStep behaviour groups (done ++ [id])
      (stepNode behaviour (program.storedInputs behaviour reference id) reference id)
      (stepNode behaviour (program.compiledInputs behaviour compiled id) compiled id) := by
  obtain ⟨_, notCold, solid⟩ := held.mem_hotDsp_iff.mp isHot
  rw [inStep.storedInputs_eq held single split, held.compiledInputs_eq solid]
  generalize program.effectiveInputs behaviour compiled id = inputs
  have otherStates : ∀ other, other ≠ id →
      (stepNode behaviour inputs compiled id).states other = compiled.states other := by
    intro other apart
    rw [states_stepNode, if_neg apart]
  have otherValues : ∀ other outlet, other ≠ id →
      (stepNode behaviour inputs compiled id).values ⟨other, outlet⟩ =
        compiled.values ⟨other, outlet⟩ := by
    intro other outlet apart
    rw [values_stepNode, if_neg apart]
  refine ⟨?_, ?_, ?_, ?_⟩
  · funext other
    rw [states_stepNode, states_stepNode, inStep.states]
  · intro other isHotOther outlet
    rw [values_stepNode, values_stepNode, inStep.states]
    split
    · rfl
    · exact inStep.hot other isHotOther outlet
  · intro group isCold
    have apart : ∀ member ∈ group.traversal, member ≠ id := fun member isMember same =>
      notCold group isCold (same ▸ isMember)
    exact held.settled_congr isCold (fun member isMember => otherStates member (apart member isMember))
      (fun member isMember outlet => otherValues member outlet (apart member isMember))
      (inStep.settled group isCold)
  · intro other isDone tracked outlet
    have apart : other ≠ id := by
      intro same
      subst same
      rcases tracked with ⟨group, isCold, member⟩ | pending
      · exact notCold group isCold member
      · exact solid (pending.inlined held)
    have earlier : other ∈ done := (List.mem_append.mp isDone).resolve_right fun last =>
      apart (List.mem_singleton.mp last)
    have agrees : program.AgreesFor (stepNode behaviour inputs compiled id) compiled other := by
      intro source reads
      have unread : source ≠ id := by
        rcases tracked with ⟨group, isCold, member⟩ | pending
        · intro same
          subst same
          have cold := held.coldGroupsOf.group group isCold
          exact notCold group isCold (cold.of_reads held.wellFormed member reads).1
        · exact held.pending_not_reads split solid pending reads
      exact ⟨fun _ => otherStates source unread, fun _ portlet => otherValues source portlet unread⟩
    rw [values_stepNode, if_neg apart, inStep.passed other earlier
      (tracked.imp_right fun pending => pending.earlier earlier) outlet]
    unfold effectiveOutlets
    rw [held.effectiveInputs_congr agrees, otherStates other apart]

/-! ## The whole sample -/

/-- The two schedules between events. -/
structure Agrees (program : Program) (reference compiled : Memory V S) : Prop where
  states : compiled.states = reference.states
  hot : ∀ id ∈ program.hotDsp.traversal, ∀ outlet,
    compiled.values ⟨id, outlet⟩ = reference.values ⟨id, outlet⟩

/-- After a sample, cold groups store the same under both schedules too. -/
theorem SplitInto.sample_agrees (held : program.SplitInto groups)
    (keeps : program.KeepsParameters behaviour) (single : program.SingleOutlets)
    (agrees : program.Agrees reference compiled)
    (settled : ∀ group ∈ groups, program.Settled behaviour compiled group) :
    let reference' := (program.referenceSchedule behaviour).sample reference
    let compiled' := (program.compiledSchedule behaviour).sample compiled
    program.Agrees reference' compiled' ∧
      (∀ group ∈ groups, program.Settled behaviour compiled' group) ∧
      ∀ group ∈ groups, ∀ id ∈ program.left group, ∀ outlet,
        compiled'.values ⟨id, outlet⟩ = reference'.values ⟨id, outlet⟩ := by
  intro reference' compiled'
  have inStep : program.InStep behaviour groups program.rootDsp.traversal reference'
      (program.runNodes behaviour (program.rootDsp.traversal.filter program.isHot) compiled) := by
    refine foldl_invariant (fun done state => program.InStep behaviour groups done state
      (program.runNodes behaviour (done.filter program.isHot) compiled)) ?_ ?_
    · exact ⟨agrees.states, fun id isHot outlet => (agrees.hot id isHot outlet).symm, settled,
        fun _ isDone => absurd isDone List.not_mem_nil⟩
    · intro done id rest state split inStep
      have listed : id ∈ program.rootDsp.traversal := by simp [split]
      have hotIff : program.isHot id = true ↔ id ∈ program.hotDsp.traversal := by
        rw [held.hotDsp_traversal, List.mem_filter]
        exact ⟨fun isHot => ⟨listed, isHot⟩, And.right⟩
      rw [List.filter_append]
      cases isHot : program.isHot id with
      | true =>
          rw [List.filter_cons_of_pos isHot, List.filter_nil]
          unfold runNodes
          rw [List.foldl_append]
          exact inStep.run held single split (hotIff.mp isHot)
      | false =>
          rw [List.filter_cons_of_neg (by simp [isHot]), List.filter_nil, List.append_nil]
          refine inStep.pass held keeps single split fun member => ?_
          rw [hotIff.mpr member] at isHot
          cases isHot
  rw [← held.hotDsp_traversal] at inStep
  refine ⟨⟨inStep.states, fun id isHot outlet => (inStep.hot id isHot outlet).symm⟩,
    inStep.settled, ?_⟩
  intro group isCold id isLeft outlet
  have member := (List.mem_filter.mp isLeft).1
  have listed := held.mem_root (List.mem_cons_of_mem _ isCold) member
  rw [inStep.passed id listed (.inl ⟨group, isCold, member⟩) outlet]
  exact inStep.settled group isCold id isLeft outlet

end Patchbay.Program
