import Patchbay.Proofs.Program.InlineOrder
import Patchbay.Proofs.Semantics.Schedule

namespace Patchbay

/-! The values of inlined nodes.

`effective` gives every outlet a value, whether it is stored or computed where it is read.  A node
reads its effective inputs under the compiled schedule, and the effective value of an inlined node is
what a step of it would write.  An inlined node stands before its reader in the root order, so all of
this is proved by induction on the place of a node in that order.
-/

open Patchbay.Graph (Precedes)

namespace Graph

variable {graph : Graph} {id : String} {node : Node} {inlet source : Endpoint}

theorem signalSource?_eq_some_iff (wellFormed : graph.WellFormed) :
    graph.signalSource? inlet = some source ↔
      ∃ node portlet, graph.node? inlet.node = some node ∧ portlet ∈ node.inlets ∧
        portlet.type = .signal ∧ portlet.id = inlet.portlet ∧ source ∈ node.sourcesOf portlet.id := by
  unfold signalSource?
  simp only [Option.bind_eq_some_iff]
  constructor
  · intro given
    obtain ⟨node, found, portlet, isInlet, first⟩ := given
    have member := List.mem_of_find?_eq_some isInlet
    have sameId := List.find?_some isInlet
    simp only [Node.inletsOfType, List.mem_filter, decide_eq_true_eq] at member sameId
    exact ⟨node, portlet, found, member.1, member.2, sameId, List.mem_of_head? first⟩
  · intro given
    obtain ⟨node, portlet, found, member, signal, sameId, fed⟩ := given
    have fits := wellFormed.fits found
    have distinct : ((node.inletsOfType .signal).map Portlet.id).Nodup :=
      fits.inletsDistinct.sublist (List.filter_sublist.map _)
    refine ⟨node, found, portlet, ?_, ?_⟩
    · rw [← sameId]
      exact Node.find?_id_of_mem distinct
        (List.mem_filter.mpr ⟨member, decide_eq_true_eq.mpr signal⟩)
    · have single := fits.single_source member signal
      cases sources : node.sourcesOf portlet.id with
      | nil =>
          rw [sources] at fed
          cases fed
      | cons first rest =>
          rw [sources] at single fed
          have none : rest = [] := by
            cases rest with
            | nil => rfl
            | cons _ _ => simp at single
          subst none
          rw [List.mem_singleton.mp fed]
          rfl

theorem feeds_of_signalSource? (wellFormed : graph.WellFormed)
    (found : graph.signalSource? inlet = some source) : graph.Feeds source.node inlet.node := by
  obtain ⟨node, portlet, stored, member, signal, _, fed⟩ :=
    (signalSource?_eq_some_iff wellFormed).mp found
  exact ⟨node, stored, source, Node.mem_signalSources.mpr ⟨portlet, member, signal, fed⟩, rfl⟩

theorem recorded_of_signalSource? (wellFormed : graph.WellFormed)
    (found : graph.signalSource? inlet = some source) :
    ∃ node outlet, graph.node? source.node = some node ∧ outlet ∈ node.outletsOfType .signal ∧
      outlet.id = source.portlet ∧ inlet ∈ node.signalSinks := by
  obtain ⟨node, portlet, stored, member, signal, sameId, fed⟩ :=
    (signalSource?_eq_some_iff wellFormed).mp found
  obtain ⟨sourceNode, outlet, sourceFound, isOutlet, outletId, sameType, recorded⟩ :=
    wellFormed.source_of_inlet stored member fed
  have isSignal : outlet.type = .signal := sameType.trans signal
  refine ⟨sourceNode, outlet, sourceFound, ?_, outletId, ?_⟩
  · exact List.mem_filter.mpr ⟨isOutlet, decide_eq_true_eq.mpr isSignal⟩
  · rw [← outletId, sameId] at recorded
    exact Node.mem_signalSinks.mpr ⟨outlet, isOutlet, isSignal, recorded⟩

theorem signalSource?_of_mem_signalSinks (wellFormed : graph.WellFormed)
    (found : graph.node? id = some node) (member : inlet ∈ node.signalSinks) :
    ∃ source, graph.signalSource? inlet = some source ∧ source.node = id := by
  obtain ⟨outlet, isOutlet, signal, feeding⟩ := Node.mem_signalSinks.mp member
  obtain ⟨sinkNode, portlet, sinkFound, isInlet, sameId, sameType, recorded⟩ :=
    wellFormed.sink_of_outlet found isOutlet feeding
  refine ⟨⟨id, outlet.id⟩, (signalSource?_eq_some_iff wellFormed).mpr
    ⟨sinkNode, portlet, sinkFound, isInlet, sameType.trans signal, sameId, ?_⟩, rfl⟩
  rw [sameId]
  exact recorded

end Graph

namespace Program

variable {V : Type u} {M : Type v} {S : Type w} {program : Program} {behaviour : Behaviour V M S}
  {groups : List DspGroup} {parent group : DspGroup} {memory : Memory V S}
  {id source sink : String}

namespace SplitInto

theorem exists_reader_parent (held : program.SplitInto groups) (isInlined : id ∈ program.inlined)
    (feeds : program.graph.Feeds id sink) :
    ∃ parent ∈ program.parents groups, program.isInlinable parent id = true ∧
      sink ∈ parent.traversal := by
  obtain ⟨parent, isParent, inlinable⟩ := (held.inlined id).mp isInlined
  refine ⟨parent, isParent, inlinable, ?_⟩
  obtain ⟨last, isEnd, reads⟩ := (held.leadsOut isParent).exists_inlineEnd inlinable
  rcases Relation.ReflTransGen.cases_head reads with same | ⟨reader, step, rest⟩
  · subst same
    obtain ⟨_, consumer, feedsConsumer, listed, _⟩ := isEnd
    rw [reader_unique held.wellFormed inlinable feeds feedsConsumer]
    exact listed
  · rw [reader_unique held.wellFormed inlinable feeds step.1]
    rcases Relation.ReflTransGen.cases_head rest with atEnd | ⟨_, further, _⟩
    · exact atEnd ▸ mem_of_isInlinable isEnd.1
    · exact mem_of_isInlinable further.2

theorem precedes_reader (held : program.SplitInto groups) (isInlined : id ∈ program.inlined)
    (feeds : program.graph.Feeds id sink) : Precedes program.rootDsp.traversal id sink := by
  obtain ⟨parent, isParent, inlinable, sinkMember⟩ := held.exists_reader_parent isInlined feeds
  rcases List.mem_cons.mp isParent with rfl | isCold
  · have member := mem_of_isInlinable inlinable
    obtain ⟨line, lineage⟩ := held.rooted.lineage id (held.mem_root isParent member)
    obtain ⟨out, isOut, isLast⟩ := lineage.rooted
    cases line with
    | nil =>
        simp only [List.getLast?_singleton, Option.some.injEq] at isLast
        have outside : program.isInlinable program.hotParent out = false :=
          not_isInlinable_of_out isOut
        rw [← isLast, inlinable] at outside
        cases outside
    | cons next rest =>
        have step := (List.isChain_cons_cons.mp lineage.chain).1.1
        rw [reader_unique held.wellFormed inlinable feeds step]
        exact List.Sublist.trans (by simp) lineage.listed
  · have cold := (held.coldGroupsOf.group parent isCold).cold held.wellFormed
      (mem_of_isInlinable inlinable)
    exact held.rooted.precedes_of_cold held.wellFormed cold (held.mem_root isParent sinkMember)
      feeds

theorem place_lt_reader (held : program.SplitInto groups) (isInlined : id ∈ program.inlined)
    (feeds : program.graph.Feeds id sink) :
    program.rootDsp.traversal.idxOf id < program.rootDsp.traversal.idxOf sink :=
  ((Graph.precedes_iff_idxOf held.rooted.distinct).mp (held.precedes_reader isInlined feeds)).2

end SplitInto

/-! ## Effective values -/

/-- The value of an outlet, stored or computed. -/
def effective (program : Program) (behaviour : Behaviour V M S) (memory : Memory V S)
    (source : Endpoint) : V :=
  if source.node ∈ program.inlined then
    program.inlineValue behaviour memory program.inlined source.node
  else memory.values source

def effectiveInputs (program : Program) (behaviour : Behaviour V M S) (memory : Memory V S)
    (id inlet : String) : V :=
  match program.graph.signalSource? ⟨id, inlet⟩ with
  | none => behaviour.silence
  | some source => program.effective behaviour memory source

/-- What a step of a node would write now. -/
def effectiveOutlets (program : Program) (behaviour : Behaviour V M S) (memory : Memory V S)
    (id : String) : String → V :=
  (behaviour.step id (program.effectiveInputs behaviour memory id) (memory.states id)).1

/-- One step from an inlined node to its reader. -/
def InlinedInto (program : Program) (source sink : String) : Prop :=
  program.graph.Feeds source sink ∧ source ∈ program.inlined

/-- Enough members to evaluate an inlined node with everything that is inlined into it. -/
structure Suffices (program : Program) (members : List String) (id : String) : Prop where
  inlined : ∀ member ∈ members, member ∈ program.inlined
  complete : ∀ member, Relation.ReflTransGen program.InlinedInto member id → member ∈ members

namespace Suffices

variable {members : List String}

theorem all (isInlined : id ∈ program.inlined) : program.Suffices program.inlined id where
  inlined _ member := member
  complete member reaches := by
    rcases Relation.ReflTransGen.cases_head reaches with same | ⟨_, step, _⟩
    · exact same ▸ isInlined
    · exact step.2

theorem place_le (held : program.SplitInto groups) {member : String}
    (reaches : Relation.ReflTransGen program.InlinedInto member id) :
    program.rootDsp.traversal.idxOf member ≤ program.rootDsp.traversal.idxOf id := by
  induction reaches with
  | refl => exact Nat.le_refl _
  | tail _ step ih =>
      have next := held.place_lt_reader step.2 step.1
      omega

theorem without_self (suffices' : program.Suffices members id) (held : program.SplitInto groups)
    (step : program.InlinedInto source id) : program.Suffices (without members id) source where
  inlined member isMember := suffices'.inlined member (List.mem_of_mem_filter isMember)
  complete member reaches := by
    have isMember := suffices'.complete member (reaches.tail step)
    have before := place_le held reaches
    have next := held.place_lt_reader step.2 step.1
    refine List.mem_filter.mpr ⟨isMember, decide_eq_true_eq.mpr fun same => ?_⟩
    subst same
    omega

end Suffices

/-- The value of an inlined node is what a step of it would write at its outlet. -/
theorem SplitInto.inlineValue_eq (held : program.SplitInto groups) {members : List String}
    (enough : program.Suffices members id) :
    program.inlineValue behaviour memory members id =
      program.effectiveOutlets behaviour memory id (program.graph.firstOutlet id) := by
  induction place : program.rootDsp.traversal.idxOf id using Nat.strong_induction_on
    generalizing id members with
  | _ place ih =>
      subst place
      have present : id ∈ members := enough.complete id .refl
      rw [inlineValue, dif_pos present]
      refine congrArg (fun inputs => (behaviour.step id inputs (memory.states id)).1 _)
        (funext fun inlet => ?_)
      unfold effectiveInputs
      cases fed : program.graph.signalSource? ⟨id, inlet⟩ with
      | none => rfl
      | some source =>
          have feeds : program.graph.Feeds source.node id :=
            Graph.feeds_of_signalSource? held.wellFormed fed
          dsimp only
          unfold effective
          by_cases isInlined : source.node ∈ program.inlined
          · have narrowed := enough.without_self held ⟨feeds, isInlined⟩
            have earlier := held.place_lt_reader isInlined feeds
            rw [if_pos (narrowed.complete source.node .refl), if_pos isInlined,
              ih _ earlier narrowed rfl, ih _ earlier (.all isInlined) rfl]
          · have outside : source.node ∉ without members id := fun member =>
              isInlined (enough.inlined _ (List.mem_of_mem_filter member))
            rw [if_neg outside, if_neg isInlined]

theorem SplitInto.effective_of_inlined (held : program.SplitInto groups) {source : Endpoint}
    (isInlined : source.node ∈ program.inlined) :
    program.effective behaviour memory source =
      program.effectiveOutlets behaviour memory source.node
        (program.graph.firstOutlet source.node) := by
  unfold effective
  rw [if_pos isInlined, held.inlineValue_eq (.all isInlined)]

/-! ## What the compiled schedule reads -/

theorem SplitInto.suffices_inlineGroup (held : program.SplitInto groups)
    (isParent : parent ∈ program.parents groups) {last : String}
    (inlineGroup : program.InlineGroupOf parent group last) :
    program.Suffices group.traversal last where
  inlined member isMember :=
    (held.inlined member).mpr ⟨parent, isParent, inlineGroup.inlinable held.wellFormed isMember⟩
  complete member reaches := by
    induction reaches using Relation.ReflTransGen.head_induction_on with
    | refl => exact inlineGroup.ordered.covers last (by simp)
    | @head id sink step _ ih =>
        obtain ⟨other, otherParent, inlinable, sinkMember⟩ :=
          held.exists_reader_parent step.2 step.1
        have sinkInParent := mem_of_isInlinable (inlineGroup.inlinable held.wellFormed ih)
        have same := held.parent_unique otherParent isParent sinkMember sinkInParent
        subst same
        rw [inlineGroup.mem_iff held.wellFormed] at ih ⊢
        exact .head ⟨step.1, inlinable⟩ ih

theorem SplitInto.expressionAt?_eq_some (held : program.SplitInto groups) {inlet : Endpoint}
    {out : String} (found : program.expressionAt? inlet = some (group, out)) :
    program.Suffices group.traversal out ∧
      ∃ source, program.graph.signalSource? inlet = some source ∧ source.node = out := by
  unfold expressionAt? at found
  obtain ⟨candidate, isInline, matched⟩ := List.exists_of_findSome?_eq_some found
  simp only [Option.bind_eq_bind, Option.bind_eq_some_iff] at matched
  obtain ⟨head, isHead, node, stored, reader⟩ := matched
  split at reader
  · next isReader =>
    cases reader
    obtain ⟨parent, isParent, last, inlineGroup⟩ := held.exists_inline_parent isInline
    have isLast : last = out := by
      rw [inlineGroup.outs] at isHead
      exact Option.some.inj isHead
    subst isLast
    exact ⟨held.suffices_inlineGroup isParent inlineGroup,
      Graph.signalSource?_of_mem_signalSinks held.wellFormed stored (List.mem_of_head? isReader)⟩
  · cases reader

/-- Where a node that is not inlined reads an inlined one, the expression is written. -/
theorem SplitInto.expressionAt?_isSome (held : program.SplitInto groups) {inlet source : Endpoint}
    (fed : program.graph.signalSource? inlet = some source)
    (isInlined : source.node ∈ program.inlined) (solid : inlet.node ∉ program.inlined) :
    (program.expressionAt? inlet).isSome = true := by
  have feeds := Graph.feeds_of_signalSource? held.wellFormed fed
  obtain ⟨parent, isParent, inlinable, sinkMember⟩ := held.exists_reader_parent isInlined feeds
  have isEnd : program.InlineEnd parent source.node := by
    refine ⟨inlinable, inlet.node, feeds, sinkMember, ?_⟩
    rw [held.inlined_iff isParent sinkMember] at solid
    exact Bool.eq_false_iff.mpr solid
  obtain ⟨inline, paired, collected⟩ := held.exists_inlineGroups
  obtain ⟨inner, isInner, innerGroups⟩ := Outcome.exists_result paired isParent
  have candidate : source.node ∈ parent.traversal.filter (program.isInlineEnd parent) :=
    List.mem_filter.mpr
      ⟨mem_of_isInlinable inlinable, (isInlineEnd_iff held.wellFormed).mpr isEnd⟩
  obtain ⟨group, isGroup, inlineGroup⟩ := Outcome.exists_result innerGroups candidate
  have registered : group ∈ program.inlineDsp := by
    rw [collected]
    exact List.mem_flatten.mpr ⟨inner, isInner, isGroup⟩
  obtain ⟨node, only, stored, single, _⟩ := isInlinable_facts inlinable
  obtain ⟨_, _, storedAgain, _, _, recorded⟩ :=
    Graph.recorded_of_signalSource? held.wellFormed fed
  rw [stored] at storedAgain
  cases storedAgain
  rw [single, List.mem_singleton] at recorded
  subst recorded
  unfold expressionAt?
  rw [List.findSome?_isSome_iff]
  refine ⟨group, registered, ?_⟩
  simp [inlineGroup.outs, stored, single]

/-- A node that is not inlined reads effective values under the compiled schedule. -/
theorem SplitInto.compiledInputs_eq (held : program.SplitInto groups)
    (solid : id ∉ program.inlined) :
    program.compiledInputs behaviour memory id = program.effectiveInputs behaviour memory id := by
  funext inlet
  unfold compiledInputs
  cases found : program.expressionAt? ⟨id, inlet⟩ with
  | some expression =>
      obtain ⟨group, out⟩ := expression
      obtain ⟨enough, source, fed, rfl⟩ := held.expressionAt?_eq_some found
      have isInlined := enough.inlined source.node (enough.complete source.node .refl)
      unfold effectiveInputs
      rw [fed]
      dsimp only
      rw [held.inlineValue_eq enough, held.effective_of_inlined isInlined]
  | none =>
      unfold storedInputs effectiveInputs
      cases fed : program.graph.signalSource? ⟨id, inlet⟩ with
      | none => rfl
      | some source =>
          have stored : source.node ∉ program.inlined := fun isInlined => by
            have written := held.expressionAt?_isSome fed isInlined solid
            rw [found] at written
            cases written
          dsimp only
          unfold effective
          rw [if_neg stored]

/-! ## What effective values depend on -/

/-- Whether a node reads another one, itself or through nodes that are inlined into it. -/
inductive Reads (program : Program) : String → String → Prop where
  | direct {sink source : String} (feeds : program.graph.Feeds source sink) :
      Reads program sink source
  | through {sink between source : String} (step : program.InlinedInto between sink)
      (reads : Reads program between source) : Reads program sink source

/-- Two memories in which a node and what is inlined into it read the same. -/
def AgreesFor (program : Program) (left right : Memory V S) (id : String) : Prop :=
  ∀ source, program.Reads id source →
    (source ∈ program.inlined → left.states source = right.states source) ∧
    (source ∉ program.inlined → ∀ outlet, left.values ⟨source, outlet⟩ = right.values ⟨source, outlet⟩)

theorem SplitInto.effectiveInputs_congr (held : program.SplitInto groups)
    {left right : Memory V S} (agrees : program.AgreesFor left right id) :
    program.effectiveInputs behaviour left id = program.effectiveInputs behaviour right id := by
  induction place : program.rootDsp.traversal.idxOf id using Nat.strong_induction_on
    generalizing id with
  | _ place ih =>
      subst place
      funext inlet
      unfold effectiveInputs
      cases fed : program.graph.signalSource? ⟨id, inlet⟩ with
      | none => rfl
      | some source =>
          have feeds : program.graph.Feeds source.node id :=
            Graph.feeds_of_signalSource? held.wellFormed fed
          obtain ⟨sameState, sameValues⟩ := agrees source.node (.direct feeds)
          dsimp only
          by_cases isInlined : source.node ∈ program.inlined
          · have sameInputs := ih _ (held.place_lt_reader isInlined feeds)
              (fun other reads => agrees other (.through ⟨feeds, isInlined⟩ reads)) rfl
            rw [held.effective_of_inlined isInlined, held.effective_of_inlined isInlined]
            unfold effectiveOutlets
            rw [sameInputs, sameState isInlined]
          · unfold effective
            rw [if_neg isInlined, if_neg isInlined]
            exact sameValues isInlined source.portlet

end Program

end Patchbay
