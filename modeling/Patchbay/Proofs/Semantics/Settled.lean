import Patchbay.Proofs.Semantics.Inlined

namespace Patchbay.Program

/-! Settled cold groups.

A cold group is settled when every stored value of it is what a step of its node would write now.
Running the group settles it, whatever is stored, since each member stands after everything it reads.
Nothing outside of a group can unsettle it.
-/

open Patchbay.Graph (Precedes)

variable {V : Type u} {M : Type v} {S : Type w} {program : Program} {behaviour : Behaviour V M S}
  {groups : List DspGroup} {group : DspGroup} {memory before between after : Memory V S}
  {id source : String}

def isInline (program : Program) (node : Node) : Bool :=
  match program.catalog.implementation? node.type with
  | some implementation => implementation.isInline
  | none => false

/-- Only messages change the state of a node whose type is pure or inline. -/
def KeepsParameters (program : Program) (behaviour : Behaviour V M S) : Prop :=
  ∀ id node, program.graph.node? id = some node →
    program.isPure node = true ∨ program.isInline node = true →
    ∀ inputs state, (behaviour.step id inputs state).2 = state

theorem KeepsParameters.of_cold (keeps : program.KeepsParameters behaviour) (cold : program.Cold id)
    (inputs : String → V) (state : S) : (behaviour.step id inputs state).2 = state := by
  obtain ⟨found, isPure, _⟩ := cold
  exact keeps id _ found (.inl isPure) inputs state

theorem isInline_of_isInlinable {parent : DspGroup} {node : Node}
    (inlinable : program.isInlinable parent id = true) (found : program.graph.node? id = some node) :
    program.isInline node = true := by
  simp only [isInlinable, found, Bool.and_eq_true] at inlinable
  exact inlinable.1.2

theorem KeepsParameters.of_inlinable (keeps : program.KeepsParameters behaviour)
    {parent : DspGroup} (inlinable : program.isInlinable parent id = true) (inputs : String → V)
    (state : S) : (behaviour.step id inputs state).2 = state := by
  obtain ⟨node, _, found, _⟩ := isInlinable_facts inlinable
  exact keeps id node found (.inr (isInline_of_isInlinable inlinable found)) inputs state

/-! ## One step -/

theorem values_stepNode {inputs : String → V} {other outlet : String} :
    (stepNode behaviour inputs memory id).values ⟨other, outlet⟩ =
      if other = id then (behaviour.step id inputs (memory.states id)).1 outlet
      else memory.values ⟨other, outlet⟩ := rfl

theorem states_stepNode {inputs : String → V} {other : String} :
    (stepNode behaviour inputs memory id).states other =
      if other = id then (behaviour.step id inputs (memory.states id)).2 else memory.states other := by
  change Function.update _ _ _ other = _
  rw [Function.update_apply]

theorem states_stepNode_of_kept {inputs : String → V}
    (kept : (behaviour.step id inputs (memory.states id)).2 = memory.states id) :
    (stepNode behaviour inputs memory id).states = memory.states := by
  funext other
  rw [states_stepNode]
  split
  · next same => rw [same, kept]
  · rfl

theorem foldl_invariant {α : Type u} {β : Type v} {step : β → α → β} {items : List α} {initial : β}
    (invariant : List α → β → Prop) (start : invariant [] initial)
    (kept : ∀ done item rest state, items = done ++ item :: rest → invariant done state →
      invariant (done ++ [item]) (step state item)) :
    invariant items (items.foldl step initial) := by
  suffices general : ∀ (rest done : List α) (state : β), items = done ++ rest →
      invariant done state → invariant items (rest.foldl step state) from
    general items [] initial rfl start
  intro rest
  induction rest with
  | nil =>
      intro done state split held
      rw [List.append_nil] at split
      exact split ▸ held
  | cons item rest ih =>
      intro done state split held
      exact ih (done ++ [item]) (step state item) (by simpa using split)
        (kept done item rest state split held)

/-! ## One group -/

/-- Everything that a group stores is what its nodes would write now. -/
def Settled (program : Program) (behaviour : Behaviour V M S) (memory : Memory V S)
    (group : DspGroup) : Prop :=
  ∀ id ∈ program.left group, ∀ outlet,
    memory.values ⟨id, outlet⟩ = program.effectiveOutlets behaviour memory id outlet

theorem ColdGroupOf.of_reads (cold : program.ColdGroupOf group)
    (wellFormed : program.graph.WellFormed) (member : id ∈ group.traversal)
    (reads : program.Reads id source) :
    source ∈ group.traversal ∧ Precedes group.traversal source id := by
  induction reads with
  | direct feeds =>
      exact ⟨cold.mem_of_feeds wellFormed member feeds,
        cold.precedes_of_feeds wellFormed member feeds⟩
  | through step _ ih =>
      obtain ⟨sourceMember, precedes⟩ := ih (cold.mem_of_feeds wellFormed member step.1)
      exact ⟨sourceMember, precedes.trans (cold.precedes_of_feeds wellFormed member step.1)
        cold.ordered.distinct⟩

theorem SplitInto.settled_congr (held : program.SplitInto groups) (isCold : group ∈ groups)
    (states : ∀ id ∈ group.traversal, after.states id = before.states id)
    (values : ∀ id ∈ group.traversal, ∀ outlet, after.values ⟨id, outlet⟩ = before.values ⟨id, outlet⟩)
    (settled : program.Settled behaviour before group) : program.Settled behaviour after group := by
  have cold := held.coldGroupsOf.group group isCold
  intro id isLeft outlet
  have member := (List.mem_filter.mp isLeft).1
  have agrees : program.AgreesFor after before id := by
    intro source reads
    have sourceMember := (cold.of_reads held.wellFormed member reads).1
    exact ⟨fun _ => states source sourceMember, fun _ => values source sourceMember⟩
  rw [values id member outlet, settled id isLeft outlet]
  unfold effectiveOutlets
  rw [held.effectiveInputs_congr agrees, states id member]

structure Settles (program : Program) (behaviour : Behaviour V M S) (group : DspGroup)
    (before after : Memory V S) : Prop where
  states : after.states = before.states
  values : ∀ id ∉ group.traversal, ∀ outlet, after.values ⟨id, outlet⟩ = before.values ⟨id, outlet⟩
  settled : program.Settled behaviour after group

/-- How far running a group has come. -/
structure SettledSoFar (program : Program) (behaviour : Behaviour V M S) (before : Memory V S)
    (done : List String) (after : Memory V S) : Prop where
  states : after.states = before.states
  values : ∀ id ∉ done, ∀ outlet, after.values ⟨id, outlet⟩ = before.values ⟨id, outlet⟩
  settled : ∀ id ∈ done, ∀ outlet,
    after.values ⟨id, outlet⟩ = program.effectiveOutlets behaviour after id outlet

theorem SplitInto.settledSoFar_step (held : program.SplitInto groups)
    (keeps : program.KeepsParameters behaviour) (isCold : group ∈ groups) {done rest : List String}
    (split : program.left group = done ++ id :: rest)
    (reached : program.SettledSoFar behaviour memory done between) :
    program.SettledSoFar behaviour memory (done ++ [id])
      (stepNode behaviour (program.compiledInputs behaviour between id) between id) := by
  have isParent : group ∈ program.parents groups := List.mem_cons_of_mem _ isCold
  have cold := held.coldGroupsOf.group group isCold
  have distinct : (program.left group).Nodup := cold.ordered.distinct.filter _
  obtain ⟨member, solid⟩ := (held.mem_left_iff isParent).mp (by simp [split] : id ∈ program.left group)
  rw [held.compiledInputs_eq solid]
  generalize reachedNext : stepNode behaviour (program.effectiveInputs behaviour between id) between
    id = next
  have sameStates : next.states = between.states := by
    rw [← reachedNext]
    exact states_stepNode_of_kept (keeps.of_cold (cold.cold held.wellFormed member) _ _)
  have nextValues : ∀ other outlet, next.values ⟨other, outlet⟩ =
      if other = id then program.effectiveOutlets behaviour between id outlet
      else between.values ⟨other, outlet⟩ := by
    intro other outlet
    rw [← reachedNext]
    exact values_stepNode
  refine ⟨sameStates.trans reached.states, ?_, ?_⟩
  · intro other outside outlet
    have apart : other ≠ id := fun same => outside (by simp [same])
    rw [nextValues, if_neg apart]
    exact reached.values other (fun earlier => outside (List.mem_append_left _ earlier)) outlet
  · intro other isDone outlet
    have otherLeft : other ∈ program.left group := by
      rw [split, List.append_cons]
      exact List.mem_append_left _ isDone
    obtain ⟨otherMember, solidOther⟩ := (held.mem_left_iff isParent).mp otherLeft
    -- what the node reads was run earlier, so this step does not touch it
    have agrees : program.AgreesFor next between other := by
      intro source reads
      refine ⟨fun _ => congrFun sameStates source, fun solidSource portlet => ?_⟩
      obtain ⟨sourceMember, precedes⟩ := cold.of_reads held.wellFormed otherMember reads
      have precedesLeft : Precedes (program.left group) source other := by
        unfold left
        rw [held.inlined_iff isParent sourceMember] at solidSource
        rw [held.inlined_iff isParent otherMember] at solidOther
        rw [Graph.precedes_filter_iff]
        simp [precedes, solidSource, solidOther]
      rw [split] at precedesLeft distinct
      have earlier := precedesLeft.mem_done distinct isDone
      have apart : source ≠ id := fun same =>
        (List.nodup_append.mp distinct).2.2 source earlier id (by simp) same
      rw [nextValues, if_neg apart]
    have sameOutlets : program.effectiveOutlets behaviour next other =
        program.effectiveOutlets behaviour between other := by
      unfold effectiveOutlets
      rw [held.effectiveInputs_congr agrees, sameStates]
    rw [sameOutlets, nextValues]
    split
    · next same => rw [same]
    · next apart =>
      refine reached.settled other ?_ outlet
      exact (List.mem_append.mp isDone).resolve_right fun last => apart (List.mem_singleton.mp last)

theorem SplitInto.runNodes_settles (held : program.SplitInto groups)
    (keeps : program.KeepsParameters behaviour) (isCold : group ∈ groups) :
    program.Settles behaviour group memory
      (program.runNodes behaviour (program.left group) memory) := by
  have ran : program.SettledSoFar behaviour memory (program.left group)
      (program.runNodes behaviour (program.left group) memory) := by
    refine foldl_invariant (program.SettledSoFar behaviour memory)
      ⟨rfl, fun _ _ _ => rfl, by simp⟩ ?_
    exact fun done id rest state split reached =>
      held.settledSoFar_step keeps isCold split reached
  refine ⟨ran.states, fun id outside outlet => ran.values id (fun isLeft => ?_) outlet, ran.settled⟩
  exact outside (List.mem_filter.mp isLeft).1

/-! ## All groups -/

structure ColdRun (program : Program) (behaviour : Behaviour V M S) (groups : List DspGroup)
    (before after : Memory V S) : Prop where
  states : after.states = before.states
  values : ∀ id, (∀ group ∈ groups, id ∉ group.traversal) → ∀ outlet,
    after.values ⟨id, outlet⟩ = before.values ⟨id, outlet⟩
  settled : ∀ group ∈ groups, program.Settled behaviour before group →
    program.Settled behaviour after group

theorem ColdRun.refl (memory : Memory V S) : program.ColdRun behaviour groups memory memory :=
  ⟨rfl, fun _ _ _ => rfl, fun _ _ settled => settled⟩

theorem ColdRun.trans (first : program.ColdRun behaviour groups before between)
    (second : program.ColdRun behaviour groups between after) :
    program.ColdRun behaviour groups before after where
  states := second.states.trans first.states
  values id outside outlet := (second.values id outside outlet).trans (first.values id outside outlet)
  settled group isCold settled := second.settled group isCold (first.settled group isCold settled)

theorem SplitInto.coldRun_of_settles (held : program.SplitInto groups) (isCold : group ∈ groups)
    (settles : program.Settles behaviour group before after) :
    program.ColdRun behaviour groups before after where
  states := settles.states
  values id outside outlet := settles.values id (outside group isCold) outlet
  settled other otherCold settled := by
    by_cases same : other = group
    · exact same ▸ settles.settled
    · refine held.settled_congr otherCold (fun _ _ => congrFun settles.states _) ?_ settled
      intro id member outlet
      refine settles.values id (fun shared => same ?_) outlet
      exact held.coldGroupsOf.unique otherCold isCold member shared

theorem SplitInto.mem_coldDsp_values_iff (held : program.SplitInto groups) {entry : ColdGroup} :
    entry ∈ program.coldDsp.values ↔ ∃ group position, (group, position) ∈ groups.zipIdx ∧
      entry = program.coldEntry group position (program.left group) := by
  unfold Register.values
  rw [Table.mem_values_iff]
  simp only [held.coldDsp_get?_iff]
  constructor
  · intro given
    obtain ⟨_, group, position, indexed, _, same⟩ := given
    exact ⟨group, position, indexed, same⟩
  · intro given
    obtain ⟨group, position, indexed, same⟩ := given
    exact ⟨_, group, position, indexed, rfl, same⟩

/-- Running cold groups settles them and keeps every other one settled. -/
theorem SplitInto.runColdGroups_settles (held : program.SplitInto groups)
    (keeps : program.KeepsParameters behaviour) {entries : List ColdGroup}
    (registered : ∀ entry ∈ entries, entry ∈ program.coldDsp.values) :
    program.ColdRun behaviour groups memory (program.runColdGroups behaviour entries memory) ∧
      ∀ group position, (group, position) ∈ groups.zipIdx →
        program.coldEntry group position (program.left group) ∈ entries →
        program.Settled behaviour (program.runColdGroups behaviour entries memory) group := by
  induction entries generalizing memory with
  | nil => exact ⟨.refl memory, fun _ _ _ member => absurd member List.not_mem_nil⟩
  | cons entry rest ih =>
      obtain ⟨group, position, indexed, rfl⟩ :=
        held.mem_coldDsp_values_iff.mp (registered entry (by simp))
      have isCold := List.fst_mem_of_mem_zipIdx indexed
      have first : program.Settles behaviour group memory _ := held.runNodes_settles keeps isCold
      obtain ⟨later, settled⟩ := ih (fun other member => registered other (by simp [member]))
      refine ⟨(held.coldRun_of_settles isCold first).trans later, ?_⟩
      intro other otherPosition otherIndexed member
      rcases List.mem_cons.mp member with same | inRest
      · have samePosition : otherPosition = position :=
          Text.ofNat_injective (congrArg ColdGroup.id same)
        subst samePosition
        have sameGroup : other = group := by
          rw [List.mk_mem_zipIdx_iff_getElem?] at indexed otherIndexed
          exact Option.some.inj (otherIndexed.symm.trans indexed)
        subst sameGroup
        exact later.settled other isCold first.settled
      · exact settled other otherPosition otherIndexed inRest

end Patchbay.Program
