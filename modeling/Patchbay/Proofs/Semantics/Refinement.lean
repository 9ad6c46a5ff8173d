import Patchbay.Proofs.Semantics.Sample

namespace Patchbay

/-! The compiled schedule does what the reference schedule does.

Both schedules run the same messages, so they stay in the same states as long as reactions leave
states alone.  A message can unsettle a cold group only by reaching a member of it, and then the
outlet that it left calls the group: once the message is dealt with, every group that was settled
before is settled again.  Samples therefore find settled groups.
-/

variable {V : Type u} {M : Type v} {S : Type w}

namespace Schedule

variable {α : Type u} {β : Type v} {γ : Type w} {δ : Type x}

theorem rel_bind {related : α → β → Prop} {result : γ → δ → Prop} {left : Option α}
    {right : Option β} {next : α → Option γ} {other : β → Option δ}
    (first : Option.Rel related left right)
    (continued : ∀ value image, related value image → Option.Rel result (next value) (other image)) :
    Option.Rel result (left.bind next) (right.bind other) := by
  cases first with
  | none => exact .none
  | some held => exact continued _ _ held

theorem rel_map {related : α → β → Prop} {result : γ → δ → Prop} {left : Option α}
    {right : Option β} {next : α → γ} {other : β → δ} (first : Option.Rel related left right)
    (continued : ∀ value image, related value image → result (next value) (other image)) :
    Option.Rel result (left.map next) (right.map other) := by
  cases first with
  | none => exact .none
  | some held => exact .some (continued _ _ held)

theorem rel_mono {related result : α → β → Prop} {left : Option α} {right : Option β}
    (first : Option.Rel related left right)
    (weaker : ∀ value image, related value image → result value image) :
    Option.Rel result left right := by
  cases first with
  | none => exact .none
  | some held => exact .some (weaker _ _ held)

end Schedule

namespace Program

open Schedule (perform rel_bind rel_map rel_mono)

variable {program : Program} {behaviour : Behaviour V M S} {groups : List DspGroup}
  {group : DspGroup} {reference compiled : Memory V S} {id : String}

/-! ## Messages -/

theorem Agrees.setState (agrees : program.Agrees reference compiled) (id : String) (state : S) :
    program.Agrees (reference.setState id state) (compiled.setState id state) := by
  refine ⟨?_, agrees.hot⟩
  change Function.update _ _ _ = Function.update _ _ _
  rw [agrees.states]

theorem SplitInto.settled_setState (held : program.SplitInto groups) (isCold : group ∈ groups)
    (outside : id ∉ group.traversal) (state : S)
    (settled : program.Settled behaviour compiled group) :
    program.Settled behaviour (compiled.setState id state) group := by
  have states : ∀ member ∈ group.traversal,
      (compiled.setState id state).states member = compiled.states member := by
    intro member isMember
    have apart : member ≠ id := fun same => outside (same ▸ isMember)
    exact Function.update_of_ne apart _ _
  have values : ∀ member ∈ group.traversal, ∀ outlet,
      (compiled.setState id state).values ⟨member, outlet⟩ = compiled.values ⟨member, outlet⟩ :=
    fun _ _ _ => rfl
  exact held.settled_congr isCold states values settled

/-- Two runs of a message: they agree, and the compiled one keeps settled what the nodes in `touched`
do not belong to. -/
def Follows (program : Program) (behaviour : Behaviour V M S) (groups : List DspGroup)
    (touched : List String) (before reference compiled : Memory V S) : Prop :=
  program.Agrees reference compiled ∧ ∀ group ∈ groups, (∀ id ∈ touched, id ∉ group.traversal) →
    program.Settled behaviour before group → program.Settled behaviour compiled group

/-- Both runs of what a node does with a message, when messages that it sends are run alike. -/
theorem SplitInto.perform_follows (held : program.SplitInto groups)
    {emitReference emitCompiled : Endpoint → M → Memory V S → Option (Memory V S)}
    (emits : ∀ outlet message reference compiled, program.Agrees reference compiled →
      Option.Rel (program.Follows behaviour groups [] compiled)
        (emitReference outlet message reference) (emitCompiled outlet message compiled))
    (id : String) (action : Action M S) (agrees : program.Agrees reference compiled) :
    Option.Rel (program.Follows behaviour groups [id] compiled)
      (perform emitReference id action reference) (perform emitCompiled id action compiled) := by
  induction action generalizing reference compiled with
  | done state =>
      refine .some ⟨agrees.setState id state, fun group isCold outside settled => ?_⟩
      exact held.settled_setState isCold (outside id (by simp)) state settled
  | send state outlet message resume ih =>
      refine rel_bind (emits outlet message _ _ (agrees.setState id state)) ?_
      intro reference' compiled' followed
      obtain ⟨agrees', settled'⟩ := followed
      rw [← agrees'.states]
      refine rel_mono (ih _ agrees') fun reference'' compiled'' finished => ?_
      refine ⟨finished.1, fun group isCold outside settled => ?_⟩
      refine finished.2 group isCold outside (settled' group isCold (by simp) ?_)
      exact held.settled_setState isCold (outside id (by simp)) state settled

theorem deliver_follows
    {deliverReference deliverCompiled : Memory V S → Endpoint → Option (Memory V S)}
    (delivers : ∀ sink reference compiled, program.Agrees reference compiled →
      Option.Rel (program.Follows behaviour groups [sink.node] compiled)
        (deliverReference reference sink) (deliverCompiled compiled sink))
    (sinks : List Endpoint) (agrees : program.Agrees reference compiled) :
    Option.Rel (program.Follows behaviour groups (sinks.map Endpoint.node) compiled)
      (sinks.foldlM deliverReference reference) (sinks.foldlM deliverCompiled compiled) := by
  induction sinks generalizing reference compiled with
  | nil => exact .some ⟨agrees, fun _ _ _ settled => settled⟩
  | cons sink rest ih =>
      rw [List.foldlM_cons, List.foldlM_cons]
      refine rel_bind (delivers sink _ _ agrees) ?_
      intro reference' compiled' followed
      refine rel_mono (ih followed.1) fun reference'' compiled'' finished => ?_
      refine ⟨finished.1, fun group isCold outside settled => ?_⟩
      refine finished.2 group isCold (fun id later => outside id (by simp [later])) ?_
      refine followed.2 group isCold (fun id first => outside id ?_) settled
      simp [List.mem_singleton.mp first]

theorem LaidOut.triggered_of_receiver (laidOut : program.LaidOut groups) {outlet sink : Endpoint}
    (receives : sink ∈ program.graph.receivers outlet) {position : Nat}
    (indexed : (group, position) ∈ groups.zipIdx) (member : sink.node ∈ group.traversal) :
    program.coldEntry group position (program.left group) ∈ program.triggered outlet := by
  unfold Graph.receivers at receives
  split at receives
  · cases receives
  · next node found =>
    split at receives
    · next isOutlet =>
      obtain ⟨portlet, isMessage, same⟩ := List.mem_map.mp isOutlet
      obtain ⟨sender, bound, calls⟩ := laidOut.calls outlet.node node found portlet isMessage
      rw [same] at bound calls
      have registered : program.coldEntry group position (program.left group) ∈
          program.coldDsp.values := laidOut.mem_coldDsp_values_iff.mpr ⟨group, position, indexed, rfl⟩
      have recorded : program.coldOf.get? sink.node = some (Text.ofNat position) :=
        (laidOut.coldOf _ _).mpr ⟨group, position, indexed, rfl, member⟩
      have called := calls sink receives _ registered recorded
      unfold triggered
      rw [bound]
      exact List.mem_filter.mpr ⟨registered, by simpa using called⟩
    · cases receives

theorem triggered_registered {outlet : Endpoint} {entry : ColdGroup}
    (member : entry ∈ program.triggered outlet) : entry ∈ program.coldDsp.values := by
  unfold triggered at member
  split at member
  · cases member
  · exact (List.mem_filter.mp member).1

/-- The groups that a message can unsettle are called afterwards. -/
theorem LaidOut.react_follows (laidOut : program.LaidOut groups)
    (keeps : program.KeepsParameters behaviour) {outlet : Endpoint} {before : Memory V S}
    (delivered : program.Follows behaviour groups
      ((program.graph.receivers outlet).map Endpoint.node) before reference compiled) :
    program.Follows behaviour groups [] before
      ((program.referenceSchedule behaviour).react outlet reference)
      ((program.compiledSchedule behaviour).react outlet compiled) := by
  have held := laidOut.toSplitInto
  obtain ⟨agrees, kept⟩ := delivered
  obtain ⟨ran, settles⟩ : program.ColdRun behaviour groups compiled
      (program.runColdGroups behaviour (program.triggered outlet) compiled) ∧ _ :=
    held.runColdGroups_settles keeps fun _ => triggered_registered
  refine ⟨⟨ran.states.trans agrees.states, fun id isHot portlet => ?_⟩, ?_⟩
  · exact (ran.values id (held.mem_hotDsp_iff.mp isHot).2.1 portlet).trans (agrees.hot id isHot portlet)
  · intro group isCold _ settled
    by_cases reached : ∃ sink ∈ program.graph.receivers outlet, sink.node ∈ group.traversal
    · obtain ⟨sink, receives, member⟩ := reached
      obtain ⟨position, indexed⟩ := exists_position isCold
      exact settles group position indexed (laidOut.triggered_of_receiver receives indexed member)
    · refine ran.settled group isCold (kept group isCold (fun id touched member => ?_) settled)
      obtain ⟨sink, receives, same⟩ := List.mem_map.mp touched
      exact reached ⟨sink, receives, same ▸ member⟩

/-- Both runs of a message that leaves an outlet, with everything that it causes. -/
theorem LaidOut.emit_follows (laidOut : program.LaidOut groups)
    (keeps : program.KeepsParameters behaviour) (depth : Nat) (outlet : Endpoint) (message : M)
    (agrees : program.Agrees reference compiled) :
    Option.Rel (program.Follows behaviour groups [] compiled)
      ((program.referenceSchedule behaviour).emit program.graph behaviour depth outlet message
        reference)
      ((program.compiledSchedule behaviour).emit program.graph behaviour depth outlet message
        compiled) := by
  have held := laidOut.toSplitInto
  induction depth generalizing outlet message reference compiled with
  | zero => exact .none
  | succ depth ih =>
      unfold Schedule.emit
      refine rel_map (deliver_follows ?_ _ agrees) fun _ _ delivered =>
        laidOut.react_follows keeps delivered
      intro sink reference' compiled' agrees'
      rw [agrees'.states]
      refine held.perform_follows (fun outlet message reference compiled agrees => ?_) sink.node _
        agrees'
      exact ih outlet message agrees

/-! ## Runs -/

/-- Between events, both schedules agree and no cold group is out of date. -/
def Synchronized (program : Program) (behaviour : Behaviour V M S) (groups : List DspGroup)
    (reference compiled : Memory V S) : Prop :=
  program.Agrees reference compiled ∧ ∀ group ∈ groups, program.Settled behaviour compiled group

def AgreesOnCold (program : Program) (reference compiled : Memory V S) : Prop :=
  ∀ entry ∈ program.coldDsp.values, ∀ id ∈ entry.traversal, ∀ outlet,
    compiled.values ⟨id, outlet⟩ = reference.values ⟨id, outlet⟩

theorem LaidOut.start_synchronized (laidOut : program.LaidOut groups)
    (keeps : program.KeepsParameters behaviour) (memory : Memory V S) :
    program.Synchronized behaviour groups ((program.referenceSchedule behaviour).start memory)
      ((program.compiledSchedule behaviour).start memory) := by
  have held := laidOut.toSplitInto
  obtain ⟨ran, settles⟩ : program.ColdRun behaviour groups memory
      (program.runColdGroups behaviour program.coldDsp.values memory) ∧ _ :=
    held.runColdGroups_settles keeps fun _ registered => registered
  refine ⟨⟨ran.states, fun id isHot => ran.values id (held.mem_hotDsp_iff.mp isHot).2.1⟩, ?_⟩
  intro group isCold
  obtain ⟨position, indexed⟩ := exists_position isCold
  exact settles group position indexed
    (held.mem_coldDsp_values_iff.mpr ⟨group, position, indexed, rfl⟩)

theorem LaidOut.handle_synchronized (laidOut : program.LaidOut groups)
    (keeps : program.KeepsParameters behaviour) (single : program.SingleOutlets) (depth : Nat)
    (event : Event M) (synchronized : program.Synchronized behaviour groups reference compiled) :
    Option.Rel (fun reference' compiled' =>
        program.Synchronized behaviour groups reference' compiled' ∧
          (event = .sample → program.AgreesOnCold reference' compiled'))
      ((program.referenceSchedule behaviour).handle program.graph behaviour depth reference event)
      ((program.compiledSchedule behaviour).handle program.graph behaviour depth compiled event) := by
  have held := laidOut.toSplitInto
  obtain ⟨agrees, settled⟩ := synchronized
  cases event with
  | sample =>
      obtain ⟨agrees', settled', cold⟩ := held.sample_agrees keeps single agrees settled
      refine .some ⟨⟨agrees', settled'⟩, fun _ entry registered => ?_⟩
      obtain ⟨group, position, indexed, rfl⟩ := held.mem_coldDsp_values_iff.mp registered
      exact cold group (List.fst_mem_of_mem_zipIdx indexed)
  | message outlet content =>
      refine rel_mono (laidOut.emit_follows keeps depth outlet content agrees) ?_
      intro reference' compiled' followed
      refine ⟨⟨followed.1, fun group isCold => ?_⟩, fun isSample => by cases isSample⟩
      exact followed.2 group isCold (by simp) (settled group isCold)

theorem LaidOut.events_synchronized (laidOut : program.LaidOut groups)
    (keeps : program.KeepsParameters behaviour) (single : program.SingleOutlets) (depth : Nat)
    (events : List (Event M))
    (synchronized : program.Synchronized behaviour groups reference compiled) :
    Option.Rel (fun reference' compiled' =>
        program.Synchronized behaviour groups reference' compiled' ∧
          (events.getLast? = some .sample → program.AgreesOnCold reference' compiled'))
      (events.foldlM ((program.referenceSchedule behaviour).handle program.graph behaviour depth)
        reference)
      (events.foldlM ((program.compiledSchedule behaviour).handle program.graph behaviour depth)
        compiled) := by
  induction events generalizing reference compiled with
  | nil => exact .some ⟨synchronized, fun isSample => by cases isSample⟩
  | cons event rest ih =>
      rw [List.foldlM_cons, List.foldlM_cons]
      refine rel_bind (laidOut.handle_synchronized keeps single depth event synchronized) ?_
      intro reference' compiled' handled
      cases rest with
      | nil =>
          refine .some ⟨handled.1, fun isSample => handled.2 ?_⟩
          exact Option.some.inj isSample
      | cons next later =>
          rw [List.getLast?_cons_cons]
          exact ih handled.1

/-- Splitting and inlining keep the meaning of the signal graph: after the same events, both schedules
are in the same states and store the same at hot nodes, and right after a sample at cold nodes too. -/
theorem compiled_agrees_with_reference {graph : Graph} {known : Option Catalog} {reporter : Reporter}
    {catalog : Catalog} {library : Library} {settings : Settings} {program : Program}
    (accepted : (graph.check known reporter).2 = .ok ())
    (compiled : precompile graph catalog library settings = .ok program)
    (single : program.SingleOutlets) (behaviour : Behaviour V M S)
    (keeps : program.KeepsParameters behaviour) (depth : Nat) (states : String → S)
    (events : List (Event M)) :
    Option.Rel (fun expected actual =>
        (∀ id, actual.states id = expected.states id) ∧
          (∀ id ∈ program.hotDsp.traversal, ∀ outlet,
            actual.values ⟨id, outlet⟩ = expected.values ⟨id, outlet⟩) ∧
          (events.getLast? = some .sample → ∀ group ∈ program.coldDsp.values,
            ∀ id ∈ group.traversal, ∀ outlet,
              actual.values ⟨id, outlet⟩ = expected.values ⟨id, outlet⟩))
      ((program.referenceSchedule behaviour).run program.graph behaviour depth states events)
      ((program.compiledSchedule behaviour).run program.graph behaviour depth states events) := by
  obtain ⟨groups, laidOut⟩ := laidOut_of_precompile accepted compiled
  refine rel_mono (laidOut.events_synchronized keeps single depth events
    (laidOut.start_synchronized keeps _)) ?_
  intro expected actual reached
  exact ⟨congrFun reached.1.1.states, reached.1.1.hot, reached.2⟩

/-- A behaviour of the tone: `n` gives its number, `t` adds twelve, `f` doubles, `o` sums up what it
reads, `g` takes it three times, and `d` keeps what it is given. -/
def toneBehaviour : Behaviour Int Int Int where
  silence := 0
  step id inputs state :=
    match id with
    | "n" => (fun _ => state, state)
    | "t" => (fun _ => inputs "0" + 12, state)
    | "f" => (fun _ => 2 * inputs "0", state)
    | "o" => (fun _ => state, state + inputs "0")
    | "g" => (fun _ => 3 * inputs "0", state)
    | "d" => (fun _ => 0, inputs "0")
    | _ => (fun _ => 0, state)
  receive _ _ message _ := .done message

theorem toneBehaviour_keeps {program : Program}
    (oscillator : ∃ node, program.graph.node? "o" = some node ∧ program.isPure node = false ∧
      program.isInline node = false)
    (output : ∃ node, program.graph.node? "d" = some node ∧ program.isPure node = false ∧
      program.isInline node = false) : program.KeepsParameters toneBehaviour := by
  have impure {id : String} {node : Node} (found : program.graph.node? id = some node)
      (parametric : program.isPure node = true ∨ program.isInline node = true) :
      ¬ ∃ other, program.graph.node? id = some other ∧ program.isPure other = false ∧
        program.isInline other = false := by
    intro given
    obtain ⟨other, stored, notPure, notInline⟩ := given
    cases Option.some.inj (found.symm.trans stored)
    simp [notPure, notInline] at parametric
  intro id node found parametric inputs state
  simp only [toneBehaviour]
  split
  case h_4 => exact absurd oscillator (impure found parametric)
  case h_6 => exact absurd output (impure found parametric)
  all_goals rfl

def toneEvents : List (Event Int) := [.message ⟨"b", "0"⟩ 60, .sample, .sample]

theorem compiled_agrees_with_reference_tone :
    ∃ program, (toneGraph.check (some toneCatalog) .discarding).2 = .ok () ∧
      precompile toneGraph toneCatalog toneLibrary {} = .ok program ∧ program.SingleOutlets ∧
      program.KeepsParameters toneBehaviour ∧
      ((program.compiledSchedule toneBehaviour).run program.graph toneBehaviour 2 (fun _ => 0)
        toneEvents).map (fun memory => memory.states "d") = some 432 := by
  have evaluated : (do
      let program ← precompile toneGraph toneCatalog toneLibrary {}
      return (decide program.SingleOutlets,
        ["o", "d"].map fun id => (program.graph.node? id).map fun node =>
          program.isPure node || program.isInline node,
        ((program.referenceSchedule toneBehaviour).run program.graph toneBehaviour 2 (fun _ => 0)
          toneEvents).map fun memory => memory.states "d")) =
      Except.ok (true, [some false, some false], some 432) := by
    cbv
  obtain ⟨program, compiled, evaluated⟩ := Outcome.bind_eq_ok_iff.mp evaluated
  obtain ⟨single, impure, ran⟩ : _ ∧ _ ∧ _ := by simpa using Except.ok.inj evaluated
  have keeps : program.KeepsParameters toneBehaviour := toneBehaviour_keeps impure.1 impure.2
  refine ⟨program, tone_accepted, compiled, single, keeps, ?_⟩
  obtain ⟨expected, reached, heard⟩ := ran
  have agrees := compiled_agrees_with_reference tone_accepted compiled single toneBehaviour keeps 2
    (fun _ => 0) toneEvents
  rw [reached] at agrees
  generalize (program.compiledSchedule toneBehaviour).run program.graph toneBehaviour 2 (fun _ => 0)
    toneEvents = finished at agrees ⊢
  cases agrees with
  | some same => exact congrArg some ((same.1 "d").trans heard)
end Program

end Patchbay
