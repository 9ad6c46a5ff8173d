import Patchbay.Proofs.Program.Partition

namespace Patchbay.Program

/-! The passes after the split.

They write code into the nodes and leave the groups alone.  Every message outlet gets a sender, and
the sender calls the function of each cold group that one of its sinks belongs to.
-/

variable {program before between after base : Program} {id : String} {node : Node}
  {groups : List DspGroup}

/-! ## Steps that add no sender -/

namespace Keeps

theorem forNodes {ids : List String} {step : Program → String → Node → Outcome Program}
    (kept : ∀ program id node after, step program id node = .ok after → Keeps program after)
    (run : before.forNodes ids step = .ok after) : Keeps before after := by
  refine foldlM (fun program id after stepped => ?_) run
  obtain ⟨node, _, stepped⟩ := Outcome.bind_eq_ok_iff.mp stepped
  exact kept program id node after stepped

theorem reserveReceivers (run : before.reserveReceivers id node = .ok after) :
    Keeps before after := by
  unfold Program.reserveReceivers at run
  obtain ⟨_, _, run⟩ := Outcome.bind_eq_ok_iff.mp run
  obtain ⟨names, _, run⟩ := Outcome.bind_eq_ok_iff.mp run
  refine .trans (.names before names) (foldlM (fun program inlet after stepped => ?_) run)
  obtain ⟨⟨name, named⟩, naming, stepped⟩ := Outcome.bind_eq_ok_iff.mp stepped
  obtain ⟨_, _, stepped⟩ := Outcome.bind_eq_ok_iff.mp stepped
  obtain ⟨receivers, _, stepped⟩ := Outcome.bind_eq_ok_iff.mp stepped
  cases stepped
  exact (readName naming).trans (refineNode fun _ => rfl)

theorem wireNullSignals : Keeps program (program.wireNullSignals id node) :=
  refineNode fun _ => rfl

theorem wireSignalOutlet {outlet : Portlet} (run : before.wireSignalOutlet id node outlet = .ok after) :
    Keeps before after := by
  unfold Program.wireSignalOutlet at run
  obtain ⟨⟨name, named⟩, naming, run⟩ := Outcome.bind_eq_ok_iff.mp run
  have first : Keeps before (named.refineNode id fun entry =>
      { entry with signalOuts := entry.signalOuts.set outlet.id name }) :=
    (readName naming).trans (refineNode fun _ => rfl)
  refine first.trans (foldlM (fun program sink after stepped => ?_) run)
  obtain ⟨_, _, stepped⟩ := Outcome.bind_eq_ok_iff.mp stepped
  cases stepped
  exact refineNode fun _ => rfl

theorem wireSignalOutlets (run : before.wireSignalOutlets id node = .ok after) :
    Keeps before after := by
  unfold Program.wireSignalOutlets at run
  obtain ⟨_, _, run⟩ := Outcome.bind_eq_ok_iff.mp run
  obtain ⟨names, _, run⟩ := Outcome.bind_eq_ok_iff.mp run
  exact .trans (.names before names) (foldlM (fun _ _ _ stepped => wireSignalOutlet stepped) run)

theorem generateDsp {dsp : Dsp} (run : before.generateDsp id = .ok (node, dsp, after)) :
    Keeps before after := by
  unfold Program.generateDsp at run
  obtain ⟨⟨scope, entered⟩, entering, run⟩ := Outcome.bind_eq_ok_iff.mp run
  obtain ⟨type, _, run⟩ := Outcome.bind_eq_ok_iff.mp run
  dsimp only at run
  split at run
  · cases run
  · obtain ⟨⟨filled, next⟩, filling, run⟩ := Outcome.bind_eq_ok_iff.mp run
    cases run
    exact (scopeOf entering).trans (fill filling)

theorem inlineExpression {members : List String} {text : String}
    (run : before.inlineExpression members id = .ok (text, after)) : Keeps before after := by
  induction before, members, id using Program.inlineExpression.induct generalizing text after with
  | case1 program members id present ih =>
      rw [Program.inlineExpression, dif_pos present] at run
      obtain ⟨node, _, run⟩ := Outcome.bind_eq_ok_iff.mp run
      obtain ⟨_, _, run⟩ := Outcome.bind_eq_ok_iff.mp run
      obtain ⟨composed, composing, run⟩ := Outcome.bind_eq_ok_iff.mp run
      obtain ⟨⟨_, dsp, generated⟩, generating, run⟩ := Outcome.bind_eq_ok_iff.mp run
      have first : Keeps program composed := by
        refine foldlM (fun state feed next stepped => ?_) composing
        dsimp only at stepped
        split at stepped
        · obtain ⟨⟨expression, nested⟩, nesting, stepped⟩ := Outcome.bind_eq_ok_iff.mp stepped
          cases stepped
          exact (ih state feed.2 nesting).trans (refineNode fun _ => rfl)
        · cases stepped
          exact .refl state
      dsimp only at run
      split at run
      · cases run
      · obtain ⟨flat, _, run⟩ := Outcome.bind_eq_ok_iff.mp run
        cases run
        exact first.trans (generateDsp generating)
  | case2 program members id absent =>
      rw [Program.inlineExpression, dif_neg absent] at run
      cases run

theorem emitInlineGroup {group : DspGroup} (run : before.emitInlineGroup group = .ok after) :
    Keeps before after := by
  unfold Program.emitInlineGroup at run
  cases found : group.outNodes.head? with
  | none =>
      rw [found] at run
      cases run
      exact .refl before
  | some out =>
      rw [found] at run
      obtain ⟨⟨expression, composed⟩, composing, run⟩ := Outcome.bind_eq_ok_iff.mp run
      obtain ⟨node, _, run⟩ := Outcome.bind_eq_ok_iff.mp run
      have first : Keeps before composed := inlineExpression composing
      split at run
      · cases run
        exact first
      · obtain ⟨_, _, run⟩ := Outcome.bind_eq_ok_iff.mp run
        cases run
        exact first.trans (refineNode fun _ => rfl)

theorem emitLoop (run : before.emitLoop id = .ok after) : Keeps before after := by
  unfold Program.emitLoop at run
  obtain ⟨⟨node, dsp, generated⟩, generating, run⟩ := Outcome.bind_eq_ok_iff.mp run
  have first : Keeps before generated := generateDsp generating
  dsimp only at run
  split at run
  · cases run
    exact first.trans (refineNode fun _ => rfl)
  · split at run
    · cases run
    · cases run
      exact first.trans (refineNode fun _ => rfl)

theorem emitDsp (run : before.emitDsp = .ok after) : Keeps before after := by
  unfold Program.emitDsp at run
  obtain ⟨inlined, inlining, run⟩ := Outcome.bind_eq_ok_iff.mp run
  exact (foldlM (fun _ _ _ stepped => emitInlineGroup stepped) inlining).trans
    (foldlM (fun _ _ _ stepped => emitLoop stepped) run)

theorem completeReceiver {generated : Table Code.Function} {inlet : String}
    (run : before.completeReceiver id node generated inlet = .ok after) : Keeps before after := by
  unfold Program.completeReceiver at run
  obtain ⟨entry, _, run⟩ := Outcome.bind_eq_ok_iff.mp run
  obtain ⟨placeholder, _, run⟩ := Outcome.bind_eq_ok_iff.mp run
  split at run
  · cases run
  · dsimp only at run
    split at run
    · cases run
    · cases run
      exact refineNode fun _ => rfl

theorem completeReceivers {type : TypeCode} {scope : Code.Scope} {settings : Settings}
    (run : (do
      let entry ← before.nodes.get id
      if entry.receivers.size = 0 then return before
      match type.implementation.receivers with
      | none => throw (.missingReceivers id scope.node.type)
      | some templates => do
          let (generated, program) ← before.fill (contextOf "message receivers" scope.node)
            (fillReceivers scope (templates ⟨scope.node, settings⟩))
          entry.receivers.keys.foldlM (fun program inlet =>
            program.completeReceiver id scope.node generated inlet) program : Outcome Program) =
      .ok after) :
    Keeps before after := by
  obtain ⟨entry, _, run⟩ := Outcome.bind_eq_ok_iff.mp run
  dsimp only at run
  split at run
  · cases run
    exact .refl before
  · split at run
    · cases run
    · obtain ⟨⟨generated, filled⟩, filling, run⟩ := Outcome.bind_eq_ok_iff.mp run
      exact (fill filling).trans (foldlM (fun _ _ _ stepped => completeReceiver stepped) run)

theorem completeNode (run : before.completeNode id = .ok after) : Keeps before after := by
  unfold Program.completeNode at run
  obtain ⟨⟨scope, entered⟩, entering, run⟩ := Outcome.bind_eq_ok_iff.mp run
  obtain ⟨type, _, run⟩ := Outcome.bind_eq_ok_iff.mp run
  have first : Keeps before entered := scopeOf entering
  dsimp only at run
  split at run
  · exact first.trans (completeReceivers run)
  · obtain ⟨⟨code, filled⟩, filling, run⟩ := Outcome.bind_eq_ok_iff.mp run
    have initialized : Keeps filled (filled.refineNode id fun entry =>
        { entry with initialization := some code }) := refineNode fun _ => rfl
    exact first.trans ((fill filling).trans (initialized.trans (completeReceivers run)))

theorem completeNodes (run : before.completeNodes = .ok after) : Keeps before after :=
  foldlM (fun _ _ _ stepped => completeNode stepped) run

end Keeps

/-! ## Message outlets -/

theorem register_get_eq_ok_iff {α : Type u} {register : Register α} {key : String} {value : α} :
    register.get key = .ok value ↔ register.entries.get? key = some value := by
  unfold Register.get
  cases register.entries.get? key <;> simp

/-- The function of a cold group is called when one of the sinks is in the group. -/
theorem mem_sinkFunctions {outlet : Portlet} {sinks : List Endpoint} {functions : List String}
    (run : program.sinkFunctions id outlet sinks = .ok functions) {sink : Endpoint}
    (isSink : sink ∈ sinks) {group : ColdGroup} (registered : group ∈ program.coldDsp.values)
    (member : program.coldOf.get? sink.node = some group.id) : group.functionName ∈ functions := by
  unfold sinkFunctions at run
  obtain ⟨receivers, _, run⟩ := Outcome.bind_eq_ok_iff.mp run
  cases run
  refine List.mem_append_right _ (List.mem_map_of_mem (List.mem_filter.mpr ⟨registered, ?_⟩))
  exact List.any_eq_true.mpr ⟨sink, isSink, by simp [member]⟩

/-- What wiring one message outlet does: it adds the sender of the outlet. -/
structure WiresOutlet (before after : Program) (id outlet : String) (functions : List String) :
    Prop extends KeepsGroups before after where
  others : ∀ {other portlet sender}, before.sender? other portlet = some sender →
    after.sender? other portlet = some sender
  added : ∃ sender, after.sender? id outlet = some sender ∧ sender.sinkFunctions = functions

theorem addSender {outlet : String} {sender : Sender} {entry : NodeCode}
    {senders : Register Sender} (found : program.nodes.get id = .ok entry)
    (adding : entry.senders.add outlet sender = .ok senders) :
    WiresOutlet program (program.refineNode id fun entry => { entry with senders }) id outlet
      sender.sinkFunctions := by
  rw [register_get_eq_ok_iff] at found
  obtain ⟨fresh, rfl⟩ := Register.add_ends.of_ok adding
  refine ⟨⟨rfl, rfl, rfl, rfl, rfl, rfl, rfl, rfl, rfl⟩, ?_, sender, ?_, rfl⟩
  · intro other portlet stored bound
    change ((program.nodes.entries.modify id _).get? other).bind _ = _
    rw [Table.get?_modify]
    split
    · next same =>
      subst same
      unfold sender? at bound
      rw [found] at bound ⊢
      simp only [Option.bind_some, Option.map_some] at bound ⊢
      have apart : portlet ≠ outlet := fun equal =>
        fresh (equal ▸ Table.mem_keys_of_get? bound)
      rw [Table.get?_set, if_neg apart]
      exact bound
    · exact bound
  · change ((program.nodes.entries.modify id _).get? id).bind _ = _
    rw [Table.get?_modify, if_pos rfl, found]
    simp only [Option.map_some, Option.bind_some]
    rw [Table.get?_set, if_pos rfl]

theorem WiresOutlet.of_keeps {outlet : String} {functions : List String}
    (kept : Keeps before between) (wires : WiresOutlet between after id outlet functions) :
    WiresOutlet before after id outlet functions :=
  ⟨kept.toKeepsGroups.trans wires.toKeepsGroups, fun bound => wires.others (kept.senders ▸ bound),
    wires.added⟩

theorem wireMessageOutlet_eq_ok {outlet : Portlet}
    (run : before.wireMessageOutlet id node outlet = .ok after) :
    ∃ functions, before.sinkFunctions id outlet (node.sinksOf outlet.id) = .ok functions ∧
      WiresOutlet before after id outlet.id functions := by
  unfold wireMessageOutlet at run
  obtain ⟨functions, found, run⟩ := Outcome.bind_eq_ok_iff.mp run
  refine ⟨functions, found, ?_⟩
  dsimp only at run
  split at run
  · obtain ⟨⟨name, named⟩, naming, run⟩ := Outcome.bind_eq_ok_iff.mp run
    obtain ⟨_, rfl, run⟩ := Outcome.pure_bind_eq_ok_iff.mp run
    obtain ⟨entry, stored, run⟩ := Outcome.bind_eq_ok_iff.mp run
    obtain ⟨senders, adding, run⟩ := Outcome.bind_eq_ok_iff.mp run
    cases run
    exact (addSender stored adding).of_keeps (.readName naming)
  · obtain ⟨_, rfl, run⟩ := Outcome.pure_bind_eq_ok_iff.mp run
    obtain ⟨entry, stored, run⟩ := Outcome.bind_eq_ok_iff.mp run
    obtain ⟨senders, adding, run⟩ := Outcome.bind_eq_ok_iff.mp run
    cases run
    exact addSender stored adding
  · obtain ⟨⟨name, named⟩, naming, run⟩ := Outcome.bind_eq_ok_iff.mp run
    obtain ⟨_, rfl, run⟩ := Outcome.pure_bind_eq_ok_iff.mp run
    obtain ⟨entry, stored, run⟩ := Outcome.bind_eq_ok_iff.mp run
    obtain ⟨senders, adding, run⟩ := Outcome.bind_eq_ok_iff.mp run
    cases run
    exact (addSender stored adding).of_keeps (.readName naming)

/-- A message outlet is wired and calls the cold groups of its sinks. -/
def Calls (program : Program) (id : String) (node : Node) (outlet : String) : Prop :=
  ∃ sender, program.sender? id outlet = some sender ∧ ∀ sink ∈ node.sinksOf outlet,
    ∀ group ∈ program.coldDsp.values, program.coldOf.get? sink.node = some group.id →
      group.functionName ∈ sender.sinkFunctions

/-- The groups stay, and so does what is wired. -/
structure WiresMore (before after : Program) : Prop extends KeepsGroups before after where
  calls : ∀ {id node outlet}, before.Calls id node outlet → after.Calls id node outlet

theorem WiresMore.refl (program : Program) : WiresMore program program := ⟨.refl program, id⟩

theorem WiresMore.trans (first : WiresMore before between) (second : WiresMore between after) :
    WiresMore before after :=
  ⟨first.toKeepsGroups.trans second.toKeepsGroups, fun held => second.calls (first.calls held)⟩

theorem Calls.transfer {outlet : String} (held : before.Calls id node outlet)
    (kept : KeepsGroups before after) (wired : ∀ sender, before.sender? id outlet = some sender →
      after.sender? id outlet = some sender) : after.Calls id node outlet := by
  obtain ⟨sender, bound, complete⟩ := held
  refine ⟨sender, wired sender bound, ?_⟩
  rw [kept.coldDsp, kept.coldOf]
  exact complete

theorem Keeps.wiresMore (kept : Keeps before after) : WiresMore before after :=
  ⟨kept.toKeepsGroups, fun held => held.transfer kept.toKeepsGroups
    fun _ bound => kept.senders ▸ bound⟩

theorem WiresMore.wireMessageOutlet {outlet : Portlet}
    (run : before.wireMessageOutlet id node outlet = .ok after) :
    WiresMore before after ∧ after.Calls id node outlet.id := by
  obtain ⟨functions, found, wires⟩ := wireMessageOutlet_eq_ok run
  refine ⟨⟨wires.toKeepsGroups, fun held => held.transfer wires.toKeepsGroups
    fun _ bound => wires.others bound⟩, ?_⟩
  obtain ⟨sender, bound, same⟩ := wires.added
  refine ⟨sender, bound, ?_⟩
  rw [wires.coldDsp, wires.coldOf, same]
  exact fun sink isSink group registered member =>
    mem_sinkFunctions found isSink registered member

theorem WiresMore.wireMessageOutlets (run : before.wireMessageOutlets id node = .ok after) :
    WiresMore before after ∧
      ∀ outlet ∈ node.outletsOfType .message, after.Calls id node outlet.id := by
  unfold Program.wireMessageOutlets at run
  obtain ⟨_, _, run⟩ := Outcome.bind_eq_ok_iff.mp run
  obtain ⟨names, _, run⟩ := Outcome.bind_eq_ok_iff.mp run
  have wired := Outcome.foldlM_invariant
    (fun done state => WiresMore { before with names } state ∧
      ∀ outlet ∈ done, state.Calls id node outlet.id)
    ⟨.refl _, by simp⟩ ?_ run
  · exact ⟨(Keeps.names before names).wiresMore.trans wired.1, wired.2⟩
  · intro done outlet state next _ held stepped
    obtain ⟨more, calls⟩ := wireMessageOutlet stepped
    refine ⟨held.1.trans more, fun other member => ?_⟩
    rcases List.mem_append.mp member with earlier | last
    · exact more.calls (held.2 other earlier)
    · rw [List.mem_singleton.mp last]
      exact calls

/-- After wiring, every message outlet of a listed node calls the cold groups of its sinks. -/
theorem wirePortlets_calls (run : before.wirePortlets = .ok after) :
    KeepsGroups before after ∧ ∀ id ∈ after.fullTraversal, ∀ node,
      after.graph.node? id = some node → ∀ outlet ∈ node.outletsOfType .message,
        after.Calls id node outlet.id := by
  unfold wirePortlets at run
  obtain ⟨reserved, reserving, run⟩ := Outcome.bind_eq_ok_iff.mp run
  obtain ⟨grounded, grounding, run⟩ := Outcome.bind_eq_ok_iff.mp run
  obtain ⟨names, _, run⟩ := Outcome.bind_eq_ok_iff.mp run
  obtain ⟨connected, connecting, run⟩ := Outcome.bind_eq_ok_iff.mp run
  have first : Keeps before reserved :=
    .forNodes (fun _ _ _ _ stepped => .reserveReceivers stepped) reserving
  have second : Keeps reserved grounded := by
    refine .forNodes (fun program id node after stepped => ?_) grounding
    cases stepped
    exact .wireNullSignals
  have last : Keeps connected after :=
    .forNodes (fun _ _ _ _ stepped => .wireSignalOutlets stepped) run
  have wired := Outcome.foldlM_invariant
    (fun done state => WiresMore { grounded with names } state ∧ ∀ id ∈ done, ∀ node,
      state.graph.node? id = some node → ∀ outlet ∈ node.outletsOfType .message,
        state.Calls id node outlet.id)
    ⟨.refl _, by simp⟩ ?_ connecting
  · obtain ⟨more, calls⟩ := wired
    have kept : KeepsGroups before after := (first.trans second).toKeepsGroups.trans
      ((Keeps.names grounded names).toKeepsGroups.trans
        (more.toKeepsGroups.trans last.toKeepsGroups))
    refine ⟨kept, fun id listed node found outlet member => last.wiresMore.calls ?_⟩
    refine calls id ?_ node (last.graph ▸ found) outlet member
    rw [last.fullTraversal, more.fullTraversal] at listed
    exact listed
  · intro done id state next _ held stepped
    obtain ⟨node, found, stepped⟩ := Outcome.bind_eq_ok_iff.mp stepped
    rw [Graph.node_eq_ok_iff] at found
    obtain ⟨more, calls⟩ := WiresMore.wireMessageOutlets stepped
    refine ⟨held.1.trans more, fun other member otherNode otherFound outlet isOutlet => ?_⟩
    rw [more.graph] at otherFound
    rcases List.mem_append.mp member with earlier | isLast
    · exact more.calls (held.2 other earlier otherNode otherFound outlet isOutlet)
    · rw [List.mem_singleton.mp isLast] at otherFound ⊢
      rw [found] at otherFound
      cases otherFound
      exact calls outlet isOutlet

/-! ## The finished program -/

theorem SplitInto.of_keeps (held : before.SplitInto groups) (kept : KeepsGroups before after) :
    after.SplitInto groups := by
  obtain ⟨graph, catalog, library, settings, names, nodes, types, fullTraversal, rootDsp, hotDsp,
    coldDsp, inlineDsp, dependencies, hostReceivers, hostSenders, coldOf, inlined⟩ := after
  obtain ⟨rfl, rfl, _, rfl, rfl, rfl, rfl, rfl, rfl⟩ := kept
  exact ⟨held.wellFormed, held.pulled, held.rooted, held.coldGroups, held.hotDsp, held.coldDsp,
    held.coldOf, held.inlineDsp, held.inlined⟩

/-- A program that was laid out: it is split, and its message outlets are wired. -/
structure LaidOut (program : Program) (groups : List DspGroup) : Prop extends
    program.SplitInto groups where
  calls : ∀ id node, program.graph.node? id = some node →
    ∀ outlet ∈ node.outletsOfType .message, program.Calls id node outlet.id

theorem laidOut_of_precompile {graph : Graph} {catalog : Catalog} {library : Library}
    {settings : Settings} {known : Option Catalog} {reporter : Reporter}
    (accepted : (graph.check known reporter).2 = .ok ())
    (compiled : precompile graph catalog library settings = .ok program) :
    ∃ groups, program.LaidOut groups := by
  obtain ⟨ready, split, wired, emitted, prepares, splits, wires, emits, completes⟩ :=
    precompile_eq_ok compiled
  obtain ⟨prepared, listed⟩ :=
    prepared_of_beforeSplit (Graph.wellFormed_of_check accepted) prepares
  obtain ⟨found, ran, ⟨groups, held⟩, frame⟩ :=
    splitSignal_yields prepared.wellFormed prepared.unsplit
  rw [splits] at ran
  cases ran
  obtain ⟨_, _, _, _, _, _, _, rfl⟩ := frame
  obtain ⟨keptWired, calls⟩ := wirePortlets_calls wires
  have rest : Keeps wired program := (Keeps.emitDsp emits).trans (Keeps.completeNodes completes)
  refine ⟨groups, (held.of_keeps keptWired).of_keeps rest.toKeepsGroups, ?_⟩
  intro id node node? outlet member
  rw [rest.graph] at node?
  refine rest.wiresMore.calls (calls id ?_ node node? outlet member)
  rw [keptWired.fullTraversal]
  rw [keptWired.graph] at node?
  exact listed id (Graph.mem_ids_of_node? node?)

end Patchbay.Program
