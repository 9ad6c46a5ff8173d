import Patchbay.Proofs.Program.Journal
import Patchbay.Proofs.Program.Rework
import Patchbay.Proofs.Program.Wiring

namespace Patchbay

/-! Portlets are named and wired.

Every connected message inlet gets a receiver and every message outlet a sender; the signal outlets
of nodes with loop statements get variables.  All of this succeeds once the message module is there.
-/

open Outcome (Ends ends_pure)

namespace Program

variable {base program : Program} {id : String} {node : Node} {entry : NodeCode}

/-! ## Receivers -/

/-- The message inlets that have a source. -/
def connectedInlets (node : Node) : List Portlet :=
  (node.inletsOfType .message).filter fun inlet => !(node.sourcesOf inlet.id).isEmpty

def reservedFor (names : NameIndex) (id : String) (inlets : List Portlet) : Table Code.Function :=
  .ofList (inlets.map fun inlet =>
    (inlet.id, receiverPlaceholder (names.nameOf (.receivers id) inlet.id)))

def withReceivers (base : Program) (id : String) (entry : NodeCode) : NodeCode :=
  { entry with receivers := { entry.receivers with
      entries := reservedFor base.names id
        (((base.graph.node? id).map connectedInlets).getD []) } }

def receiverHandles (base : Program) (id : String) : List (NameSpace × String) :=
  (((base.graph.node? id).map connectedInlets).getD []).map fun inlet => (.receivers id, inlet.id)

theorem connectedInlets_distinct {graph : Graph} (fits : node.FitsIn graph id) :
    ((connectedInlets node).map Portlet.id).Nodup := by
  refine fits.inletsDistinct.sublist (List.Sublist.map _ ?_)
  exact List.filter_sublist.trans List.filter_sublist

theorem Framed.reserveReceivers_ends (framed : program.Framed)
    (found : program.graph.node? id = some node)
    (stored : program.nodes.entries.get? id = some entry)
    (unreserved : entry.receivers.entries = ∅) :
    Ends (program.reserveReceivers id node) (fun _ => False) fun after =>
      Refines program after id (fun entry => { entry with receivers := { entry.receivers with
          entries := reservedFor program.names id (connectedInlets node) } })
        ((connectedInlets node).map fun inlet => (.receivers id, inlet.id)) [] := by
  obtain ⟨outlets, _, receivers, _⟩ := framed.opens found
  obtain ⟨entered, entering, took, _⟩ := NameIndex.enterNode_eq_ok outlets
  unfold reserveReceivers
  refine .step (register_get_eq_ok_iff.mpr stored) (.step entering ?_)
  refine Outcome.ends_foldlM (fun done state => Refines program state id
    (fun entry => { entry with receivers := { entry.receivers with
      entries := reservedFor program.names id done } })
    (done.map fun inlet => (.receivers id, inlet.id)) []) ?_ ?_
  · refine (Refines.of_names took.adds fun _ => rfl).congr stored ?_
    change entry = { entry with receivers := { entry.receivers with entries := (∅ : Table _) } }
    rw [← unreserved]
  · intro done inlet rest state split held
    have opens : state.names.Opens (.receivers id) := held.names.opens_iff.mpr receivers
    obtain ⟨names, reading, tookName⟩ := readName_eq state opens inlet.id
    have current := held.entry stored
    have distinct := connectedInlets_distinct (framed.wellFormed.fits found)
    obtain ⟨unseen, distinctDone⟩ := fresh_of_nodup distinct
      (show (connectedInlets node).map Portlet.id = _ by
        unfold connectedInlets; rw [split, List.map_append, List.map_cons])
    have free : inlet.id ∉ (reservedFor program.names id done).keys := by
      unfold reservedFor
      rwa [Table.keys_ofList_map distinctDone]
    refine .step reading ?_
    refine .step (register_get_eq_ok_iff.mpr current) ?_
    refine (Register.add_ends.mono (fun _ taken => absurd taken free) fun _ _ held => held).bind
      fun receivers _ added => ?_
    obtain ⟨_, rfl⟩ := added
    rw [List.map_append]
    refine ends_pure (held.next stored tookName ?_)
    simp [reservedFor, Table.ofList_append_singleton, held.names.nameOf]

/-- Every connected message inlet gets a receiver. -/
theorem Framed.reserve_ends (framed : base.Framed)
    (unreserved : ∀ {id entry}, base.nodes.entries.get? id = some entry →
      entry.receivers.entries = ∅) :
    Ends (base.forNodes base.fullTraversal reserveReceivers) (fun _ => False)
      (Reworked base base.withReceivers base.receiverHandles (fun _ => []) base.fullTraversal) := by
  refine framed.rework_ends framed.distinct (fun _ member => member) ?_
  intro done program id node entry held framedNow _ found stored current
  have sameName := held.names.nameOf
  have sameGraph := held.keeps.graph
  have foundNow : program.graph.node? id = some node := sameGraph ▸ found
  refine .step (Graph.node_eq_ok_iff.mpr foundNow) ?_
  refine (framedNow.reserveReceivers_ends foundNow current (unreserved stored)).mono
    (fun _ never => never) fun after _ refines => ?_
  have handles : base.receiverHandles id =
      (connectedInlets node).map fun inlet => (.receivers id, inlet.id) := by
    simp [receiverHandles, found]
  rw [handles]
  refine refines.congr current ?_
  simp [withReceivers, found, reservedFor, sameName]

/-! ## Senders -/

/-- Every connected message inlet has the receiver that was reserved for it. -/
def Reserved (program : Program) : Prop :=
  ∀ ⦃id node entry⦄, program.graph.node? id = some node →
    program.nodes.entries.get? id = some entry →
      entry.receivers.keys = (connectedInlets node).map Portlet.id ∧
      ∀ {inlet receiver}, entry.receivers.entries.get? inlet = some receiver →
        receiver.name = program.names.nameOf (.receivers id) inlet

theorem Reworked.reserved {ids : List String} (framed : base.Framed)
    (held : Reworked base base.withReceivers base.receiverHandles (fun _ => []) ids program)
    (all : ∀ id ∈ base.fullTraversal, id ∈ ids) : program.Reserved := by
  intro id node entry found stored
  have foundBefore : base.graph.node? id = some node := held.keeps.graph ▸ found
  rw [held.nodes, if_pos (all id (framed.listed.mpr ⟨node, foundBefore⟩))] at stored
  obtain ⟨old, _, rfl⟩ := Option.map_eq_some_iff.mp stored
  have distinct := connectedInlets_distinct (framed.wellFormed.fits foundBefore)
  have receivers : (base.withReceivers id old).receivers.entries =
      reservedFor base.names id (connectedInlets node) := by
    simp [withReceivers, foundBefore]
  refine ⟨?_, fun {inlet receiver} bound => ?_⟩
  · unfold Register.keys
    rw [receivers, reservedFor, Table.keys_ofList_map distinct]
  · rw [receivers, reservedFor, Table.get?_ofList_map_iff distinct] at bound
    obtain ⟨portlet, _, rfl, rfl⟩ := bound
    rw [held.names.nameOf]
    rfl

/-- The functions that a message outlet with some sinks calls. -/
def functionsOf (program : Program) (sinks : List Endpoint) : List String :=
  sinks.map (fun sink => program.names.nameOf (.receivers sink.node) sink.portlet) ++
    (program.coldDsp.values.filter fun group =>
      sinks.any fun sink => program.coldOf.get? sink.node == some group.id).map (·.functionName)

def senderOf (program : Program) (id outlet : String) (functions : List String) : Sender :=
  match functions with
  | [] => ⟨program.names.nameOf (.module "msg") "nullMessageReceiver", [], none⟩
  | [function] => ⟨function, [function], none⟩
  | _ =>
      let name := program.names.nameOf (.senders id) outlet
      ⟨name, functions, some (dispatcher name functions)⟩

def senderHandles (id outlet : String) : List String → List (NameSpace × String)
  | [] => [(.module "msg", "nullMessageReceiver")]
  | [_] => []
  | _ => [(.senders id, outlet)]

def chooseSender (program : Program) (id outlet : String) (functions : List String) :
    Outcome (Sender × Program) :=
  match functions with
  | [] => do
      let (name, program) ← program.readName (.module "msg") "nullMessageReceiver"
      pure (⟨name, [], none⟩, program)
  | [function] => pure (⟨function, [function], none⟩, program)
  | _ => do
      let (name, program) ← program.readName (.senders id) outlet
      pure (⟨name, functions, some (dispatcher name functions)⟩, program)

theorem wireMessageOutlet_eq (outlet : Portlet) : program.wireMessageOutlet id node outlet = (do
    let functions ← program.sinkFunctions id outlet (node.sinksOf outlet.id)
    let (sender, program) ← program.chooseSender id outlet.id functions
    let entry ← program.nodes.get id
    let senders ← entry.senders.add outlet.id sender
    return program.refineNode id fun entry => { entry with senders }) := by
  unfold wireMessageOutlet chooseSender
  refine bind_congr fun functions => ?_
  match functions with
  | [] => simp only [bind_assoc]
  | [function] => rfl
  | first :: second :: rest => simp only [bind_assoc]

theorem chooseSender_eq (outlet : String) (functions : List String)
    (module : program.names.Opens (.module "msg")) (senders : program.names.Opens (.senders id)) :
    ∃ names, program.chooseSender id outlet functions =
        .ok (program.senderOf id outlet functions, { program with names }) ∧
      program.names.Took names (senderHandles id outlet functions) := by
  unfold chooseSender senderOf senderHandles
  match functions with
  | [] =>
      obtain ⟨names, reading, took⟩ := readName_eq program module "nullMessageReceiver"
      exact ⟨names, by rw [reading]; rfl, took⟩
  | [function] => exact ⟨program.names, rfl, .refl _⟩
  | first :: second :: rest =>
      obtain ⟨names, reading, took⟩ := readName_eq program senders outlet
      exact ⟨names, by rw [reading]; rfl, took⟩

/-- The inlet that a message outlet is connected to has a receiver. -/
theorem Framed.receiver_of_sink (framed : program.Framed) (reserved : program.Reserved)
    (found : program.graph.node? id = some node) {outlet : Portlet} {sink : Endpoint}
    (isOutlet : outlet ∈ node.outletsOfType .message) (isSink : sink ∈ node.sinksOf outlet.id) :
    ∃ entry receiver, program.nodes.entries.get? sink.node = some entry ∧
      entry.receivers.entries.get? sink.portlet = some receiver ∧
      receiver.name = program.names.nameOf (.receivers sink.node) sink.portlet := by
  obtain ⟨member, isMessage⟩ := List.mem_filter.mp isOutlet
  obtain ⟨sinkNode, inlet, sinkFound, isInlet, inletId, sameType, recorded⟩ :=
    framed.wellFormed.sink_of_outlet found member isSink
  obtain ⟨entry, stored⟩ := framed.entry sinkFound
  obtain ⟨keys, named⟩ := reserved sinkFound stored
  have connected : inlet ∈ connectedInlets sinkNode := by
    refine List.mem_filter.mpr ⟨List.mem_filter.mpr ⟨isInlet, ?_⟩, ?_⟩
    · rw [decide_eq_true_eq] at isMessage ⊢
      exact sameType.trans isMessage
    · rw [inletId]
      have some_source : sinkNode.sourcesOf sink.portlet ≠ [] := List.ne_nil_of_mem recorded
      simpa using some_source
  have bound : sink.portlet ∈ entry.receivers.entries.keys := by
    change sink.portlet ∈ entry.receivers.keys
    rw [keys, ← inletId]
    exact List.mem_map_of_mem connected
  obtain ⟨receiver, held⟩ := Table.mem_keys_iff.mp bound
  exact ⟨entry, receiver, stored, held, named held⟩

theorem Framed.sinkFunctions_eq (framed : program.Framed) (reserved : program.Reserved)
    (found : program.graph.node? id = some node) {outlet : Portlet}
    (isOutlet : outlet ∈ node.outletsOfType .message) :
    program.sinkFunctions id outlet (node.sinksOf outlet.id) =
      .ok (program.functionsOf (node.sinksOf outlet.id)) := by
  unfold sinkFunctions functionsOf
  have receivers : ∀ sinks : List Endpoint, (∀ sink ∈ sinks, sink ∈ node.sinksOf outlet.id) →
      (sinks.mapM fun sink => do
        let entry ← program.nodes.get sink.node
        let receiver ← Outcome.inContext s!"outlet {id}:{outlet.id}"
          (entry.receivers.get sink.portlet)
        return receiver.name) =
      .ok (sinks.map fun sink => program.names.nameOf (.receivers sink.node) sink.portlet) := by
    intro sinks within
    induction sinks with
    | nil => rfl
    | cons sink rest ih =>
        obtain ⟨entry, receiver, stored, bound, named⟩ :=
          framed.receiver_of_sink reserved found isOutlet (within sink (by simp))
        rw [List.mapM_cons, ih fun other later => within other (List.mem_cons_of_mem _ later),
          register_get_eq_ok_iff.mpr stored]
        change ((Outcome.inContext _ (entry.receivers.get sink.portlet) >>= _) >>= _) = _
        rw [register_get_eq_ok_iff.mpr bound]
        simp [named, Outcome.inContext, Except.mapError, bind, Except.bind, pure, Except.pure]
  rw [receivers _ fun _ member => member]
  rfl

theorem Reserved.transfer {before after : Program} (reserved : before.Reserved)
    (graph : after.graph = before.graph) (akin : before.names.Akin after.names)
    (kept : ∀ {id entry}, after.nodes.entries.get? id = some entry →
      ∃ old, before.nodes.entries.get? id = some old ∧ entry.receivers = old.receivers) :
    after.Reserved := by
  intro id node entry found stored
  obtain ⟨old, storedBefore, same⟩ := kept stored
  rw [same, akin.nameOf]
  exact reserved (graph ▸ found) storedBefore

theorem Refines.transfers {before after : Program} {change : NodeCode → NodeCode}
    {handles : List (NameSpace × String)} {states : List String}
    (refines : Refines before after id change handles states)
    (blind : ∀ entry, (change entry).receivers = entry.receivers) {other : String}
    (stored : after.nodes.entries.get? other = some entry) :
    ∃ old, before.nodes.entries.get? other = some old ∧ entry.receivers = old.receivers := by
  rw [refines.nodes] at stored
  split at stored
  · obtain ⟨old, storedBefore, rfl⟩ := Option.map_eq_some_iff.mp stored
    exact ⟨old, storedBefore, blind old⟩
  · exact ⟨entry, stored, rfl⟩

/-- The senders of some message outlets of a node. -/
def sendersFor (program : Program) (id : String) (node : Node) (outlets : List Portlet) :
    Table Sender :=
  .ofList (outlets.map fun outlet =>
    (outlet.id, program.senderOf id outlet.id (program.functionsOf (node.sinksOf outlet.id))))

theorem get?_sendersFor (program : Program) (id : String) (node : Node) {outlets : List Portlet}
    (distinct : (outlets.map Portlet.id).Nodup) {outlet : Portlet} (isOutlet : outlet ∈ outlets) :
    ∃ sender, (program.sendersFor id node outlets).get? outlet.id = some sender :=
  ⟨_, (Table.get?_ofList_map_iff distinct).mpr ⟨outlet, isOutlet, rfl, rfl⟩⟩

def outletHandles (program : Program) (id : String) (node : Node) (outlets : List Portlet) :
    List (NameSpace × String) :=
  outlets.flatMap fun outlet =>
    senderHandles id outlet.id (program.functionsOf (node.sinksOf outlet.id))

theorem functionsOf_congr {before after : Program} (akin : before.names.Akin after.names)
    (coldDsp : after.coldDsp = before.coldDsp) (coldOf : after.coldOf = before.coldOf) :
    after.functionsOf = before.functionsOf := by
  unfold functionsOf
  rw [akin.nameOf, coldDsp, coldOf]

theorem senderOf_congr {before after : Program} (akin : before.names.Akin after.names) :
    after.senderOf = before.senderOf := by
  unfold senderOf
  rw [akin.nameOf]

theorem Framed.wireMessageOutlets_ends (framed : program.Framed) (reserved : program.Reserved)
    (module : program.names.Opens (.module "msg")) (found : program.graph.node? id = some node)
    (stored : program.nodes.entries.get? id = some entry) (unsent : entry.senders.entries = ∅) :
    Ends (program.wireMessageOutlets id node) (fun _ => False) fun after =>
      Refines program after id (fun entry => { entry with senders := { entry.senders with
          entries := program.sendersFor id node (node.outletsOfType .message) } })
        (program.outletHandles id node (node.outletsOfType .message)) [] := by
  obtain ⟨outlets, senders, _, _⟩ := framed.opens found
  obtain ⟨entered, entering, took, _⟩ := NameIndex.enterNode_eq_ok outlets
  unfold wireMessageOutlets
  refine .step (register_get_eq_ok_iff.mpr stored) (.step entering ?_)
  refine Outcome.ends_foldlM (fun done state => Refines program state id
    (fun entry => { entry with senders := { entry.senders with
      entries := program.sendersFor id node done } }) (program.outletHandles id node done) []) ?_ ?_
  · refine (Refines.of_names took.adds fun _ => rfl).congr stored ?_
    change entry = { entry with senders := { entry.senders with entries := (∅ : Table _) } }
    rw [← unsent]
  · intro done outlet rest state split held
    have akin := held.names.toAkin
    have sameGraph := held.keeps.graph
    have foundNow : state.graph.node? id = some node := sameGraph ▸ found
    have framedNow := framed.of_keeps held.keeps
    have reservedNow : state.Reserved := reserved.transfer sameGraph akin
      fun stored => held.transfers (fun _ => rfl) stored
    have isOutlet : outlet ∈ node.outletsOfType .message := by simp [split]
    have sameFunctions : state.functionsOf = program.functionsOf := by
      obtain ⟨_, _, frame⟩ := held.frame
      refine functionsOf_congr akin ?_ ?_ <;> rw [frame]
    obtain ⟨names, choosing, tookName⟩ := chooseSender_eq outlet.id
      (state.functionsOf (node.sinksOf outlet.id)) (akin.opens_iff.mpr module)
      (akin.opens_iff.mpr senders)
    have distinct : ((node.outletsOfType .message).map Portlet.id).Nodup :=
      (framed.wellFormed.fits found).outletsDistinct.sublist (List.filter_sublist.map _)
    obtain ⟨unseen, distinctDone⟩ := fresh_of_nodup distinct
      (by rw [split, List.map_append, List.map_cons])
    have free : outlet.id ∉ (program.sendersFor id node done).keys := by
      unfold sendersFor
      rwa [Table.keys_ofList_map distinctDone]
    rw [wireMessageOutlet_eq]
    refine .step (framedNow.sinkFunctions_eq reservedNow foundNow isOutlet) (.step choosing ?_)
    refine .step (register_get_eq_ok_iff.mpr (held.entry stored)) ?_
    refine (Register.add_ends.mono (fun _ taken => absurd taken free) fun _ _ held => held).bind
      fun added _ adding => ?_
    obtain ⟨_, rfl⟩ := adding
    unfold outletHandles
    rw [List.flatMap_append, List.flatMap_singleton]
    rw [sameFunctions] at tookName
    refine ends_pure (held.next stored tookName ?_)
    simp [sendersFor, Table.ofList_append_singleton, sameFunctions, senderOf_congr akin]

def withSenders (base : Program) (id : String) (entry : NodeCode) : NodeCode :=
  { entry with senders := { entry.senders with
      entries := ((base.graph.node? id).map fun node =>
        base.sendersFor id node (node.outletsOfType .message)).getD ∅ } }

def messageHandles (base : Program) (id : String) : List (NameSpace × String) :=
  ((base.graph.node? id).map fun node =>
    base.outletHandles id node (node.outletsOfType .message)).getD []

/-- Every message outlet gets a sender. -/
theorem Framed.send_ends (framed : base.Framed) (reserved : base.Reserved)
    (module : base.names.Opens (.module "msg"))
    (unsent : ∀ {id entry}, base.nodes.entries.get? id = some entry → entry.senders.entries = ∅) :
    Ends (base.forNodes base.fullTraversal wireMessageOutlets) (fun _ => False)
      (Reworked base base.withSenders base.messageHandles (fun _ => []) base.fullTraversal) := by
  refine framed.rework_ends framed.distinct (fun _ member => member) ?_
  intro done program id node entry held framedNow _ found stored current
  have akin := held.names.toAkin
  have sameGraph := held.keeps.graph
  have foundNow : program.graph.node? id = some node := sameGraph ▸ found
  have reservedNow : program.Reserved := by
    refine reserved.transfer sameGraph akin fun {other entry} stored => ?_
    rw [held.nodes] at stored
    split at stored
    · obtain ⟨old, storedBefore, rfl⟩ := Option.map_eq_some_iff.mp stored
      exact ⟨old, storedBefore, rfl⟩
    · exact ⟨entry, stored, rfl⟩
  have sameFunctions : program.functionsOf = base.functionsOf := by
    obtain ⟨_, _, frame⟩ := held.frame
    refine functionsOf_congr akin ?_ ?_ <;> rw [frame]
  refine .step (Graph.node_eq_ok_iff.mpr foundNow) ?_
  refine (framedNow.wireMessageOutlets_ends reservedNow (akin.opens_iff.mpr module) foundNow current
    (unsent stored)).mono (fun _ never => never) fun after _ refines => ?_
  have handles : base.messageHandles id =
      program.outletHandles id node (node.outletsOfType .message) := by
    simp [messageHandles, found, outletHandles, sameFunctions]
  rw [handles]
  refine refines.congr current ?_
  simp [withSenders, found, sendersFor, sameFunctions, senderOf_congr akin]

end Program

end Patchbay
