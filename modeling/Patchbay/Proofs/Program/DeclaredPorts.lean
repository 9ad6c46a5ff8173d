import Patchbay.Proofs.Program.Declared

namespace Patchbay.Program

/-! What a program declares for its nodes, its cold groups and its host.

A signal outlet has a variable if its node has a loop statement, a message inlet a receiver if it has a
source, and a message outlet a function of its own if it calls more than one.  Cold groups and ports of
the host are one function each.
-/

open Code (Part)

variable {graph : Graph} {catalog : Catalog} {library : Library} {settings : Settings}
  {program : Program} {id : String} {node : Node} {entry : NodeCode} {subject : Subject}

/-! ## Portlets -/

/-- Whether a message outlet calls several functions. -/
def dispatches (program : Program) (node : Node) (outlet : Portlet) : Bool :=
  2 ≤ (program.functionsOf (node.sinksOf outlet.id)).length

/-- The portlets of a node that have names of their own. -/
def namedPortlets (program : Program) (id : String) (node : Node) : List (NameSpace × List String) :=
  [(.outlets id, if id ∈ program.loopNodes then
      Text.sortIds ((node.outletsOfType .signal).map Portlet.id) else []),
    (.receivers id, (connectedInlets node).map Portlet.id),
    (.senders id, ((node.outletsOfType .message).filter (program.dispatches node)).map Portlet.id)]

def portletKeys (program : Program) (id : String) : List (NameSpace × List String) :=
  ((program.graph.node? id).map (program.namedPortlets id)).getD []

theorem portletKeys_eq (found : program.graph.node? id = some node) :
    program.portletKeys id = program.namedPortlets id node := by
  simp [portletKeys, found]

theorem distinct_of_mem_namedPortlets (fits : node.FitsIn program.graph id)
    {keyed : NameSpace × List String} (member : keyed ∈ program.namedPortlets id node) :
    keyed.2.Nodup := by
  have outlets : ∀ type, ((node.outletsOfType type).map Portlet.id).Nodup :=
    fun type => fits.outletsDistinct.sublist (List.filter_sublist.map _)
  simp only [namedPortlets, List.mem_cons, List.not_mem_nil, or_false] at member
  rcases member with rfl | rfl | rfl
  · dsimp only
    split
    · exact (List.mergeSort_perm _ _).nodup_iff.mpr (outlets .signal)
    · exact .nil
  · exact connectedInlets_distinct fits
  · exact (outlets .message).sublist (List.filter_sublist.map _)

/-- Portlets of different nodes, and those of different sides of a node, have different spaces. -/
theorem Framed.portletSpaces_distinct (framed : program.Framed) :
    ((program.fullTraversal.flatMap program.portletKeys).map Prod.fst).Nodup := by
  have spaces : ((program.fullTraversal.flatMap program.portletKeys).map Prod.fst) =
      program.fullTraversal.flatMap fun id =>
        [NameSpace.outlets id, NameSpace.receivers id, NameSpace.senders id] := by
    rw [List.map_flatMap]
    refine List.flatMap_congr fun id listed => ?_
    obtain ⟨node, found⟩ := framed.listed.mp listed
    rw [portletKeys_eq found]
    rfl
  rw [spaces]
  refine List.nodup_flatMap.mpr ⟨fun id _ => by simp, framed.distinct.imp fun apart => ?_⟩
  simpa [List.disjoint_left] using apart

theorem declaredName_outletParts (outlets : List Portlet) (same : entry.signalOuts = variablesOf id outlets)
    (distinct : (outlets.map Portlet.id).Nodup) :
    (outletParts entry).map Part.declaredName =
      (Text.sortIds (outlets.map Portlet.id)).map (program.names.nameOf (.outlets id)) := by
  unfold outletParts variablesOf at *
  rw [List.map_map, same, Table.keys_ofList_map distinct]
  refine List.map_congr_left fun outlet listed => ?_
  obtain ⟨portlet, isOutlet, rfl⟩ := List.mem_map.mp (Graph.mem_sortIds_iff.mp listed)
  have bound : (variablesOf id outlets).get? portlet.id = some (outletVariable ⟨id, portlet.id⟩) :=
    (Table.get?_ofList_map_iff distinct).mpr ⟨portlet, isOutlet, rfl, rfl⟩
  unfold variablesOf at bound
  change Table.getD _ portlet.id "" = _
  rw [Table.getD, bound]
  rfl

theorem declaredName_dispatcher (outlet : String) (functions : List String) :
    ((program.senderOf id outlet functions).dispatcher.map Part.ofFunction).map Part.declaredName =
      if 2 ≤ functions.length then some (program.names.nameOf (.senders id) outlet) else none := by
  unfold senderOf
  split
  · rfl
  · rfl
  · next none single =>
    obtain ⟨first, rest, rfl⟩ := List.exists_cons_of_ne_nil none
    obtain ⟨second, others, rfl⟩ := List.exists_cons_of_ne_nil fun empty : rest = [] =>
      single first (by rw [empty])
    rw [if_pos (by simp)]
    rfl

theorem filterMap_if_some {α : Type u} {β : Type v} (holds : α → Bool) (result : α → β) (items : List α) :
    (items.filterMap fun item => if holds item then some (result item) else none) =
      (items.filter holds).map result := by
  induction items with
  | nil => rfl
  | cons item rest ih =>
      rw [List.filterMap_cons, List.filter_cons, ih]
      split <;> simp_all

theorem declaredName_receivers {inlets : List Portlet} {generated : Table Code.Function}
    (receivers : entry.receivers.entries =
      (reservedFor program.names id inlets).map (withBody generated))
    (distinct : (inlets.map Portlet.id).Nodup) :
    (entry.receivers.values.map Part.ofFunction).map Part.declaredName =
      (inlets.map Portlet.id).map (program.names.nameOf (.receivers id)) := by
  have keys : ((inlets.map fun inlet => (inlet.id,
      receiverPlaceholder (program.names.nameOf (.receivers id) inlet.id))).map Prod.fst).Nodup := by
    rwa [List.map_map]
  unfold Register.values Table.values
  rw [receivers]
  simp only [reservedFor, Table.map, Table.entries_ofList keys, List.map_map]
  rfl

theorem declaredName_senders {outlets : List Portlet}
    (senders : entry.senders.entries = program.sendersFor id node outlets)
    (distinct : (outlets.map Portlet.id).Nodup) :
    (entry.senders.values.filterMap fun sender => sender.dispatcher.map Part.ofFunction).map
        Part.declaredName =
      ((outlets.filter (program.dispatches node)).map Portlet.id).map
        (program.names.nameOf (.senders id)) := by
  have keys : ((outlets.map fun outlet => (outlet.id,
      program.senderOf id outlet.id (program.functionsOf (node.sinksOf outlet.id)))).map
        Prod.fst).Nodup := by
    rwa [List.map_map]
  unfold Register.values Table.values
  rw [senders, sendersFor, Table.entries_ofList keys, List.map_filterMap, List.map_map,
    List.map_map, List.filterMap_map, ← filterMap_if_some]
  refine List.filterMap_congr fun outlet _ => ?_
  simpa [dispatches] using declaredName_dispatcher outlet.id
    (program.functionsOf (node.sinksOf outlet.id))

/-- Every cold group is a function. -/
theorem declaredNames_coldFunctions (groups : List ColdGroup) :
    Code.declaredNames (Code.lines (groups.map program.coldFunction)) =
      groups.map fun group => group.functionName := by
  rw [Code.declaredNames_lines_of_all fun part member => by
    obtain ⟨group, _, rfl⟩ := List.mem_map.mp member
    rfl]
  simp only [List.map_map]
  rfl

namespace Laying

variable (laying : Laying graph catalog library settings program)

include laying

/-- The portlets of a node are declared under their names. -/
theorem declaredName_portletParts (found : program.graph.node? id = some node) :
    (program.contribution portletParts id).map Part.declaredName =
      (program.portletKeys id).flatMap fun keyed =>
        keyed.2.map (program.names.nameOf keyed.1) := by
  have fits := laying.framed.wellFormed.fits found
  have distinct : ∀ type, ((node.outletsOfType type).map Portlet.id).Nodup :=
    fun type => fits.outletsDistinct.sublist (List.filter_sublist.map _)
  obtain ⟨entry, stored, receivers, senders⟩ := laying.portlets found
  have outlets : (outletParts entry).map Part.declaredName =
      (if id ∈ program.loopNodes then Text.sortIds ((node.outletsOfType .signal).map Portlet.id)
        else []).map (program.names.nameOf (.outlets id)) := by
    rw [laying.loopNodes_eq]
    split
    · next looped =>
      have same : laying.split.signalOutlets id = node.outletsOfType .signal := by
        rw [laying.keeps.graph] at found
        simp [signalOutlets, found]
      exact declaredName_outletParts _ (same ▸ laying.signalOuts looped stored) (distinct .signal)
    · next unlooped =>
      have none : (∅ : Table String).keys = [] := rfl
      simp [outletParts, laying.signalOuts_of_unlooped unlooped stored, none, Text.sortIds]
  rw [contribution_eq stored, portletParts, List.map_append, List.map_append, outlets,
    declaredName_receivers receivers (connectedInlets_distinct fits),
    declaredName_senders senders (distinct .message), portletKeys_eq found]
  simp only [namedPortlets, List.flatMap_cons, List.flatMap_nil, List.append_nil, List.append_assoc]

/-- The portlets region declares the portlets that have names of their own. -/
theorem lists_portlets (tells : program.names.Tells program.Named) :
    program.names.Lists (fun subject => program.Named subject ∧ subject.place = .portlets)
      (Code.declaredNames (Code.lines
        (program.fullTraversal.flatMap (program.contribution portletParts)))) := by
  have framed := laying.framed
  have names : Code.declaredNames (Code.lines
      (program.fullTraversal.flatMap (program.contribution portletParts))) =
        ((program.fullTraversal.flatMap program.portletKeys).flatMap fun keyed =>
          keyed.2.map (Subject.handle keyed.1)).map program.names.nameFor := by
    rw [Code.declaredNames, declarations_portlets, List.map_flatMap, List.map_flatMap,
      List.flatMap_assoc]
    refine List.flatMap_congr fun id listed => ?_
    obtain ⟨node, found⟩ := framed.listed.mp listed
    rw [laying.declaredName_portletParts found]
    refine List.flatMap_congr fun keyed _ => ?_
    rw [List.map_map]
    rfl
  rw [names]
  refine lists_of_map tells (Subject.nodup_handles framed.portletSpaces_distinct ?_) fun subject => ?_
  · intro keyed member
    obtain ⟨id, listed, member⟩ := List.mem_flatMap.mp member
    obtain ⟨node, found⟩ := framed.listed.mp listed
    rw [portletKeys_eq found] at member
    exact distinct_of_mem_namedPortlets (framed.wellFormed.fits found) member
  constructor
  · intro member
    obtain ⟨keyed, isKeyed, listed⟩ := List.mem_flatMap.mp member
    obtain ⟨key, isKey, rfl⟩ := List.mem_map.mp listed
    obtain ⟨id, listed, isOwn⟩ := List.mem_flatMap.mp isKeyed
    obtain ⟨node, found⟩ := framed.listed.mp listed
    rw [portletKeys_eq found] at isOwn
    simp only [namedPortlets, List.mem_cons, List.not_mem_nil, or_false] at isOwn
    rcases isOwn with rfl | rfl | rfl
    · dsimp only at isKey
      split at isKey
      · next looped =>
        obtain ⟨outlet, isOutlet, rfl⟩ := List.mem_map.mp (Graph.mem_sortIds_iff.mp isKey)
        exact ⟨.outlet looped found isOutlet, rfl⟩
      · cases isKey
    · obtain ⟨inlet, connected, rfl⟩ := List.mem_map.mp isKey
      exact ⟨.receiver found connected, rfl⟩
    · obtain ⟨outlet, isOutlet, rfl⟩ := List.mem_map.mp isKey
      obtain ⟨isOutlet, several⟩ := List.mem_filter.mp isOutlet
      exact ⟨.sender found isOutlet (of_decide_eq_true several), rfl⟩
  · rintro ⟨isNamed, isPlace⟩
    have member : ∀ {id : String} {node : Node} {keyed : NameSpace × List String} {key : String},
        program.graph.node? id = some node → keyed ∈ program.namedPortlets id node →
        key ∈ keyed.2 → Subject.handle keyed.1 key ∈
          (program.fullTraversal.flatMap program.portletKeys).flatMap fun keyed =>
            keyed.2.map (Subject.handle keyed.1) := by
      intro id node keyed key found isKeyed isKey
      refine List.mem_flatMap.mpr ⟨keyed, List.mem_flatMap.mpr
        ⟨id, framed.listed.mpr ⟨node, found⟩, ?_⟩, List.mem_map_of_mem isKey⟩
      rwa [portletKeys_eq found]
    cases isNamed with
    | @outlet id node outlet looped found isOutlet =>
        refine member found (List.mem_cons_self ..) ?_
        rw [if_pos looped]
        exact Graph.mem_sortIds_iff.mpr (List.mem_map_of_mem isOutlet)
    | @receiver id node inlet found connected =>
        exact member found (List.mem_cons_of_mem _ (List.mem_cons_self ..))
          (List.mem_map_of_mem connected)
    | @sender id node outlet found isOutlet several =>
        exact member found (List.mem_cons_of_mem _ (List.mem_cons_of_mem _ (List.mem_cons_self ..)))
          (List.mem_map_of_mem (List.mem_filter.mpr ⟨isOutlet, decide_eq_true several⟩))
    | backed held => cases held <;> cases isPlace
    | _ => cases isPlace

/-! ## Cold groups -/

/-- Every cold group is declared as a function. -/
theorem lists_coldGroups (tells : program.names.Tells program.Named) :
    program.names.Lists (fun subject => program.Named subject ∧ subject.place = .coldGroups)
      (Code.declaredNames (Code.lines (program.coldDsp.values.map program.coldFunction))) := by
  have names : Code.declaredNames (Code.lines (program.coldDsp.values.map program.coldFunction)) =
      (program.coldDsp.keys.map (Subject.handle .coldGroups)).map program.names.nameFor := by
    rw [declaredNames_coldFunctions]
    unfold Register.values Register.keys Table.values Table.keys
    rw [laying.splitInto.coldDsp]
    simp only [List.map_map]
    rfl
  rw [names]
  refine lists_of_map tells (program.coldDsp.entries.distinct.map fun _ _ same =>
    (Subject.handle.inj same).2) fun subject => ?_
  constructor
  · intro member
    obtain ⟨key, registered, rfl⟩ := List.mem_map.mp member
    exact ⟨.coldGroup registered, rfl⟩
  · rintro ⟨isNamed, isPlace⟩
    cases isNamed with
    | coldGroup registered => exact List.mem_map_of_mem registered
    | backed held => cases held <;> cases isPlace
    | _ => cases isPlace

/-! ## Ports of the host -/

theorem requests_distinct :
    (requests settings.receivers).Nodup ∧ (requests settings.senders).Nodup :=
  requests_nodup_of_graft rfl rfl laying.setup.graftRan

/-- Every port that the host sends to is declared as a function. -/
theorem lists_hostReceivers (tells : program.names.Tells program.Named) :
    program.names.Lists (fun subject => program.Named subject ∧ subject.place = .hostReceivers)
      (Code.declaredNames (Code.lines
        (program.hostReceivers.values.map program.receiverFunction))) := by
  have names : Code.declaredNames (Code.lines
      (program.hostReceivers.values.map program.receiverFunction)) =
        (program.hostReceivers.values.map fun hostPort =>
          Subject.handle (.hostReceivers hostPort.node) hostPort.portlet).map program.names.nameFor := by
    rw [Code.declaredNames_lines_of_all fun part member => by
      obtain ⟨hostPort, _, rfl⟩ := List.mem_map.mp member
      rfl]
    rw [laying.hostReceivers_eq]
    simp only [List.map_map]
    rfl
  rw [names]
  refine lists_of_map tells ?_ fun subject => ?_
  · rw [laying.hostReceivers_eq, List.map_map]
    refine laying.requests_distinct.1.map fun request other same => ?_
    obtain ⟨space, portlet⟩ := Subject.handle.inj same
    exact Prod.ext (NameSpace.hostReceivers.inj space) portlet
  constructor
  · intro member
    obtain ⟨hostPort, registered, rfl⟩ := List.mem_map.mp member
    exact ⟨.hostReceiver registered, rfl⟩
  · rintro ⟨isNamed, isPlace⟩
    cases isNamed with
    | @hostReceiver hostPort registered => exact List.mem_map.mpr ⟨hostPort, registered, rfl⟩
    | backed held => cases held <;> cases isPlace
    | _ => cases isPlace

/-- Every port that sends to the host has a function of the host. -/
theorem lists_hostSenders (tells : program.names.Tells program.Named) :
    program.names.Lists (fun subject => program.Named subject ∧ subject.place = .hostSenders)
      (program.hostSenderFunctions.map fun function => function.name) := by
  have names : (program.hostSenderFunctions.map fun function => function.name) =
      (program.hostSenders.values.map fun hostPort =>
        Subject.handle (.hostSenders hostPort.node) hostPort.portlet).map program.names.nameFor := by
    unfold hostSenderFunctions
    rw [laying.hostSenders_eq]
    simp only [List.map_map]
    rfl
  rw [names]
  refine lists_of_map tells ?_ fun subject => ?_
  · rw [laying.hostSenders_eq, List.map_map]
    refine laying.requests_distinct.2.map fun request other same => ?_
    obtain ⟨space, portlet⟩ := Subject.handle.inj same
    exact Prod.ext (NameSpace.hostSenders.inj space) portlet
  constructor
  · intro member
    obtain ⟨hostPort, registered, rfl⟩ := List.mem_map.mp member
    exact ⟨.hostSender registered, rfl⟩
  · rintro ⟨isNamed, isPlace⟩
    cases isNamed with
    | @hostSender hostPort registered => exact List.mem_map.mpr ⟨hostPort, registered, rfl⟩
    | backed held => cases held <;> cases isPlace
    | _ => cases isPlace

end Laying

end Patchbay.Program
