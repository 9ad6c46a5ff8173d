import Patchbay.Proofs.Program.Portlets

namespace Patchbay.Program

/-! Nodes are completed.

A node gets its setup code and its message receivers get their bodies.  This fails where a template
does, where a connected inlet has no receiver, or where a receiver takes other arguments than the
function that was reserved for it.
-/

open Code (Function FunctionTemplate Granted handlesOf)
open Outcome (Ends ends_pure)

variable {base program : Program} {id : String} {node : Node} {entry : NodeCode}

/-! ## Generated receivers -/

/-- The template of the receiver of an inlet. -/
def receiverOf (templates : List (String × Option FunctionTemplate)) (inlet : String) :
    Option FunctionTemplate :=
  (templates.lookup inlet).join

def receiverIds (templates : List (String × Option FunctionTemplate)) : List String :=
  Text.sortIds (templates.map Prod.fst)

def receiverReads (templates : List (String × Option FunctionTemplate)) : List Code.Read :=
  (receiverIds templates).flatMap fun inlet =>
    (receiverOf templates inlet).toList.flatMap FunctionTemplate.reads

def resolveReceivers (templates : List (String × Option FunctionTemplate)) (scope : Code.Scope)
    (naming : Code.Naming) : Table Function :=
  .ofList ((receiverIds templates).filterMap fun inlet =>
    (receiverOf templates inlet).map fun template => (inlet, template.resolve scope naming))

/-- Fills the receiver of one inlet. -/
def fillReceiver (scope : Code.Scope) (templates : List (String × Option FunctionTemplate))
    (inlet : String) : Code.Fill (Option (String × Function)) :=
  match receiverOf templates inlet with
  | none => return none
  | some template => do
      let function ← template.fill scope
      return some (inlet, function)

theorem fillReceiver_fills (scope : Code.Scope)
    (templates : List (String × Option FunctionTemplate)) (inlet : String) :
    Code.Fills (fillReceiver scope templates inlet)
      (fun _ => (receiverOf templates inlet).toList.flatMap fun template =>
        template.reads.map (Code.Read.ask scope))
      fun naming => (receiverOf templates inlet).map fun template =>
        (inlet, template.resolve scope naming) := by
  unfold fillReceiver
  cases receiverOf templates inlet with
  | none => exact .pure none
  | some template =>
      simp only [Option.toList_some, List.flatMap_singleton]
      exact (template.fill_fills scope).map fun function => some (inlet, function)

theorem fillReceivers_fills (scope : Code.Scope) (templates : List (String × Option FunctionTemplate)) :
    Code.Fills (fillReceivers scope templates)
      (fun _ => (receiverReads templates).map (Code.Read.ask scope))
      (resolveReceivers templates scope) := by
  have all := (Code.Fills.mapM fun inlet (_ : inlet ∈ receiverIds templates) =>
    fillReceiver_fills scope templates inlet).map fun filled => Table.ofList (filled.filterMap id)
  unfold receiverReads resolveReceivers
  simp only [List.map_flatMap]
  simp only [List.filterMap_map] at all
  exact all

theorem receiverOf_of_resolve {templates : List (String × Option FunctionTemplate)}
    {scope : Code.Scope} {naming : Code.Naming} {inlet : String} {function : Function}
    (found : (resolveReceivers templates scope naming).get? inlet = some function) :
    ∃ template, receiverOf templates inlet = some template ∧
      function = template.resolve scope naming := by
  obtain ⟨other, _, isReceiver⟩ := List.mem_filterMap.mp (Table.mem_of_get?_ofList found)
  obtain ⟨template, given, same⟩ := Option.map_eq_some_iff.mp isReceiver
  cases same
  exact ⟨template, given, rfl⟩

theorem mem_receiverIds {templates : List (String × Option FunctionTemplate)} {inlet : String}
    {template : FunctionTemplate} (isReceiver : receiverOf templates inlet = some template) :
    inlet ∈ receiverIds templates := by
  have found : templates.lookup inlet = some (some template) := Option.join_eq_some_iff.mp isReceiver
  obtain ⟨earlier, later, rfl, _⟩ := List.lookup_eq_some_iff.mp found
  unfold receiverIds
  rw [Graph.mem_sortIds_iff]
  simp

theorem receiverOf_eq_none_of_resolve {templates : List (String × Option FunctionTemplate)}
    {scope : Code.Scope} {naming : Code.Naming} {inlet : String}
    (missing : (resolveReceivers templates scope naming).get? inlet = none) :
    receiverOf templates inlet = none := by
  refine Option.eq_none_iff_forall_not_mem.mpr fun template isReceiver => ?_
  refine Table.get?_eq_none_iff.mp missing (Table.mem_keys_ofList.mpr (List.mem_map.mpr
    ⟨(inlet, template.resolve scope naming), ?_, rfl⟩))
  refine List.mem_filterMap.mpr ⟨inlet, mem_receiverIds isReceiver, ?_⟩
  rw [Option.mem_def.mp isReceiver, Option.map_some]

/-! ## What completion makes of a node -/

def nodeType? (program : Program) (id : String) : Option TypeCode :=
  (program.graph.node? id).bind fun node => program.types.entries.get? node.type

def siteOf (program : Program) (id : String) : Site :=
  ⟨((program.graph.node? id).getD default), program.settings⟩

def setupTemplate? (program : Program) (id : String) : Option Code.Template :=
  (program.nodeType? id).bind fun type => type.implementation.initialization.map fun template =>
    template (program.siteOf id)

def receiverTemplates? (program : Program) (id : String) :
    Option (List (String × Option FunctionTemplate)) :=
  (program.nodeType? id).bind fun type => type.implementation.receivers.map fun templates =>
    templates (program.siteOf id)

/-- What the code of a node can refer to. -/
def nodeScope (program : Program) (id : String) : Code.Scope :=
  ((program.nodes.entries.get? id).map fun entry =>
    program.scopeAt ((program.graph.node? id).getD default) entry).getD { space := .nodeType "" }

theorem nodeScope_eq (found : program.graph.node? id = some node)
    (stored : program.nodes.entries.get? id = some entry) :
    program.nodeScope id = program.scopeAt node entry := by
  simp [nodeScope, found, stored]

def generatedReceivers (program : Program) (id : String) : Table Function :=
  ((program.receiverTemplates? id).map fun templates =>
    resolveReceivers templates (program.nodeScope id) program.names.nameOf).getD ∅

def withSetup (program : Program) (id : String) (entry : NodeCode) : NodeCode :=
  match program.setupTemplate? id with
  | none => entry
  | some template => { entry with
      initialization := some (template.resolve (program.nodeScope id) program.names.nameOf).toSequence }

/-- A receiver with the body that was generated for it. -/
def withBody (generated : Table Function) (inlet : String) (receiver : Function) : Function :=
  { receiver with body := ((generated.get? inlet).map Function.body).getD receiver.body }

def withBodies (generated : Table Function) (inlets : List String) (entry : NodeCode) : NodeCode :=
  { entry with receivers := { entry.receivers with
      entries := entry.receivers.entries.map fun inlet receiver =>
        if inlet ∈ inlets then withBody generated inlet receiver else receiver } }

def completed (program : Program) (id : String) (entry : NodeCode) : NodeCode :=
  withBodies (program.generatedReceivers id) entry.receivers.keys (program.withSetup id entry)

def setupHandles (program : Program) (id : String) : List (NameSpace × String) :=
  ((program.setupTemplate? id).map fun template =>
    handlesOf (program.nodeScope id) template.reads).getD []

def isReceiving (program : Program) (id : String) : Bool :=
  match program.nodes.entries.get? id with
  | none => false
  | some entry => entry.receivers.size ≠ 0

def bodyHandles (program : Program) (id : String) : List (NameSpace × String) :=
  if program.isReceiving id then
    ((program.receiverTemplates? id).map fun templates =>
      handlesOf (program.nodeScope id) (receiverReads templates)).getD []
  else []

/-- Why a node cannot be completed. -/
inductive CompletionFault (program : Program) : Fault → Prop where
  | setup {id : String} {node : Node} {template : Code.Template} {read : Code.Read}
      (found : program.graph.node? id = some node)
      (given : program.setupTemplate? id = some template) (asked : read ∈ template.reads)
      (notGranted : ¬ (read.ask (program.nodeScope id)).Granted program.names) :
      CompletionFault program
        (.within (contextOf "initialization" node) (read.ask (program.nodeScope id)).fault)
  | noReceivers {id type : String} (receiving : program.isReceiving id = true)
      (none : program.receiverTemplates? id = none) :
      CompletionFault program (.missingReceivers id type)
  | body {id : String} {node : Node} {templates : List (String × Option FunctionTemplate)}
      {read : Code.Read} (receiving : program.isReceiving id = true)
      (found : program.graph.node? id = some node)
      (given : program.receiverTemplates? id = some templates)
      (asked : read ∈ receiverReads templates)
      (notGranted : ¬ (read.ask (program.nodeScope id)).Granted program.names) :
      CompletionFault program
        (.within (contextOf "message receivers" node) (read.ask (program.nodeScope id)).fault)
  | noReceiver {id type inlet : String} {entry : NodeCode} {receiver : Function}
      {templates : List (String × Option FunctionTemplate)}
      (stored : program.nodes.entries.get? id = some entry)
      (held : entry.receivers.entries.get? inlet = some receiver)
      (given : program.receiverTemplates? id = some templates)
      (missing : receiverOf templates inlet = none) :
      CompletionFault program (.missingReceiver id type inlet)
  | mismatch {id type inlet : String} {entry : NodeCode} {receiver : Function}
      {templates : List (String × Option FunctionTemplate)} {template : FunctionTemplate}
      (stored : program.nodes.entries.get? id = some entry)
      (held : entry.receivers.entries.get? inlet = some receiver)
      (given : program.receiverTemplates? id = some templates)
      (isReceiver : receiverOf templates inlet = some template)
      (differs : receiver.sameSignature
        (template.resolve (program.nodeScope id) program.names.nameOf) = false) :
      CompletionFault program (.signatureMismatch id type inlet)

/-- The receivers of a node are answered by its type: each has a template that takes and gives the
same, and no read of a template is refused. -/
def Served (program : Program) (id : String) : Prop :=
  ∀ ⦃entry inlet receiver⦄, program.nodes.entries.get? id = some entry →
    entry.receivers.entries.get? inlet = some receiver →
      ∃ templates template, program.receiverTemplates? id = some templates ∧
        receiverOf templates inlet = some template ∧
        Granted program.names (program.nodeScope id) (receiverReads templates) ∧
        (program.generatedReceivers id).get? inlet =
          some (template.resolve (program.nodeScope id) program.names.nameOf) ∧
        receiver.sameSignature
          (template.resolve (program.nodeScope id) program.names.nameOf) = true

/-! ## Receivers get their bodies -/

def setBody (inlet : String) (body : Code.Sequence) (entry : NodeCode) : NodeCode :=
  { entry with receivers := entry.receivers.refine inlet fun receiver => { receiver with body } }

@[simp]
theorem withBodies_nil (generated : Table Function) (entry : NodeCode) :
    withBodies generated [] entry = entry := by
  have same : (entry.receivers.entries.map fun inlet receiver =>
      if inlet ∈ ([] : List String) then withBody generated inlet receiver else receiver) =
        entry.receivers.entries := by
    refine Table.ext ?_
    change entry.receivers.entries.entries.map _ = _
    simp
  unfold withBodies
  rw [same]

theorem withBodies_append_singleton {generated : Table Function} {done : List String}
    {inlet : String} {function : Function} (given : generated.get? inlet = some function)
    (fresh : inlet ∉ done) (entry : NodeCode) :
    setBody inlet function.body (withBodies generated done entry) =
      withBodies generated (done ++ [inlet]) entry := by
  have same : (entry.receivers.entries.map fun other receiver =>
        if other ∈ done then withBody generated other receiver else receiver).modify inlet
          (fun receiver => { receiver with body := function.body }) =
      entry.receivers.entries.map fun other receiver =>
        if other ∈ done ++ [inlet] then withBody generated other receiver else receiver := by
    refine Table.ext ?_
    change (entry.receivers.entries.entries.map _).map _ = entry.receivers.entries.entries.map _
    rw [List.map_map]
    refine List.map_congr_left fun pair _ => ?_
    obtain ⟨other, receiver⟩ := pair
    by_cases own : other = inlet
    · subst own
      simp [fresh, withBody, given]
    · simp [own]
  simp only [setBody, withBodies, Register.refine, same]

/-- What was generated for a receiver takes and gives the same. -/
def Matched (generated : Table Function) (entry : NodeCode) (inlet : String) : Prop :=
  ∃ receiver function, entry.receivers.entries.get? inlet = some receiver ∧
    generated.get? inlet = some function ∧ receiver.sameSignature function = true

theorem completeReceivers_ends {generated : Table Function} {refused : Fault → Prop}
    (stored : program.nodes.entries.get? id = some entry)
    (missing : ∀ inlet receiver, entry.receivers.entries.get? inlet = some receiver →
      generated.get? inlet = none → refused (.missingReceiver id node.type inlet))
    (mismatch : ∀ inlet receiver function, entry.receivers.entries.get? inlet = some receiver →
      generated.get? inlet = some function → receiver.sameSignature function = false →
      refused (.signatureMismatch id node.type inlet)) :
    Ends (entry.receivers.keys.foldlM (fun program inlet =>
        program.completeReceiver id node generated inlet) program) refused fun after =>
      (∀ inlet ∈ entry.receivers.keys, Matched generated entry inlet) ∧
        Refines program after id (withBodies generated entry.receivers.keys) [] [] := by
  refine Outcome.ends_foldlM (fun done state => (∀ inlet ∈ done, Matched generated entry inlet) ∧
    Refines program state id (withBodies generated done) [] []) ?_ ?_
  · exact ⟨by simp, Refines.of_names (.refl _) (withBodies_nil generated)⟩
  · intro done inlet rest state split ⟨matched, held⟩
    have fresh := (fresh_of_nodup entry.receivers.entries.distinct split).1
    have bound : inlet ∈ entry.receivers.entries.keys := by
      change inlet ∈ entry.receivers.keys
      simp [split]
    obtain ⟨receiver, isReceiver⟩ := Table.mem_keys_iff.mp bound
    have current := held.entry stored
    have receiverNow : (withBodies generated done entry).receivers.entries.get? inlet =
        some receiver := by
      simp [withBodies, isReceiver, fresh]
    unfold completeReceiver
    refine .step (register_get_eq_ok_iff.mpr current)
      (.step (register_get_eq_ok_iff.mpr receiverNow) ?_)
    cases given : generated.get? inlet with
    | none => exact missing inlet receiver isReceiver given
    | some function =>
        dsimp only
        cases same : receiver.sameSignature function with
        | false => exact mismatch inlet receiver function isReceiver given same
        | true =>
            have refined : Refines program ({ state with names := state.names }.refineNode id
                (setBody inlet function.body)) id (withBodies generated (done ++ [inlet])) [] [] :=
              held.next stored (.refl state.names) (withBodies_append_singleton given fresh entry)
            refine ends_pure ⟨fun other within => ?_, refined⟩
            rcases List.mem_append.mp within with earlier | now
            · exact matched other earlier
            · rw [List.mem_singleton.mp now]
              exact ⟨receiver, function, isReceiver, given, same⟩

/-! ## The whole pass -/

theorem withSetup_receivers (program : Program) (id : String) (entry : NodeCode) :
    (program.withSetup id entry).receivers = entry.receivers := by
  unfold withSetup
  split <;> rfl

/-- The setup code of a node. -/
def setUp (program : Program) (id : String) (scope : Code.Scope) (site : Site) (type : TypeCode) :
    Outcome Program :=
  match type.implementation.initialization with
  | none => pure program
  | some template => do
      let (code, program) ← program.fill (contextOf "initialization" scope.node)
        ((template site).fillSequence scope)
      pure (program.refineNode id fun entry => { entry with initialization := some code })

/-- The bodies of the receivers of a node. -/
def receive (program : Program) (id : String) (scope : Code.Scope) (site : Site) (type : TypeCode) :
    Outcome Program := do
  let entry ← program.nodes.get id
  if entry.receivers.size = 0 then return program
  match type.implementation.receivers with
  | none => throw (.missingReceivers id scope.node.type)
  | some templates => do
      let (generated, program) ← program.fill (contextOf "message receivers" scope.node)
        (fillReceivers scope (templates site))
      entry.receivers.keys.foldlM (fun program inlet =>
        program.completeReceiver id scope.node generated inlet) program

theorem completeNode_eq : program.completeNode id = (do
    let (scope, program) ← program.scopeOf id
    let type ← program.types.get scope.node.type
    let site : Site := ⟨scope.node, program.settings⟩
    let program ← program.setUp id scope site type
    program.receive id scope site type) := by
  unfold completeNode setUp receive
  refine bind_congr fun opened => bind_congr fun type => ?_
  cases type.implementation.initialization with
  | none => rfl
  | some template =>
      exact (bind_assoc ..).symm

theorem nodeType?_eq {type : TypeCode} (found : base.graph.node? id = some node)
    (typed : base.types.entries.get? node.type = some type) : base.nodeType? id = some type := by
  simp [nodeType?, found, typed]

theorem setUp_ends {type : TypeCode} (akin : base.names.Akin program.names)
    (found : base.graph.node? id = some node) (stored : base.nodes.entries.get? id = some entry)
    (typed : base.types.entries.get? node.type = some type) :
    Ends (program.setUp id (base.nodeScope id) (base.siteOf id) type) base.CompletionFault
      fun after => Refines program after id (base.withSetup id) (base.setupHandles id) [] := by
  have isType := nodeType?_eq found typed
  have own : (base.nodeScope id).node = node := by rw [nodeScope_eq found stored]; rfl
  unfold setUp
  cases given : type.implementation.initialization with
  | none =>
      have none : base.setupTemplate? id = none := by simp [setupTemplate?, isType, given]
      refine ends_pure ?_
      have handles : base.setupHandles id = [] := by simp [setupHandles, none]
      rw [handles]
      exact Refines.of_names (.refl _) fun entry => by simp [withSetup, none]
  | some template =>
      have isTemplate : base.setupTemplate? id = some (template (base.siteOf id)) := by
        simp [setupTemplate?, isType, given]
      have filled := fillReads_ends program (contextOf "initialization" (base.nodeScope id).node)
        ((template (base.siteOf id)).fillSequence_fills (base.nodeScope id))
      refine (filled.mono (fun fault refused => ?_) fun _ _ held => held).bind
        fun result _ held => ?_
      · obtain ⟨read, asked, notGranted, rfl⟩ := refused
        rw [own]
        exact .setup found isTemplate asked fun granted =>
          notGranted ((Code.Ask.granted_iff_of_akin akin).mpr granted)
      · obtain ⟨_, names, rfl, took⟩ := held
        have handles : base.setupHandles id =
            handlesOf (base.nodeScope id) (template (base.siteOf id)).reads := by
          simp [setupHandles, isTemplate]
        have change : base.withSetup id = fun entry => { entry with
            initialization := some ((template (base.siteOf id)).resolve (base.nodeScope id)
              program.names.nameOf).toSequence } := by
          funext entry
          simp [withSetup, isTemplate, akin.nameOf]
        rw [handles, change]
        exact ends_pure (Refines.refineNode took.adds)

theorem receive_ends {type : TypeCode} {now : NodeCode} (akin : base.names.Akin program.names)
    (found : base.graph.node? id = some node) (stored : base.nodes.entries.get? id = some entry)
    (typed : base.types.entries.get? node.type = some type)
    (current : program.nodes.entries.get? id = some now) (same : now.receivers = entry.receivers) :
    Ends (program.receive id (base.nodeScope id) (base.siteOf id) type) base.CompletionFault
      fun after => base.Served id ∧ Refines program after id
        (withBodies (base.generatedReceivers id) entry.receivers.keys) (base.bodyHandles id) [] := by
  have isType := nodeType?_eq found typed
  have own : (base.nodeScope id).node = node := by rw [nodeScope_eq found stored]; rfl
  unfold receive
  refine .step (register_get_eq_ok_iff.mpr current) ?_
  rw [same]
  by_cases empty : entry.receivers.size = 0
  · rw [if_pos empty]
    have noKeys : entry.receivers.keys = [] := by
      have entries : entry.receivers.entries.entries = [] := List.length_eq_zero_iff.mp empty
      simp [Register.keys, Table.keys, entries]
    have handles : base.bodyHandles id = [] := by simp [bodyHandles, isReceiving, stored, empty]
    rw [noKeys, handles]
    refine ends_pure ⟨fun _ _ _ storedAgain held => ?_, Refines.of_names (.refl _) (withBodies_nil _)⟩
    rw [stored] at storedAgain
    cases storedAgain
    have listed : _ ∈ entry.receivers.keys := Table.mem_keys_of_get? held
    rw [noKeys] at listed
    cases listed
  · rw [if_neg empty]
    have receiving : base.isReceiving id = true := by simp [isReceiving, stored, empty]
    cases given : type.implementation.receivers with
    | none => exact .noReceivers receiving (by simp [receiverTemplates?, isType, given])
    | some templates =>
        have isTemplate : base.receiverTemplates? id = some (templates (base.siteOf id)) := by
          simp [receiverTemplates?, isType, given]
        have filled := fillReads_ends program (contextOf "message receivers" (base.nodeScope id).node)
          (fillReceivers_fills (base.nodeScope id) (templates (base.siteOf id)))
        refine (filled.mono (fun fault refused => ?_) fun _ _ held => held).bind
          fun result _ held => ?_
        · obtain ⟨read, asked, notGranted, rfl⟩ := refused
          rw [own]
          exact .body receiving found isTemplate asked fun granted =>
            notGranted ((Code.Ask.granted_iff_of_akin akin).mpr granted)
        · obtain ⟨granted, names, rfl, took⟩ := held
          have handles : base.bodyHandles id =
              handlesOf (base.nodeScope id) (receiverReads (templates (base.siteOf id))) := by
            simp [bodyHandles, isReceiving, stored, empty, isTemplate]
          have generated : base.generatedReceivers id = resolveReceivers
              (templates (base.siteOf id)) (base.nodeScope id) program.names.nameOf := by
            simp [generatedReceivers, isTemplate, akin.nameOf]
          have entered : Refines program { program with names } id (fun entry => entry)
              (base.bodyHandles id) [] := by
            rw [handles]
            exact Refines.of_names took.adds fun _ => rfl
          rw [← generated]
          have completing : Ends (entry.receivers.keys.foldlM (fun program inlet =>
              program.completeReceiver id (base.nodeScope id).node (base.generatedReceivers id) inlet)
                { program with names }) base.CompletionFault fun after =>
              (∀ inlet ∈ entry.receivers.keys,
                Matched (base.generatedReceivers id) now inlet) ∧
              Refines { program with names } after id
                (withBodies (base.generatedReceivers id) entry.receivers.keys) [] [] := by
            rw [← same]
            refine completeReceivers_ends current (fun inlet receiver isReceiver missing => ?_)
              fun inlet receiver function isReceiver isGenerated differs => ?_
            · rw [generated] at missing
              exact .noReceiver stored (same ▸ isReceiver) isTemplate
                (receiverOf_eq_none_of_resolve missing)
            rw [same] at isReceiver
            rw [generated] at isGenerated
            obtain ⟨template, isBody, rfl⟩ := receiverOf_of_resolve isGenerated
            rw [akin.nameOf] at differs
            exact .mismatch stored isReceiver isTemplate isBody differs
          refine completing.mono (fun _ fault => fault) fun after _ held => ?_
          obtain ⟨matched, refines⟩ := held
          have both := entered.trans refines
          rw [List.append_nil, List.append_nil] at both
          refine ⟨fun other inlet receiver storedAgain held => ?_, both⟩
          rw [stored] at storedAgain
          cases storedAgain
          obtain ⟨_, function, isReceiver, isGenerated, sameSignature⟩ :=
            matched inlet (Table.mem_keys_of_get? held)
          rw [same, held] at isReceiver
          cases isReceiver
          have isResolved := isGenerated
          rw [generated] at isResolved
          obtain ⟨template, isBody, rfl⟩ := receiverOf_of_resolve isResolved
          rw [akin.nameOf] at isGenerated sameSignature
          exact ⟨_, template, isTemplate, isBody,
            fun read asked => (Code.Ask.granted_iff_of_akin akin).mp (granted read asked),
            isGenerated, sameSignature⟩

def completionHandles (program : Program) (id : String) : List (NameSpace × String) :=
  program.setupHandles id ++ program.bodyHandles id

/-- Every node is completed, unless a template does not allow it. -/
theorem Framed.completeNodes_ends (framed : base.Framed) :
    Ends base.completeNodes base.CompletionFault fun after =>
      (∀ id ∈ base.fullTraversal, base.Served id) ∧
        Reworked base base.completed base.completionHandles (fun _ => []) base.fullTraversal after := by
  refine framed.rework_tells framed.distinct (fun _ member => member) ?_
  intro done program id node entry held framedNow _ found stored current
  have akin := held.names.toAkin
  have foundNow : program.graph.node? id = some node := held.keeps.graph ▸ found
  obtain ⟨again, names, storedAgain, opening, took⟩ := framedNow.scopeOf_eq foundNow
  rw [current] at storedAgain
  cases storedAgain
  have scope : program.scopeAt node entry = base.nodeScope id := by
    have states : program.names.stateOf = base.names.stateOf := by
      have adds := held.names
      rw [noStates] at adds
      exact adds.stateOf
    rw [nodeScope_eq found stored]
    simp [scopeAt, states]
  have own : (base.nodeScope id).node = node := by rw [nodeScope_eq found stored]; rfl
  have site : (⟨node, program.settings⟩ : Site) = base.siteOf id := by
    simp [siteOf, found, held.keeps.settings]
  obtain ⟨type, typed⟩ := framed.types found
  have typedNow : program.types.entries.get? node.type = some type := by
    obtain ⟨_, _, frame⟩ := held.frame
    rw [frame]
    exact typed
  rw [completeNode_eq]
  rw [scope] at opening
  refine .step opening ?_
  refine .step (register_get_eq_ok_iff.mpr (own.symm ▸ typedNow)) ?_
  dsimp only
  rw [own, site]
  have opened : Refines program { program with names } id (fun entry => entry) [] [] :=
    Refines.of_names took.adds fun _ => rfl
  refine (setUp_ends (akin.trans took.toAkin) found stored typed).bind fun between _ settingUp => ?_
  have toBetween := opened.trans settingUp
  refine (receive_ends (akin.trans toBetween.names.toAkin) found stored typed
    (toBetween.entry current) (withSetup_receivers base id entry)).mono (fun _ fault => fault)
    fun after _ held => ?_
  obtain ⟨served, receiving⟩ := held
  refine ⟨served, ?_⟩
  have both := toBetween.trans receiving
  exact both.congr current (by simp [completed])

end Patchbay.Program
