import Patchbay.Proofs.Program.Rework

namespace Patchbay.Program

/-! Node types and state.

The code that nodes of a type share and the records of their state are filled while nothing is wired
yet.  A type is described by its first node, and every node that has state gets a state variable with
a record of its own; both passes fail only where a template does.
-/

open Code (Granted handlesOf)
open Outcome (Ends ends_pure ends_foldlM)

variable {program base : Program} {id : String} {node : Node} {entry : NodeCode}

/-- What the state record of a node can refer to. -/
def stateScope (node : Node) (entry : NodeCode) : Code.Scope where
  space := .nodeType node.type
  node := node
  state := NameIndex.stateName node.id
  ins := entry.signalIns
  outs := entry.signalOuts
  snds := entry.senders.entries.map fun _ sender => sender.name
  rcvs := entry.receivers.entries.map fun _ receiver => receiver.name

theorem Framed.fillState_ends (framed : program.Framed) (found : program.graph.node? id = some node)
    (stored : program.nodes.entries.get? id = some entry)
    (template : Site → Option Code.RecordTemplate) :
    Ends (program.fillState id template)
      (fun _ => ∃ record, template ⟨node, program.settings⟩ = some record ∧
        ¬ Granted program.names (stateScope node entry) record.reads)
      fun result => ∃ names,
        result = ((template ⟨node, program.settings⟩).map fun record =>
          record.resolve (stateScope node entry) program.names.nameOf, { program with names }) ∧
        program.names.Adds names ((template ⟨node, program.settings⟩).toList.flatMap fun record =>
          handlesOf (stateScope node entry) record.reads) [id] := by
  obtain ⟨entered, entering, tookEntering, _⟩ := NameIndex.enterNode_eq_ok (framed.opens found).1
  have enabled := tookEntering.adds.trans (.enableState entered id)
  have framedEnabled : ({ program with names := entered.enableState id } : Program).Framed :=
    framed.of_keeps (.names enabled.toAkin)
  obtain ⟨known, opened, knownStored, opening, tookScoping⟩ := framedEnabled.scopeOf_eq found
  rw [show known = entry from Option.some.inj (knownStored.symm.trans stored)] at opening
  have sameScope : ({ program with names := entered.enableState id } : Program).scopeAt node entry =
      stateScope node entry := by
    have ownId := (framed.wellFormed.fits found).ownId
    have hasState : id ∈ (entered.enableState id).states :=
      NameIndex.mem_states_enableState.mpr (.inl rfl)
    simp [scopeAt, stateScope, NameIndex.stateOf, ownId, hasState]
  rw [sameScope] at opening
  have adds := enabled.trans tookScoping.adds
  unfold fillState
  refine .step entering (.step opening ?_)
  simp only [show (stateScope node entry).node = node from rfl]
  cases asked : template ⟨node, program.settings⟩ with
  | none => exact ends_pure ⟨opened, rfl, adds⟩
  | some record =>
      have filled := fillReads_ends { program with names := opened } (contextOf "state" node)
        (record.fill_fills (stateScope node entry))
      refine (filled.mono (fun fault refused => ?_) fun _ _ held => held).bind
        fun result _ given => ?_
      · obtain ⟨read, member, notGranted, _⟩ := refused
        refine ⟨record, rfl, fun granted => notGranted ?_⟩
        exact (Code.Ask.granted_iff_of_akin adds.toAkin).mpr (granted read member)
      · obtain ⟨_, names, rfl, took⟩ := given
        refine ends_pure ⟨names, ?_, ?_⟩
        · simp [adds.nameOf]
        · simpa using adds.trans took.adds

/-! ## Types -/

/-- The state record that a template gives for a node. -/
def stateRecordOf (program : Program) (id : String)
    (template : Site → Option Code.RecordTemplate) : Option Code.Record := do
  let node ← program.graph.node? id
  let entry ← program.nodes.entries.get? id
  let record ← template ⟨node, program.settings⟩
  return record.resolve (stateScope node entry) program.names.nameOf

def coreScope (type : String) : Code.Scope := { space := .nodeType type }

/-- A type with the code that its nodes share. -/
def withCore (program : Program) (entry type : TypeCode) : TypeCode :=
  { type with core := (entry.implementation.core.map fun template =>
      ((template program.settings).resolve (coreScope entry.type)
        program.names.nameOf).toSequence).or type.core }

/-- A type with the shape of its state, which its first node gives. -/
def withRecord (program : Program) (entry type : TypeCode) : TypeCode :=
  { type with stateRecord := (entry.implementation.state.bind fun template =>
      (program.firstOfType entry.type).bind fun first =>
        program.stateRecordOf first template).or type.stateRecord }

def declaredType (program : Program) (entry : TypeCode) : TypeCode :=
  program.withRecord entry (program.withCore entry entry)

/-- Whether the templates of a type can be filled. -/
structure Declarable (program : Program) (entry : TypeCode) : Prop where
  core : ∀ template, entry.implementation.core = some template →
    Granted program.names (coreScope entry.type) (template program.settings).reads
  state : ∀ template, entry.implementation.state = some template →
    ∀ id node code, program.graph.node? id = some node → node.type = entry.type →
      program.nodes.entries.get? id = some code →
      ∃ record, template ⟨node, program.settings⟩ = some record ∧
        Granted program.names (stateScope node code) record.reads

/-- The names that declaring a type hands out. -/
def coreHandles (program : Program) (entry : TypeCode) : List (NameSpace × String) :=
  entry.implementation.core.toList.flatMap fun template =>
    handlesOf (coreScope entry.type) (template program.settings).reads

/-- The names that the state record of a node hands out. -/
def recordHandles (program : Program) (id : String)
    (template : Site → Option Code.RecordTemplate) : List (NameSpace × String) :=
  (program.graph.node? id).toList.flatMap fun node =>
    (program.nodes.entries.get? id).toList.flatMap fun code =>
      (template ⟨node, program.settings⟩).toList.flatMap fun record =>
        handlesOf (stateScope node code) record.reads

def shapeHandles (program : Program) (entry : TypeCode) : List (NameSpace × String) :=
  entry.implementation.state.toList.flatMap fun template =>
    (program.firstOfType entry.type).toList.flatMap fun first => program.recordHandles first template

/-- The node that describes a type and gets a state variable for it. -/
def shapeStates (program : Program) (entry : TypeCode) : List String :=
  entry.implementation.state.toList.flatMap fun _ => (program.firstOfType entry.type).toList

def declareCore (program : Program) (entry : TypeCode) : Outcome Program :=
  match entry.implementation.core with
  | none => pure program
  | some template => do
      let (core, program) ← program.fill s!"core of node type {Text.quoted entry.type}"
        ((template program.settings).fillSequence (coreScope entry.type))
      pure (program.setType entry.type fun type => { type with core := some core })

def declareRecord (program : Program) (entry : TypeCode) : Outcome Program :=
  match entry.implementation.state, program.firstOfType entry.type with
  | some template, some first => do
      match ← program.fillState first template with
      | (none, _) => throw (.missingState entry.type)
      | (some record, program) =>
          return program.setType entry.type fun type => { type with stateRecord := some record }
  | _, _ => return program

theorem declareType_eq (entry : TypeCode) : program.declareType entry = (do
    let names ← program.names.enter (.nodeType entry.type)
    let program ← declareCore { program with names } entry
    declareRecord program entry) := by
  unfold declareType declareCore
  cases entry.implementation.core with
  | none => rfl
  | some template =>
      simp only [bind_assoc]
      rfl

/-- The program after one type was changed and names were handed out. -/
structure Retyped (before after : Program) (name : String) (change : TypeCode → TypeCode)
    (handles : List (NameSpace × String)) (states : List String) : Prop where
  frame : ∃ names types, after = { before with names, types }
  keys : after.types.keys = before.types.keys
  types : ∀ other, after.types.entries.get? other =
    if other = name then (before.types.entries.get? other).map change
    else before.types.entries.get? other
  names : before.names.Adds after.names handles states

theorem Retyped.of_names {names : NameIndex} {name : String} {change : TypeCode → TypeCode}
    {handles : List (NameSpace × String)} {states : List String}
    (adds : program.names.Adds names handles states) (unchanged : ∀ type, change type = type) :
    Retyped program { program with names } name change handles states where
  frame := ⟨names, program.types, rfl⟩
  keys := rfl
  types other := by
    split
    · cases program.types.entries.get? other <;> simp [unchanged]
    · rfl
  names := adds

theorem Retyped.setType {names : NameIndex} {name : String} {change : TypeCode → TypeCode}
    {handles : List (NameSpace × String)} {states : List String}
    (adds : program.names.Adds names handles states) :
    Retyped program ({ program with names }.setType name change) name change handles states where
  frame := ⟨names, program.types.refine name change, rfl⟩
  keys := Table.keys_modify change name
  types _ := Table.get?_modify change name
  names := adds

theorem Retyped.trans {before between after : Program} {name : String}
    {first second : TypeCode → TypeCode} {handles others : List (NameSpace × String)}
    {states more : List String} (one : Retyped before between name first handles states)
    (two : Retyped between after name second others more) :
    Retyped before after name (second ∘ first) (handles ++ others) (states ++ more) where
  frame := by
    obtain ⟨_, _, rfl⟩ := one.frame
    obtain ⟨names, types, rfl⟩ := two.frame
    exact ⟨names, types, rfl⟩
  keys := two.keys.trans one.keys
  types other := by
    rw [two.types, one.types]
    split
    · rw [Option.map_map]
    · rfl
  names := one.names.trans two.names

theorem Retyped.framed {before after : Program} {name : String} {change : TypeCode → TypeCode}
    {handles : List (NameSpace × String)} {states : List String}
    (retyped : Retyped before after name change handles states)
    (kept : ∀ type, (change type).type = type.type ∧
      (change type).implementation = type.implementation) : KeepsFrame before after := by
  have types := retyped.types
  have akin := retyped.names.toAkin
  obtain ⟨names, registered, rfl⟩ := retyped.frame
  refine ⟨rfl, rfl, rfl, rfl, rfl, fun other => ?_, akin.graph, akin.labels⟩
  rw [types]
  split
  · cases before.types.entries.get? other with
    | none => rfl
    | some type => simp [kept type]
  · rfl

theorem declareCore_ends (entry : TypeCode) :
    Ends (program.declareCore entry)
      (fun _ => ∃ template, entry.implementation.core = some template ∧
        ¬ Granted program.names (coreScope entry.type) (template program.settings).reads)
      fun after => Retyped program after entry.type (program.withCore entry)
        (program.coreHandles entry) [] := by
  unfold declareCore withCore coreHandles
  cases given : entry.implementation.core with
  | none => exact ends_pure (.of_names (.refl _) fun _ => rfl)
  | some template =>
      have filled := fillReads_ends program s!"core of node type {Text.quoted entry.type}"
        ((template program.settings).fillSequence_fills (coreScope entry.type))
      refine (filled.mono (fun fault refused => ?_) fun _ _ held => held).bind fun result _ held => ?_
      · obtain ⟨read, member, notGranted, _⟩ := refused
        exact ⟨template, rfl, fun granted => notGranted (granted read member)⟩
      · obtain ⟨_, names, rfl, took⟩ := held
        refine ends_pure (.setType ?_)
        simpa using took.adds

/-- The first node of a type that is registered. -/
theorem Framed.firstOfType_eq (framed : program.Framed) {name : String} {type : TypeCode}
    (registered : program.types.entries.get? name = some type) :
    ∃ first node entry, program.firstOfType name = some first ∧
      program.graph.node? first = some node ∧ node.type = name ∧
      program.nodes.entries.get? first = some entry := by
  obtain ⟨_, _, id, node, found, typed⟩ := framed.typed registered
  have listed : id ∈ program.fullTraversal := framed.listed.mpr ⟨node, found⟩
  cases search : program.firstOfType name with
  | none =>
      have missed := List.find?_eq_none.mp search id listed
      simp [found, typed] at missed
  | some first =>
      have matched := List.find?_some search
      split at matched
      · next stored lookup =>
        obtain ⟨entry, entryStored⟩ := framed.entry lookup
        exact ⟨first, stored, entry, rfl, lookup, by simpa using matched, entryStored⟩
      · cases matched

theorem Framed.declareRecord_ends (framed : program.Framed) {entry : TypeCode}
    (registered : ∃ type, program.types.entries.get? entry.type = some type) :
    Ends (program.declareRecord entry) (fun _ => ¬ program.Declarable entry)
      fun after => Retyped program after entry.type (program.withRecord entry)
        (program.shapeHandles entry) (program.shapeStates entry) := by
  obtain ⟨type, found⟩ := registered
  obtain ⟨first, node, code, search, stored, typed, coded⟩ := framed.firstOfType_eq found
  unfold declareRecord withRecord shapeHandles shapeStates
  cases given : entry.implementation.state with
  | none => exact ends_pure (.of_names (.refl _) fun _ => rfl)
  | some template =>
      rw [search]
      refine ((framed.fillState_ends stored coded template).mono (fun fault refused => ?_)
        fun _ _ held => held).bind fun result _ held => ?_
      · intro declarable
        obtain ⟨record, asked, notGranted⟩ := refused
        obtain ⟨other, again, granted⟩ := declarable.state template given first node code stored typed
          coded
        rw [asked] at again
        cases again
        exact notGranted granted
      · obtain ⟨names, rfl, adds⟩ := held
        cases asked : template ⟨node, program.settings⟩ with
        | none =>
            intro declarable
            obtain ⟨record, again, _⟩ := declarable.state template given first node code stored typed
              coded
            rw [asked] at again
            cases again
        | some record =>
            rw [asked] at adds
            have resolved : program.stateRecordOf first template =
                some (record.resolve (stateScope node code) program.names.nameOf) := by
              simp [stateRecordOf, stored, coded, asked]
            have handles : program.recordHandles first template =
                handlesOf (stateScope node code) record.reads := by
              simp [recordHandles, stored, coded, asked]
            simp only [Option.toList_some, List.flatMap_singleton] at adds
            simp only [Option.bind_some, resolved, Option.some_or, Option.toList_some,
              List.flatMap_singleton, handles]
            exact ends_pure (.setType adds)

/-- The program after some types were declared. -/
structure DeclaredSo (base : Program) (done : List TypeCode) (program : Program) : Prop where
  frame : ∃ names types, program = { base with names, types }
  keys : program.types.keys = base.types.keys
  types : ∀ name, program.types.entries.get? name =
    if name ∈ done.map TypeCode.type then (base.types.entries.get? name).map base.declaredType
    else base.types.entries.get? name
  names : base.names.Adds program.names
    (done.flatMap fun entry => base.coreHandles entry ++ base.shapeHandles entry)
    (done.flatMap base.shapeStates)

/-- What declaring a type makes of it depends on nothing that declaring types changes. -/
theorem withCore_congr {names : NameIndex} {types : Register TypeCode}
    (akin : base.names.Akin names) (entry : TypeCode) :
    withCore { base with names, types } entry = base.withCore entry := by
  unfold withCore
  simp only [akin.nameOf]

theorem withRecord_congr {names : NameIndex} {types : Register TypeCode}
    (akin : base.names.Akin names) (entry : TypeCode) :
    withRecord { base with names, types } entry = base.withRecord entry := by
  unfold withRecord stateRecordOf
  simp only [akin.nameOf]
  rfl

theorem Declarable.congr {names : NameIndex} {types : Register TypeCode}
    (akin : base.names.Akin names) {entry : TypeCode} (declarable : base.Declarable entry) :
    Declarable { base with names, types } entry where
  core template given := (Code.granted_iff_of_akin akin).mpr (declarable.core template given)
  state template given id node code found typed stored := by
    obtain ⟨record, asked, granted⟩ := declarable.state template given id node code found typed stored
    exact ⟨record, asked, (Code.granted_iff_of_akin akin).mpr granted⟩

theorem DeclaredSo.keeps {done : List TypeCode} (declared : DeclaredSo base done program) :
    KeepsFrame base program := by
  have types := declared.types
  have akin := declared.names.toAkin
  obtain ⟨names, registered, rfl⟩ := declared.frame
  refine ⟨rfl, rfl, rfl, rfl, rfl, fun name => ?_, akin.graph, akin.labels⟩
  rw [types]
  split
  · cases base.types.entries.get? name <;> rfl
  · rfl

theorem DeclaredSo.declareType_ends {done : List TypeCode} (declared : DeclaredSo base done program)
    (framed : base.Framed) {entry : TypeCode}
    (registered : base.types.entries.get? entry.type = some entry)
    (fresh : entry.type ∉ done.map TypeCode.type) :
    Ends (program.declareType entry) (fun _ => ¬ base.Declarable entry)
      (DeclaredSo base (done ++ [entry])) := by
  have framedNow := framed.of_keeps declared.keeps
  have current : program.types.entries.get? entry.type = some entry := by
    rw [declared.types, if_neg fresh, registered]
  have opens : program.names.Opens (.nodeType entry.type) := by
    obtain ⟨_, _, id, node, found, typed⟩ := framedNow.typed current
    exact typed ▸ (framedNow.opens found).2.2.2
  obtain ⟨entered, entering, took⟩ := NameIndex.enter_eq_ok opens
  rw [declareType_eq]
  refine .step entering ?_
  have framedEntered := framedNow.of_keeps (.names took.toAkin)
  have adds := declared.names.trans took.adds
  have types := declared.types
  have keys := declared.keys
  obtain ⟨names, known, rfl⟩ := declared.frame
  have first : Ends (declareCore { base with names := entered, types := known } entry) _ _ :=
    declareCore_ends entry
  refine (first.mono (fun fault refused declarable => ?_) fun _ _ held => held).bind
    fun between _ cored => ?_
  · obtain ⟨template, given, notGranted⟩ := refused
    exact notGranted ((declarable.congr adds.toAkin).core template given)
  rw [withCore_congr adds.toAkin] at cored
  have framedBetween := framedEntered.of_keeps (cored.framed fun _ => ⟨rfl, rfl⟩)
  have stillThere : ∃ type, between.types.entries.get? entry.type = some type := by
    rw [cored.types, if_pos rfl]
    exact ⟨_, by rw [current]; rfl⟩
  have addsCore := adds.trans cored.names
  have second := framedBetween.declareRecord_ends stillThere
  obtain ⟨namesBetween, typesBetween, rfl⟩ := cored.frame
  refine second.mono (fun fault refused declarable => refused (declarable.congr addsCore.toAkin))
    fun after _ recorded => ?_
  rw [withRecord_congr addsCore.toAkin] at recorded
  have whole := cored.trans recorded
  obtain ⟨namesAfter, typesAfter, rfl⟩ := recorded.frame
  refine ⟨⟨_, _, rfl⟩, whole.keys.trans keys, fun name => ?_, ?_⟩
  · rw [whole.types]
    by_cases same : name = entry.type
    · subst same
      rw [if_pos rfl, if_pos (by simp), current, registered]
      rfl
    · rw [if_neg same, types name]
      simp [same]
  · have handed : base.names.Adds namesAfter
        (_ ++ base.coreHandles entry ++ base.shapeHandles entry) (_ ++ base.shapeStates entry) :=
      addsCore.trans recorded.names
    simpa [List.flatMap_append] using handed

/-- Every type is declared, or some template of a type cannot be filled. -/
theorem Framed.declareTypes_ends (framed : base.Framed) :
    Ends base.declareTypes (fun _ => ∃ entry ∈ base.types.values, ¬ base.Declarable entry)
      (DeclaredSo base base.types.values) := by
  have start : DeclaredSo base [] base :=
    ⟨⟨_, _, rfl⟩, rfl, fun name => by simp, .refl _⟩
  have named : base.types.values.map TypeCode.type = base.types.keys := by
    unfold Register.values Register.keys Table.values Table.keys
    rw [List.map_map]
    refine List.map_congr_left fun pair member => ?_
    exact (framed.typed (Table.mem_entries_iff.mp member)).1
  have distinct : (base.types.values.map TypeCode.type).Nodup := named ▸ base.types.entries.distinct
  refine ends_foldlM (DeclaredSo base) start fun done entry rest program split declared => ?_
  have member : entry ∈ base.types.values := by simp [split]
  obtain ⟨name, found⟩ := Table.mem_values_iff.mp member
  obtain ⟨same, _⟩ := framed.typed found
  refine (declared.declareType_ends framed (same ▸ found) ?_).mono
    (fun _ refused => ⟨entry, member, refused⟩) fun _ _ held => held
  exact (fresh_of_nodup distinct (by rw [split, List.map_append, List.map_cons])).1

/-! ## Nodes -/

/-- The template of the state of a node, if its type has one. -/
def stateTemplate? (program : Program) (id : String) :
    Option (Site → Option Code.RecordTemplate) := do
  let node ← program.graph.node? id
  let type ← program.types.entries.get? node.type
  type.implementation.state

/-- The state record of a node, if its type has one. -/
def ownState? (program : Program) (id : String) : Option Code.Record :=
  (program.stateTemplate? id).bind (program.stateRecordOf id)

def withState (program : Program) (id : String) (entry : NodeCode) : NodeCode :=
  match program.ownState? id with
  | none => entry
  | some record => { entry with state := some record, stateName := NameIndex.stateName id }

def ownHandles (program : Program) (id : String) : List (NameSpace × String) :=
  (program.stateTemplate? id).toList.flatMap (program.recordHandles id)

def ownStates (program : Program) (id : String) : List String :=
  (program.stateTemplate? id).toList.map fun _ => id

/-- Whether the state of a node can be filled and has the shape that its type was declared with. -/
def Instantiable (program : Program) (id : String) : Prop :=
  ∀ node type entry template, program.graph.node? id = some node →
    program.types.entries.get? node.type = some type → program.nodes.entries.get? id = some entry →
    type.implementation.state = some template →
    ∃ shape record, type.stateRecord = some shape ∧
      template ⟨node, program.settings⟩ = some record ∧
      Granted program.names (stateScope node entry) record.reads ∧
      (record.resolve (stateScope node entry) program.names.nameOf).name = shape.name

/-- The program after some nodes got their state. -/
abbrev Instantiated (base : Program) : List String → Program → Prop :=
  Reworked base base.withState base.ownHandles base.ownStates

theorem Instantiated.instantiateState_ends {done : List String}
    (held : Instantiated base done program) (framedNow : program.Framed)
    (found : base.graph.node? id = some node) (typed : ∃ type, base.types.entries.get? node.type = some type)
    (stored : base.nodes.entries.get? id = some entry)
    (current : program.nodes.entries.get? id = some entry) :
    Ends (program.instantiateState id) (fun _ => ¬ base.Instantiable id) fun after =>
      Refines program after id (base.withState id) (base.ownHandles id) (base.ownStates id) := by
  have akin := held.names.toAkin
  obtain ⟨type, typed⟩ := typed
  obtain ⟨names, known, rfl⟩ := held.frame
  unfold instantiateState
  refine .step (Graph.node_eq_ok_iff.mpr found) ?_
  refine .step (show Register.get base.types node.type = .ok type by simp [Register.get, typed]) ?_
  cases given : type.implementation.state with
  | none =>
      have noTemplate : base.stateTemplate? id = none := by simp [stateTemplate?, found, typed, given]
      simp only [ownHandles, ownStates, noTemplate]
      exact ends_pure (.of_names (.refl _) fun _ => by simp [withState, ownState?, noTemplate])
  | some template =>
      have hasTemplate : base.stateTemplate? id = some template := by
        simp [stateTemplate?, found, typed, given]
      -- what an instantiable node promises, at the node at hand
      have promised (instantiable : base.Instantiable id) :=
        instantiable node type entry template found typed stored given
      dsimp only
      cases shaped : type.stateRecord with
      | none =>
          intro instantiable
          obtain ⟨shape, _, again, _⟩ := promised instantiable
          cases shaped.symm.trans again
      | some shape =>
          have filled := framedNow.fillState_ends found current template
          refine (filled.mono (fun fault refused instantiable => ?_) fun _ _ ok => ok).bind
            fun result _ ok => ?_
          · obtain ⟨record, asked, notGranted⟩ := refused
            obtain ⟨_, other, _, again, granted, _⟩ := promised instantiable
            cases asked.symm.trans again
            exact notGranted ((Code.granted_iff_of_akin akin).mpr granted)
          obtain ⟨after, rfl, adds⟩ := ok
          cases asked : template ⟨node, base.settings⟩ with
          | none =>
              intro instantiable
              obtain ⟨_, record, _, again, _⟩ := promised instantiable
              cases asked.symm.trans again
          | some record =>
              rw [asked] at adds
              simp only [Option.map_some]
              split
              · next differs =>
                intro instantiable
                obtain ⟨_, other, again, askedAgain, _, sameName⟩ := promised instantiable
                cases shaped.symm.trans again
                cases asked.symm.trans askedAgain
                exact differs (akin.nameOf ▸ sameName)
              · have own : base.ownState? id =
                    some (record.resolve (stateScope node entry) names.nameOf) := by
                  simp [ownState?, hasTemplate, stateRecordOf, found, stored, asked, akin.nameOf]
                have handles : base.ownHandles id =
                    handlesOf (stateScope node entry) record.reads := by
                  simp [ownHandles, hasTemplate, recordHandles, found, stored, asked]
                have states : base.ownStates id = [id] := by simp [ownStates, hasTemplate]
                have named : after.stateOf id = NameIndex.stateName id :=
                  if_pos (adds.states.mpr (.inl (by simp)))
                simp only [Option.toList_some, List.flatMap_singleton] at adds
                rw [handles, states]
                refine ends_pure ((Refines.refineNode adds).congr current ?_)
                simp [withState, own, named]

/-- Every node gets its state, or the state of some node cannot be filled. -/
theorem Framed.instantiateStates_ends (framed : base.Framed) :
    Ends base.instantiateStates (fun _ => ∃ id ∈ base.fullTraversal, ¬ base.Instantiable id)
      (Instantiated base base.fullTraversal) := by
  refine framed.rework_ends framed.distinct (fun _ member => member) ?_
  intro done program id node entry held framedNow member found stored current
  exact (Instantiated.instantiateState_ends held framedNow found (framed.types found) stored
    current).mono (fun _ refused => ⟨id, member, refused⟩) fun _ _ refines => refines

end Patchbay.Program
