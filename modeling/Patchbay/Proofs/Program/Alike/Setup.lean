import Patchbay.Proofs.Program.Alike
import Patchbay.Proofs.Program.Support

namespace Patchbay

/-! The setup of two programs side by side: ports of the host, dead code, runtime modules, types and
states.
-/

namespace Program

variable {exact : Prop} {program twin : Program}

/-! ## Ports of the host -/

/-- Alike programs that have entered the same nodes. -/
structure Fresh (exact : Prop) (program twin : Program) : Prop where
  alike : program.Alike exact twin
  nodes : program.names.nodes = twin.names.nodes

namespace Fresh

variable (fresh : Fresh exact program twin)

include fresh

/-- Names of the host are read without entering a node. -/
theorem readName {space : NameSpace} (free : ∀ index : NameIndex, index.enter space = .ok index)
    (key : String) : Outcome.Alike (fun result other => result.1 = other.1 ∧ Fresh exact result.2 other.2)
      (program.readName space key) (twin.readName space key) := by
  have reading : ∀ program : Program, program.readName space key =
      .ok (program.names.nameOf space key, { program with names := (program.names.take space key).2 }) := by
    intro program
    unfold Program.readName NameIndex.read
    rw [free]
    rfl
  have alike := fresh.alike.readName space key
  rw [reading, reading] at alike ⊢
  cases alike with
  | result held => exact .result ⟨held.1, held.2, fresh.nodes⟩

theorem hostPorts (kind : PortKind) : program.hostPorts kind = twin.hostPorts kind := by
  cases kind with
  | receiver => exact fresh.alike.hostReceivers
  | sender => exact fresh.alike.hostSenders

theorem withHostPorts {graph graphToo : Graph} (graphs : graph.Alike graphToo)
    (ports : Register HostPort) (kind : PortKind) :
    Fresh exact (Program.withHostPorts { program with graph } ports kind)
      (Program.withHostPorts { twin with graph := graphToo } ports kind) := by
  cases kind with
  | receiver =>
      exact ⟨{ fresh.alike with
        graph := graphs, hostReceivers := rfl
        listed := fresh.alike.listed, typed := fresh.alike.typed }, fresh.nodes⟩
  | sender =>
      exact ⟨{ fresh.alike with
        graph := graphs, hostSenders := rfl
        listed := fresh.alike.listed, typed := fresh.alike.typed }, fresh.nodes⟩

theorem graft (request : PortRequest) :
    Outcome.Alike (Fresh exact) (program.graft request) (twin.graft request) := by
  refine (fresh.alike.graph.lookup request.node).bind fun target targetToo targets => ?_
  have sameLookup : request.lookup target = request.lookup targetToo := by
    unfold PortRequest.lookup
    cases request.kind with
    | receiver => exact targets.inlet _
    | sender => exact targets.outlet _
  rw [← sameLookup]
  refine .bind_same fun portlet _ => ?_
  dsimp only
  split
  · exact .fault _
  · have free : ∀ index : NameIndex, index.enter request.space = .ok index := fun index => by
      unfold PortRequest.space
      cases request.kind <;> rfl
    refine (fresh.readName free request.portlet).bind fun result other held => ?_
    obtain ⟨name, named⟩ := result
    obtain ⟨nameToo, namedToo⟩ := other
    obtain ⟨rfl, freshNamed⟩ := held
    refine (fresh.alike.graph.add _).bind fun added addedToo graphs => ?_
    refine (graphs.connect _ _).bind fun connected connectedToo graphs => ?_
    rw [fresh.hostPorts]
    exact .bind_same fun ports _ => .pure (freshNamed.withHostPorts graphs ports _)

theorem graftHostPorts : Outcome.Alike (Fresh exact) program.graftHostPorts twin.graftHostPorts := by
  have receivers : program.settings.receivers = twin.settings.receivers :=
    fresh.alike.settings.blind Settings.receivers fun _ _ => rfl
  have senders : program.settings.senders = twin.settings.senders :=
    fresh.alike.settings.blind Settings.senders fun _ _ => rfl
  rw [graftHostPorts_eq, graftHostPorts_eq]
  unfold portRequests
  rw [receivers, senders]
  exact .foldlM_same fresh fun _ _ request _ fresh => fresh.graft request

end Fresh

/-! ## Dead code -/

theorem Alike.enlist (alike : program.Alike exact twin) (id : String) :
    Outcome.Alike (Alike exact) (program.enlist id) (twin.enlist id) := by
  refine (alike.graph.lookup id).bind fun node nodeToo nodes => ?_
  rw [← alike.catalog, ← nodes.type, ← alike.types]
  cases found : program.catalog.implementation? node.type with
  | none => exact .fault _
  | some implementation =>
      simp only [Outcome.ite_bind]
      refine .bind_same fun types listing => ?_
      have typed : ∀ {name type}, types.entries.get? name = some type → type.implementation.Uniform exact := by
        intro name type registered
        split at listing
        · cases listing
          exact alike.typed registered
        · obtain ⟨_, rfl⟩ := Register.add_ends.of_ok listing
          rw [Table.get?_set] at registered
          split at registered
          · cases registered
            exact alike.listed found
          · exact alike.typed registered
      refine (alike.nodes.add id (.refl _)).bind fun entries entriesToo held => .pure ?_
      exact { alike with
        catalog := rfl, types := rfl, nodes := held, listed := alike.listed, typed := typed }

theorem Fresh.keepReachable (fresh : Fresh exact program twin) :
    Outcome.Alike (Alike exact) program.keepReachable twin.keepReachable := by
  unfold Program.keepReachable
  rw [← fresh.alike.graph.fullTraversal]
  refine .bind_same fun full _ => ?_
  have graphs := fresh.alike.graph.trim full
  refine .via (Alike exact) (.foldlM_same ?_ fun _ _ id _ alike => alike.enlist id)
    fun listed listedToo alike => .pure ?_
  · exact { fresh.alike with
      graph := graphs, names := fresh.alike.names.setGraph fresh.nodes graphs, fullTraversal := rfl
      listed := fresh.alike.listed, typed := fresh.alike.typed }
  · refine { alike with catalog := ?_, listed := ?_, typed := alike.typed }
    · exact congrArg (fun types => Table.map (fun _ type => some type.implementation) types.entries) alike.types
    · intro name implementation found
      obtain ⟨slot, stored, rfl⟩ := Option.bind_eq_some_iff.mp found
      rw [Table.get?_map] at stored
      obtain ⟨type, registered, same⟩ := Option.map_eq_some_iff.mp stored
      cases same
      exact alike.typed registered

/-! ## Runtime modules -/

theorem Alike.linked (alike : program.Alike exact twin) : program.linked = twin.linked := by
  unfold Program.linked
  rw [alike.library, alike.types]

theorem Alike.registered (alike : program.Alike exact twin) : program.registered.Alike twin.registered := by
  unfold Program.registered
  rw [← alike.linked]
  generalize program.linked = linked
  have indices := alike.names
  generalize program.names = names at indices
  generalize twin.names = namesToo at indices
  induction linked generalizing names namesToo with
  | nil => exact indices
  | cons module rest ih => exact ih _ _ (indices.registerModule module.namespaceName)

theorem share_congr {module : Module} {settings settingsToo : Settings} {naming : Code.Naming}
    (imports : module.importTemplates settings = module.importTemplates settingsToo) :
    module.share settings naming = module.share settingsToo naming := by
  funext dependencies
  unfold Module.share Module.imported
  rw [imports]

theorem link_congr {modules : List Module} {settings settingsToo : Settings} {naming : Code.Naming}
    (imports : ∀ module ∈ modules, module.importTemplates settings = module.importTemplates settingsToo)
    (code : List Code.Sequence) (dependencies : Dependencies) :
    link settingsToo naming modules code dependencies =
      { link settings naming modules code dependencies with
        code := (link settingsToo naming modules code dependencies).code } := by
  have shared : modules.foldl (fun dependencies module => module.share settingsToo naming dependencies)
      dependencies = modules.foldl (fun dependencies module => module.share settings naming dependencies)
        dependencies :=
    List.foldl_ext _ _ _ fun dependencies module linked => by rw [share_congr (imports module linked)]
  unfold link
  rw [shared]

theorem Alike.imports (alike : program.Alike exact twin) : ∀ module ∈ program.linked,
    module.importTemplates program.settings = module.importTemplates twin.settings := by
  intro module linked
  obtain ⟨definition, found⟩ := (program.library.flatten_linked _).known module linked
  exact alike.settings.blind module.importTemplates (alike.supplied.imports found)

/-- Where the targets differ no name is missed, and the code of modules is only written differently. -/
theorem Alike.fillModules (alike : program.Alike exact twin) :
    Outcome.Alike (AlikeWith exact (Dependencies.Alike exact))
      (Program.fill { program with names := program.registered } "runtime module code"
        (Program.fillModules program.settings program.linked [] { modules := program.linked }))
      (Program.fill { twin with names := twin.registered } "runtime module code"
        (Program.fillModules twin.settings twin.linked [] { modules := twin.linked })) := by
  have entered := alike.withNames alike.registered
  rw [← alike.linked]
  by_cases same : exact
  · refine entered.fill _ (fillModules_fills ..) (fillModules_fills ..) ?_ ?_
    · rw [← alike.settings.eq same]
      exact Code.asks_same alike.registered _
    · rw [← alike.settings.eq same]
      exact .refl _
  · refine entered.fill_of_granted _ (fillModules_fills ..) (fillModules_fills ..) (fun ask asked => ?_)
      (fun ask asked => ?_) ⟨link_congr alike.imports _ _, fun held => absurd held same⟩
    · refine granted_of_sound alike.supplied.sound ?_
      unfold moduleAsks
      rw [← program.nameOf_registered]
      exact asked
    · refine granted_of_sound (alike.library ▸ alike.supplied.sound) ?_
      unfold moduleAsks
      rw [← alike.linked, ← alike.names.nameOf, ← program.nameOf_registered]
      exact asked

theorem Alike.embedModules (alike : program.Alike exact twin) :
    Outcome.Alike (Alike exact) program.embedModules twin.embedModules := by
  refine Outcome.Alike.bind alike.fillModules fun result other held => .pure ?_
  exact { held.2 with dependencies := held.1, listed := held.2.listed, typed := held.2.typed }

/-! ## Types and states -/

theorem Alike.firstOfType (alike : program.Alike exact twin) (type : String) :
    program.firstOfType type = twin.firstOfType type := by
  unfold Program.firstOfType
  rw [alike.fullTraversal]
  congr 1
  funext id
  cases found : program.graph.node? id with
  | none => rw [(alike.graph.nodes id).of_none found]
  | some node =>
      obtain ⟨nodeToo, foundToo, nodes⟩ := (alike.graph.nodes id).of_some found
      rw [foundToo]
      dsimp only
      rw [nodes.type]

theorem Alike.fillState (alike : program.Alike exact twin) (id : String)
    {template : Site → Option Code.RecordTemplate}
    (uniform : ∀ {site twin : Site}, site.Alike exact twin → template site = template twin) :
    Outcome.Alike (AlikeWith exact Eq) (program.fillState id template) (twin.fillState id template) := by
  refine (alike.names.enterNode id).bind fun names namesToo indices => ?_
  refine ((alike.withNames (indices.enableState id)).scopeOf id).bind fun result other held => ?_
  obtain ⟨scope, program⟩ := result
  obtain ⟨scopeToo, twin⟩ := other
  obtain ⟨scopes, alike⟩ := held
  dsimp only at scopes alike ⊢
  rw [← uniform (alike.site scopes.node), ← contextOf_congr scopes.node]
  cases template ⟨scope.node, program.settings⟩ with
  | none => exact .pure ⟨rfl, alike⟩
  | some record =>
      refine (alike.fillReads _ scopes (record.fill_fills scope) (record.fill_fills scopeToo)
        (congrFun (record.resolve_congr scopes) _)).bind fun result other held => .pure ⟨?_, held.2⟩
      exact congrArg some held.1

theorem Alike.declareCore (alike : program.Alike exact twin) {entry : TypeCode}
    (uniform : entry.implementation.Uniform exact) :
    Outcome.Alike (Alike exact) (program.declareCore entry) (twin.declareCore entry) := by
  unfold Program.declareCore
  cases given : entry.implementation.core with
  | none => exact .pure alike
  | some template =>
      dsimp only
      rw [← uniform.core _ given alike.settings]
      refine (alike.fillReads _ (.refl _) (Code.Template.fillSequence_fills _ _)
        (Code.Template.fillSequence_fills _ _) rfl).bind fun result other held => ?_
      obtain ⟨core, program⟩ := result
      obtain ⟨coreToo, twin⟩ := other
      obtain ⟨rfl, alike⟩ := held
      exact .pure (alike.setType _ fun _ => rfl)

theorem Alike.declareRecord (alike : program.Alike exact twin) {entry : TypeCode}
    (uniform : entry.implementation.Uniform exact) :
    Outcome.Alike (Alike exact) (program.declareRecord entry) (twin.declareRecord entry) := by
  unfold Program.declareRecord
  rw [← alike.firstOfType]
  cases given : entry.implementation.state with
  | none => exact .pure alike
  | some template =>
      cases program.firstOfType entry.type with
      | none => exact .pure alike
      | some first =>
          refine (alike.fillState first (uniform.state _ given)).bind fun result other held => ?_
          obtain ⟨record, program⟩ := result
          obtain ⟨recordToo, twin⟩ := other
          obtain ⟨rfl, alike⟩ := held
          cases record with
          | none => exact .fault _
          | some record => exact .pure (alike.setType _ fun _ => rfl)

theorem Alike.declareType (alike : program.Alike exact twin) {entry : TypeCode}
    (uniform : entry.implementation.Uniform exact) :
    Outcome.Alike (Alike exact) (program.declareType entry) (twin.declareType entry) := by
  rw [declareType_eq, declareType_eq]
  refine (alike.names.enter _).bind fun names namesToo indices => ?_
  exact ((alike.withNames indices).declareCore uniform).bind fun _ _ alike => alike.declareRecord uniform

theorem Alike.declareTypes (alike : program.Alike exact twin) :
    Outcome.Alike (Alike exact) program.declareTypes twin.declareTypes := by
  unfold Program.declareTypes
  rw [← alike.types]
  refine .foldlM_same alike fun _ _ entry member held => held.declareType ?_
  obtain ⟨name, registered⟩ := Table.mem_values_iff.mp member
  exact alike.typed registered

theorem Alike.instantiateState (alike : program.Alike exact twin) (id : String) :
    Outcome.Alike (Alike exact) (program.instantiateState id) (twin.instantiateState id) := by
  refine (alike.graph.lookup id).bind fun node nodeToo nodes => ?_
  rw [← nodes.type, ← alike.types]
  refine .bind_same fun type registered => ?_
  have uniform := alike.typeOf registered
  cases given : type.implementation.state with
  | none => exact .pure alike
  | some template =>
      cases type.stateRecord with
      | none => exact .fault _
      | some shape =>
          refine (alike.fillState id (uniform.state _ given)).bind fun result other held => ?_
          obtain ⟨record, program⟩ := result
          obtain ⟨recordToo, twin⟩ := other
          obtain ⟨rfl, alike⟩ := held
          cases record with
          | none => exact .fault _
          | some record =>
              dsimp only
              split
              · exact .fault _
              · rw [← alike.names.stateOf]
                exact .pure (alike.refineRest id (fun _ _ => rfl) fun _ => rfl)

theorem Alike.instantiateStates (alike : program.Alike exact twin) :
    Outcome.Alike (Alike exact) program.instantiateStates twin.instantiateStates := by
  unfold Program.instantiateStates
  rw [← alike.fullTraversal]
  exact .foldlM_same alike fun _ _ id _ alike => alike.instantiateState id

end Program

end Patchbay
