import Patchbay.Proofs.Code.Fill
import Patchbay.Proofs.Graph.Alike

namespace Patchbay

/-! Filling one template in two places.

Indices over alike graphs hand out one name for each handle and open the same spaces.  Scopes of alike
nodes resolve a hole in the same way, so what a template becomes does not depend on which of them it is
filled in, and neither does the hole at which filling stops.
-/

/-! ## Names -/

/-- Two indices over alike graphs, in which the same names can be read. -/
structure NameIndex.Alike (index twin : NameIndex) : Prop where
  graph : index.graph.Alike twin.graph
  labels : index.labels = twin.labels
  modules : index.modules = twin.modules
  states : index.states = twin.states
  known : ∀ id, index.Opens (.outlets id) ↔ twin.Opens (.outlets id)

namespace NameIndex.Alike

variable {index twin : NameIndex} {space : NameSpace}

theorem refl (index : NameIndex) : index.Alike index := ⟨.refl _, rfl, rfl, rfl, fun _ => Iff.rfl⟩

variable (alike : index.Alike twin)

include alike

theorem nameOf : index.nameOf = twin.nameOf := nameOf_congr alike.labels

theorem stateOf : index.stateOf = twin.stateOf := by
  funext id
  unfold NameIndex.stateOf
  rw [alike.states]

theorem opens_iff : index.Opens space ↔ twin.Opens space := by
  cases space with
  | outlets id | senders id | receivers id => exact alike.known id
  | nodeType type =>
      change index.labels.contains type = true ↔ _
      rw [alike.labels]
      rfl
  | module namespaceName =>
      change namespaceName ∈ index.modules ↔ _
      rw [alike.modules]
      rfl
  | coldGroups | hostReceivers id | hostSenders id => exact Iff.rfl

/-- Reading names makes no difference. -/
theorem took {after afterTwin : NameIndex} {handles others : List (NameSpace × String)}
    (first : index.Took after handles) (second : twin.Took afterTwin others) : after.Alike afterTwin where
  graph := first.graph ▸ second.graph ▸ alike.graph
  labels := first.labels.trans (alike.labels.trans second.labels.symm)
  modules := first.modules.trans (alike.modules.trans second.modules.symm)
  states := first.states.trans (alike.states.trans second.states.symm)
  known id := first.opens_iff.trans ((alike.known id).trans second.opens_iff.symm)

theorem enter (space : NameSpace) : Outcome.Alike Alike (index.enter space) (twin.enter space) := by
  by_cases open_ : index.Opens space
  · obtain ⟨entered, entering, first⟩ := enter_eq_ok open_
    obtain ⟨enteredToo, enteringToo, second⟩ := enter_eq_ok (alike.opens_iff.mp open_)
    rw [entering, enteringToo]
    exact .result (alike.took first second)
  · rw [enter_eq_error open_, enter_eq_error fun held => open_ (alike.opens_iff.mpr held)]
    exact .fault _

theorem enterNode (id : String) : Outcome.Alike Alike (index.enterNode id) (twin.enterNode id) :=
  alike.enter (.outlets id)

theorem read (space : NameSpace) (key : String) :
    Outcome.Alike (fun result other => result.1 = other.1 ∧ result.2.Alike other.2)
      (index.read space key) (twin.read space key) := by
  by_cases open_ : index.Opens space
  · obtain ⟨after, reading, first⟩ := read_eq_ok key open_
    obtain ⟨afterToo, readingToo, second⟩ := read_eq_ok key (alike.opens_iff.mp open_)
    rw [reading, readingToo, alike.nameOf]
    exact .result ⟨rfl, alike.took first second⟩
  · rw [read_eq_error key open_, read_eq_error key fun held => open_ (alike.opens_iff.mpr held)]
    exact .fault _

theorem enableState (id : String) : (index.enableState id).Alike (twin.enableState id) where
  graph := by
    rw [(Akin.enableState index id).graph, (Akin.enableState twin id).graph]
    exact alike.graph
  labels := by
    rw [(Akin.enableState index id).labels, (Akin.enableState twin id).labels]
    exact alike.labels
  modules := by
    rw [(Akin.enableState index id).modules, (Akin.enableState twin id).modules]
    exact alike.modules
  states := by
    unfold NameIndex.enableState
    simp only [alike.states]
    split
    · exact alike.states
    · rfl
  known other := by
    rw [(Akin.enableState index id).opens_iff, (Akin.enableState twin id).opens_iff]
    exact alike.known other

theorem registerModule (namespaceName : String) :
    (index.registerModule namespaceName).Alike (twin.registerModule namespaceName) := by
  unfold NameIndex.registerModule
  simp only [alike.modules]
  split
  · exact alike
  · exact { alike with modules := rfl, known := alike.known }

/-- Indices that know the same nodes can be pointed at other graphs. -/
theorem setGraph (same : index.nodes = twin.nodes) {graph other : Graph} (graphs : graph.Alike other) :
    (index.setGraph graph).Alike (twin.setGraph other) where
  graph := graphs
  labels := alike.labels
  modules := alike.modules
  states := alike.states
  known id := by
    change (id ∈ index.nodes ∨ _) ↔ (id ∈ twin.nodes ∨ _)
    rw [same]
    exact or_congr_right graphs.known_iff

end NameIndex.Alike

namespace Code

/-! ## Scopes -/

/-- Two scopes of one node. -/
structure Scope.Alike (scope twin : Scope) : Prop where
  rest : twin = { scope with node := twin.node }
  node : scope.node.Alike twin.node

namespace Scope.Alike

variable {scope twin : Scope}

theorem refl (scope : Scope) : scope.Alike scope := ⟨rfl, .refl _⟩

variable (alike : scope.Alike twin)

include alike

theorem space : scope.space = twin.space := by rw [alike.rest]

theorem state : scope.state = twin.state := by rw [alike.rest]

theorem portlets (wiring : Wiring) : scope.portlets wiring = twin.portlets wiring := by
  rw [alike.rest]
  cases wiring <;> rfl

theorem floatArg (name : String) (fallback : Float) :
    scope.node.floatArg name fallback = twin.node.floatArg name fallback :=
  alike.node.blind (Node.floatArg · name fallback) fun _ => rfl

theorem textArg (name fallback : String) :
    scope.node.textArg name fallback = twin.node.textArg name fallback :=
  alike.node.blind (Node.textArg · name fallback) fun _ => rfl

end Scope.Alike

variable {scope twin : Scope} {naming : Naming}

mutual

theorem Template.resolve_congr (alike : scope.Alike twin) (naming : Naming) : (template : Template) →
    template.resolve scope naming = template.resolve twin naming
  | .absent | .text _ | .number _ | .single _ | .integer _ | .wide _ | .flag _ | .missing _ | .ahead _ => rfl
  | .list kind items => congrArg (Part.list kind) (resolveAll_congr alike naming items)
  | .code parts => congrArg (fun parts => Part.sequence (Code.code parts)) (resolveAll_congr alike naming parts)
  | .lines parts => congrArg (fun parts => Part.sequence (Code.lines parts)) (resolveAll_congr alike naming parts)
  | .raw parts => congrArg Part.sequence (resolveAll_congr alike naming parts)
  | .var type name value | .const type name value => by
      simp only [Template.resolve, type.resolve_congr alike, name.resolve_congr alike,
        resolveAll_congr alike naming value]
  | .func name args result body => by
      simp only [Template.resolve, name.resolve_congr alike, result.resolve_congr alike,
        resolveArgs_congr alike naming args, resolveAll_congr alike naming body]
  | .record name members => by
      simp only [Template.resolve, name.resolve_congr alike, resolveMembers_congr alike naming members]
  | .portlet wiring id => by simp only [Template.resolve, alike.portlets]
  | .state => by simp only [Template.resolve, alike.state]
  | .own key => by simp only [Template.resolve, alike.space]
  | .shared namespaceName key => rfl
  | .floatArg name fallback => congrArg Part.number (alike.floatArg name fallback)
  | .textArg name fallback => congrArg Part.text (alike.textArg name fallback)

theorem resolveAll_congr (alike : scope.Alike twin) (naming : Naming) : (templates : List Template) →
    resolveAll scope naming templates = resolveAll twin naming templates
  | [] => rfl
  | template :: rest => by
      simp only [resolveAll, template.resolve_congr alike, resolveAll_congr alike naming rest]

theorem resolveArgs_congr (alike : scope.Alike twin) (naming : Naming) :
    (args : List (Template × Template × Option (List Template))) →
    resolveArgs scope naming args = resolveArgs twin naming args
  | [] => rfl
  | (type, name, none) :: rest => by
      simp only [resolveArgs, type.resolve_congr alike, name.resolve_congr alike,
        resolveArgs_congr alike naming rest]
  | (type, name, some value) :: rest => by
      simp only [resolveArgs, type.resolve_congr alike, name.resolve_congr alike,
        resolveAll_congr alike naming value, resolveArgs_congr alike naming rest]

theorem resolveMembers_congr (alike : scope.Alike twin) (naming : Naming) :
    (members : List (Template × Template × List Template)) →
    resolveMembers scope naming members = resolveMembers twin naming members
  | [] => rfl
  | (type, name, value) :: rest => by
      simp only [resolveMembers, type.resolve_congr alike, name.resolve_congr alike,
        resolveAll_congr alike naming value, resolveMembers_congr alike naming rest]

end

theorem FunctionTemplate.resolve_congr (alike : scope.Alike twin) (template : FunctionTemplate) :
    template.resolve scope = template.resolve twin := by
  funext naming
  simp only [FunctionTemplate.resolve, Template.resolve_congr alike, resolveArgs_congr alike,
    resolveAll_congr alike]

theorem RecordTemplate.resolve_congr (alike : scope.Alike twin) (template : RecordTemplate) :
    template.resolve scope = template.resolve twin := by
  funext naming
  simp only [RecordTemplate.resolve, Template.resolve_congr alike, resolveMembers_congr alike]

/-! ## Holes -/

/-- Two holes that are resolved or missed together, each with its own index. -/
structure Ask.Alike (names twinNames : NameIndex) (ask other : Ask) : Prop where
  granted : ask.Granted names ↔ other.Granted twinNames
  fault : ask.fault = other.fault

variable {names twinNames : NameIndex}

theorem Read.ask_alike (scopes : scope.Alike twin) (indices : names.Alike twinNames) (read : Read) :
    Ask.Alike names twinNames (read.ask scope) (read.ask twin) := by
  cases read with
  | portlet wiring id =>
      refine ⟨?_, ?_⟩
      · change (∃ code, (scope.portlets wiring).get? id = some code) ↔ _
        rw [scopes.portlets]
        rfl
      · change Fault.unknownName id (wiring.name ++ " of " ++ scope.node.id) = .unknownName id _
        rw [scopes.node.id]
        rfl
  | own key =>
      refine ⟨?_, ?_⟩
      · change names.Opens scope.space ↔ _
        rw [scopes.space]
        exact indices.opens_iff
      · change NameIndex.closedFault scope.space = _
        rw [scopes.space]
        rfl
  | shared namespaceName key =>
      exact ⟨(indices.opens_iff : names.Opens (.module namespaceName) ↔ _), rfl⟩

/-- The first hole that cannot be resolved stands at one place of both lists. -/
theorem Ask.Alike.refused {earlier later others : List Ask} {ask : Ask}
    (asked : List.Forall₂ (Ask.Alike names twinNames) (earlier ++ ask :: later) others)
    (granted : ∀ other ∈ earlier, other.Granted names) (refused : ¬ ask.Granted names) :
    ∃ earlierToo askToo laterToo, others = earlierToo ++ askToo :: laterToo ∧
      (∀ other ∈ earlierToo, other.Granted twinNames) ∧ ¬ askToo.Granted twinNames ∧
      ask.fault = askToo.fault := by
  induction earlier generalizing others with
  | nil =>
      obtain _ | ⟨held, rest⟩ := asked
      exact ⟨[], _, _, rfl, fun _ member => absurd member List.not_mem_nil,
        fun grantedToo => refused (held.granted.mpr grantedToo), held.fault⟩
  | cons first earlier ih =>
      obtain _ | ⟨held, rest⟩ := asked
      obtain ⟨firstGranted, granted⟩ := List.forall_mem_cons.mp granted
      obtain ⟨earlierToo, askToo, laterToo, rfl, grantedToo, refusedToo, same⟩ := ih rest granted
      exact ⟨_ :: earlierToo, askToo, laterToo, rfl,
        List.forall_mem_cons.mpr ⟨held.granted.mp firstGranted, grantedToo⟩, refusedToo, same⟩

theorem asks_same (indices : names.Alike twinNames) (asks : List Ask) :
    List.Forall₂ (Ask.Alike names twinNames) asks asks := by
  refine List.forall₂_same.mpr fun ask _ => ?_
  cases ask with
  | portlet scope wiring id => exact ⟨Iff.rfl, rfl⟩
  | name space key => exact ⟨(indices.opens_iff : names.Opens space ↔ _), rfl⟩

theorem asks_alike (scopes : scope.Alike twin) (indices : names.Alike twinNames) (reads : List Read) :
    List.Forall₂ (Ask.Alike names twinNames) (reads.map (Read.ask scope)) (reads.map (Read.ask twin)) := by
  rw [List.forall₂_map_left_iff, List.forall₂_map_right_iff]
  exact List.forall₂_same.mpr fun read _ => read.ask_alike scopes indices

end Code

end Patchbay
