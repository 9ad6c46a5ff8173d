import Patchbay.Proofs.Dialects
import Patchbay.Proofs.Graph.Assembly
import Patchbay.Proofs.Graph.Rebuild

namespace Patchbay

/-! Patches whose nodes and connections are listed in another order.

The order of the connections of one outlet is the order in which it sends, and is kept.  Any other order
is gone once a graph is laid out, as long as no signal inlet has two sources: then it would be the order
in which these are walked.

Whoever keeps the nodes of a graph and the list of its connections can build the graph again.  Only the order
in which message inlets record their sources may have changed, and no pass of the compiler asks for it.
-/

variable {graph other : Graph} {settings : Settings}

/-! ## Compiling alike graphs -/

/-- One result.  Only the graphs that the two programs keep can record the sources of a message inlet in
different orders. -/
structure Compiled.Alike (compiled twin : Compiled) : Prop where
  artifacts : compiled.artifacts = twin.artifacts
  graph : compiled.program.graph.Alike twin.program.graph
  rest : twin.program =
    { compiled.program with graph := twin.program.graph, names := twin.program.names }

theorem Register.Alike.eq {α : Type} {register twin : Register α} (alike : register.Alike Eq twin) :
    register = twin := by
  obtain ⟨label, entries⟩ := alike
  have same : register.entries = twin.entries := by
    refine Table.ext ?_
    rw [← List.forall₂_eq_eq_eq]
    exact List.Forall₂.imp (fun entry other held => Prod.ext held.1 held.2) entries
  cases register
  cases twin
  cases label
  cases same
  rfl

theorem Program.Alike.rest {program twin : Program} (alike : program.Alike True twin) :
    twin = { program with graph := twin.graph, names := twin.names } := by
  have nodes : program.nodes.Alike Eq twin.nodes :=
    ⟨alike.nodes.label, alike.nodes.entries.imp fun _ _ held => ⟨held.1, held.2.eq trivial⟩⟩
  rw [alike.catalog, alike.library, alike.settings.eq trivial, nodes.eq, alike.types, alike.fullTraversal,
    alike.rootDsp, alike.hotDsp, alike.coldDsp, alike.inlineDsp, alike.dependencies.eq trivial,
    alike.hostReceivers, alike.hostSenders, alike.coldOf, alike.inlined]

/-- Rendering alike programs gives one result. -/
theorem Program.Alike.render {program twin : Program} (alike : program.Alike True twin) (target : Target) :
    Outcome.Alike (fun compiled other =>
        compiled.Alike other ∧ compiled.program = program ∧ other.program = twin)
      (program.render target) (twin.render target) := by
  unfold Program.render
  rw [alike.source trivial, alike.metadata]
  exact .bind_same fun code _ => .bind_same fun metadata _ =>
    .pure ⟨⟨rfl, alike.graph, alike.rest⟩, rfl, rfl⟩

/-- Alike graphs are compiled to one result, or fail with the same fault, for whatever node types and modules
that do not ask in which order a message inlet lists its sources. -/
theorem compile_alike_of_uniform (alike : graph.Alike other) {catalog : Catalog} {library : Library}
    (listed : (Program.withAdapters catalog).Uniform True) (supplied : library.Uniform) (settings : Settings) :
    Outcome.Alike Compiled.Alike (compile graph catalog library settings)
      (compile other catalog library settings) := by
  rw [compile_eq, compile_eq]
  refine .bind_same fun target _ => .bind_same fun _ _ => ?_
  have sameSettings : Settings.Alike True { settings with target := target.name }
      { settings with target := target.name } := .refl _
  have layouts := Program.precompile_alike alike sameSettings listed supplied
  exact layouts.bind fun program twin programs => (programs.render target).mono fun _ _ held => held.1

/-- Alike graphs are compiled to the same artifacts, or fail with the same fault. -/
theorem compile_alike (alike : graph.Alike other) (settings : Settings) :
    Outcome.Alike (fun compiled compiledToo => compiled.artifacts = compiledToo.artifacts)
      (compile graph .standard .standard settings) (compile other .standard .standard settings) :=
  (compile_alike_of_uniform alike Catalog.standard_uniform Library.standard_uniform settings).mono
    fun _ _ held => held.artifacts

/-! ## Listing in another order -/

/-- The order in which nodes are listed, and connections of different outlets, does not decide whether a
graph can be assembled, nor what it is compiled to. -/
theorem compile_ignores_listing_order {nodes nodesToo : List (Option Node)}
    {connections connectionsToo : List Connection} (sameNodes : nodes.Perm nodesToo)
    (sameConnections : connections.Perm connectionsToo)
    (sameFans : ∀ outlet : Endpoint,
      connections.filter (fun connection => connection.source = outlet) =
        connectionsToo.filter fun connection => connection.source = outlet)
    (unambiguous : Text.Unambiguous (Graph.listedIds nodes)) :
    ((∃ graph, Graph.build nodes connections = .ok graph) ↔
      ∃ other, Graph.build nodesToo connectionsToo = .ok other) ∧
    ∀ graph other, Graph.build nodes connections = .ok graph →
      Graph.build nodesToo connectionsToo = .ok other → graph.SingleSourced → ∀ settings : Settings,
      Outcome.Alike (fun compiled compiledToo => compiled.artifacts = compiledToo.artifacts)
        (compile graph .standard .standard settings) (compile other .standard .standard settings) := by
  refine ⟨⟨fun ⟨graph, built⟩ => ?_, fun ⟨other, built⟩ => ?_⟩, ?_⟩
  · exact Graph.build_perm sameNodes sameConnections built
  · exact Graph.build_perm sameNodes.symm sameConnections.symm built
  · intro graph other built builtToo single settings
    exact compile_alike (Graph.alike_of_build sameNodes sameConnections sameFans unambiguous built builtToo
      single) settings

/-- Two connections of different outlets may change places. -/
theorem fans_reverse {first second : Connection} (apart : first.source ≠ second.source) (outlet : Endpoint) :
    [first, second].filter (fun connection => connection.source = outlet) =
      [first, second].reverse.filter fun connection => connection.source = outlet := by
  by_cases isFirst : first.source = outlet
  · subst isFirst
    simp [apart.symm]
  · simp [isFirst, List.filter_cons]

/-! Two buttons that bang one number box. -/

def pairNodes : List (Option Node) := [
  some { id := "p", type := "loadbang", outlets := [⟨"0", .message⟩], isPushingMessages := true },
  some { id := "q", type := "loadbang", outlets := [⟨"0", .message⟩], isPushingMessages := true },
  some { id := "f", type := "float", inlets := [⟨"0", .message⟩, ⟨"1", .message⟩],
         outlets := [⟨"0", .message⟩] }]

def pairConnections : List Connection := [⟨⟨"p", "0"⟩, ⟨"f", "0"⟩⟩, ⟨⟨"q", "0"⟩, ⟨"f", "0"⟩⟩]

theorem pair_built : ∃ graph other, Graph.build pairNodes pairConnections = .ok graph ∧
    Graph.build pairNodes.reverse pairConnections.reverse = .ok other ∧
    (graph.check (some .standard) .discarding).2 = .ok () ∧
    graph.sourcesAt ⟨"f", "0"⟩ = [⟨"p", "0"⟩, ⟨"q", "0"⟩] ∧
    other.sourcesAt ⟨"f", "0"⟩ = [⟨"q", "0"⟩, ⟨"p", "0"⟩] := by
  refine ⟨_, _, rfl, rfl, ?_⟩
  cbv

/-- Both patches are compiled to the same artifacts, although the box records its sources in two orders. -/
theorem pair_ignores_listing_order : ∃ graph other, Graph.build pairNodes pairConnections = .ok graph ∧
    Graph.build pairNodes.reverse pairConnections.reverse = .ok other ∧ graph.SingleSourced ∧
    graph.sourcesAt ⟨"f", "0"⟩ ≠ other.sourcesAt ⟨"f", "0"⟩ ∧
    Outcome.Alike (fun compiled compiledToo => compiled.artifacts = compiledToo.artifacts)
      (compile graph .standard .standard {}) (compile other .standard .standard {}) := by
  obtain ⟨graph, other, built, builtToo, accepted, sources, sourcesToo⟩ := pair_built
  have single := (Graph.wellFormed_of_check accepted).singleSourced
  have unambiguous : Text.Unambiguous (Graph.listedIds pairNodes) := Text.unambiguous_of_words (by decide)
  have same := (compile_ignores_listing_order (List.reverse_perm pairNodes).symm
    (List.reverse_perm pairConnections).symm (fans_reverse (by decide)) unambiguous).2
  refine ⟨graph, other, built, builtToo, single, ?_, same graph other built builtToo single {}⟩
  rw [sources, sourcesToo]
  decide

/-! A signal inlet that has the id of a message inlet in front of it, and so two sources. -/

def twofoldNodes : List (Option Node) := [
  some { id := "a", type := "x", outlets := [⟨"0", .message⟩] },
  some { id := "b", type := "y", outlets := [⟨"0", .message⟩] },
  some { id := "d", type := "dac~", inlets := [⟨"0", .message⟩, ⟨"0", .signal⟩], isPullingSignal := true }]

def twofoldConnections : List Connection := [⟨⟨"a", "0"⟩, ⟨"d", "0"⟩⟩, ⟨⟨"b", "0"⟩, ⟨"d", "0"⟩⟩]

/-- Without the condition on signal inlets, the order of connections decides which node is met first: here
the two faults name different nodes. -/
theorem twofold_inlet_tells_order : ∃ graph other fault faultToo,
    twofoldConnections.Perm twofoldConnections.reverse ∧
    (∀ outlet : Endpoint, twofoldConnections.filter (fun connection => connection.source = outlet) =
      twofoldConnections.reverse.filter fun connection => connection.source = outlet) ∧
    Text.Unambiguous (Graph.listedIds twofoldNodes) ∧
    Graph.build twofoldNodes twofoldConnections = .ok graph ∧
    Graph.build twofoldNodes twofoldConnections.reverse = .ok other ∧
    compile graph .standard .standard {} = .error fault ∧
    compile other .standard .standard {} = .error faultToo ∧ fault.message ≠ faultToo.message := by
  refine ⟨_, _, .within "precompile: dead-code" (.unknownNodeType "x" "a"),
    .within "precompile: dead-code" (.unknownNodeType "y" "b"), (List.reverse_perm _).symm,
    fans_reverse (by decide), Text.unambiguous_of_words (by decide), rfl, rfl, ?_, ?_, by decide +kernel⟩
  · cbv
  · cbv

/-! ## Building from the nodes and the connections -/

/-- Alike graphs are compiled to programs that hand out the same names. -/
theorem compile_names_alike (wellFormed : graph.WellFormed) (wellFormedToo : other.WellFormed)
    (alike : graph.Alike other) (settings : Settings) :
    Outcome.Alike (fun compiled twin => compiled.Alike twin ∧ compiled.names = twin.names)
      (compile graph .standard .standard settings) (compile other .standard .standard settings) := by
  rw [compile_eq, compile_eq]
  refine .bind_same fun target _ => .bind_same fun _ _ => ?_
  have sameSettings : Settings.Alike True { settings with target := target.name }
      { settings with target := target.name } := .refl _
  have layouts := Program.precompile_alike alike sameSettings Catalog.standard_uniform
    Library.standard_uniform
  generalize laidOut : Program.precompile graph .standard .standard { settings with target := target.name } =
    layout at layouts ⊢
  generalize laidOutToo : Program.precompile other .standard .standard
    { settings with target := target.name } = layoutToo at layouts ⊢
  cases layouts with
  | fault fault => exact .fault fault
  | @result program twin programs =>
      obtain ⟨laying⟩ := Program.laying_of_precompile wellFormed laidOut
      obtain ⟨layingToo⟩ := Program.laying_of_precompile wellFormedToo laidOutToo
      refine (programs.render target).mono fun compiled compiledToo held => ?_
      obtain ⟨result, isProgram, isTwin⟩ := held
      refine ⟨result, ?_⟩
      rw [Compiled.names, Compiled.names, isProgram, isTwin]
      exact programs.allNames laying layingToo

/-- Building from the nodes and the connections of an accepted graph succeeds.  It restores the nodes, what is
recorded at every outlet, and the sources of every inlet up to their order, and so the list of connections;
and what was built is compiled to the result that the graph is compiled to. -/
theorem build_inverts_connections (made : graph.Made) {table : Option Catalog} {reporter : Reporter}
    (accepted : (graph.check table reporter).2 = .ok ()) (unambiguous : Text.Unambiguous graph.ids)
    {nodes : List (Option Node)} (listed : nodes.Perm graph.slots.values) :
    ∃ rebuilt, Graph.build (nodes.map (Option.map Node.isolated)) graph.connections = .ok rebuilt ∧
      graph.Rebuilds rebuilt ∧
      (∀ settings, Outcome.Alike (fun compiled twin => compiled.Alike twin ∧ compiled.names = twin.names)
        (compile graph .standard .standard settings) (compile rebuilt .standard .standard settings)) ∧
      ∀ (catalog : Catalog) (library : Library), (Program.withAdapters catalog).Uniform True →
        library.Uniform → ∀ settings, Outcome.Alike Compiled.Alike (compile graph catalog library settings)
          (compile rebuilt catalog library settings) := by
  have wellFormed := Graph.wellFormed_of_check accepted
  obtain ⟨rebuilt, built, consistent, alike, rebuilds⟩ :=
    made.consistent.rebuild wellFormed unambiguous listed
  refine ⟨rebuilt, Graph.build_isolated.trans built, rebuilds, fun settings => ?_,
    fun catalog library uniform supplied settings => ?_⟩
  · exact compile_names_alike wellFormed (wellFormed.of_alike alike consistent) alike settings
  · exact compile_alike_of_uniform alike uniform supplied settings

theorem pair_rebuilt : ∃ graph rebuilt, Graph.build pairNodes pairConnections.reverse = .ok graph ∧
    graph.connections = pairConnections ∧
    Graph.build (graph.slots.values.map (Option.map Node.isolated)) pairConnections = .ok rebuilt ∧
    (graph.check (some .standard) .discarding).2 = .ok () ∧ graph.ids = ["p", "q", "f"] ∧
    graph.sourcesAt ⟨"f", "0"⟩ = [⟨"q", "0"⟩, ⟨"p", "0"⟩] ∧
    rebuilt.sourcesAt ⟨"f", "0"⟩ = [⟨"p", "0"⟩, ⟨"q", "0"⟩] := by
  refine ⟨_, _, rfl, ?_, rfl, ?_⟩
  · cbv
  · cbv

/-- The connections of two buttons are listed by the names of the buttons.  Building from the list turns the
sources of the number box around, and leaves what the patch is compiled to as it was. -/
theorem build_inverts_connections_pair : ∃ graph rebuilt : Graph, graph.Made ∧
    graph.sourcesAt ⟨"f", "0"⟩ = [⟨"q", "0"⟩, ⟨"p", "0"⟩] ∧
    rebuilt.sourcesAt ⟨"f", "0"⟩ = [⟨"p", "0"⟩, ⟨"q", "0"⟩] ∧
    Graph.build (graph.slots.values.map (Option.map Node.isolated)) graph.connections = .ok rebuilt ∧
    graph.Rebuilds rebuilt ∧
    Outcome.Alike (fun compiled twin => compiled.Alike twin ∧ compiled.names = twin.names)
      (compile graph .standard .standard {}) (compile rebuilt .standard .standard {}) := by
  obtain ⟨graph, rebuilt, built, connections, rebuiltFrom, accepted, ids, sources, sourcesToo⟩ := pair_rebuilt
  have made := Graph.made_of_build built
  have unambiguous : Text.Unambiguous graph.ids := by
    rw [ids]
    exact Text.unambiguous_of_words (by decide)
  obtain ⟨again, builtAgain, rebuilds, compiles, _⟩ :=
    build_inverts_connections made accepted unambiguous (.refl graph.slots.values)
  rw [← connections] at rebuiltFrom
  cases rebuiltFrom.symm.trans builtAgain
  exact ⟨graph, rebuilt, made, sources, sourcesToo, builtAgain, rebuilds, compiles {}⟩

end Patchbay
