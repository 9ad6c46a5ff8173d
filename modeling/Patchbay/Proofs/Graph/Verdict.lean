import Mathlib
import Patchbay.Proofs.Graph.Traversal
import Patchbay.Proofs.Reporter

namespace Patchbay

/-! The verdict of the check.

A graph is accepted exactly when it is well-formed and its node types are listed.  A well-formed graph
can always be walked, so an accepted graph is reported on by one warning for every node that no walk
reaches, and by nothing else.  A warning tells which node it is about.
-/

namespace Graph

variable {graph : Graph} {catalog : Option Catalog} {reporter : Reporter}

theorem nodup_sortedIds : graph.sortedIds.Nodup :=
  (List.mergeSort_perm graph.ids _).nodup_iff.mpr graph.slots.distinct

/-- Looking for unreachable nodes never fails in a well-formed graph. -/
theorem WellFormed.unreachable_eq (wellFormed : graph.WellFormed) :
    ∃ full, graph.fullTraversal = .ok full ∧
      graph.unreachable = .ok (graph.sortedIds.filter fun id => !full.contains id) := by
  obtain ⟨full, walked, _⟩ := fullTraversal_yields wellFormed
  refine ⟨full, walked, ?_⟩
  unfold unreachable
  rw [walked]
  rfl

theorem mem_dropped_iff {full : List String} {id : String} :
    id ∈ (graph.sortedIds.filter fun id => !full.contains id) ↔ id ∈ graph.ids ∧ id ∉ full := by
  simp [mem_sortedIds_iff]

theorem check_of_issues (found : graph.issues catalog ≠ []) :
    graph.check catalog reporter =
      (report reporter (graph.issues catalog), .error (.invalidGraph (graph.issues catalog).length)) := by
  unfold check verdict
  simp [found]

/-- The line of a log about a node that no walk reaches. -/
def droppedLine (format : LogFormat) (id : String) : String :=
  let notice := s!"node {Text.quoted id} is not reachable from any audio sink or message trigger " ++
    "and will be dropped"
  match format with
  | .text => "level=warning msg=" ++ Text.quoted notice ++ "\n"
  | .json => "\x7b\"level\":\"warning\",\"msg\":" ++ Json.quote notice ++ "\x7d\n"

theorem droppedLine_eq (format : LogFormat) (id : String) :
    droppedLine format id = (LogEntry.warning (unreachableWarning id)).line format := by
  rw [LogEntry.line_warning]
  · rfl
  · simp [unreachableWarning]

/-- The line tells the node. -/
theorem droppedLine_injective (format : LogFormat) : Function.Injective (droppedLine format) := by
  intro id other same
  have notices : unreachableWarning id = unreachableWarning other := by
    cases format with
    | text =>
        exact Text.quoted_injective
          ((String.append_right_inj _).mp ((String.append_left_inj _).mp same))
    | json =>
        exact Json.quote_injective ((String.append_right_inj _).mp ((String.append_left_inj _).mp same))
  unfold unreachableWarning at notices
  exact Text.quoted_injective ((String.append_right_inj "node ").mp
    ((String.append_left_inj _).mp ((String.append_left_inj _).mp notices)))

/-- A clean graph is reported on by one line for every node that no walk reaches. -/
theorem check_of_clean {dropped : List String} (clean : graph.issues catalog = [])
    (walked : graph.unreachable = .ok dropped) :
    graph.check catalog reporter = ({ reporter with
      warnings := reporter.warnings + dropped.length
      output := reporter.output ++ if reporter.isSilent then ""
        else String.join (dropped.map (droppedLine reporter.format)) }, .ok ()) := by
  have lines : (dropped.map unreachableWarning).map (fun message =>
      (LogEntry.warning message).line reporter.format) = dropped.map (droppedLine reporter.format) := by
    rw [List.map_map]
    exact List.map_congr_left fun id _ => (droppedLine_eq reporter.format id).symm
  have told := reporter.foldl_warn (dropped.map unreachableWarning)
  rw [List.foldl_map, List.length_map, lines] at told
  unfold check
  simp [clean, walked, told]

theorem check_eq_ok_iff : (graph.check catalog reporter).2 = .ok () ↔ graph.issues catalog = [] := by
  constructor
  · intro accepted
    by_contra found
    rw [check_of_issues found] at accepted
    cases accepted
  · intro clean
    obtain ⟨full, _, walked⟩ := (issues_eq_nil_iff.mp clean).1.unreachable_eq
    rw [check_of_clean clean walked]

/-- The check accepts a graph exactly when the graph is well-formed and every node type is listed.  Then
it adds one warning for every node that is not reached to what the reporter has written, and no other;
the line of a warning tells the node, and walking the graph does not fail. -/
theorem check_decides_wellFormed (graph : Graph) (catalog : Option Catalog) (reporter : Reporter) :
    ((checkAny (some graph) catalog (some reporter)).2 = .ok () ↔
      graph.WellFormed ∧ ∀ id node, graph.node? id = some node → Lists catalog node.type) ∧
    ((checkAny (some graph) catalog (some reporter)).2 = .ok () →
      ∃ full dropped : List String, graph.fullTraversal = .ok full ∧ dropped.Nodup ∧
        (∀ id, id ∈ dropped ↔ id ∈ graph.ids ∧ id ∉ full) ∧
        (checkAny (some graph) catalog (some reporter)).1 = some { reporter with
          warnings := reporter.warnings + dropped.length
          output := reporter.output ++ if reporter.isSilent then ""
            else String.join (dropped.map (droppedLine reporter.format)) }) ∧
    Function.Injective (droppedLine reporter.format) ∧
    (graph.issues catalog = [] → ∀ fault, graph.unreachable ≠ .error fault) := by
  refine ⟨check_eq_ok_iff.trans issues_eq_nil_iff, ?_, droppedLine_injective _, ?_⟩
  · intro accepted
    have clean := check_eq_ok_iff.mp accepted
    obtain ⟨full, walked, unreached⟩ := (issues_eq_nil_iff.mp clean).1.unreachable_eq
    refine ⟨full, _, walked, nodup_sortedIds.filter _, fun _ => mem_dropped_iff, ?_⟩
    change some (graph.check catalog reporter).1 = _
    rw [check_of_clean clean unreached]
  · intro clean fault failed
    obtain ⟨_, _, unreached⟩ := (issues_eq_nil_iff.mp clean).1.unreachable_eq
    rw [unreached] at failed
    cases failed

/-! ## A stray node -/

/-- An output and a node that nothing reaches. -/
def strayGraph : Graph :=
  ⟨.ofList [
    ("d", some { id := "d", type := "dac~", isPullingSignal := true }),
    ("s", some { id := "s", type := "float" })]⟩

theorem stray_walked : strayGraph.fullTraversal = .ok ["d"] := by cbv

theorem stray_refused :
    ((⟨strayGraph.slots.set "s" none⟩ : Graph).issues none).isEmpty = false := by cbv

theorem stray_alone {dropped : List String} (distinct : dropped.Nodup)
    (unreached : ∀ id, id ∈ dropped ↔ id ∈ strayGraph.ids ∧ id ∉ ["d"]) : dropped = ["s"] := by
  have ids : strayGraph.ids = ["d", "s"] := rfl
  refine List.perm_singleton.mp ((List.perm_ext_iff_of_nodup distinct (List.nodup_singleton _)).mpr ?_)
  intro id
  rw [unreached, ids]
  simp only [List.mem_cons, List.not_mem_nil, or_false]
  constructor
  · rintro ⟨rfl | rfl, other⟩
    · exact absurd rfl other
    · rfl
  · rintro rfl
    exact ⟨.inr rfl, by decide⟩

/-- A stray node is accepted, and its line follows what was written before; without its entry the graph
is refused. -/
theorem check_decides_wellFormed_stray :
    (checkAny (some strayGraph) none (some { format := .text, output := "first\n", warnings := 4 })).2 =
      .ok () ∧
    (checkAny (some strayGraph) none (some { format := .text, output := "first\n", warnings := 4 })).1 =
      some { format := .text, warnings := 5, output := "first\nlevel=warning msg=\"node \\\"s\\\" is not " ++
        "reachable from any audio sink or message trigger and will be dropped\"\n" } ∧
    strayGraph.WellFormed ∧ ¬ (⟨strayGraph.slots.set "s" none⟩ : Graph).WellFormed := by
  have clean : strayGraph.issues none = [] := by cbv
  obtain ⟨decided, counted, _, _⟩ := check_decides_wellFormed strayGraph none
    { format := .text, output := "first\n", warnings := 4 }
  have accepted : (strayGraph.check none { format := .text, output := "first\n", warnings := 4 }).2 =
      .ok () := check_eq_ok_iff.mpr clean
  obtain ⟨full, dropped, walked, distinct, unreached, told⟩ := counted accepted
  cases stray_walked.symm.trans walked
  cases stray_alone distinct unreached
  refine ⟨accepted, told.trans (congrArg some ?_), (decided.mp accepted).1, fun wellFormed => ?_⟩
  · have line : "first\n" ++ String.join [droppedLine .text "s"] = "first\nlevel=warning msg=\"node " ++
        "\\\"s\\\" is not reachable from any audio sink or message trigger and will be dropped\"\n" := by
      decide +kernel
    exact congrArg (fun text => ({ format := .text, warnings := 5, output := text } : Reporter)) line
  · have refused := (check_decides_wellFormed ⟨strayGraph.slots.set "s" none⟩ none .discarding).1.mpr
      ⟨wellFormed, fun _ _ _ _ none => by cases none⟩
    have nothing := check_eq_ok_iff.mp refused
    have found := stray_refused
    rw [nothing] at found
    cases found

/-! ## A missing graph -/

/-- A missing graph has no entry that could be wrong, and it is refused. -/
theorem missing_graph_refused :
    ¬ ∀ (graph : Option Graph) (catalog : Option Catalog) (reporter : Reporter),
      (checkAny graph catalog (some reporter)).2 = .ok () ↔ (graph.getD .empty).WellFormed ∧
        ∀ id node, (graph.getD .empty).node? id = some node → Lists catalog node.type := by
  intro decided
  have clean : (empty : Graph).issues none = [] := by cbv
  cases (decided none none .discarding).mpr (issues_eq_nil_iff.mp clean)

end Graph

end Patchbay
