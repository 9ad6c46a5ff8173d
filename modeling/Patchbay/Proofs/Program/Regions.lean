import Patchbay.Program.Regions
import Patchbay.Proofs.Code.Declarations
import Patchbay.Proofs.Program.Frame
import Patchbay.Proofs.Program.Wiring

namespace Patchbay

/-! What the regions of a program declare.

The regions that go through the nodes one by one can always be written.  The others need what they
look up: the members and sinks of cold groups, the adapters of host receivers and two of the runtime
modules.
-/

open Code (Part declarations)
open Outcome (Yields)

theorem Outcome.mapM_eq_ok {α : Type u} {β : Type v} {step : α → Outcome β} {result : α → β}
    {items : List α} (steps : ∀ item ∈ items, step item = .ok (result item)) :
    items.mapM step = .ok (items.map result) := by
  induction items with
  | nil => rfl
  | cons item rest ih =>
      have later := ih fun other member => steps other (List.mem_cons_of_mem _ member)
      simp [List.mapM_cons, steps item (List.mem_cons_self ..), later, bind, Except.bind, pure,
        Except.pure]

namespace Program

variable {program : Program} {id : String} {node : Node} {entry : NodeCode}

/-- What a node contributes to a region. -/
def contribution (program : Program) (parts : NodeCode → List Part) (id : String) : List Part :=
  ((program.nodes.entries.get? id).map parts).getD []

theorem contribution_eq {parts : NodeCode → List Part}
    (stored : program.nodes.entries.get? id = some entry) :
    program.contribution parts id = parts entry := by
  simp [contribution, stored]

theorem Framed.mapM_entries (framed : program.Framed) (parts : NodeCode → List Part) :
    (program.fullTraversal.mapM fun id => do
      let entry ← program.nodes.get id
      return parts entry : Outcome (List (List Part))) =
      .ok (program.fullTraversal.map (program.contribution parts)) := by
  refine Outcome.mapM_eq_ok fun id listed => ?_
  obtain ⟨node, found⟩ := framed.listed.mp listed
  obtain ⟨entry, stored⟩ := framed.entry found
  rw [contribution_eq stored, register_get_eq_ok_iff.mpr stored]
  rfl

/-! ## Portlets -/

def outletParts (entry : NodeCode) : List Part :=
  (Text.sortIds entry.signalOuts.keys).map fun outlet =>
    Code.var "Float" (entry.signalOuts.getD outlet "") ["0"]

def portletParts (entry : NodeCode) : List Part :=
  outletParts entry ++ entry.receivers.values.map Part.ofFunction ++
    entry.senders.values.filterMap fun sender => sender.dispatcher.map Part.ofFunction

theorem Framed.portletsRegion_eq (framed : program.Framed) : program.portletsRegion =
    .ok (Code.lines (program.fullTraversal.flatMap (program.contribution portletParts))) := by
  unfold portletsRegion
  have listed := framed.mapM_entries portletParts
  unfold portletParts outletParts at listed
  rw [listed]
  rfl

theorem isDeclaration_of_mem_portletParts {part : Part} (member : part ∈ portletParts entry) :
    part.isDeclaration = true := by
  simp only [portletParts, outletParts, List.mem_append, List.mem_map, List.mem_filterMap,
    Option.map_eq_some_iff] at member
  rcases member with (⟨outlet, _, rfl⟩ | ⟨receiver, _, rfl⟩) | ⟨sender, _, function, _, rfl⟩ <;> rfl

/-- The portlets region declares the variables of signal outlets, the receivers and the dispatchers,
and nothing else. -/
theorem declarations_portlets : declarations
    (Code.lines (program.fullTraversal.flatMap (program.contribution portletParts))) =
      program.fullTraversal.flatMap (program.contribution portletParts) := by
  refine Code.declarations_lines_of_all fun part member => ?_
  obtain ⟨id, _, contributed⟩ := List.mem_flatMap.mp member
  cases stored : program.nodes.entries.get? id with
  | none => simp [contribution, stored] at contributed
  | some entry =>
      rw [contribution_eq stored] at contributed
      exact isDeclaration_of_mem_portletParts contributed

/-- The variable of a signal outlet is declared. -/
theorem Framed.outlet_declared (framed : program.Framed) {outlet code : String}
    (stored : program.nodes.entries.get? id = some entry)
    (given : entry.signalOuts.get? outlet = some code) :
    ∃ region, program.portletsRegion = .ok region ∧
      Code.var "Float" code ["0"] ∈ declarations region := by
  refine ⟨_, framed.portletsRegion_eq, ?_⟩
  rw [declarations_portlets, List.mem_flatMap]
  refine ⟨id, framed.listed.mpr (framed.known stored), ?_⟩
  rw [contribution_eq stored]
  refine List.mem_append_left _ (List.mem_append_left _ (List.mem_map.mpr ⟨outlet, ?_, ?_⟩))
  · exact Graph.mem_sortIds_iff.mpr (Table.mem_keys_of_get? given)
  · simp [Table.getD, given]

end Program

end Patchbay
