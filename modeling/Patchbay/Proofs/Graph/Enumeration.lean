import Patchbay.Proofs.Graph.Alike
import Patchbay.Proofs.Graph.Reachable

namespace Patchbay

/-! Tables that are gone through in another order.

A graph is a table, and a run goes through its entries in some order that nothing specifies.  Two orders
show a run the same nodes: both graphs are accepted or none is, and the same nodes have an effect.  Only
ids that spell one integer are tied when ids are sorted, so the walks differ by nothing but the order in
which they list nodes, and without such ids by nothing at all.
-/

/-- The same entries in another order. -/
def Table.Reordered {α : Type u} (table other : Table α) : Prop := table.entries.Perm other.entries

namespace Table.Reordered

variable {α : Type u} {table other : Table α}

theorem symm (reordered : table.Reordered other) : other.Reordered table := List.Perm.symm reordered

theorem keys (reordered : table.Reordered other) : table.keys.Perm other.keys := List.Perm.map _ reordered

theorem get? (reordered : table.Reordered other) (key : String) : table.get? key = other.get? key := by
  refine Option.ext fun value => ?_
  rw [← mem_entries_iff, ← mem_entries_iff]
  exact List.Perm.mem_iff reordered

theorem getD (reordered : table.Reordered other) (key : String) (fallback : α) :
    table.getD key fallback = other.getD key fallback :=
  congrArg (Option.getD · fallback) (reordered.get? key)

/-- Sorted keys are the same, unless two of them are tied. -/
theorem sortIds_keys (reordered : table.Reordered other) (unambiguous : Text.Unambiguous table.keys) :
    Text.sortIds table.keys = Text.sortIds other.keys :=
  Text.sortIds_congr (Text.sameOrder_of_perm unambiguous reordered.keys)

end Table.Reordered

namespace Graph

/-- The same slots in another order. -/
def Reordered (graph other : Graph) : Prop := graph.slots.Reordered other.slots

namespace Reordered

variable {graph other : Graph} {full again : List String}

theorem symm (reordered : graph.Reordered other) : other.Reordered graph := Table.Reordered.symm reordered

section

variable (reordered : graph.Reordered other)

include reordered

theorem ids : graph.ids.Perm other.ids := Table.Reordered.keys reordered

theorem node?_eq : graph.node? = other.node? := by
  funext id
  exact congrArg Option.join (Table.Reordered.get? reordered id)

theorem wellFormed (wellFormed : graph.WellFormed) : other.WellFormed where
  filled id isId := by
    rw [← reordered.node?_eq]
    exact wellFormed.filled id (reordered.ids.mem_iff.mpr isId)
  fits := by
    intro id node found
    rw [← reordered.node?_eq] at found
    have fits := wellFormed.fits found
    refine { fits with
      sources := fun inletId isKey => ?_
      sinks := fun outletId isKey => ?_ }
    · obtain ⟨inlet, isInlet, single, mirrored⟩ := fits.sources inletId isKey
      simp only [outletAt?, sinksAt, reordered.node?_eq] at mirrored
      exact ⟨inlet, isInlet, single, mirrored⟩
    · obtain ⟨outlet, isOutlet, mirrored⟩ := fits.sinks outletId isKey
      simp only [inletAt?, sourcesAt, reordered.node?_eq] at mirrored
      exact ⟨outlet, isOutlet, mirrored⟩

/-- Without tied ids the order of the slots cannot be told. -/
theorem alike (unambiguous : Text.Unambiguous graph.ids) : graph.Alike other where
  order := Text.sameOrder_of_perm unambiguous reordered.ids
  nodes id := by
    unfold AlikeAt
    rw [reordered.node?_eq]
    cases other.node? id with
    | none => exact .none
    | some node => exact .some (.refl node)

theorem effective {id : String} (effective : graph.Effective id) : other.Effective id := by
  have feeds : graph.Feeds = other.Feeds := by
    unfold Feeds
    rw [reordered.node?_eq]
  have sends : graph.Sends = other.Sends := by
    unfold Sends
    rw [reordered.node?_eq]
  cases effective with
  | heard isRoot upstream =>
      rw [mem_pulling_iff, reordered.node?_eq, ← mem_pulling_iff] at isRoot
      exact .heard isRoot (feeds ▸ upstream)
  | told isRoot downstream =>
      rw [mem_pushing_iff, reordered.node?_eq, ← mem_pushing_iff] at isRoot
      exact .told isRoot (sends ▸ downstream)

end

/-- Two walks list the same nodes. -/
theorem fullTraversal_perm (reordered : graph.Reordered other) (wellFormed : graph.WellFormed)
    (walked : graph.fullTraversal = .ok full) (walkedToo : other.fullTraversal = .ok again) :
    full.Perm again := by
  have wellFormedToo := reordered.wellFormed wellFormed
  obtain ⟨_, same, distinct, _⟩ := fullTraversal_yields wellFormed
  cases walked.symm.trans same
  obtain ⟨_, same, distinctToo, _⟩ := fullTraversal_yields wellFormedToo
  cases walkedToo.symm.trans same
  refine (List.perm_ext_iff_of_nodup distinct distinctToo).mpr fun id => ?_
  rw [mem_fullTraversal_iff wellFormed walked, mem_fullTraversal_iff wellFormedToo walkedToo]
  exact ⟨reordered.effective, reordered.symm.effective⟩

end Reordered

variable {graph other : Graph} {catalog : Option Catalog} {reporter : Reporter}

/-- What is left of an accepted graph may be gone through in any order: it is accepted, and walking it
lists the nodes that were kept, in the order of the first walk unless two ids are tied. -/
theorem trim_walked_in_any_order (accepted : (graph.check catalog reporter).2 = .ok ()) {full : List String}
    (walked : graph.fullTraversal = .ok full) (reordered : (graph.trim full).Reordered other) :
    other.WellFormed ∧ ∃ again, other.fullTraversal = .ok again ∧ again.Perm full ∧
      (Text.Unambiguous graph.ids → again = full) := by
  obtain ⟨_, same, _, _, _, _, _, _, _, walkedAgain⟩ := fullTraversal_lists_effective accepted
  cases walked.symm.trans same
  have trimmed := (wellFormed_of_check accepted).trim full
  have wellFormed := reordered.wellFormed trimmed
  obtain ⟨again, walkedToo, _⟩ := fullTraversal_yields wellFormed
  refine ⟨wellFormed, again, walkedToo, ?_, fun unambiguous => ?_⟩
  · exact (reordered.fullTraversal_perm trimmed walkedAgain walkedToo).symm
  · have fewer : Text.Unambiguous (graph.trim full).ids := by
      intro left isLeft right isRight
      rw [ids_trim] at isLeft isRight
      exact unambiguous left (List.mem_of_mem_filter isLeft) right (List.mem_of_mem_filter isRight)
    have alike := reordered.alike fewer
    rw [← alike.fullTraversal, walkedAgain] at walkedToo
    cases walkedToo
    rfl

/-! ## Tied outputs -/

/-- Two outputs whose ids spell one integer. -/
def tiedOutputs : List (String × Option Node) :=
  [("1", some { id := "1", type := "dac~", isPullingSignal := true }),
    ("01", some { id := "01", type := "dac~", isPullingSignal := true })]

/-- The walk over two tied nodes is not a function of the graph: it lists them as the slots do. -/
theorem fullTraversal_tells_enumeration :
    ((⟨.ofList tiedOutputs⟩ : Graph).check none .discarding).2 = .ok () ∧
    (⟨.ofList tiedOutputs⟩ : Graph).fullTraversal = .ok ["1", "01"] ∧
    ((⟨.ofList tiedOutputs⟩ : Graph).trim ["1", "01"]).Reordered ⟨.ofList tiedOutputs.reverse⟩ ∧
    (⟨.ofList tiedOutputs.reverse⟩ : Graph).fullTraversal = .ok ["01", "1"] := by
  refine ⟨by cbv, by cbv, ?_, by cbv⟩
  exact (List.reverse_perm tiedOutputs).symm

end Graph

end Patchbay
