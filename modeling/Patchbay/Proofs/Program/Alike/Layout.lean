import Patchbay.Proofs.Program.Alike.Emission
import Patchbay.Proofs.Program.Alike.Setup
import Patchbay.Proofs.Program.Alike.Split
import Patchbay.Proofs.Program.Alike.Wiring

namespace Patchbay

/-! Layouts side by side: every pass takes alike programs to alike programs, or stops both with one fault. -/

namespace Program

variable {exact : Prop} {program twin : Program} {graph other : Graph} {catalog : Catalog}
  {library : Library} {settings settingsToo : Settings}

theorem start_alike (graphs : graph.Alike other) (sites : settings.Alike exact settingsToo)
    (listed : (withAdapters catalog).Uniform exact) (supplied : library.Uniform) :
    Fresh exact (start graph catalog library settings) (start other catalog library settingsToo) := by
  have trimmed : (graph.trim graph.sortedIds).Alike (other.trim other.sortedIds) := by
    rw [← graphs.sortedIds]
    exact graphs.trim _
  exact {
    alike := {
      graph := trimmed
      catalog := rfl
      library := rfl
      settings := sites
      names := (NameIndex.Alike.refl (start graph catalog library settings).names).setGraph rfl trimmed
      nodes := ⟨rfl, .empty⟩
      types := rfl
      fullTraversal := rfl
      rootDsp := rfl
      hotDsp := rfl
      coldDsp := rfl
      inlineDsp := rfl
      dependencies := .refl _
      hostReceivers := rfl
      hostSenders := rfl
      coldOf := rfl
      inlined := rfl
      supplied
      listed
      typed := fun found => nomatch found }
    nodes := rfl }

theorem runPasses_alike_cons {pass : Pass} {rest : List Pass} {held holds : Program → Program → Prop}
    (first : Outcome.Alike held (pass.run program) (pass.run twin))
    (later : ∀ next nextToo, held next nextToo →
      Outcome.Alike holds (runPasses rest next).2 (runPasses rest nextToo).2) :
    Outcome.Alike holds (runPasses (pass :: rest) program).2 (runPasses (pass :: rest) twin).2 := by
  have applied := first.inContext ("precompile: " ++ pass.name)
  rw [runPasses, runPasses, Pass.apply, Pass.apply]
  generalize Outcome.inContext _ (pass.run program) = ran at *
  generalize Outcome.inContext _ (pass.run twin) = ranToo at *
  cases applied with
  | fault fault => exact .fault fault
  | result given => exact later _ _ given

theorem precompile_alike (graphs : graph.Alike other) (sites : settings.Alike exact settingsToo)
    (listed : (withAdapters catalog).Uniform exact) (supplied : library.Uniform) :
    Outcome.Alike (Alike exact) (precompile graph catalog library settings)
      (precompile other catalog library settingsToo) := by
  have started := start_alike graphs sites listed supplied
  refine runPasses_alike_cons started.graftHostPorts fun _ _ fresh => ?_
  refine runPasses_alike_cons fresh.keepReachable fun _ _ alike => ?_
  refine runPasses_alike_cons alike.embedModules fun _ _ alike => ?_
  refine runPasses_alike_cons alike.declareTypes fun _ _ alike => ?_
  refine runPasses_alike_cons alike.instantiateStates fun _ _ alike => ?_
  refine runPasses_alike_cons alike.splitSignal fun _ _ alike => ?_
  refine runPasses_alike_cons alike.wirePortlets fun _ _ alike => ?_
  refine runPasses_alike_cons alike.emitDsp fun _ _ alike => ?_
  exact runPasses_alike_cons alike.completeNodes fun _ _ alike => .result alike

end Program

end Patchbay
