import Patchbay.Proofs.Program.Alike

namespace Patchbay

/-! The audio parts of two programs side by side: the same nodes are cold, and they are put into the same
groups.
-/

namespace Coldness

variable {graph other : Graph} {isPure isPureToo : Node → Bool} {path : List String} {id : String}
  {memo : Memo}

theorem visit_eq (fresh : memo.get? id = none) (offPath : id ∉ path) : visit graph isPure path id memo =
    match graph.node? id with
    | none => (false, memo.set id false)
    | some node =>
        if isPure node then
          let state := node.signalSources.foldl (fun (state : Bool × Memo) source =>
            if state.1 then visit graph isPure (id :: path) source.node state.2 else state) (true, memo)
          (state.1, state.2.set id state.1)
        else (false, memo.set id false) := by
  rw [visit, fresh]
  simp only [if_neg offPath]
  split
  · next missing => rw [missing]
  · next node found => rw [found]

/-- Which nodes are cold depends on nothing but what alike graphs share. -/
theorem visit_congr (alike : graph.Alike other)
    (same : ∀ node twin : Node, node.Alike twin → isPure node = isPureToo twin) :
    visit graph isPure path id memo = visit other isPureToo path id memo := by
  induction path, id, memo using visit.induct graph isPure with
  | case1 path id memo answer remembered =>
      rw [visit, visit, remembered]
  | case2 path id memo unknown onPath =>
      rw [visit, visit, unknown]
      simp only [if_pos onPath]
  | case3 path id memo unknown offPath missing =>
      rw [visit_eq unknown offPath, visit_eq unknown offPath, missing, (alike.nodes id).of_none missing]
  | case4 path id memo unknown offPath node found isCandidate _ _ _ ih =>
      obtain ⟨twin, foundToo, held⟩ := (alike.nodes id).of_some found
      rw [visit_eq unknown offPath, visit_eq unknown offPath, found, foundToo]
      simp only [← same node twin held, ← held.signalSources, ih]
  | case5 path id memo unknown offPath node found isCandidate =>
      obtain ⟨twin, foundToo, held⟩ := (alike.nodes id).of_some found
      rw [visit_eq unknown offPath, visit_eq unknown offPath, found, foundToo]
      simp only [← same node twin held, isCandidate]
      rfl

theorem survey_congr (alike : graph.Alike other)
    (same : ∀ node twin : Node, node.Alike twin → isPure node = isPureToo twin) :
    survey graph isPure = survey other isPureToo := by
  unfold survey query
  rw [alike.sortedIds]
  simp only [visit_congr alike same]

end Coldness

namespace Program

variable {exact : Prop} {program twin : Program}

namespace Alike

variable (alike : program.Alike exact twin)

include alike

theorem isPure {node nodeToo : Node} (nodes : node.Alike nodeToo) :
    program.isPure node = twin.isPure nodeToo := by
  unfold Program.isPure
  rw [alike.catalog, nodes.type]

theorem coldGroups : program.coldGroups = twin.coldGroups := by
  have survey : Coldness.survey program.graph program.isPure = Coldness.survey twin.graph twin.isPure :=
    Coldness.survey_congr alike.graph fun _ _ => alike.isPure
  have closure : ∀ (memo : Coldness.Memo) (roots : List String),
      program.graph.signalNodesWhere roots (fun node => memo.getD node.id false) =
        twin.graph.signalNodesWhere roots fun node => memo.getD node.id false :=
    fun memo roots => alike.graph.signalNodesWhere fun node nodeToo nodes => by rw [nodes.id]
  unfold Program.coldGroups
  rw [survey, alike.rootDsp]
  generalize Coldness.survey twin.graph twin.isPure = memo
  dsimp only
  simp only [closure]
  congr 3
  funext id
  refine congrArg (and _) ?_
  cases found : program.graph.node? id with
  | none => rw [(alike.graph.nodes id).of_none found]
  | some node =>
      obtain ⟨nodeToo, foundToo, nodes⟩ := (alike.graph.nodes id).of_some found
      rw [foundToo]
      exact congrArg (List.any · _) nodes.signalSinks

theorem leaving (members : List String) :
    Program.leaving program.graph members = Program.leaving twin.graph members := by
  unfold Program.leaving
  refine List.flatMap_congr fun id _ => ?_
  refine alike.graph.option_congr (fun slot => match slot with
    | none => []
    | some node => (node.outletsOfType .signal).flatMap fun (outlet : Portlet) =>
        ((node.sinksOf outlet.id).filter fun (sink : Endpoint) =>
          !members.contains sink.node).map fun (sink : Endpoint) =>
          (⟨⟨id, outlet.id⟩, sink⟩ : Connection)) (fun node nodeToo nodes => ?_) id
  dsimp only
  rw [nodes.outletsOfType]
  exact List.flatMap_congr fun outlet _ => by rw [nodes.sinks]

theorem addColdGroup (position : Nat) (group : DspGroup) :
    Outcome.Alike (Alike exact) (program.addColdGroup position group) (twin.addColdGroup position group) := by
  refine (alike.readName .coldGroups _).bind fun result other held => ?_
  obtain ⟨name, program⟩ := result
  obtain ⟨nameToo, twin⟩ := other
  obtain ⟨rfl, alike⟩ := held
  dsimp only
  rw [← alike.leaving, ← alike.coldDsp, ← alike.coldOf]
  refine .bind_same fun coldDsp _ => .pure ?_
  exact { alike with coldDsp := rfl, coldOf := rfl, listed := alike.listed, typed := alike.typed }

theorem isInlinable (parent : DspGroup) : program.isInlinable parent = twin.isInlinable parent := by
  funext id
  unfold Program.isInlinable
  cases found : program.graph.node? id with
  | none => rw [(alike.graph.nodes id).of_none found]
  | some node =>
      obtain ⟨nodeToo, foundToo, nodes⟩ := (alike.graph.nodes id).of_some found
      rw [foundToo]
      dsimp only
      rw [alike.catalog, nodes.type, nodes.signalSinks]

theorem inlineGroups (parent : DspGroup) : program.inlineGroups parent = twin.inlineGroups parent := by
  have reader : ∀ id, ((program.graph.node? id).bind fun node => node.signalSinks.head?) =
      (twin.graph.node? id).bind fun node => node.signalSinks.head? := by
    refine alike.graph.option_congr (fun slot => slot.bind fun node => node.signalSinks.head?)
      fun node nodeToo nodes => ?_
    exact congrArg List.head? nodes.signalSinks
  have closure : ∀ roots, program.graph.signalNodesWhere roots
      (fun source => twin.isInlinable parent source.id) =
        twin.graph.signalNodesWhere roots fun source => twin.isInlinable parent source.id :=
    fun roots => alike.graph.signalNodesWhere fun node nodeToo nodes => by rw [nodes.id]
  unfold Program.inlineGroups
  simp only [alike.isInlinable, reader, closure]

theorem extractInline (parent : DspGroup) : Outcome.Alike (AlikeWith exact Eq) (program.extractInline parent)
    (twin.extractInline parent) := by
  unfold Program.extractInline
  rw [← alike.inlineGroups, ← alike.inlined, ← alike.inlineDsp]
  refine .bind_same fun groups _ => .pure ⟨rfl, ?_⟩
  exact { alike with inlineDsp := rfl, inlined := rfl, listed := alike.listed, typed := alike.typed }

theorem extractInlineFromCold (id : String) :
    Outcome.Alike (Alike exact) (program.extractInlineFromCold id) (twin.extractInlineFromCold id) := by
  unfold Program.extractInlineFromCold
  rw [← alike.coldDsp]
  refine .bind_same fun group _ => ?_
  refine (alike.extractInline group.toDspGroup).bind fun result other held => ?_
  obtain ⟨traversal, program⟩ := result
  obtain ⟨traversalToo, twin⟩ := other
  obtain ⟨rfl, alike⟩ := held
  refine .pure { alike with coldDsp := ?_, listed := alike.listed, typed := alike.typed }
  exact congrArg (Register.refine · id _) alike.coldDsp

theorem splitSignal : Outcome.Alike (Alike exact) program.splitSignal twin.splitSignal := by
  unfold Program.splitSignal
  dsimp only
  rw [← alike.graph.pulling, ← alike.graph.signalNodes]
  refine .bind_same fun traversal _ => ?_
  have rooted : Alike exact { program with rootDsp := ⟨traversal, program.graph.pulling⟩ }
      { twin with rootDsp := ⟨traversal, program.graph.pulling⟩ } :=
    { alike with rootDsp := rfl, listed := alike.listed, typed := alike.typed }
  rw [← rooted.coldGroups]
  refine .bind_same fun cold _ => ?_
  refine .via (Alike exact) (.foldlM_same rooted fun _ _ item _ alike =>
    alike.addColdGroup item.2 item.1) fun program twin alike => ?_
  rw [← alike.coldOf]
  refine (alike.extractInline _).bind fun result other held => ?_
  obtain ⟨remaining, program⟩ := result
  obtain ⟨remainingToo, twin⟩ := other
  obtain ⟨rfl, alike⟩ := held
  dsimp only at alike ⊢
  rw [← alike.coldDsp]
  refine .foldlM_same ?_ fun _ _ id _ alike => alike.extractInlineFromCold id
  exact { alike with hotDsp := rfl, coldDsp := rfl, listed := alike.listed, typed := alike.typed }

end Alike

end Program

end Patchbay
