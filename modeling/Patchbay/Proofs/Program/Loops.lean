import Patchbay.Proofs.Program.Composition

namespace Patchbay.Program

/-! Loop statements are generated.

When the inline groups are composed, every inlet of a node with a loop statement is written, so its
audio code can be generated as well.  Nothing is written any more from then on.
-/

open Outcome (Ends ends_pure)

variable {base wired program : Program} {groups : List DspGroup} {id : String} {node : Node}
  {log now : List WiringEvent}

/-- The code of a node with the statements that its audio code gives. -/
def withLoop (node : Node) (dsp : Dsp) (entry : NodeCode) : NodeCode :=
  match dsp.expression with
  | none => { entry with loop := dsp.loop, inlets := dsp.inlets }
  | some expression =>
      match node.outletsOfType .signal with
      | [] => entry
      | outlet :: _ =>
          { entry with
            loop := some (Code.code [
              entry.signalOuts.getD outlet.id "", " = ", .sequence expression])
            inlets := ∅ }

theorem solid_withLoop (node : Node) (dsp : Dsp) (entry : NodeCode) :
    (withLoop node dsp entry).solid = withLoop node dsp entry.solid := by
  unfold withLoop
  cases dsp.expression with
  | none => rfl
  | some expression => cases node.outletsOfType .signal <;> rfl

theorem signalIns_withLoop (node : Node) (dsp : Dsp) (entry : NodeCode) :
    (withLoop node dsp entry).signalIns = entry.signalIns := by
  unfold withLoop
  cases dsp.expression with
  | none => rfl
  | some expression => cases node.outletsOfType .signal <;> rfl

/-- Stores the statements of a node. -/
def closeLoop (id : String) (generated : Node × Dsp × Program) : Outcome Program :=
  match generated.2.1.expression with
  | none => pure (generated.2.2.refineNode id (withLoop generated.1 generated.2.1))
  | some _ =>
      match generated.1.outletsOfType .signal with
      | [] => throw (.expressionWithoutOutlet id generated.1.type)
      | _ :: _ => pure (generated.2.2.refineNode id (withLoop generated.1 generated.2.1))

theorem emitLoop_eq : program.emitLoop id = program.generateDsp id >>= closeLoop id := by
  unfold emitLoop
  refine bind_congr fun generated => ?_
  obtain ⟨node, dsp, after⟩ := generated
  unfold closeLoop withLoop
  dsimp only
  cases dsp.expression with
  | none => rfl
  | some expression =>
      cases node.outletsOfType .signal with
      | nil => rfl
      | cons outlet rest => rfl

theorem emitLoopLogged_eq : program.emitLoopLogged id = (do
    program.noteGenerator id
    let generated ← program.generateDsp id
    closeLoop id generated) := by
  unfold emitLoopLogged
  rw [emitLoop_eq]
  refine bind_congr fun _ => ?_
  cases program.generateDsp id <;> rfl

/-- Statements are stored unless there is an expression and no signal outlet to assign it to. -/
theorem closeLoop_ends {dsp : Dsp} {names : NameIndex} :
    Ends (closeLoop id (node, dsp, { program with names }))
      (fun fault => fault = .expressionWithoutOutlet id node.type ∧ dsp.expression.isSome = true ∧
        node.outletsOfType .signal = [])
      fun after => after = { program with names }.refineNode id (withLoop node dsp) := by
  unfold closeLoop
  dsimp only
  cases dsp.expression with
  | none => exact ends_pure rfl
  | some expression =>
      cases node.outletsOfType .signal with
      | nil => exact ⟨rfl, rfl, rfl⟩
      | cons outlet rest => exact ends_pure rfl

/-- Some nodes were given their loop statements. -/
structure Looped (base wired : Program) (done : List String) (program : Program) (now : List WiringEvent) :
    Prop extends Emitting base wired program now where
  generated : ∀ {member}, member ∈ generatedIn now ↔ member ∈ base.inlined ∨ member ∈ done
  written : ∀ inlet source, base.graph.signalSource? inlet = some source →
    source.node ∈ base.inlined → inlet.node ∉ base.inlined → Written now inlet
  untouched : ∀ {id}, id ∉ done → program.solid? id = wired.solid? id
  looped : ∀ {id}, id ∈ done → ∃ node scope dsp, base.graph.node? id = some node ∧
    .generate id scope dsp ∈ now ∧ program.solid? id = (wired.solid? id).map (withLoop node dsp)

theorem Looped.step {done : List String} {entry : NodeCode} {dsp : Dsp} {names : NameIndex}
    (held : Looped base wired done program log) (fresh : id ∉ done)
    (found : base.graph.node? id = some node)
    (emitting : Emitting base wired { program with names }
      (log ++ [.generate id (program.scopeAt node entry) dsp])) :
    Looped base wired (done ++ [id]) ({ program with names }.refineNode id (withLoop node dsp))
      (log ++ [.generate id (program.scopeAt node entry) dsp]) := by
  have nodes : ∀ other, ({ program with names }.refineNode id (withLoop node dsp)).solid? other =
      if other = id then (program.solid? other).map (withLoop node dsp) else program.solid? other :=
    fun other => solid?_refineNode (solid_withLoop node dsp) other
  have running := emitting.toRunning.of_frame ⟨names, program.nodes.refine id (withLoop node dsp), rfl⟩
    (.refl _) (Table.keys_modify _ _) (signalIn?_refineNode (signalIns_withLoop node dsp))
  refine ⟨⟨running, emitting.names, emitting.generates, emitting.unfed, emitting.fed⟩, ?_, ?_, ?_, ?_⟩
  · intro member
    rw [generatedIn_append, generatedIn_generate, List.mem_append, held.generated, List.mem_append,
      or_assoc]
  · intro inlet source fed isInlined solid
    exact (held.written inlet source fed isInlined solid).mono
  · intro other notDone
    rw [List.mem_append, List.mem_singleton, not_or] at notDone
    rw [nodes, if_neg notDone.2, held.untouched notDone.1]
  · intro other isDone
    rcases List.mem_append.mp isDone with earlier | last
    · obtain ⟨otherNode, scope, otherDsp, otherFound, member, same⟩ := held.looped earlier
      have apart : other ≠ id := fun equal => fresh (equal ▸ earlier)
      refine ⟨otherNode, scope, otherDsp, otherFound, List.mem_append_left _ member, ?_⟩
      rw [nodes, if_neg apart, same]
    · cases List.mem_singleton.mp last
      refine ⟨node, _, dsp, found, List.mem_append_right _ (List.mem_singleton_self _), ?_⟩
      rw [nodes, if_pos rfl, held.untouched fresh]

theorem Stage.emitLoop_ends (stage : Stage base wired groups) {done rest : List String}
    (isSplit : base.loopNodes = done ++ id :: rest) (held : Looped base wired done program log) :
    Ends ((program.emitLoopLogged id).run log) wired.AudioFault fun result =>
      Looped base wired (done ++ [id]) result.1 result.2 := by
  have split := stage.split
  obtain ⟨listed, solid⟩ := split.mem_loopNodes_iff.mp
    (show id ∈ base.loopNodes by simp [isSplit])
  have fresh : id ∉ done :=
    (fresh_of_nodup (List.nodup_append.mp split.shared_nodup).1 isSplit).1
  obtain ⟨node, found⟩ := split.rooted.known listed
  have framed := stage.framed.of_keeps held.keeps
  have foundNow : program.graph.node? id = some node := held.keeps.graph ▸ found
  obtain ⟨entry, stored⟩ := framed.entry foundNow
  have unread : id ∉ generatedIn log := by
    rw [held.generated, not_or]
    exact ⟨solid, fresh⟩
  have complete : ∀ {inlet}, base.HasSignalInlet ⟨id, inlet⟩ → Written log ⟨id, inlet⟩ :=
    held.toEmitting.complete split listed fun inlet source fed isInlined =>
      held.written _ source fed isInlined solid
  rw [emitLoopLogged_eq]
  have handed : ∀ {inlet}, program.HasSignalInlet ⟨id, inlet⟩ →
      ∃ code, entry.signalIns.get? inlet = some code := fun hasInlet => held.handed stored complete hasInlet
  have refused : ∀ {fault}, program.DspFault id fault → wired.AudioFault fault :=
    fun failed => held.audioFault_of stage.start (held.untouched fresh) listed failed
  refine framed.noted_ends foundNow stored handed (fun _ => refused) fun dsp names generates took => ?_
  have emitting := held.toEmitting.generate stage.start (held.untouched fresh) foundNow stored unread
    complete generates took
  have closing : Ends (closeLoop id (node, dsp, { program with names })) _ _ := closeLoop_ends
  cases closed : closeLoop id (node, dsp, { program with names }) with
  | error fault =>
      obtain ⟨rfl, isSome, none⟩ := closing.of_error closed
      obtain ⟨asking, template, asks, isDsp⟩ := generates.asks handed
      cases asks.found.symm.trans foundNow
      rw [isDsp, DspTemplate.resolve, Option.isSome_map] at isSome
      obtain ⟨expression, given⟩ := Option.isSome_iff_exists.mp isSome
      exact refused (.noOutlet asks given none)
  | ok after =>
      cases closing.of_ok closed
      exact held.step fresh found emitting

/-- What is left behind when all audio code is generated. -/
structure EmittedFrom (base wired program : Program) (log : List WiringEvent) : Prop
    extends Looped base wired base.loopNodes program log where
  complete : ∀ {id}, id ∈ generatedIn log ↔ id ∈ base.rootDsp.traversal

theorem Stage.emitDsp_ends (stage : Stage base wired groups) (emitting : Emitting base wired wired log)
    (quiet : generatedIn log = []) :
    Ends (wired.emitDspLogged.run log) wired.AudioFault fun result =>
      EmittedFrom base wired result.1 result.2 := by
  have split := stage.split
  obtain ⟨_, _, isWired⟩ := stage.start
  have sameInline : wired.inlineDsp = base.inlineDsp := by rw [isWired]
  unfold emitDspLogged
  rw [sameInline]
  refine ends_run_bind (stage.compose_ends emitting quiet) fun composed now _ held => ?_
  obtain ⟨emittingNow, same, generated, written⟩ := held
  have sameLoop : composed.loopNodes = base.loopNodes := by
    obtain ⟨_, _, rfl⟩ := emittingNow.frame
    rfl
  rw [sameLoop, run_foldlM]
  refine Ends.mono (Outcome.ends_foldlM (fun done (state : Program × List WiringEvent) =>
    Looped base wired done state.1 state.2) ?_ ?_) (fun _ fault => fault) fun result _ looped => ?_
  · exact ⟨emittingNow, by simp [generated], written, fun _ => congrFun same _, by simp⟩
  · intro done id rest state isSplit looped
    exact stage.emitLoop_ends isSplit looped
  · refine ⟨looped, fun {id} => ?_⟩
    rw [looped.generated, split.mem_loopNodes_iff]
    constructor
    · rintro (isInlined | ⟨listed, _⟩)
      · exact split.mem_root_of_inlined isInlined
      · exact listed
    · intro listed
      by_cases isInlined : id ∈ base.inlined
      · exact .inl isInlined
      · exact .inr ⟨listed, isInlined⟩

end Patchbay.Program
