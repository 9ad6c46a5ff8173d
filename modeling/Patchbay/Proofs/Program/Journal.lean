import Patchbay.Program.Precompile
import Patchbay.Proofs.Outcome

namespace Patchbay.Program

/-! A journal of the signal wiring.

Four places write the code that a signal inlet is read by, and the audio code of a node is generated
in between.  The functions below do what `wirePortlets` and `emitDsp` do and note down every such
write and every run of a generator, in order; without the notes they are `wirePortlets` and
`emitDsp`.
-/

/-- The places that write the code of signal inlets. -/
inductive Writer where
  | nullSignals
  | signalOutlets
  | inlineGroup
  | inlineExpression
deriving DecidableEq, Repr

inductive WiringEvent where
  | write (writer : Writer) (inlet : Endpoint) (code : String)
  /-- The audio code of a node was generated under what the scope tells about its inlets. -/
  | generate (id : String) (scope : Code.Scope) (dsp : Dsp)

abbrev Logged := StateT (List WiringEvent) Outcome

def note (event : WiringEvent) : Logged Unit := modify (· ++ [event])

def writeInlet (program : Program) (writer : Writer) (inlet : Endpoint) (code : String) :
    Logged Program := do
  note (.write writer inlet code)
  return program.setInlet inlet.node inlet.portlet code

def forNodesLogged (program : Program) (ids : List String)
    (step : Program → String → Node → Logged Program) : Logged Program :=
  ids.foldlM (fun program id => do step program id (← program.graph.node id)) program

def wireNullSignalsLogged (program : Program) (id : String) (node : Node) : Logged Program :=
  ((node.inletsOfType .signal).filter fun inlet => (node.sourcesOf inlet.id).isEmpty).foldlM
    (fun program inlet => program.writeInlet .nullSignals ⟨id, inlet.id⟩ nullSignal) program

def wireSignalOutletLogged (program : Program) (id : String) (node : Node) (outlet : Portlet) :
    Logged Program := do
  let (name, program) ← program.readName (.outlets id) outlet.id
  let program := program.refineNode id fun entry =>
    { entry with signalOuts := entry.signalOuts.set outlet.id name }
  (node.sinksOf outlet.id).foldlM (fun program sink => do
    let _ ← program.nodes.get sink.node
    program.writeInlet .signalOutlets sink name) program

def wireSignalOutletsLogged (program : Program) (id : String) (node : Node) : Logged Program := do
  let _ ← program.nodes.get id
  let names ← program.names.enterNode id
  (node.outletsOfType .signal).foldlM (fun program outlet =>
    program.wireSignalOutletLogged id node outlet) { program with names }

def wirePortletsLogged (program : Program) : Logged Program := do
  let program ← program.forNodes program.fullTraversal reserveReceivers
  let program ← program.forNodesLogged program.fullTraversal wireNullSignalsLogged
  let names ← program.names.enter (.module "msg")
  let program := { program with names }
  let program ← program.forNodes program.fullTraversal wireMessageOutlets
  program.forNodesLogged program.loopNodes wireSignalOutletsLogged

/-- Notes down that the audio code of a node is generated. -/
def noteGenerator (program : Program) (id : String) : Logged Unit := do
  let (scope, _) ← program.scopeOf id
  let (_, dsp, _) ← program.generateDsp id
  note (.generate id scope dsp)

/-- The signal inlets of a node that have a source, with the node of the source. -/
def feeds (node : Node) : List (String × String) :=
  (node.inletsOfType .signal).flatMap fun inlet =>
    (node.sourcesOf inlet.id).map fun source => (inlet.id, source.node)

set_option linter.unusedVariables false in
def inlineExpressionLogged (program : Program) (members : List String) (id : String) :
    Logged (String × Program) :=
  if present : id ∈ members then do
    let node ← program.graph.node id
    let _ ← program.nodes.get id
    let others := without members id
    let program ← (feeds node).foldlM (fun program feed =>
      if feed.2 ∈ others then do
        let (expression, program) ← inlineExpressionLogged program others feed.2
        program.writeInlet .inlineExpression ⟨id, feed.1⟩ ("(" ++ expression ++ ")")
      else return program) program
    program.noteGenerator id
    let (node, dsp, program) ← program.generateDsp id
    match dsp.expression with
    | none => throw (.missingExpression id node.type)
    | some expression => do
        let text ← flatText expression
        return (text, program)
  else throw (.unknownNode id)
termination_by members.length
decreasing_by
  exact length_without present

def emitInlineGroupLogged (program : Program) (group : DspGroup) : Logged Program :=
  group.outNodes.head?.elim (pure program) fun out => do
    let (expression, program) ← program.inlineExpressionLogged group.traversal out
    let node ← program.graph.node out
    match node.signalSinks with
    | [] => return program
    | sink :: _ => do
        let _ ← program.nodes.get sink.node
        program.writeInlet .inlineGroup sink ("(" ++ expression ++ ")")

def emitLoopLogged (program : Program) (id : String) : Logged Program := do
  program.noteGenerator id
  program.emitLoop id

def emitDspLogged (program : Program) : Logged Program := do
  let program ← program.inlineDsp.foldlM emitInlineGroupLogged program
  program.loopNodes.foldlM emitLoopLogged program

/-! ## Without the notes -/

/-- A computation that takes notes does what another one does. -/
def Erases (logged : Logged α) (plain : Outcome α) : Prop :=
  ∀ log, (Prod.fst <$> logged.run log) = plain

namespace Erases

variable {α β : Type} {logged : Logged α} {plain : Outcome α} {next : α → Logged β}
  {nextPlain : α → Outcome β}

theorem lift (plain : Outcome α) : Erases (liftM plain) plain := by
  intro log
  cases plain <;> rfl

theorem pure (value : α) : Erases (Pure.pure value) (Pure.pure value) := fun _ => rfl

theorem bind (one : Erases logged plain) (two : ∀ value, Erases (next value) (nextPlain value)) :
    Erases (logged >>= next) (plain >>= nextPlain) := by
  intro log
  have ran := one log
  rw [StateT.run_bind]
  generalize logged.run log = result at ran
  subst ran
  cases result with
  | error fault => rfl
  | ok pair => exact two pair.1 pair.2

theorem note_bind {event : WiringEvent} {rest : Logged α} (erases : Erases rest plain) :
    Erases (do note event; rest) plain := fun log => erases (log ++ [event])

theorem foldlM {γ : Type} {items : List γ} {step : α → γ → Logged α}
    {stepPlain : α → γ → Outcome α} (steps : ∀ state item, Erases (step state item) (stepPlain state item))
    (initial : α) : Erases (items.foldlM step initial) (items.foldlM stepPlain initial) := by
  induction items generalizing initial with
  | nil => exact .pure initial
  | cons item rest ih =>
      rw [List.foldlM_cons, List.foldlM_cons]
      exact (steps initial item).bind ih

end Erases

/-- How a computation with notes ends, the other one ends. -/
theorem Erases.ends {α : Type} {logged : Logged α} {plain : Outcome α} (erases : Erases logged plain)
    {log : List WiringEvent} {refused : Fault → Prop} {holds : α → Prop}
    (ends : Outcome.Ends (logged.run log) refused fun result => holds result.1) :
    Outcome.Ends plain refused holds := by
  rw [← erases log]
  generalize logged.run log = result at ends
  cases result with
  | error fault => exact ends
  | ok pair => exact ends

theorem Erases.run_eq_ok {α : Type} {logged : Logged α} {plain : Outcome α} {value : α}
    (erases : Erases logged plain) (finished : plain = .ok value) (log : List WiringEvent) :
    ∃ events, logged.run log = .ok (value, events) := by
  have ran := erases log
  rw [finished] at ran
  generalize logged.run log = result at ran
  cases result with
  | error fault => cases ran
  | ok pair =>
      cases ran
      exact ⟨pair.2, rfl⟩

/-- A run over a list carries the program and the notes along. -/
theorem run_foldlM {α β : Type} {step : β → α → Logged β} {items : List α} {initial : β}
    {log : List WiringEvent} : (items.foldlM step initial).run log =
      items.foldlM (fun state item => (step state.1 item).run state.2) (initial, log) := by
  induction items generalizing initial log with
  | nil => rfl
  | cons item rest ih =>
      rw [List.foldlM_cons, List.foldlM_cons, StateT.run_bind]
      exact bind_congr fun state => ih

theorem run_lift_bind {α β : Type} {outcome : Outcome α} {value : α} (ran : outcome = .ok value)
    {next : α → Logged β} {log : List WiringEvent} :
    ((liftM outcome : Logged α) >>= next).run log = (next value).run log := by
  subst ran
  rfl

theorem run_bind_of_ok {α β : Type} {logged : Logged α} {value : α} {log now : List WiringEvent}
    (ran : logged.run log = .ok (value, now)) {next : α → Logged β} :
    (logged >>= next).run log = (next value).run now := by
  rw [StateT.run_bind, ran]
  rfl

theorem ends_lift_bind {α β : Type} {outcome : Outcome α} {next : α → Logged β} {log : List WiringEvent}
    {refused : Fault → Prop} {held : α → Prop} {holds : β × List WiringEvent → Prop}
    (ran : Outcome.Ends outcome refused held) (continued : ∀ value, outcome = .ok value → held value →
      Outcome.Ends ((next value).run log) refused holds) :
    Outcome.Ends (((liftM outcome : Logged α) >>= next).run log) refused holds := by
  cases outcome with
  | error fault => exact ran
  | ok value => exact continued value rfl ran

theorem ends_run_bind {α β : Type} {logged : Logged α} {next : α → Logged β} {log : List WiringEvent}
    {refused : Fault → Prop} {held : α × List WiringEvent → Prop} {holds : β × List WiringEvent → Prop}
    (ran : Outcome.Ends (logged.run log) refused held) (continued : ∀ value now,
      logged.run log = .ok (value, now) → held (value, now) →
        Outcome.Ends ((next value).run now) refused holds) :
    Outcome.Ends ((logged >>= next).run log) refused holds := by
  rw [StateT.run_bind]
  exact ran.bind fun result finished heldResult => continued result.1 result.2 finished heldResult

variable {program : Program} {id : String} {node : Node}

theorem writeInlet_erases {writer : Writer} {inlet : Endpoint} {code : String} :
    Erases (program.writeInlet writer inlet code)
      (pure (program.setInlet inlet.node inlet.portlet code)) :=
  .note_bind (.pure _)

theorem refineNode_refineNode (first second : NodeCode → NodeCode) :
    (program.refineNode id first).refineNode id second = program.refineNode id (second ∘ first) := by
  have same : (program.nodes.entries.modify id first).modify id second =
      program.nodes.entries.modify id (second ∘ first) := by
    refine Table.ext ?_
    change (program.nodes.entries.entries.map _).map _ = program.nodes.entries.entries.map _
    rw [List.map_map]
    refine List.map_congr_left fun pair _ => ?_
    by_cases own : pair.1 = id <;> simp [own]
  unfold refineNode Register.refine
  simp only [same]

theorem refineNode_self : program.refineNode id (fun entry => entry) = program := by
  have same : program.nodes.entries.modify id (fun entry => entry) = program.nodes.entries := by
    refine Table.ext ?_
    change program.nodes.entries.entries.map _ = _
    simp
  unfold refineNode Register.refine
  simp only [same]

theorem foldl_setInlet (program : Program) (id : String) (inlets : List Portlet) :
    inlets.foldl (fun program inlet => program.setInlet id inlet.id nullSignal) program =
      program.refineNode id fun entry => { entry with
        signalIns := inlets.foldl (fun ins inlet => ins.set inlet.id nullSignal) entry.signalIns } := by
  suffices general : ∀ change : NodeCode → NodeCode,
      inlets.foldl (fun program inlet => program.setInlet id inlet.id nullSignal)
          (program.refineNode id change) =
        program.refineNode id fun entry => { change entry with
          signalIns := inlets.foldl (fun ins inlet => ins.set inlet.id nullSignal)
            (change entry).signalIns } by
    have specific := general fun entry => entry
    rwa [refineNode_self] at specific
  induction inlets with
  | nil => exact fun change => rfl
  | cons inlet rest ih =>
      intro change
      rw [List.foldl_cons, setInlet, refineNode_refineNode, ih]
      rfl

theorem wireNullSignals_erases :
    Erases (program.wireNullSignalsLogged id node) (pure (program.wireNullSignals id node)) := by
  unfold wireNullSignals
  rw [← foldl_setInlet, ← List.foldlM_pure]
  exact .foldlM (fun _ _ => writeInlet_erases) program

theorem forNodes_erases {ids : List String} {step : Program → String → Node → Logged Program}
    {plain : Program → String → Node → Outcome Program}
    (steps : ∀ program id node, Erases (step program id node) (plain program id node)) :
    Erases (program.forNodesLogged ids step) (program.forNodes ids plain) := by
  refine Erases.foldlM (fun program id => ?_) program
  exact (Erases.lift (program.graph.node id)).bind fun node => steps program id node

theorem wireSignalOutlets_erases :
    Erases (program.wireSignalOutletsLogged id node) (program.wireSignalOutlets id node) := by
  refine (Erases.lift _).bind fun _ => (Erases.lift _).bind fun names => ?_
  refine .foldlM (fun program outlet => ?_) _
  refine (Erases.lift _).bind fun named => ?_
  refine .foldlM (fun program sink => ?_) _
  exact (Erases.lift _).bind fun _ => writeInlet_erases

theorem wirePortlets_erases : Erases program.wirePortletsLogged program.wirePortlets := by
  refine (Erases.lift _).bind fun reserved => ?_
  refine (forNodes_erases fun _ _ _ => wireNullSignals_erases).bind fun grounded => ?_
  refine (Erases.lift _).bind fun names => (Erases.lift _).bind fun connected => ?_
  exact forNodes_erases fun _ _ _ => wireSignalOutlets_erases

theorem run_noteGenerator {log : List WiringEvent} : (program.noteGenerator id).run log = (do
    let (scope, _) ← program.scopeOf id
    let (_, dsp, _) ← program.generateDsp id
    return ((), log ++ [.generate id scope dsp])) := by
  unfold noteGenerator
  cases program.scopeOf id with
  | error fault => rfl
  | ok opened =>
      cases program.generateDsp id with
      | error fault => rfl
      | ok generated => rfl

/-- Where the audio code of a node is generated anyway, a note about it changes nothing. -/
theorem Erases.noteGenerator {α : Type} {rest : Logged α} {next : Node × Dsp × Program → Outcome α}
    (erases : Erases rest (program.generateDsp id >>= next)) :
    Erases (do program.noteGenerator id; rest) (program.generateDsp id >>= next) := by
  intro log
  rw [StateT.run_bind, run_noteGenerator]
  cases opening : program.scopeOf id with
  | error fault =>
      have failing : program.generateDsp id = .error fault := by
        unfold generateDsp
        rw [opening]
        rfl
      rw [failing]
      rfl
  | ok opened =>
      cases generating : program.generateDsp id with
      | error fault => rfl
      | ok generated =>
          rw [generating] at erases
          exact erases _

theorem inlineExpression_eq (members : List String) (present : id ∈ members) :
    program.inlineExpression members id = (do
      let node ← program.graph.node id
      let _ ← program.nodes.get id
      let program ← (feeds node).foldlM (fun program feed =>
        if feed.2 ∈ without members id then do
          let (expression, program) ← program.inlineExpression (without members id) feed.2
          return program.setInlet id feed.1 ("(" ++ expression ++ ")")
        else return program) program
      let (node, dsp, program) ← program.generateDsp id
      match dsp.expression with
      | none => throw (.missingExpression id node.type)
      | some expression => do
          let text ← flatText expression
          return (text, program)) := by
  rw [inlineExpression, dif_pos present]
  rfl

theorem inlineExpression_erases (members : List String) (id : String) :
    Erases (program.inlineExpressionLogged members id) (program.inlineExpression members id) := by
  induction program, members, id using inlineExpression.induct with
  | case1 program members id present ih =>
      rw [inlineExpressionLogged, dif_pos present, inlineExpression_eq members present]
      refine (Erases.lift _).bind fun node => (Erases.lift _).bind fun _ => ?_
      refine (Erases.foldlM (fun state feed => ?_) program).bind fun composed => ?_
      · by_cases inner : feed.2 ∈ without members id
        · rw [if_pos inner, if_pos inner]
          exact (ih state feed.2).bind fun _ => writeInlet_erases
        · rw [if_neg inner, if_neg inner]
          exact .pure state
      · refine .noteGenerator ((Erases.lift _).bind fun generated => ?_)
        dsimp only
        cases generated.2.1.expression with
        | none => exact .lift (throw _)
        | some expression => exact (Erases.lift _).bind fun text => .pure _
  | case2 program members id absent =>
      rw [inlineExpressionLogged, dif_neg absent, inlineExpression, dif_neg absent]
      exact .lift (throw _)

theorem emitInlineGroup_erases (group : DspGroup) :
    Erases (program.emitInlineGroupLogged group) (program.emitInlineGroup group) := by
  unfold emitInlineGroupLogged emitInlineGroup
  cases group.outNodes.head? with
  | none => exact .pure program
  | some out =>
      refine (inlineExpression_erases group.traversal out).bind fun composed => ?_
      refine (Erases.lift _).bind fun node => ?_
      cases node.signalSinks with
      | nil => exact .pure _
      | cons sink rest => exact (Erases.lift _).bind fun _ => writeInlet_erases

theorem emitLoop_erases (id : String) :
    Erases (program.emitLoopLogged id) (program.emitLoop id) :=
  .noteGenerator (.lift _)

theorem emitDsp_erases : Erases program.emitDspLogged program.emitDsp :=
  (Erases.foldlM (fun _ group => emitInlineGroup_erases group) program).bind fun composed =>
    .foldlM (fun _ id => emitLoop_erases id) composed

end Patchbay.Program
