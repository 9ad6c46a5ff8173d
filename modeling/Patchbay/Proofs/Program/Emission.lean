import Patchbay.Proofs.Program.SignalWiring

namespace Patchbay

/-! Audio code is generated.

Inline groups are composed first, each from its leaves to the node that is read from outside, and then
the loop statements follow.  Whenever the audio code of a node is generated, all of its signal inlets
are written, so generating fails only where a template does, or where a template does not give what
the place of the node asks for.
-/

open Code (Granted handlesOf)
open Outcome (Ends ends_pure)

namespace DspTemplate

/-- The inlets that have statements of their own, in the order in which these are filled. -/
def inletIds (template : DspTemplate) : List String := Text.sortIds (template.inlets.map Prod.fst)

def statementOf (template : DspTemplate) (id : String) : Code.Template :=
  (template.inlets.lookup id).getD (.code [])

def reads (template : DspTemplate) : List Code.Read :=
  template.expression.toList.flatMap Code.Template.reads ++
    (template.loop.toList.flatMap Code.Template.reads ++
      template.inletIds.flatMap fun id => (template.statementOf id).reads)

def resolve (template : DspTemplate) (scope : Code.Scope) (naming : Code.Naming) : Program.Dsp where
  expression := template.expression.map fun part => (part.resolve scope naming).toSequence
  loop := template.loop.map fun part => (part.resolve scope naming).toSequence
  inlets := .ofList (template.inletIds.map fun id =>
    (id, ((template.statementOf id).resolve scope naming).toSequence))

end DspTemplate

namespace Program

variable {base wired program before between after : Program} {groups : List DspGroup}
  {group : DspGroup} {id : String} {node : Node} {entry : NodeCode} {log now later : List WiringEvent}
  {inlet : Endpoint} {code : String} {scope : Code.Scope} {dsp : Dsp}

theorem fillDsp_fills (scope : Code.Scope) (template : DspTemplate) :
    Code.Fills (fillDsp scope template) (fun _ => template.reads.map (Code.Read.ask scope))
      (template.resolve scope) := by
  have expression : Code.Fills (template.expression.mapM fun part => part.fillSequence scope) _ _ :=
    .optionMapM fun part _ => part.fillSequence_fills scope
  have loop : Code.Fills (template.loop.mapM fun part => part.fillSequence scope) _ _ :=
    .optionMapM fun part _ => part.fillSequence_fills scope
  have inlets : Code.Fills (template.inletIds.mapM fun id => do
      return (id, ← (template.statementOf id).fillSequence scope)) _ _ :=
    .mapM fun id _ => ((template.statementOf id).fillSequence_fills scope).map fun statement =>
      (id, statement)
  have all := expression.bind fun first => loop.bind fun second => inlets.map fun third =>
    (⟨first, second, .ofList third⟩ : Dsp)
  simp only [DspTemplate.reads, List.map_append, List.map_flatMap]
  exact all

/-! ## Single generators -/

/-- The template of the audio code of a node. -/
def dspTemplate? (program : Program) (id : String) : Option DspTemplate :=
  (program.graph.node? id).bind fun node =>
    (program.types.entries.get? node.type).bind fun type =>
      type.implementation.dsp.map fun template => template ⟨node, program.settings⟩

/-- The audio code of a node is asked for under a scope with what was wired for the node and the code of
all of its signal inlets. -/
structure Asks (program : Program) (id : String) (node : Node) (template : DspTemplate)
    (scope : Code.Scope) : Prop where
  found : program.graph.node? id = some node
  given : program.dspTemplate? id = some template
  placed : ∃ entry, program.solid? id = some entry ∧
    scope = { program.scopeAt node entry with ins := scope.ins }
  complete : ∀ {inlet}, program.HasSignalInlet ⟨id, inlet⟩ → ∃ code, scope.ins.get? inlet = some code

/-- Why the audio code of a node cannot be given. -/
inductive DspFault (program : Program) (id : String) : Fault → Prop where
  | noTemplate {node : Node} (found : program.graph.node? id = some node)
      (none : program.dspTemplate? id = none) : DspFault program id (.missingDsp id node.type)
  | refused {node : Node} {template : DspTemplate} {scope : Code.Scope} {read : Code.Read}
      (asks : program.Asks id node template scope) (asked : read ∈ template.reads)
      (notGranted : ¬ (read.ask scope).Granted program.names) :
      DspFault program id (.within (contextOf "dsp" node) (read.ask scope).fault)
  | noExpression {node : Node} {template : DspTemplate} {scope : Code.Scope}
      (asks : program.Asks id node template scope) (isInlined : id ∈ program.inlined)
      (none : template.expression = none) : DspFault program id (.missingExpression id node.type)
  | notFlat {node : Node} {template : DspTemplate} {scope : Code.Scope} {expression : Code.Template}
      {part : String} (asks : program.Asks id node template scope) (isInlined : id ∈ program.inlined)
      (given : template.expression = some expression) (naming : Code.Naming)
      (isPart : flatText (expression.resolve scope naming).toSequence =
        .error (.declarationInExpression part)) : DspFault program id (.declarationInExpression part)
  | noOutlet {node : Node} {template : DspTemplate} {scope : Code.Scope} {expression : Code.Template}
      (asks : program.Asks id node template scope) (given : template.expression = some expression)
      (none : node.outletsOfType .signal = []) : DspFault program id (.expressionWithoutOutlet id node.type)

/-- The audio code of a node of the signal graph cannot be given. -/
def AudioFault (program : Program) (fault : Fault) : Prop :=
  ∃ id ∈ program.rootDsp.traversal, program.DspFault id fault

/-- The audio code of a node under a scope. -/
structure Generates (program : Program) (id : String) (scope : Code.Scope) (dsp : Dsp) : Prop where
  placed : ∃ node entry, program.graph.node? id = some node ∧ program.solid? id = some entry ∧
    scope = { program.scopeAt node entry with ins := scope.ins }
  filled : ∃ template, program.dspTemplate? id = some template ∧
    Granted program.names scope template.reads ∧ dsp = template.resolve scope program.names.nameOf

def dspHandles (program : Program) (id : String) (scope : Code.Scope) : List (NameSpace × String) :=
  ((program.dspTemplate? id).map fun template => handlesOf scope template.reads).getD []

/-- What was generated was asked for. -/
theorem Generates.asks (generates : program.Generates id scope dsp)
    (complete : ∀ {inlet}, program.HasSignalInlet ⟨id, inlet⟩ → ∃ code, scope.ins.get? inlet = some code) :
    ∃ node template, program.Asks id node template scope ∧
      dsp = template.resolve scope program.names.nameOf := by
  obtain ⟨⟨node, entry, found, solid, isScope⟩, template, given, _, isDsp⟩ := generates
  exact ⟨node, template, ⟨found, given, ⟨entry, solid, isScope⟩, complete⟩, isDsp⟩

theorem Framed.generateDsp_ends (framed : program.Framed) (found : program.graph.node? id = some node)
    (stored : program.nodes.entries.get? id = some entry)
    (complete : ∀ {inlet}, program.HasSignalInlet ⟨id, inlet⟩ →
      ∃ code, entry.signalIns.get? inlet = some code) :
    Ends (program.generateDsp id) (program.DspFault id) fun result => ∃ dsp names,
      result = (node, dsp, { program with names }) ∧
        program.Generates id (program.scopeAt node entry) dsp ∧
        program.names.Took names (program.dspHandles id (program.scopeAt node entry)) := by
  obtain ⟨known, opened, knownStored, opening, tookOpening⟩ := framed.scopeOf_eq found
  rw [stored] at knownStored
  cases knownStored
  obtain ⟨type, registered⟩ := framed.types found
  unfold generateDsp
  refine .step opening (.step (register_get_eq_ok_iff.mpr registered) ?_)
  cases given : type.implementation.dsp with
  | none => exact .noTemplate found (by simp [dspTemplate?, found, registered, given])
  | some template =>
      have isTemplate : program.dspTemplate? id = some (template ⟨node, program.settings⟩) := by
        simp [dspTemplate?, found, registered, given]
      have filled := fillReads_ends { program with names := opened } (contextOf "dsp" node)
        (fillDsp_fills (program.scopeAt node entry) (template ⟨node, program.settings⟩))
      refine (filled.mono (fun fault refused => ?_) fun _ _ held => held).bind
        fun result _ held => ends_pure ?_
      · obtain ⟨read, asked, notGranted, rfl⟩ := refused
        have placed : program.solid? id = some entry.solid := by simp [solid?, stored]
        exact .refused ⟨found, isTemplate, ⟨entry.solid, placed, rfl⟩, complete⟩ asked fun granted =>
          notGranted ((Code.Ask.granted_iff_of_akin tookOpening.toAkin).mpr granted)
      · obtain ⟨granted, names, rfl, took⟩ := held
        refine ⟨_, names, rfl, ⟨?_, ?_⟩, ?_⟩
        · exact ⟨node, entry.solid, found, by simp [solid?, stored], rfl⟩
        · refine ⟨_, isTemplate, (Code.granted_iff_of_akin tookOpening.toAkin).mp granted, ?_⟩
          rw [← tookOpening.nameOf]
        · simpa [dspHandles, isTemplate] using tookOpening.trans took

/-- Generating with a note, whatever comes next. -/
theorem Framed.noted_ends {α : Type} {next : Node × Dsp × Program → Logged α}
    {holds : α × List WiringEvent → Prop} {refused : Fault → Prop} (framed : program.Framed)
    (found : program.graph.node? id = some node)
    (stored : program.nodes.entries.get? id = some entry)
    (complete : ∀ {inlet}, program.HasSignalInlet ⟨id, inlet⟩ →
      ∃ code, entry.signalIns.get? inlet = some code)
    (faults : ∀ fault, program.DspFault id fault → refused fault)
    (continued : ∀ dsp names, program.Generates id (program.scopeAt node entry) dsp →
      program.names.Took names (program.dspHandles id (program.scopeAt node entry)) →
      Ends ((next (node, dsp, { program with names })).run
        (log ++ [.generate id (program.scopeAt node entry) dsp])) refused holds) :
    Ends ((do
      program.noteGenerator id
      let generated ← program.generateDsp id
      next generated : Logged α).run log) refused holds := by
  obtain ⟨known, opened, knownStored, opening, _⟩ := framed.scopeOf_eq found
  rw [stored] at knownStored
  cases knownStored
  have generating := framed.generateDsp_ends found stored complete
  rw [StateT.run_bind, run_noteGenerator, opening]
  cases ran : program.generateDsp id with
  | error fault => exact faults fault (generating.of_error ran)
  | ok generated =>
      obtain ⟨dsp, names, rfl, generates, took⟩ := generating.of_ok ran
      exact continued dsp names generates took

/-! ## While audio code is generated -/

def eventHandles (program : Program) : WiringEvent → List (NameSpace × String)
  | .write .. => []
  | .generate id scope _ => program.dspHandles id scope

/-- What has happened since a program was wired. -/
structure Emitting (base wired program : Program) (log : List WiringEvent) : Prop
    extends Running base program log where
  names : wired.names.Adds program.names (log.flatMap wired.eventHandles) []
  generates : ∀ {id scope dsp}, .generate id scope dsp ∈ log → wired.Generates id scope dsp
  unfed : ∀ inlet, base.HasSignalInlet inlet → base.graph.signalSource? inlet = none →
    Written log inlet
  fed : ∀ inlet source, base.graph.signalSource? inlet = some source →
    source.node ∈ base.loopNodes → Written log inlet

theorem WiredFrom.emitting (wired : WiredFrom base program log) : Emitting base program program log where
  toRunning := wired.toRunning
  names := by
    have silent : log.flatMap program.eventHandles = [] := by
      refine List.flatMap_eq_nil_iff.mpr fun event member => ?_
      cases event with
      | write => rfl
      | generate id scope dsp =>
          have generated := mem_generatedIn_iff.mpr ⟨scope, dsp, member⟩
          rw [wired.quiet] at generated
          cases generated
    rw [silent]
    exact .refl _
  generates {id scope dsp} member := by
    have generated := mem_generatedIn_iff.mpr ⟨scope, dsp, member⟩
    rw [wired.quiet] at generated
    cases generated
  unfed := wired.unfed
  fed := wired.fed

namespace Emitting

theorem inlined_eq (emitting : Emitting base wired program log) : program.inlined = base.inlined := by
  obtain ⟨_, _, rfl⟩ := emitting.frame
  rfl

/-- Every signal inlet that was written has its code. -/
theorem handed (emitting : Emitting base wired program log)
    (stored : program.nodes.entries.get? id = some entry)
    (complete : ∀ {inlet}, base.HasSignalInlet ⟨id, inlet⟩ → Written log ⟨id, inlet⟩) {inlet : String}
    (hasInlet : program.HasSignalInlet ⟨id, inlet⟩) : ∃ code, entry.signalIns.get? inlet = some code := by
  have declared : base.HasSignalInlet ⟨id, inlet⟩ := by
    obtain ⟨_, _, rfl⟩ := emitting.frame
    exact hasInlet
  obtain ⟨writer, code, written⟩ := complete declared
  have recorded := (emitting.recorded ⟨id, inlet⟩ code).mpr ⟨writer, written⟩
  rw [signalIn?, stored, Option.bind_some] at recorded
  exact ⟨code, recorded⟩

/-- What is asked for now could as well have been asked for right after wiring. -/
theorem asks_of (emitting : Emitting base wired program log)
    (start : ∃ names nodes, wired = { base with names, nodes })
    (same : program.solid? id = wired.solid? id) {template : DspTemplate}
    (asks : program.Asks id node template scope) : wired.Asks id node template scope := by
  have stateOf := emitting.names.stateOf
  obtain ⟨found, given, ⟨entry, solid, isScope⟩, complete⟩ := asks
  obtain ⟨names, nodes, rfl⟩ := emitting.frame
  obtain ⟨oldNames, oldNodes, rfl⟩ := start
  refine ⟨found, given, ⟨entry, same ▸ solid, ?_⟩, complete⟩
  have sameState : names.stateOf node.id = oldNames.stateOf node.id := congrFun stateOf node.id
  rw [isScope]
  simp [scopeAt, sameState]

theorem audioFault_of (emitting : Emitting base wired program log)
    (start : ∃ names nodes, wired = { base with names, nodes })
    (same : program.solid? id = wired.solid? id) (listed : id ∈ base.rootDsp.traversal) {fault : Fault}
    (failed : program.DspFault id fault) : wired.AudioFault fault := by
  have asksOf : ∀ {node template scope}, program.Asks id node template scope →
      wired.Asks id node template scope := fun asks => emitting.asks_of start same asks
  have akin := emitting.names.toAkin
  obtain ⟨_, _, rfl⟩ := emitting.frame
  obtain ⟨_, _, rfl⟩ := start
  refine ⟨id, listed, ?_⟩
  cases failed with
  | noTemplate found none => exact .noTemplate found none
  | refused asks asked notGranted =>
      exact .refused (asksOf asks) asked fun granted =>
        notGranted ((Code.Ask.granted_iff_of_akin akin).mpr granted)
  | noExpression asks isInlined none => exact .noExpression (asksOf asks) isInlined none
  | notFlat asks isInlined given naming isPart => exact .notFlat (asksOf asks) isInlined given naming isPart
  | noOutlet asks given none => exact .noOutlet (asksOf asks) given none

/-- What is generated now could as well have been generated right after wiring. -/
theorem generates_of (emitting : Emitting base wired program log)
    (start : ∃ names nodes, wired = { base with names, nodes })
    (same : program.solid? id = wired.solid? id) (generates : program.Generates id scope dsp) :
    wired.Generates id scope dsp := by
  have akin := emitting.names.toAkin
  have stateOf := emitting.names.stateOf
  obtain ⟨⟨node, entry, found, solid, isScope⟩, template, given, granted, rfl⟩ := generates
  obtain ⟨names, nodes, rfl⟩ := emitting.frame
  obtain ⟨oldNames, oldNodes, rfl⟩ := start
  refine ⟨⟨node, entry, found, same ▸ solid, ?_⟩, template, given,
    (Code.granted_iff_of_akin akin).mp granted, ?_⟩
  · have sameState : names.stateOf node.id = oldNames.stateOf node.id := congrFun stateOf node.id
    rw [isScope]
    simp [scopeAt, sameState]
  · change template.resolve scope names.nameOf = template.resolve scope oldNames.nameOf
    rw [akin.nameOf]

theorem write (emitting : Emitting base wired program log)
    (stored : program.nodes.entries.get? inlet.node = some entry)
    (declared : base.HasSignalInlet inlet) (fresh : inlet.node ∉ generatedIn log) (carries : base.Carries log inlet code) :
    Emitting base wired (program.setInlet inlet.node inlet.portlet code)
      (log ++ [.write (base.inletWriter inlet) inlet code]) where
  toRunning := emitting.toRunning.write stored declared fresh rfl carries
  names := by
    rw [List.flatMap_append, List.flatMap_singleton, eventHandles, List.append_nil]
    exact emitting.names
  generates := by
    intro id scope dsp member
    rcases List.mem_append.mp member with earlier | last
    · exact emitting.generates earlier
    · cases List.mem_singleton.mp last
  unfed inlet hasInlet isUnfed := (emitting.unfed inlet hasInlet isUnfed).mono
  fed inlet source isFed isSolid := (emitting.fed inlet source isFed isSolid).mono

theorem generate (emitting : Emitting base wired program log)
    (start : ∃ names nodes, wired = { base with names, nodes })
    (same : program.solid? id = wired.solid? id) (found : program.graph.node? id = some node)
    (stored : program.nodes.entries.get? id = some entry) (fresh : id ∉ generatedIn log)
    (complete : ∀ {inlet}, base.HasSignalInlet ⟨id, inlet⟩ → Written log ⟨id, inlet⟩)
    {names : NameIndex} (generates : program.Generates id (program.scopeAt node entry) dsp)
    (took : program.names.Took names (program.dspHandles id (program.scopeAt node entry))) :
    Emitting base wired { program with names }
      (log ++ [.generate id (program.scopeAt node entry) dsp]) where
  frame := by
    obtain ⟨_, nodes, rfl⟩ := emitting.frame
    exact ⟨names, nodes, rfl⟩
  akin := emitting.akin.trans took.toAkin
  keys := emitting.keys
  recorded inlet code := by
    rw [show ({ program with names } : Program).signalIn? = program.signalIn? from rfl,
      emitting.recorded]
    simp
  sound := by
    have same : ∀ inlet, program.signalIn? ⟨id, inlet⟩ = entry.signalIns.get? inlet := by
      intro inlet
      rw [signalIn?, stored, Option.bind_some]
    refine emitting.sound.generate fresh (fun {inlet} hasInlet => ?_) fun {inlet code} held => ?_
    · obtain ⟨writer, code, member⟩ := complete hasInlet
      exact ⟨writer, code, member, (same inlet).symm.trans
        ((emitting.recorded ⟨id, inlet⟩ code).mpr ⟨writer, member⟩)⟩
    · exact (emitting.recorded ⟨id, inlet⟩ code).mp ((same inlet).trans held)
  names := by
    have handles : program.dspHandles = wired.dspHandles := by
      obtain ⟨_, _, rfl⟩ := emitting.frame
      obtain ⟨_, _, rfl⟩ := start
      rfl
    rw [List.flatMap_append]
    have adds := emitting.names.trans took.adds
    simpa [eventHandles, handles] using adds
  generates := by
    intro other scope dsp member
    rcases List.mem_append.mp member with earlier | last
    · exact emitting.generates earlier
    · cases List.mem_singleton.mp last
      exact emitting.generates_of start same generates
  unfed inlet hasInlet isUnfed := (emitting.unfed inlet hasInlet isUnfed).mono
  fed inlet source isFed isSolid := (emitting.fed inlet source isFed isSolid).mono

end Emitting

end Program

end Patchbay
