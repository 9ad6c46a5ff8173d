import Patchbay.Proofs.Program.Wiring

namespace Patchbay

/-! What a program does over time.

A node takes atomic steps.  A signal step reads the outlets that feed the signal inlets of the node,
writes its own outlets and may change its state.  A message that is delivered to the node may change
its state as well, and may make messages leave other outlets before it is done.

The same message machinery runs under two schedules.  The reference schedule evaluates the whole root
order for every sample.  The compiled schedule evaluates the hot group only, with inlined nodes
evaluated where they are read, and evaluates a cold group at the start and whenever a message leaves
an outlet that calls it.
-/

/-- What a node does with a message: it is left in a state, or it is put into a state in which it
makes a message leave an outlet, and goes on from the state that it is in when that is over. -/
inductive Action (M : Type u) (S : Type v) where
  | done (state : S)
  | send (state : S) (outlet : Endpoint) (message : M) (resume : S → Action M S)

structure Behaviour (V : Type u) (M : Type v) (S : Type w) where
  /-- What an unconnected signal inlet reads. -/
  silence : V
  /-- From the values of the signal inlets and the state to the values of the outlets. -/
  step : String → (String → V) → S → (String → V) × S
  receive : String → String → M → S → Action M S

structure Memory (V : Type u) (S : Type v) where
  values : Endpoint → V
  states : String → S

namespace Memory

variable {V : Type u} {S : Type v}

def setState (memory : Memory V S) (id : String) (state : S) : Memory V S :=
  { memory with states := Function.update memory.states id state }

/-- Everything that a signal step of a node changes. -/
def write (memory : Memory V S) (id : String) (outlets : String → V) (state : S) : Memory V S where
  values source := if source.node = id then outlets source.portlet else memory.values source
  states := Function.update memory.states id state

end Memory

namespace Graph

def signalSource? (graph : Graph) (inlet : Endpoint) : Option Endpoint :=
  (graph.node? inlet.node).bind fun node =>
    ((node.inletsOfType .signal).find? fun portlet => portlet.id = inlet.portlet).bind fun portlet =>
      (node.sourcesOf portlet.id).head?

/-- The only outlet that the expression of an inlined node stands for. -/
def firstOutlet (graph : Graph) (id : String) : String :=
  ((graph.node? id).bind fun node => (node.outletsOfType .signal).head?.map Portlet.id).getD ""

/-- The inlets that a message outlet delivers to. -/
def receivers (graph : Graph) (outlet : Endpoint) : List Endpoint :=
  match graph.node? outlet.node with
  | none => []
  | some node =>
      if outlet.portlet ∈ (node.outletsOfType .message).map Portlet.id then
        node.sinksOf outlet.portlet
      else []

end Graph

namespace Program

variable {V : Type u} {M : Type v} {S : Type w} (program : Program) (behaviour : Behaviour V M S)

/-! ## Signal steps -/

/-- A signal step of a node that finds some values at its inlets. -/
def stepNode (inputs : String → V) (memory : Memory V S) (id : String) : Memory V S :=
  let (outlets, state) := behaviour.step id inputs (memory.states id)
  memory.write id outlets state

def storedInputs (memory : Memory V S) (id inlet : String) : V :=
  match program.graph.signalSource? ⟨id, inlet⟩ with
  | none => behaviour.silence
  | some source => memory.values source

/-- The value of an inlined node.  Its sources among the members that are not being evaluated already
are evaluated with it, and all others are looked up. -/
def inlineValue (memory : Memory V S) (members : List String) (id : String) : V :=
  if _present : id ∈ members then
    let inputs (inlet : String) : V :=
      match program.graph.signalSource? ⟨id, inlet⟩ with
      | none => behaviour.silence
      | some source =>
          if source.node ∈ without members id then
            inlineValue memory (without members id) source.node
          else memory.values source
    (behaviour.step id inputs (memory.states id)).1 (program.graph.firstOutlet id)
  else behaviour.silence
termination_by members.length
decreasing_by
  exact length_without _present

/-- The inline group that is written at an inlet, and the node that it ends with. -/
def expressionAt? (inlet : Endpoint) : Option (DspGroup × String) :=
  program.inlineDsp.findSome? fun group => do
    let out ← group.outNodes.head?
    let node ← program.graph.node? out
    if node.signalSinks.head? = some inlet then some (group, out) else none

def compiledInputs (memory : Memory V S) (id inlet : String) : V :=
  match program.expressionAt? ⟨id, inlet⟩ with
  | some (group, out) => program.inlineValue behaviour memory group.traversal out
  | none => program.storedInputs behaviour memory id inlet

/-- Evaluates nodes in order, with inlined nodes evaluated where they are read. -/
def runNodes (traversal : List String) (memory : Memory V S) : Memory V S :=
  traversal.foldl (fun memory id =>
    stepNode behaviour (program.compiledInputs behaviour memory id) memory id) memory

def runColdGroups (groups : List ColdGroup) (memory : Memory V S) : Memory V S :=
  groups.foldl (fun memory group => program.runNodes behaviour group.traversal memory) memory

/-- The cold groups whose function is called when a message leaves an outlet. -/
def triggered (outlet : Endpoint) : List ColdGroup :=
  match program.sender? outlet.node outlet.portlet with
  | none => []
  | some sender =>
      program.coldDsp.values.filter fun group => sender.sinkFunctions.contains group.functionName

end Program

/-! ## Schedules -/

/-- When signal nodes are evaluated: at the start, for a sample, and after a message left an outlet
and was delivered. -/
structure Schedule (V : Type u) (S : Type v) where
  start : Memory V S → Memory V S
  sample : Memory V S → Memory V S
  react : Endpoint → Memory V S → Memory V S

namespace Program

variable {V : Type u} {M : Type v} {S : Type w}

def referenceSchedule (program : Program) (behaviour : Behaviour V M S) : Schedule V S where
  start memory := memory
  sample memory := program.rootDsp.traversal.foldl (fun memory id =>
    stepNode behaviour (program.storedInputs behaviour memory id) memory id) memory
  react _ memory := memory

def compiledSchedule (program : Program) (behaviour : Behaviour V M S) : Schedule V S where
  start := program.runColdGroups behaviour program.coldDsp.values
  sample := program.runNodes behaviour program.hotDsp.traversal
  react outlet := program.runColdGroups behaviour (program.triggered outlet)

end Program

/-! ## Runs -/

inductive Event (M : Type u) where
  | sample
  /-- A message leaves an outlet: from the host, a clock or any other cause. -/
  | message (outlet : Endpoint) (content : M)

namespace Schedule

variable {V : Type u} {M : Type v} {S : Type w} (schedule : Schedule V S) (graph : Graph)
  (behaviour : Behaviour V M S)

def perform (emit : Endpoint → M → Memory V S → Option (Memory V S)) (id : String) :
    Action M S → Memory V S → Option (Memory V S)
  | .done state, memory => some (memory.setState id state)
  | .send state outlet message resume, memory =>
      (emit outlet message (memory.setState id state)).bind fun memory =>
        perform emit id (resume (memory.states id)) memory

/-- A message leaves an outlet.  It is delivered to every sink in order, and each sink is done with it
before the next one gets it.  There is no result when calls are nested too deeply. -/
def emit : Nat → Endpoint → M → Memory V S → Option (Memory V S)
  | 0, _, _, _ => none
  | depth + 1, outlet, message, memory =>
      let deliver (memory : Memory V S) (sink : Endpoint) : Option (Memory V S) :=
        perform (emit depth) sink.node
          (behaviour.receive sink.node sink.portlet message (memory.states sink.node)) memory
      ((graph.receivers outlet).foldlM deliver memory).map (schedule.react outlet)

def handle (depth : Nat) (memory : Memory V S) : Event M → Option (Memory V S)
  | .sample => some (schedule.sample memory)
  | .message outlet content => schedule.emit graph behaviour depth outlet content memory

/-- All events in order, from nodes in given states and silent outlets. -/
def run (depth : Nat) (states : String → S) (events : List (Event M)) : Option (Memory V S) :=
  events.foldlM (schedule.handle graph behaviour depth)
    (schedule.start ⟨fun _ => behaviour.silence, states⟩)

end Schedule

end Patchbay
