import Patchbay.Proofs.Program.Journal
import Patchbay.Proofs.Program.Rework
import Patchbay.Proofs.Semantics.Inlined

namespace Patchbay

/-! What signal inlets are read by.

The graph and the set of inlined nodes decide who writes a signal inlet and what is written there.  A
journal is sound when all of its writes are of that kind, when no audio code is generated twice, and
when all inlets of a node are written before its audio code is generated, and none after.  `Running`
ties a program to a sound journal; it is kept by every write, whichever place makes it.
-/

/-- The code of a node without what its signal inlets are read by. -/
def NodeCode.solid (entry : NodeCode) : NodeCode := { entry with signalIns := ∅ }

namespace Program

variable {base program before between after : Program} {id : String} {node : Node}
  {entry : NodeCode} {log more : List WiringEvent} {inlet : Endpoint} {code : String} {writer : Writer}
  {scope : Code.Scope} {dsp : Dsp}

/-! ## Sound journals -/

/-- The variable of a signal outlet. -/
def outletVariable (outlet : Endpoint) : String := Text.join ["N", outlet.node, "outs", outlet.portlet]

/-- The place that writes a signal inlet. -/
def inletWriter (base : Program) (inlet : Endpoint) : Writer :=
  match base.graph.signalSource? inlet with
  | none => .nullSignals
  | some source =>
      if source.node ∈ base.inlined then
        if inlet.node ∈ base.inlined then .inlineExpression else .inlineGroup
      else .signalOutlets

/-- The expression that was generated for a node, as text. -/
def Composed (log : List WiringEvent) (id text : String) : Prop :=
  ∃ scope dsp expression, .generate id scope dsp ∈ log ∧ dsp.expression = some expression ∧
    flatText expression = .ok text

/-- The code that a signal inlet has to be read by. -/
def Carries (base : Program) (log : List WiringEvent) (inlet : Endpoint) (code : String) : Prop :=
  match base.graph.signalSource? inlet with
  | none => code = nullSignal
  | some source =>
      if source.node ∈ base.inlined then ∃ text, Composed log source.node text ∧ code = "(" ++ text ++ ")"
      else code = outletVariable source

def HasSignalInlet (base : Program) (inlet : Endpoint) : Prop :=
  ∃ node portlet, base.graph.node? inlet.node = some node ∧ portlet ∈ node.inletsOfType .signal ∧
    portlet.id = inlet.portlet

instance (base : Program) (inlet : Endpoint) : Decidable (base.HasSignalInlet inlet) :=
  decidable_of_iff ((base.graph.node? inlet.node).any fun node =>
      (node.inletsOfType .signal).any fun portlet => portlet.id == inlet.portlet) <| by
    simp [HasSignalInlet, Option.any_eq_true, List.any_eq_true]

theorem hasSignalInlet_of_fed {source : Endpoint} (wellFormed : program.graph.WellFormed)
    (fed : program.graph.signalSource? inlet = some source) : program.HasSignalInlet inlet := by
  obtain ⟨node, portlet, found, isInlet, signal, sameId, _⟩ :=
    (Graph.signalSource?_eq_some_iff wellFormed).mp fed
  exact ⟨node, portlet, found, List.mem_filter.mpr ⟨isInlet, decide_eq_true_eq.mpr signal⟩, sameId⟩

def Written (log : List WiringEvent) (inlet : Endpoint) : Prop :=
  ∃ writer code, .write writer inlet code ∈ log

def generator? : WiringEvent → Option String
  | .generate id _ _ => some id
  | .write .. => none

/-- The nodes whose audio code was generated, in order. -/
def generatedIn (log : List WiringEvent) : List String := log.filterMap generator?

structure Sound (base : Program) (log : List WiringEvent) : Prop where
  written : ∀ {writer inlet code}, .write writer inlet code ∈ log →
    writer = base.inletWriter inlet ∧ base.Carries log inlet code
  once : (generatedIn log).Nodup
  ordered : ∀ {earlier later id scope dsp}, log = earlier ++ .generate id scope dsp :: later →
    (∀ {inlet}, base.HasSignalInlet ⟨id, inlet⟩ →
      ∃ writer code, .write writer ⟨id, inlet⟩ code ∈ earlier ∧ scope.ins.get? inlet = some code) ∧
    ∀ {writer inlet code}, .write writer ⟨id, inlet⟩ code ∉ later
  declared : ∀ {writer inlet code}, .write writer inlet code ∈ log → base.HasSignalInlet inlet
  handed : ∀ {id scope dsp}, .generate id scope dsp ∈ log → ∀ {inlet code},
    scope.ins.get? inlet = some code → ∃ writer, .write writer ⟨id, inlet⟩ code ∈ log

theorem mem_generatedIn_iff : id ∈ generatedIn log ↔ ∃ scope dsp, .generate id scope dsp ∈ log := by
  unfold generatedIn
  rw [List.mem_filterMap]
  constructor
  · rintro ⟨event, member, generates⟩
    cases event with
    | write => cases generates
    | generate other scope dsp =>
        cases generates
        exact ⟨scope, dsp, member⟩
  · rintro ⟨scope, dsp, member⟩
    exact ⟨_, member, rfl⟩

@[simp]
theorem generatedIn_append : generatedIn (log ++ more) = generatedIn log ++ generatedIn more :=
  List.filterMap_append

@[simp]
theorem generatedIn_write : generatedIn [.write writer inlet code] = [] := rfl

@[simp]
theorem generatedIn_generate : generatedIn [.generate id scope dsp] = [id] := rfl

theorem Written.mono (written : Written log inlet) : Written (log ++ more) inlet := by
  obtain ⟨writer, code, member⟩ := written
  exact ⟨writer, code, List.mem_append_left _ member⟩

theorem Composed.mono {text : String} (composed : Composed log id text) :
    Composed (log ++ more) id text := by
  obtain ⟨scope, dsp, expression, member, rest⟩ := composed
  exact ⟨scope, dsp, expression, List.mem_append_left _ member, rest⟩

theorem Carries.mono (carries : base.Carries log inlet code) :
    base.Carries (log ++ more) inlet code := by
  unfold Carries at carries ⊢
  cases fed : base.graph.signalSource? inlet with
  | none => simpa only [fed] using carries
  | some source =>
      simp only [fed] at carries ⊢
      split at carries
      · next isInlined =>
        obtain ⟨text, composed, same⟩ := carries
        rw [if_pos isInlined]
        exact ⟨text, composed.mono, same⟩
      · next solid =>
        rw [if_neg solid]
        exact carries

theorem split_append_singleton {α : Type u} {items earlier later : List α} {last item : α}
    (split : items ++ [last] = earlier ++ item :: later) :
    (items = earlier ∧ last = item ∧ later = []) ∨
      ∃ between, later = between ++ [last] ∧ items = earlier ++ item :: between := by
  rcases List.eq_nil_or_concat' later with rfl | ⟨between, final, rfl⟩
  · rw [List.append_singleton_inj] at split
    exact .inl ⟨split.1, split.2, rfl⟩
  · rw [← List.cons_append, ← List.append_assoc, List.append_singleton_inj] at split
    obtain ⟨same, rfl⟩ := split
    exact .inr ⟨between, rfl, same⟩

namespace Sound

theorem nil (base : Program) : base.Sound [] where
  written member := by cases member
  once := List.nodup_nil
  ordered split := by simp at split
  declared member := by cases member
  handed member := by cases member

theorem generate_unique (sound : base.Sound log) {other : Code.Scope} {otherDsp : Dsp}
    (one : .generate id scope dsp ∈ log) (two : .generate id other otherDsp ∈ log) :
    scope = other ∧ dsp = otherDsp := by
  by_contra different
  have apart := List.pairwise_filterMap.mp sound.once
  have symmetric : Std.Symm fun left right : WiringEvent =>
      ∀ first, generator? left = some first → ∀ second, generator? right = some second →
        first ≠ second :=
    ⟨fun _ _ held first isFirst second isSecond => (held second isSecond first isFirst).symm⟩
  refine apart.forall one two (fun same => ?_) id rfl id rfl rfl
  cases same
  exact different ⟨rfl, rfl⟩

theorem composed_unique (sound : base.Sound log) {text other : String}
    (one : Composed log id text) (two : Composed log id other) : text = other := by
  obtain ⟨scope, dsp, expression, member, isExpression, flat⟩ := one
  obtain ⟨_, _, _, otherMember, isOther, otherFlat⟩ := two
  obtain ⟨rfl, rfl⟩ := sound.generate_unique member otherMember
  rw [isExpression] at isOther
  cases isOther
  rw [flat] at otherFlat
  cases otherFlat
  rfl

theorem carries_unique (sound : base.Sound log) {other : String}
    (one : base.Carries log inlet code) (two : base.Carries log inlet other) : code = other := by
  unfold Carries at one two
  cases fed : base.graph.signalSource? inlet with
  | none =>
      simp only [fed] at one two
      rw [one, two]
  | some source =>
      simp only [fed] at one two
      split at one
      · next isInlined =>
        rw [if_pos isInlined] at two
        obtain ⟨text, composed, rfl⟩ := one
        obtain ⟨again, composedAgain, rfl⟩ := two
        rw [sound.composed_unique composed composedAgain]
      · next solid =>
        rw [if_neg solid] at two
        rw [one, two]

theorem write (sound : base.Sound log) (declared : base.HasSignalInlet inlet)
    (fresh : inlet.node ∉ generatedIn log) (isWriter : writer = base.inletWriter inlet)
    (carries : base.Carries log inlet code) :
    base.Sound (log ++ [.write writer inlet code]) where
  written := by
    intro from_ other text member
    rcases List.mem_append.mp member with earlier | last
    · exact ⟨(sound.written earlier).1, (sound.written earlier).2.mono⟩
    · cases List.mem_singleton.mp last
      exact ⟨isWriter, carries.mono⟩
  once := by simpa using sound.once
  ordered := by
    intro earlier later id scope dsp split
    rcases split_append_singleton split with ⟨_, isLast, _⟩ | ⟨between, rfl, rfl⟩
    · cases isLast
    · refine ⟨(sound.ordered rfl).1, fun {from_ other text} member => ?_⟩
      rcases List.mem_append.mp member with inside | last
      · exact (sound.ordered rfl).2 inside
      · cases List.mem_singleton.mp last
        exact fresh (mem_generatedIn_iff.mpr ⟨scope, dsp, by simp⟩)
  declared := by
    intro from_ other text member
    rcases List.mem_append.mp member with earlier | last
    · exact sound.declared earlier
    · cases List.mem_singleton.mp last
      exact declared
  handed := by
    intro id scope dsp member other text held
    rcases List.mem_append.mp member with earlier | last
    · obtain ⟨from_, written⟩ := sound.handed earlier held
      exact ⟨from_, List.mem_append_left _ written⟩
    · cases List.mem_singleton.mp last

theorem generate (sound : base.Sound log) (fresh : id ∉ generatedIn log)
    (complete : ∀ {inlet}, base.HasSignalInlet ⟨id, inlet⟩ →
      ∃ writer code, .write writer ⟨id, inlet⟩ code ∈ log ∧ scope.ins.get? inlet = some code)
    (handed : ∀ {inlet code}, scope.ins.get? inlet = some code →
      ∃ writer, .write writer ⟨id, inlet⟩ code ∈ log) :
    base.Sound (log ++ [.generate id scope dsp]) where
  written := by
    intro from_ other text member
    rcases List.mem_append.mp member with earlier | last
    · exact ⟨(sound.written earlier).1, (sound.written earlier).2.mono⟩
    · cases List.mem_singleton.mp last
  once := by
    rw [generatedIn_append, generatedIn_generate]
    refine List.nodup_append.mpr ⟨sound.once, by simp, ?_⟩
    intro earlier member last isLast same
    rw [List.mem_singleton.mp isLast] at same
    exact fresh (same ▸ member)
  ordered := by
    intro earlier later other otherScope otherDsp split
    rcases split_append_singleton split with ⟨rfl, isLast, rfl⟩ | ⟨between, rfl, rfl⟩
    · cases isLast
      exact ⟨complete, by simp⟩
    · refine ⟨(sound.ordered rfl).1, fun {from_ other text} member => ?_⟩
      rcases List.mem_append.mp member with inside | last
      · exact (sound.ordered rfl).2 inside
      · cases List.mem_singleton.mp last
  declared := by
    intro from_ other text member
    rcases List.mem_append.mp member with earlier | last
    · exact sound.declared earlier
    · cases List.mem_singleton.mp last
  handed := by
    intro other otherScope otherDsp member inlet text held
    have written : ∃ writer, .write writer ⟨other, inlet⟩ text ∈ log := by
      rcases List.mem_append.mp member with earlier | last
      · exact sound.handed earlier held
      · cases List.mem_singleton.mp last
        exact handed held
    exact written.imp fun _ => List.mem_append_left _

end Sound

/-! ## Programs and their journals -/

/-- The code that a signal inlet is read by, once it is written. -/
def signalIn? (program : Program) (inlet : Endpoint) : Option String :=
  (program.nodes.entries.get? inlet.node).bind fun entry => entry.signalIns.get? inlet.portlet

def solid? (program : Program) (id : String) : Option NodeCode :=
  (program.nodes.entries.get? id).map NodeCode.solid

/-- The program holds what the journal says was written. -/
structure Running (base program : Program) (log : List WiringEvent) : Prop where
  frame : ∃ names nodes, program = { base with names, nodes }
  akin : base.names.Akin program.names
  keys : program.nodes.keys = base.nodes.keys
  recorded : ∀ inlet code, program.signalIn? inlet = some code ↔ ∃ writer, .write writer inlet code ∈ log
  sound : base.Sound log

theorem signalIn?_setInlet (stored : program.nodes.entries.get? inlet.node = some entry)
    (other : Endpoint) : (program.setInlet inlet.node inlet.portlet code).signalIn? other =
      if other = inlet then some code else program.signalIn? other := by
  obtain ⟨otherNode, otherPortlet⟩ := other
  obtain ⟨inletNode, inletPortlet⟩ := inlet
  unfold signalIn?
  change ((program.nodes.entries.modify inletNode _).get? otherNode).bind _ = _
  rw [Table.get?_modify]
  by_cases sameNode : otherNode = inletNode
  · subst sameNode
    dsimp only at stored ⊢
    rw [if_pos rfl, stored]
    simp [Table.get?_set, Endpoint.mk.injEq]
  · simp [sameNode]

@[simp]
theorem solid?_setInlet {portlet : String} :
    (program.setInlet id portlet code).solid? = program.solid? := by
  funext other
  unfold solid?
  change ((program.nodes.entries.modify id _).get? other).map _ = _
  rw [Table.get?_modify]
  split
  · cases program.nodes.entries.get? other <;> rfl
  · rfl

theorem signalIn?_refineNode {change : NodeCode → NodeCode}
    (blind : ∀ entry, (change entry).signalIns = entry.signalIns) :
    (program.refineNode id change).signalIn? = program.signalIn? := by
  funext inlet
  unfold signalIn?
  change ((program.nodes.entries.modify id _).get? inlet.node).bind _ = _
  rw [Table.get?_modify]
  split
  · cases program.nodes.entries.get? inlet.node with
    | none => rfl
    | some entry => simp [blind]
  · rfl

theorem solid?_refineNode {change : NodeCode → NodeCode}
    (commutes : ∀ entry, (change entry).solid = change entry.solid) (other : String) :
    (program.refineNode id change).solid? other =
      if other = id then (program.solid? other).map change else program.solid? other := by
  unfold solid?
  change ((program.nodes.entries.modify id _).get? other).map _ = _
  rw [Table.get?_modify]
  split
  · cases program.nodes.entries.get? other with
    | none => rfl
    | some entry => simp [commutes]
  · rfl

namespace Running

theorem keeps (running : Running base program log) : KeepsFrame base program := by
  have akin := running.akin
  have keys := running.keys
  obtain ⟨names, nodes, rfl⟩ := running.frame
  exact ⟨rfl, rfl, rfl, rfl, keys, fun _ => rfl, akin.graph, akin.labels⟩

theorem write (running : Running base program log)
    (stored : program.nodes.entries.get? inlet.node = some entry)
    (declared : base.HasSignalInlet inlet) (fresh : inlet.node ∉ generatedIn log) (isWriter : writer = base.inletWriter inlet)
    (carries : base.Carries log inlet code) :
    Running base (program.setInlet inlet.node inlet.portlet code)
      (log ++ [.write writer inlet code]) where
  frame := by
    obtain ⟨names, nodes, rfl⟩ := running.frame
    exact ⟨names, _, rfl⟩
  akin := running.akin
  keys := (Table.keys_modify _ _).trans running.keys
  recorded := by
    have sound := running.sound.write declared fresh isWriter carries
    intro other text
    rw [signalIn?_setInlet stored]
    by_cases same : other = inlet
    · subst same
      rw [if_pos rfl]
      constructor
      · intro equal
        cases equal
        exact ⟨writer, by simp⟩
      · rintro ⟨from_, member⟩
        rw [sound.carries_unique carries.mono (sound.written member).2]
    · rw [if_neg same, running.recorded]
      simp [same]
  sound := running.sound.write declared fresh isWriter carries

/-- A step that writes no signal inlet. -/
theorem of_frame (running : Running base before log)
    (frame : ∃ names nodes, after = { before with names, nodes })
    (akin : before.names.Akin after.names) (keys : after.nodes.keys = before.nodes.keys)
    (same : after.signalIn? = before.signalIn?) : Running base after log where
  frame := by
    obtain ⟨_, _, rfl⟩ := running.frame
    obtain ⟨names, nodes, rfl⟩ := frame
    exact ⟨names, nodes, rfl⟩
  akin := running.akin.trans akin
  keys := keys.trans running.keys
  recorded := by
    rw [same]
    exact running.recorded
  sound := running.sound

end Running

end Program

end Patchbay
