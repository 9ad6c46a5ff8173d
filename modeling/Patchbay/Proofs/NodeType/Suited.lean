import Patchbay.Proofs.NodeType.Uniform
import Patchbay.Proofs.Program.ComposedText
import Patchbay.Proofs.Program.Suited

namespace Patchbay.NodeType

/-! Nodes that the code of audio types suits.

What a template reads of its node is listed once for each type; the node has to have the portlets for it.
-/

open Code (Read Template)
open Program (receiverOf receiverReads mem_reads_of_singleton)

variable {settings : Settings} {node : Node} {inlet : String} {reads : List Read}

/-- Names are there for every node. -/
theorem isSent_of_detached (detached : reads.all (fun read => !read.isPortlet) = true) :
    ∀ read ∈ reads, read.IsSent node := by
  intro read asked
  have isName := List.all_eq_true.mp detached read asked
  cases read with
  | portlet => cases isName
  | own | shared => trivial

/-- One receiver answers a node whose message inlets have its name. -/
theorem answered_of_single {template : Code.FunctionTemplate}
    (inlets : ∀ portlet ∈ node.inletsOfType .message, portlet.id = inlet)
    (detached : (template.reads.all fun read => !read.isPortlet) = true) :
    (∀ portlet ∈ node.inletsOfType .message,
      ∃ template', receiverOf [(inlet, some template)] portlet.id = some template') ∧
    ∀ read ∈ receiverReads [(inlet, some template)], read.IsSent node := by
  refine ⟨fun portlet isInlet => ?_, fun read asked => ?_⟩
  · rw [inlets portlet isInlet]
    exact ⟨template, by simp [receiverOf]⟩
  · exact isSent_of_detached detached read (mem_reads_of_singleton asked)

/-- A part that stands for texts, whatever its holes stand for. -/
def IsPlain (part : Template) : Prop :=
  ∀ scope naming, ∃ values : List String, (part.resolve scope naming).pieces = values.map Code.Part.text

theorem isFlat_code {parts : List Template} (plain : ∀ part ∈ parts, IsPlain part) :
    (Template.code parts).IsFlat := by
  intro scope naming
  have texts : ∃ values : List String,
      Code.piecesOf (Code.resolveAll scope naming parts) = values.map Code.Part.text := by
    induction parts with
    | nil => exact ⟨[], rfl⟩
    | cons part rest ih =>
        obtain ⟨first, isFirst⟩ := plain part (List.mem_cons_self ..) scope naming
        obtain ⟨others, areOthers⟩ := ih fun other later => plain other (List.mem_cons_of_mem _ later)
        exact ⟨first ++ others, by simp [Code.resolveAll, Code.piecesOf, isFirst, areOthers]⟩
  obtain ⟨values, pieces⟩ := texts
  exact ⟨_, Program.flatText_code pieces⟩

theorem sig_suits (inlets : ∀ portlet ∈ node.inletsOfType .message, portlet.id = "0")
    (outlets : node.isPullingSignal = true → node.outletsOfType .signal ≠ []) : sig.Suits settings node where
  setup := nofun
  answered _ := ⟨_, rfl, answered_of_single inlets rfl⟩
  audio audible := by
    refine ⟨_, rfl, fun part isPart read asked => ?_, fun _ => audible.elim outlets id,
      fun _ => ⟨_, rfl, isFlat_code ?_⟩⟩
    · cases List.mem_singleton.mp isPart
      cases asked
    · simp only [List.mem_cons, List.not_mem_nil, or_false, forall_eq_or_imp, forall_eq]
      exact ⟨fun scope _ => ⟨[scope.state], rfl⟩, fun _ _ => ⟨[".value"], rfl⟩⟩

theorem binaryOperator_suits (alphaName operator : String)
    (inlets : node.inlets = [⟨"0", .signal⟩, ⟨"1", .signal⟩]) (outlets : node.outletsOfType .signal ≠ []) :
    (binaryOperator alphaName operator).Suits settings node where
  setup := nofun
  answered fed := absurd (by simp [Node.inletsOfType, inlets]) fed
  audio _ := by
    have hears : ∀ inlet ∈ node.inlets, (Read.portlet .ins inlet.id).IsHeard node true := by
      intro inlet isInlet
      refine ⟨inlet, List.mem_filter.mpr ⟨isInlet, ?_⟩, rfl⟩
      rw [inlets] at isInlet
      simp only [List.mem_cons, List.not_mem_nil, or_false] at isInlet
      rcases isInlet with rfl | rfl <;> rfl
    have left : (Read.portlet .ins "0").IsHeard node true := hears ⟨"0", .signal⟩ (by simp [inlets])
    refine ⟨_, rfl, ?_⟩
    dsimp only
    generalize isRight : (if connected ⟨node, settings⟩ "1" = true then Template.portlet .ins "1"
      else Template.floatArg "value" 0) = right
    have operand : IsPlain right ∧ ∀ read ∈ right.reads, read.IsHeard node true := by
      subst isRight
      split
      · refine ⟨fun _ _ => ⟨[_], rfl⟩, fun read asked => ?_⟩
        cases List.mem_singleton.mp asked
        exact hears ⟨"1", .signal⟩ (by simp [inlets])
      · exact ⟨fun _ _ => ⟨[_], rfl⟩, fun read asked => by cases asked⟩
    refine ⟨fun part isPart read asked => ?_, fun _ => outlets, fun _ => ⟨_, rfl, isFlat_code ?_⟩⟩
    · cases List.mem_singleton.mp isPart
      simp only [Template.reads, Code.readsOf, List.append_nil, List.nil_append, List.mem_append,
        List.mem_singleton] at asked
      rcases asked with ahead | rfl | behind
      · exact operand.2 read ahead
      · exact left
      · exact operand.2 read behind
    · simp only [List.mem_cons, List.not_mem_nil, or_false, forall_eq_or_imp, forall_eq]
      exact ⟨fun _ _ => ⟨[], rfl⟩, fun _ _ => ⟨[_], rfl⟩, fun _ _ => ⟨[_], rfl⟩, fun _ _ => ⟨[_], rfl⟩,
        fun _ _ => ⟨[_], rfl⟩, operand.1⟩

theorem osc_suits (inlets : node.inlets = [⟨"0", .signal⟩, ⟨"1", .message⟩])
    (outlets : node.outlets = [⟨"0", .signal⟩]) : osc.Suits settings node where
  setup template isTemplate := by
    cases isTemplate
    exact isSent_of_detached rfl
  answered _ := by
    have single : ∀ portlet ∈ node.inletsOfType .message, portlet.id = "1" := by
      simp [Node.inletsOfType, inlets]
    exact ⟨_, rfl, answered_of_single single rfl⟩
  audio _ := by
    have frequency : (Read.portlet .ins "0").IsHeard node false :=
      ⟨⟨"0", .signal⟩, by simp [Node.inletsOfType, inlets], rfl⟩
    have sample : (Read.portlet .outs "0").IsHeard node false :=
      ⟨rfl, ⟨"0", .signal⟩, by simp [Node.outletsOfType, outlets], rfl⟩
    refine ⟨_, rfl, fun part isPart read asked => ?_, (by rintro ⟨⟩), (by rintro ⟨⟩)⟩
    dsimp only at isPart
    cases List.mem_singleton.mp isPart
    split at asked
    all_goals
      simp only [Template.reads, Code.readsOf, List.append_nil, List.nil_append, List.mem_append,
        List.mem_singleton] at asked
    · rcases asked with rfl | rfl | rfl
      · exact frequency
      · exact sample
      · exact frequency
    · cases asked
      exact sample

/-- Every inlet of an output is read, so they all have to be signals. -/
theorem dac_suits (inlets : ∀ inlet ∈ node.inlets, inlet.type = .signal) : dac.Suits settings node where
  setup := nofun
  answered fed := by
    refine absurd (List.filter_eq_nil_iff.mpr fun inlet isInlet => ?_) fed
    simp [inlets inlet isInlet]
  audio _ := by
    refine ⟨_, rfl, fun part isPart read asked => ?_, (by rintro ⟨⟩), (by rintro ⟨⟩)⟩
    cases List.mem_singleton.mp isPart
    obtain ⟨statement, isStatement, asked⟩ := Code.mem_readsOf_iff.mp asked
    obtain ⟨⟨inlet, position⟩, listed, written⟩ := List.mem_filterMap.mp isStatement
    obtain ⟨channel, _, written⟩ := Option.bind_eq_some_iff.mp written
    split at written
    · cases written
    · cases written
      have isInlet : inlet ∈ node.inlets := (List.mem_zipIdx listed).2.2 ▸ List.getElem_mem _
      have asked : read = .portlet .ins inlet.id := by
        simpa [Template.reads, Code.readsOf, reads_outputSample] using asked
      rw [asked]
      exact ⟨inlet, List.mem_filter.mpr ⟨isInlet, by simp [inlets inlet isInlet]⟩, rfl⟩

theorem loadbang_suits (inlets : node.inlets = []) (outlets : node.outlets = [⟨"0", .message⟩])
    (unheard : node.isPullingSignal = false) : loadbang.Suits settings node where
  setup template isTemplate read asked := by
    cases isTemplate
    have bang : (Read.portlet .snds "0").IsSent node :=
      ⟨⟨"0", .message⟩, by simp [Node.outletsOfType, outlets], rfl⟩
    have asked : read ∈ [Read.shared "commonsFrames" "waitFrame", .portlet .snds "0", .shared "msg" "bang"] :=
      asked
    simp only [List.mem_cons, List.not_mem_nil, or_false] at asked
    rcases asked with rfl | rfl | rfl
    · trivial
    · exact bang
    · trivial
  answered fed := absurd (by simp [Node.inletsOfType, inlets]) fed
  audio audible := by
    rcases audible with pulls | drives
    · cases pulls.symm.trans unheard
    · exact absurd (by simp [Node.outletsOfType, outlets]) drives

end Patchbay.NodeType
