import Patchbay.Proofs.Graph.Alike
import Patchbay.Proofs.NodeType.Sound

namespace Patchbay

/-! Node types and runtime modules under settings that differ in the target.

A node type is uniform when the target shows in the loops of its nodes and nowhere else, and there only in
texts around the same holes.  It may look at the sources of a node to see whether there are any, but not
at their order.
-/

open Code (Template)

variable {exact : Prop}

/-! ## Settings and sites -/

/-- Settings that differ at most in the target.  Where the programs are exactly the same it is the same
too. -/
structure Settings.Alike (exact : Prop) (settings twin : Settings) : Prop where
  rest : twin = { settings with target := twin.target }
  target : exact → twin.target = settings.target

namespace Settings.Alike

variable {settings twin : Settings}

theorem refl (settings : Settings) : settings.Alike exact settings := ⟨rfl, fun _ => rfl⟩

variable (alike : settings.Alike exact twin)

include alike

theorem eq (same : exact) : settings = twin := by rw [alike.rest, alike.target same]

/-- Whatever does not look at the target says the same of both. -/
theorem blind {β : Type} (view : Settings → β)
    (unseen : ∀ (settings : Settings) target, view { settings with target } = view settings) :
    view settings = view twin :=
  (unseen settings twin.target).symm.trans (congrArg view alike.rest.symm)

end Settings.Alike

/-- Two sites of one node. -/
structure Site.Alike (exact : Prop) (site twin : Site) : Prop where
  node : site.node.Alike twin.node
  settings : site.settings.Alike exact twin.settings

/-- Whatever looks neither at connections nor at the target says the same of both. -/
theorem Site.Alike.blind {β : Type} {site twin : Site} (alike : site.Alike exact twin) (view : Site → β)
    (unseen : ∀ (node : Node) (settings : Settings) target,
      view ⟨node.isolated, { settings with target }⟩ = view ⟨node, settings⟩) : view site = view twin := by
  rw [← unseen site.node site.settings twin.settings.target, ← alike.settings.rest, alike.node.isolated]
  exact unseen twin.node twin.settings twin.settings.target

/-! ## Implementations -/

/-- Two templates of audio code that ask for the same holes; only the loops may be written differently. -/
structure DspTemplate.Alike (exact : Prop) (template twin : DspTemplate) : Prop where
  expression : template.expression = twin.expression
  inlets : template.inlets = twin.inlets
  reads : template.loop.toList.flatMap Template.reads = twin.loop.toList.flatMap Template.reads
  loop : exact → template.loop = twin.loop

theorem DspTemplate.Alike.of_eq {template twin : DspTemplate} (same : template = twin) :
    template.Alike exact twin :=
  same ▸ ⟨rfl, rfl, rfl, fun _ => rfl⟩

namespace Implementation

structure Uniform (exact : Prop) (implementation : Implementation) : Prop where
  core : IfGiven implementation.core fun template => ∀ {settings twin : Settings},
    settings.Alike exact twin → template settings = template twin
  state : IfGiven implementation.state fun template => ∀ {site twin : Site},
    site.Alike exact twin → template site = template twin
  setup : IfGiven implementation.initialization fun template => ∀ {site twin : Site},
    site.Alike exact twin → template site = template twin
  receivers : IfGiven implementation.receivers fun templates => ∀ {site twin : Site},
    site.Alike exact twin → templates site = templates twin
  dsp : IfGiven implementation.dsp fun template => ∀ {site twin : Site},
    site.Alike exact twin → (template site).Alike exact (template twin)

theorem IfGiven.blind {β : Type} {template : Option (Site → β)}
    (unseen : IfGiven template fun view => ∀ (node : Node) (settings : Settings) target,
      view ⟨node.isolated, { settings with target }⟩ = view ⟨node, settings⟩) :
    IfGiven template fun view => ∀ {site twin : Site}, site.Alike exact twin → view site = view twin :=
  fun view given _ _ alike => alike.blind view (unseen view given)

end Implementation

/-- All node types of a catalog are uniform. -/
def Catalog.Uniform (exact : Prop) (catalog : Catalog) : Prop :=
  ∀ {type implementation}, catalog.implementation? type = some implementation → implementation.Uniform exact

/-- A sound library whose modules import the same functions for every target. -/
structure Library.Uniform (library : Library) : Prop where
  sound : library.Sound
  imports : ∀ {definition module}, library.get? definition = some module →
    ∀ (settings : Settings) target, module.importTemplates { settings with target } =
      module.importTemplates settings

/-! ## The standard node types -/

theorem Code.readsOf_filterMap_congr {α : Type} {items : List α} {step stepToo : α → Option Template}
    (same : ∀ item, (step item).map Template.reads = (stepToo item).map Template.reads) :
    readsOf (items.filterMap step) = readsOf (items.filterMap stepToo) := by
  induction items with
  | nil => rfl
  | cons item rest ih =>
      have first := same item
      rw [List.filterMap_cons, List.filterMap_cons]
      cases given : step item with
      | none =>
          rw [given] at first
          rw [Option.map_eq_none_iff.mp first.symm]
          exact ih
      | some template =>
          rw [given] at first
          obtain ⟨templateToo, givenToo, reads⟩ := Option.map_eq_some_iff.mp first.symm
          rw [givenToo]
          dsimp only
          rw [readsOf, readsOf, reads, ih]

namespace NodeType

open Implementation (Uniform)

theorem connected_congr {site twin : Site} (alike : site.Alike exact twin) (inlet : String) :
    connected site inlet = connected twin inlet := by
  unfold connected
  rw [alike.node.isEmpty_sourcesOf]

theorem reads_outputSample (settings : Settings) (channel : Int) :
    (outputSample settings channel).reads = [] := by
  unfold outputSample
  split <;> rfl

theorem dac_uniform : dac.Uniform exact where
  core := .none
  state := .none
  setup := .none
  receivers := .none
  dsp := .some fun {site twin} alike => by
    have channels : site.node.listArg? "channels" = twin.node.listArg? "channels" :=
      alike.node.blind (Node.listArg? · "channels") fun _ => rfl
    have outputs : site.settings.outputs = twin.settings.outputs :=
      alike.settings.blind Settings.outputs fun _ _ => rfl
    dsimp only
    rw [channels, alike.node.inlets]
    refine ⟨rfl, rfl, ?_, fun same => by rw [alike.settings.eq same]⟩
    rw [Option.toList_some, Option.toList_some, List.flatMap_singleton, List.flatMap_singleton]
    refine Code.readsOf_filterMap_congr fun item => ?_
    rw [outputs]
    cases channelOf ((twin.node.listArg? "channels").getD []) item.2 with
    | none => rfl
    | some channel =>
        change Option.map _ (if _ then _ else _) = Option.map _ (if _ then _ else _)
        split
        · rfl
        · simp only [Option.map_some, Template.reads, Code.readsOf, reads_outputSample]

theorem osc_uniform : osc.Uniform exact where
  core := .none
  state := .some fun _ => rfl
  setup := .some fun _ => rfl
  receivers := .blind (.some fun _ _ _ => rfl)
  dsp := .some fun alike => .of_eq (by rw [connected_congr alike])

theorem sig_uniform : sig.Uniform exact where
  core := .none
  state := .some fun _ => rfl
  setup := .none
  receivers := .blind (.some fun _ _ _ => rfl)
  dsp := .some fun _ => .of_eq rfl

theorem binaryOperator_uniform (alphaName operator : String) :
    (binaryOperator alphaName operator).Uniform exact where
  core := .none
  state := .none
  setup := .none
  receivers := .none
  dsp := .some fun alike => .of_eq (by rw [connected_congr alike])

theorem lop_uniform : lop.Uniform exact where
  core := .some fun _ => rfl
  state := .some fun _ => rfl
  setup := .some fun _ => rfl
  receivers := .none
  dsp := .some fun _ => .of_eq rfl

theorem loadbang_uniform : loadbang.Uniform exact where
  core := .none
  state := .none
  setup := .some fun _ => rfl
  receivers := .none
  dsp := .none

theorem metro_uniform : metro.Uniform exact where
  core := .some fun _ => rfl
  state := .some fun _ => rfl
  setup := .some fun _ => rfl
  receivers := .blind (.some fun _ _ _ => rfl)
  dsp := .none

theorem float_uniform : float.Uniform exact where
  core := .none
  state := .some fun _ => rfl
  setup := .none
  receivers := .blind (.some fun _ _ _ => rfl)
  dsp := .none

theorem message_uniform : message.Uniform exact where
  core := .none
  state := .none
  setup := .none
  receivers := .blind (.some fun _ _ _ => rfl)
  dsp := .none

theorem tabwrite_uniform : tabwrite.Uniform exact where
  core := .some fun _ => rfl
  state := .blind (.some fun _ _ _ => rfl)
  setup := .none
  receivers := .blind (.some fun _ _ _ => rfl)
  dsp := .none

theorem send_uniform : send.Uniform exact where
  core := .none
  state := .blind (.some fun _ _ _ => rfl)
  setup := .none
  receivers := .some fun _ => rfl
  dsp := .none

theorem receive_uniform : receive.Uniform exact where
  core := .none
  state := .none
  setup := .blind (.some fun _ _ _ => rfl)
  receivers := .none
  dsp := .none

theorem soundfiler_uniform : soundfiler.Uniform exact where
  core := .none
  state := .some fun _ => rfl
  setup := .some fun _ => rfl
  receivers := .blind (.some fun _ _ _ => rfl)
  dsp := .none

end NodeType

namespace Program

theorem receiverAdapter_uniform : receiverAdapter.Uniform exact := ⟨.none, .none, .none, .none, .none⟩

theorem senderAdapter_uniform : senderAdapter.Uniform exact where
  core := .none
  state := .none
  setup := .none
  receivers := .blind (.some fun _ _ _ => rfl)
  dsp := .none

end Program

theorem Catalog.standard_uniform : (Program.withAdapters standard).Uniform exact :=
  forall_standard (fun _ implementation => implementation.Uniform exact)
    Program.receiverAdapter_uniform Program.senderAdapter_uniform (by
      simp only [List.mem_cons, List.not_mem_nil, or_false, forall_eq_or_imp, forall_eq, forall_const]
      exact ⟨NodeType.dac_uniform, NodeType.osc_uniform, NodeType.sig_uniform,
        NodeType.binaryOperator_uniform _ _, NodeType.binaryOperator_uniform _ _, NodeType.lop_uniform,
        NodeType.loadbang_uniform, NodeType.metro_uniform, NodeType.float_uniform,
        NodeType.message_uniform, NodeType.tabwrite_uniform, NodeType.send_uniform,
        NodeType.receive_uniform, NodeType.soundfiler_uniform⟩)

theorem Library.standard_uniform : Library.standard.Uniform where
  sound := standard_sound
  imports found := by
    have listed := Table.mem_of_get?_ofList found
    simp only [List.mem_cons, Prod.mk.injEq, List.not_mem_nil, or_false] at listed
    rcases listed with ⟨_, rfl⟩ | ⟨_, rfl⟩ | ⟨_, rfl⟩ | ⟨_, rfl⟩ | ⟨_, rfl⟩ | ⟨_, rfl⟩ <;>
      exact fun _ _ => rfl

end Patchbay
