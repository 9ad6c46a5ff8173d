import Patchbay.NodeType.Catalog
import Patchbay.Program.HostPorts
import Patchbay.Program.Regions
import Patchbay.Proofs.Module.Sound

namespace Patchbay

/-! What the code of node types relies on.

A node type is sound when its templates, at every node and for all settings, only refer to keys that
the type declares itself and to keys of modules that it depends on, when its state has a value for every
member, and when its receivers take a message and nothing else.
-/

open Code (Template)

namespace Code

def Template.isDetached (template : Template) : Bool := template.reads.all fun read => !read.isPortlet

/-- Whether a template relies on names that are declared, and can be written. -/
def Template.isSupported (shared : String → List String) (dependencies own : List String)
    (template : Template) : Bool :=
  template.isWritable && template.reads.all (Read.isBacked shared dependencies own)

theorem areWritable_iff {templates : List Template} :
    areWritable templates = true ↔ ∀ template ∈ templates, template.isWritable = true := by
  induction templates with
  | nil => simp [areWritable]
  | cons template rest ih => simp [areWritable, ih]

theorem mem_readsOf_iff {templates : List Template} {read : Read} :
    read ∈ readsOf templates ↔ ∃ template ∈ templates, read ∈ template.reads := by
  induction templates with
  | nil => simp [readsOf]
  | cons template rest ih => simp [readsOf, ih]

variable {shared : String → List String} {dependencies own : List String}

theorem Template.isSupported_code {parts : List Template} :
    (Template.code parts).isSupported shared dependencies own = true ↔
      ∀ part ∈ parts, part.isSupported shared dependencies own = true := by
  simp only [isSupported, isWritable, reads, Bool.and_eq_true, areWritable_iff, List.all_eq_true,
    mem_readsOf_iff]
  constructor
  · exact fun all part member => ⟨all.1 part member, fun read asked => all.2 read ⟨part, member, asked⟩⟩
  · exact fun all => ⟨fun part member => (all part member).1,
      fun read ⟨part, member, asked⟩ => (all part member).2 read asked⟩

theorem Template.isSupported_lines {parts : List Template} :
    (Template.lines parts).isSupported shared dependencies own =
      (Template.code parts).isSupported shared dependencies own := by
  simp only [isSupported, isWritable, reads]

end Code

/-- All templates of the audio code of a node. -/
def DspTemplate.templates (template : DspTemplate) : List Template :=
  template.expression.toList ++ (template.loop.toList ++ template.inlets.map Prod.snd)

namespace Implementation

/-- Whether a member of a state record has a value in every instance. -/
def isInitialized (member : Template × Template × List Template) : Bool :=
  (member.1.fixedText?.bind Program.zeroValue?).isSome || member.2.2.any Template.isSolid

def coreKeys (implementation : Implementation) : List String :=
  implementation.core.toList.flatMap fun template => (template {}).keys

/-- The keys of the name space of a node type that are declared: that of the state record and those of
the code that its nodes share. -/
def keys (implementation : Implementation) : List String :=
  (implementation.state.toList.map fun _ => "State") ++ implementation.coreKeys

def supports (implementation : Implementation) (library : Library) : Template → Bool :=
  Template.isSupported library.keysOf implementation.dependencies implementation.keys

/-- What holds of a template, if there is one. -/
def IfGiven {α : Type u} (template : Option α) (holds : α → Prop) : Prop :=
  ∀ given, template = some given → holds given

theorem IfGiven.none {α : Type u} {holds : α → Prop} : IfGiven .none holds := nofun

theorem IfGiven.some {α : Type u} {holds : α → Prop} {template : α} (held : holds template) :
    IfGiven (.some template) holds := by
  rintro _ ⟨⟩
  exact held

structure Sound (library : Library) (implementation : Implementation) : Prop where
  distinct : implementation.keys.Nodup
  core : IfGiven implementation.core fun template => ∀ settings,
    implementation.supports library (template settings) = true ∧
      (template settings).isDetached = true ∧
      (template settings).declared = implementation.coreKeys.map .own
  state : IfGiven implementation.state fun template => ∀ site,
    ∃ members, template site = some ⟨.own "State", members⟩ ∧
      implementation.supports library (.record (.own "State") members) = true ∧
      (Template.record (.own "State") members).isDetached = true ∧
      members.all isInitialized = true
  setup : IfGiven implementation.initialization fun template => ∀ site,
    implementation.supports library (template site) = true
  receivers : IfGiven implementation.receivers fun templates => ∀ site,
    ∃ bodies : List (String × List Template),
      templates site = bodies.map (fun entry => (entry.1, some (receiverTemplate entry.2))) ∧
      bodies.all (fun entry => implementation.supports library (.code entry.2)) = true
  dsp : IfGiven implementation.dsp fun template => ∀ site,
    (template site).templates.all (implementation.supports library) = true

end Implementation

namespace NodeType

open Implementation (Sound)

theorem dac_sound : dac.Sound .standard where
  distinct := by decide
  core := .none
  state := .none
  setup := .none
  receivers := .none
  dsp := .some fun site => by
    dsimp only
    rw [DspTemplate.templates, Option.toList_none, List.nil_append, Option.toList_some,
      List.map_nil, List.append_nil, List.all_cons, List.all_nil, Bool.and_true]
    refine Template.isSupported_lines.trans (Template.isSupported_code.mpr fun part member => ?_)
    obtain ⟨⟨inlet, position⟩, _, written⟩ := List.mem_filterMap.mp member
    obtain ⟨channel, _, written⟩ := Option.bind_eq_some_iff.mp written
    split at written
    · cases written
    · cases written
      unfold outputSample
      cases site.settings.isAssemblyScript <;> rfl

theorem osc_sound : osc.Sound .standard where
  distinct := by decide
  core := .none
  state := .some fun _ => ⟨_, rfl, rfl, rfl, rfl⟩
  setup := .some fun _ => rfl
  receivers := .some fun _ => ⟨[(_, _)], rfl, rfl⟩
  dsp := .some fun site => by
    dsimp only
    cases connected site "0" <;> rfl

theorem sig_sound : sig.Sound .standard where
  distinct := by decide
  core := .none
  state := .some fun _ => ⟨_, rfl, rfl, rfl, rfl⟩
  setup := .none
  receivers := .some fun _ => ⟨[(_, _)], rfl, rfl⟩
  dsp := .some fun _ => rfl

theorem binaryOperator_sound (alphaName operator : String) :
    (binaryOperator alphaName operator).Sound .standard where
  distinct := .nil
  core := .none
  state := .none
  setup := .none
  receivers := .none
  dsp := .some fun site => by
    dsimp only
    cases connected site "1" <;> rfl

theorem lop_sound : lop.Sound .standard where
  distinct := by decide
  core := .some fun _ => ⟨rfl, rfl, rfl⟩
  state := .some fun _ => ⟨_, rfl, rfl, rfl, rfl⟩
  setup := .some fun _ => rfl
  receivers := .none
  dsp := .some fun _ => rfl

theorem loadbang_sound : loadbang.Sound .standard where
  distinct := by decide
  core := .none
  state := .none
  setup := .some fun _ => rfl
  receivers := .none
  dsp := .none

theorem metro_sound : metro.Sound .standard where
  distinct := by decide
  core := .some fun _ => ⟨rfl, rfl, rfl⟩
  state := .some fun _ => ⟨_, rfl, rfl, rfl, rfl⟩
  setup := .some fun _ => rfl
  receivers := .some fun _ => ⟨[(_, _), (_, _)], rfl, rfl⟩
  dsp := .none

theorem float_sound : float.Sound .standard where
  distinct := by decide
  core := .none
  state := .some fun _ => ⟨_, rfl, rfl, rfl, rfl⟩
  setup := .none
  receivers := .some fun _ => ⟨[(_, _), (_, _)], rfl, rfl⟩
  dsp := .none

theorem mem_separateTokens {part : Template} : {tokens : List (List Template)} →
    part ∈ separateTokens tokens → part = .text ", " ∨ ∃ token ∈ tokens, part ∈ token
  | [], member => by cases member
  | [token], member => .inr ⟨token, List.mem_singleton_self _, member⟩
  | token :: next :: rest, member => by
      rw [separateTokens] at member
      · rcases List.mem_append.mp member with first | later
        · exact .inr ⟨token, List.mem_cons_self .., first⟩
        · rcases List.mem_cons.mp later with rfl | inRest
          · exact .inl rfl
          · refine (mem_separateTokens inRest).imp_right ?_
            rintro ⟨other, isToken, inToken⟩
            exact ⟨other, List.mem_cons_of_mem _ isToken, inToken⟩
      · simp

theorem tokenLayout_supported (token : Value) :
    (tokenLayout token).all (message.supports .standard) = true := by
  cases token <;> rfl

theorem tokenWrite_supported (index : Nat) (token : Value) :
    message.supports .standard (tokenWrite index token) = true := by
  cases token <;> rfl

theorem message_sound : message.Sound .standard where
  distinct := by decide
  core := .none
  state := .none
  setup := .none
  receivers := .some fun site => by
    refine ⟨[(_, _)], rfl, ?_⟩
    generalize (site.node.listArg? "template").getD [] = tokens
    have layout : message.supports .standard
        (.code (separateTokens (tokens.map tokenLayout))) = true := by
      refine Template.isSupported_code.mpr fun part member => ?_
      rcases mem_separateTokens member with rfl | ⟨_, isLayout, inLayout⟩
      · rfl
      · obtain ⟨token, _, rfl⟩ := List.mem_map.mp isLayout
        exact List.all_eq_true.mp (tokenLayout_supported token) part inLayout
    have writes : message.supports .standard
        (.lines (tokens.zipIdx.map fun token => tokenWrite token.2 token.1)) = true := by
      refine Template.isSupported_lines.trans (Template.isSupported_code.mpr fun part member => ?_)
      obtain ⟨⟨token, index⟩, _, rfl⟩ := List.mem_map.mp member
      exact tokenWrite_supported index token
    have declaration : message.supports .standard (.const "Message" "message" [
        msg "create", "([", .code (separateTokens (tokens.map tokenLayout)), "])"]) = true := by
      obtain ⟨writable, backed⟩ := Bool.and_eq_true_iff.mp layout
      refine Bool.and_eq_true_iff.mpr ⟨?_, ?_⟩
      · simpa [Template.isWritable, Code.areWritable, Template.isSolid, msg] using writable
      · have create : Code.Read.isBacked Library.standard.keysOf message.dependencies message.keys
            (.shared "msg" "create") = true := rfl
        simpa [Template.reads, Code.readsOf, msg, create] using backed
    rw [List.all_cons, List.all_nil, Bool.and_true]
    refine Template.isSupported_code.mpr fun part member => ?_
    simp only [List.mem_cons, List.not_mem_nil, or_false] at member
    rcases member with rfl | rfl | rfl | rfl | rfl | rfl
    · exact declaration
    · rfl
    · exact writes
    · rfl
    · rfl
    · rfl
  dsp := .none

theorem send_sound : send.Sound .standard where
  distinct := by decide
  core := .none
  state := .some fun _ => ⟨_, rfl, rfl, rfl, rfl⟩
  setup := .none
  receivers := .some fun _ => ⟨[(_, _)], rfl, rfl⟩
  dsp := .none

theorem receive_sound : receive.Sound .standard where
  distinct := by decide
  core := .none
  state := .none
  setup := .some fun _ => rfl
  receivers := .none
  dsp := .none

theorem tabwrite_sound : tabwrite.Sound .standard where
  distinct := by decide
  core := .some fun _ => ⟨rfl, rfl, rfl⟩
  state := .some fun _ => ⟨_, rfl, rfl, rfl, rfl⟩
  setup := .none
  receivers := .some fun _ => ⟨[(_, _), (_, _)], rfl, rfl⟩
  dsp := .none

theorem soundfiler_sound : soundfiler.Sound .standard where
  distinct := by decide
  core := .none
  state := .some fun _ => ⟨_, rfl, rfl, rfl, rfl⟩
  setup := .some fun _ => rfl
  receivers := .some fun _ => ⟨[(_, _)], rfl, rfl⟩
  dsp := .none

end NodeType

namespace Program

theorem receiverAdapter_sound : receiverAdapter.Sound .standard where
  distinct := by decide
  core := .none
  state := .none
  setup := .none
  receivers := .none
  dsp := .none

theorem senderAdapter_sound : senderAdapter.Sound .standard where
  distinct := by decide
  core := .none
  state := .none
  setup := .none
  receivers := .some fun _ => ⟨[(_, _)], rfl, rfl⟩
  dsp := .none

/-- A catalog with the types of the adapter nodes. -/
def withAdapters (catalog : Catalog) : Catalog :=
  (catalog.set receiverType (some receiverAdapter)).set senderType (some senderAdapter)

end Program

/-- Every node type is sound, and no two types go by the same name. -/
structure Catalog.Sound (library : Library) (catalog : Catalog) : Prop where
  implementations : ∀ {name implementation},
    catalog.implementation? name = some implementation → implementation.Sound library
  labels : catalog.labels.values.Nodup

/-- What holds of the adapters and of every standard node type holds throughout the standard catalog. -/
theorem Catalog.forall_standard (holds : String → Implementation → Prop)
    (receiver : holds Program.receiverType Program.receiverAdapter)
    (sender : holds Program.senderType Program.senderAdapter)
    (types : ∀ implementation ∈ [NodeType.dac, NodeType.osc, NodeType.sig, NodeType.binaryOperator "add" "+",
      NodeType.binaryOperator "mul" "*", NodeType.lop, NodeType.loadbang, NodeType.metro, NodeType.float,
      NodeType.message, NodeType.tabwrite, NodeType.send, NodeType.receive, NodeType.soundfiler],
      ∀ type, holds type implementation) {type : String} {implementation : Implementation}
    (found : (Program.withAdapters standard).implementation? type = some implementation) :
    holds type implementation := by
  unfold implementation? Program.withAdapters at found
  rw [Table.get?_set, Table.get?_set] at found
  split at found
  · next same =>
    cases found
    exact same ▸ sender
  split at found
  · next same =>
    cases found
    exact same ▸ receiver
  have listed := Table.mem_of_get?_ofList (Option.join_eq_some_iff.mp found)
  refine types implementation ?_ type
  simp only [List.mem_cons, Prod.mk.injEq, Option.some_inj, List.not_mem_nil, or_false] at listed ⊢
  rcases listed with ⟨_, same⟩ | ⟨_, same⟩ | ⟨_, same⟩ | ⟨_, same⟩ | ⟨_, same⟩ | ⟨_, same⟩ | ⟨_, same⟩ |
    ⟨_, same⟩ | ⟨_, same⟩ | ⟨_, same⟩ | ⟨_, same⟩ | ⟨_, same⟩ | ⟨_, same⟩ | ⟨_, same⟩ | ⟨_, same⟩ |
    ⟨_, same⟩ | ⟨_, same⟩ <;> simp only [same, true_or, or_true]

theorem Catalog.standard_sound : (Program.withAdapters standard).Sound .standard where
  implementations := forall_standard (fun _ implementation => implementation.Sound .standard)
    Program.receiverAdapter_sound Program.senderAdapter_sound (by
      simp only [List.mem_cons, List.not_mem_nil, or_false, forall_eq_or_imp, forall_eq, forall_const]
      exact ⟨NodeType.dac_sound, NodeType.osc_sound, NodeType.sig_sound, NodeType.binaryOperator_sound _ _,
        NodeType.binaryOperator_sound _ _, NodeType.lop_sound, NodeType.loadbang_sound,
        NodeType.metro_sound, NodeType.float_sound, NodeType.message_sound, NodeType.tabwrite_sound,
        NodeType.send_sound, NodeType.receive_sound, NodeType.soundfiler_sound⟩)
  labels := by decide

end Patchbay
