import Patchbay.Proofs.Code.Unmarked
import Patchbay.Proofs.NodeType.Sound

namespace Patchbay

/-! Node types and runtime modules whose code holds no marker lines.

The texts of their templates are fixed, or they are what a node was given as a literal or a number.  The
only text that is taken from a node as it is names a function of the host, in the adapters that forward to
the host.
-/

open Code (Template areUnmarked areUnmarked_iff argsUnmarked membersUnmarked)
open Text (isUnmarked isUnmarked_append isUnmarked_literal isUnmarked_ofInt isUnmarked_of_letters)

/-- An adapter that forwards to the host names a function that is unmarked. -/
def Node.ForwardsUnmarked (node : Node) : Prop :=
  node.type = Program.senderType → isUnmarked (node.textArg "functionName" "") = true

namespace Implementation

/-- All templates of a type are unmarked at its nodes. -/
structure Unmarked (type : String) (implementation : Implementation) : Prop where
  core : IfGiven implementation.core fun template => ∀ settings node,
    (template settings).isUnmarked node = true
  state : IfGiven implementation.state fun template => ∀ site,
    IfGiven (template site) fun record => record.isUnmarked site.node = true
  setup : IfGiven implementation.initialization fun template => ∀ site,
    (template site).isUnmarked site.node = true
  receivers : IfGiven implementation.receivers fun templates => ∀ site, site.node.type = type →
    site.node.ForwardsUnmarked → ∀ entry ∈ templates site,
      IfGiven entry.2 fun template => template.isUnmarked site.node = true
  dsp : IfGiven implementation.dsp fun template => ∀ site,
    (template site).templates.all (Template.isUnmarked site.node) = true

end Implementation

open Implementation (IfGiven Unmarked)

/-! ## Phrases -/

namespace NodeType

variable {type : String} {node : Node}

theorem unmarked_receiver {body : List Template} (unmarked : areUnmarked node body = true) :
    IfGiven (some (receiverTemplate body)) fun template => template.isUnmarked node = true := by
  refine .some ?_
  simp only [receiverTemplate, Code.FunctionTemplate.isUnmarked, Template.isUnmarked, argsUnmarked, unmarked,
    Bool.and_true, Bool.and_eq_true]
  decide

theorem unmarked_stateRecord {members : List (Template × Template × List Template)}
    (unmarked : membersUnmarked node members = true) :
    IfGiven (some (stateRecord members)) fun record => record.isUnmarked node = true := by
  refine .some ?_
  simpa only [stateRecord, Code.RecordTemplate.isUnmarked, Template.isUnmarked, Bool.true_and] using unmarked

theorem unmarked_quote (value : String) : (quote value).isUnmarked node = true := by
  rw [quote, Template.isUnmarked]
  exact isUnmarked_literal value

theorem unmarked_msg (key : String) : (msg key).isUnmarked node = true := by
  rw [msg, Template.isUnmarked]

theorem unmarked_unsupported (site : Site) : (unsupported site).isUnmarked node = true := by
  simp only [unsupported, Template.isUnmarked, areUnmarked, unmarked_quote, unmarked_msg, Bool.true_and,
    Bool.and_true]
  decide

theorem unmarked_isFloatMessage : isFloatMessage.isUnmarked node = true := by
  simp only [isFloatMessage, Template.isUnmarked, areUnmarked, unmarked_msg, Bool.true_and, Bool.and_true]
  decide

theorem unmarked_readFloat (index : Int) : (readFloat index).isUnmarked node = true := by
  simp only [readFloat, Template.isUnmarked, areUnmarked, unmarked_msg, Bool.true_and, Bool.and_true]
  decide

theorem unmarked_outputSample (settings : Settings) (channel : Int) :
    (outputSample settings channel).isUnmarked node = true := by
  unfold outputSample
  split
  · rw [Template.isUnmarked]
    exact isUnmarked_append (isUnmarked_append (by decide) (isUnmarked_ofInt channel)) (by decide)
  · rw [Template.isUnmarked]
    exact isUnmarked_append (isUnmarked_append (isUnmarked_append (isUnmarked_append (by decide)
      (isUnmarked_ofInt channel)) (by decide)) (by decide)) (by decide)

/-! ## Node types -/

theorem dac_unmarked : dac.Unmarked type where
  core := .none
  state := .none
  setup := .none
  receivers := .none
  dsp := .some fun site => by
    dsimp only
    rw [DspTemplate.templates, Option.toList_none, List.nil_append, Option.toList_some,
      List.map_nil, List.append_nil, List.all_cons, List.all_nil, Bool.and_true, Template.isUnmarked,
      areUnmarked_iff]
    intro part member
    obtain ⟨⟨inlet, position⟩, _, written⟩ := List.mem_filterMap.mp member
    obtain ⟨channel, _, written⟩ := Option.bind_eq_some_iff.mp written
    split at written
    · cases written
    · cases written
      simp only [Template.isUnmarked, areUnmarked, unmarked_outputSample, Bool.true_and, Bool.and_true]
      decide

theorem osc_unmarked : osc.Unmarked type where
  core := .none
  state := .some fun _ => unmarked_stateRecord (by
    simp only [membersUnmarked, areUnmarked, Template.isUnmarked, Bool.and_true,
      Bool.and_eq_true]
    and_intros <;> exact isUnmarked_of_letters (by decide))
  setup := .some fun _ => by
    simp only [areUnmarked, Template.isUnmarked, Bool.true_and, Bool.and_true, Bool.and_eq_true]
    and_intros <;> exact isUnmarked_of_letters (by decide)
  receivers := .some fun _ _ _ => by
    refine List.forall_mem_singleton.mpr (unmarked_receiver ?_)
    simp only [areUnmarked, Template.isUnmarked, unmarked_isFloatMessage, unmarked_readFloat,
      unmarked_unsupported, Bool.true_and, Bool.and_true, Bool.and_eq_true]
    and_intros <;> exact isUnmarked_of_letters (by decide)
  dsp := .some fun site => by
    have frequency : (if connected site "0" then Template.portlet .ins "0"
        else .code [.state, ".frequency"]).isUnmarked site.node = true := by
      cases connected site "0"
      · simp only [Bool.false_eq_true, if_false, areUnmarked, Template.isUnmarked]
        decide
      · rfl
    simp only [DspTemplate.templates, Option.toList_none, Option.toList_some, List.map_nil, List.append_nil,
      List.nil_append, List.all_cons, List.all_nil, areUnmarked, Template.isUnmarked, frequency,
      Bool.true_and, Bool.and_true, Bool.and_eq_true]
    and_intros <;> exact isUnmarked_of_letters (by decide)

theorem sig_unmarked : sig.Unmarked type where
  core := .none
  state := .some fun _ => unmarked_stateRecord (by
    simp only [membersUnmarked, areUnmarked, Template.isUnmarked, Bool.and_true,
      Bool.and_eq_true]
    and_intros <;> exact isUnmarked_of_letters (by decide))
  setup := .none
  receivers := .some fun _ _ _ => by
    refine List.forall_mem_singleton.mpr (unmarked_receiver ?_)
    simp only [areUnmarked, Template.isUnmarked, unmarked_isFloatMessage, unmarked_readFloat,
      unmarked_unsupported, Bool.true_and, Bool.and_true, Bool.and_eq_true]
    and_intros <;> exact isUnmarked_of_letters (by decide)
  dsp := .some fun _ => by
    simp only [DspTemplate.templates, Option.toList_none, Option.toList_some, List.map_nil, List.append_nil,
      List.all_cons, List.all_nil, areUnmarked, Template.isUnmarked, Bool.true_and, Bool.and_true]
    decide

theorem binaryOperator_unmarked {alphaName operator : String} (unmarked : isUnmarked operator = true) :
    (binaryOperator alphaName operator).Unmarked type where
  core := .none
  state := .none
  setup := .none
  receivers := .none
  dsp := .some fun site => by
    have right : (if connected site "1" then Template.portlet .ins "1"
        else .floatArg "value" 0).isUnmarked site.node = true := by
      cases connected site "1" <;> rfl
    simp only [DspTemplate.templates, Option.toList_none, Option.toList_some, List.map_nil, List.append_nil,
      List.all_cons, List.all_nil, areUnmarked, Template.isUnmarked, right, unmarked, Bool.true_and,
      Bool.and_true]
    decide

theorem lop_unmarked : lop.Unmarked type where
  core := .some fun _ _ => by
    simp only [areUnmarked, argsUnmarked, Template.isUnmarked, Bool.true_and, Bool.and_true,
      Bool.and_eq_true]
    and_intros <;> exact isUnmarked_of_letters (by decide)
  state := .some fun _ => unmarked_stateRecord (by
    simp only [membersUnmarked, areUnmarked, Template.isUnmarked, Bool.and_true,
      Bool.and_eq_true]
    and_intros <;> exact isUnmarked_of_letters (by decide))
  setup := .some fun _ => by
    simp only [areUnmarked, Template.isUnmarked, Bool.true_and, Bool.and_true, Bool.and_eq_true]
    and_intros <;> exact isUnmarked_of_letters (by decide)
  receivers := .none
  dsp := .some fun _ => by
    simp only [DspTemplate.templates, Option.toList_none, Option.toList_some, List.map_cons, List.map_nil,
      List.cons_append, List.nil_append, List.all_cons, List.all_nil, areUnmarked, Template.isUnmarked,
      Bool.true_and, Bool.and_true, Bool.and_eq_true]
    and_intros <;> exact isUnmarked_of_letters (by decide)

theorem loadbang_unmarked : loadbang.Unmarked type where
  core := .none
  state := .none
  setup := .some fun _ => by
    simp only [Template.fn, List.map_cons, List.map_nil, areUnmarked, argsUnmarked, Template.isUnmarked,
      unmarked_msg, Bool.true_and, Bool.and_true, Bool.and_eq_true]
    and_intros <;> exact isUnmarked_of_letters (by decide)
  receivers := .none
  dsp := .none

theorem metro_unmarked : metro.Unmarked type where
  core := .some fun _ _ => by
    simp only [areUnmarked, argsUnmarked, Template.isUnmarked, Bool.true_and, Bool.and_true,
      Bool.and_eq_true]
    and_intros <;> exact isUnmarked_of_letters (by decide)
  state := .some fun _ => unmarked_stateRecord (by
    simp only [Template.fn, List.map_cons, List.map_nil, membersUnmarked, areUnmarked, argsUnmarked,
      Template.isUnmarked, Bool.true_and, Bool.and_true, Bool.and_eq_true]
    and_intros <;> exact isUnmarked_of_letters (by decide))
  setup := .some fun _ => by
    simp only [Template.fn, List.map_cons, List.map_nil, areUnmarked, argsUnmarked, Template.isUnmarked,
      unmarked_msg, Bool.true_and, Bool.and_true, Bool.and_eq_true]
    and_intros <;> exact isUnmarked_of_letters (by decide)
  receivers := .some fun _ _ _ => by
    refine List.forall_mem_cons.mpr ⟨unmarked_receiver ?_, List.forall_mem_singleton.mpr (unmarked_receiver ?_)⟩
    all_goals
      simp only [areUnmarked, Template.isUnmarked, unmarked_msg, unmarked_isFloatMessage,
        unmarked_readFloat, unmarked_unsupported, Bool.true_and, Bool.and_true, Bool.and_eq_true]
      and_intros <;> exact isUnmarked_of_letters (by decide)
  dsp := .none

theorem float_unmarked : float.Unmarked type where
  core := .none
  state := .some fun _ => unmarked_stateRecord (by
    simp only [membersUnmarked, areUnmarked, Template.isUnmarked, Bool.and_true,
      Bool.and_eq_true]
    and_intros <;> exact isUnmarked_of_letters (by decide))
  setup := .none
  receivers := .some fun _ _ _ => by
    refine List.forall_mem_cons.mpr ⟨unmarked_receiver ?_, List.forall_mem_singleton.mpr (unmarked_receiver ?_)⟩
    all_goals
      simp only [areUnmarked, Template.isUnmarked, unmarked_msg, unmarked_isFloatMessage,
        unmarked_readFloat, unmarked_unsupported, Bool.true_and, Bool.and_true, Bool.and_eq_true]
      and_intros <;> exact isUnmarked_of_letters (by decide)
  dsp := .none

theorem unmarked_tokenLayout (token : Value) : areUnmarked node (tokenLayout token) = true := by
  cases token with
  | text value =>
      simp only [tokenLayout, areUnmarked, Template.isUnmarked, unmarked_msg, Bool.true_and, Bool.and_true]
      decide
  | _ => simp only [tokenLayout, areUnmarked, unmarked_msg, Bool.true_and]

theorem unmarked_tokenWrite (index : Nat) (token : Value) :
    (tokenWrite index token).isUnmarked node = true := by
  cases token <;>
  · simp only [tokenWrite, areUnmarked, Template.isUnmarked, unmarked_msg, unmarked_quote, Bool.true_and,
      Bool.and_true]
    decide

theorem message_unmarked : message.Unmarked type where
  core := .none
  state := .none
  setup := .none
  receivers := .some fun site _ _ => by
    refine List.forall_mem_singleton.mpr (unmarked_receiver ?_)
    generalize (site.node.listArg? "template").getD [] = tokens
    have layout : areUnmarked site.node (separateTokens (tokens.map tokenLayout)) = true := by
      refine areUnmarked_iff.mpr fun part member => ?_
      rcases mem_separateTokens member with rfl | ⟨_, isLayout, inLayout⟩
      · rw [Template.isUnmarked]
        decide
      · obtain ⟨token, _, rfl⟩ := List.mem_map.mp isLayout
        exact areUnmarked_iff.mp (unmarked_tokenLayout token) part inLayout
    have writes : areUnmarked site.node
        (tokens.zipIdx.map fun token => tokenWrite token.2 token.1) = true :=
      areUnmarked_iff.mpr (List.forall_mem_map.mpr fun token _ => unmarked_tokenWrite _ _)
    simp only [areUnmarked, Template.isUnmarked, unmarked_msg, layout, writes, Bool.true_and, Bool.and_true]
    decide
  dsp := .none

theorem send_unmarked : send.Unmarked type where
  core := .none
  state := .some fun _ => unmarked_stateRecord (by
    simp only [membersUnmarked, areUnmarked, Template.isUnmarked, unmarked_quote,
      Bool.and_true]
    decide)
  setup := .none
  receivers := .some fun _ _ _ => by
    refine List.forall_mem_singleton.mpr (unmarked_receiver ?_)
    simp only [areUnmarked, Template.isUnmarked, Bool.true_and, Bool.and_true]
    decide
  dsp := .none

theorem receive_unmarked : receive.Unmarked type where
  core := .none
  state := .none
  setup := .some fun _ => by
    simp only [areUnmarked, Template.isUnmarked, unmarked_quote, Bool.true_and, Bool.and_true]
    decide
  receivers := .none
  dsp := .none

theorem tabwrite_unmarked : tabwrite.Unmarked type where
  core := .some fun _ _ => by
    simp only [areUnmarked, argsUnmarked, Template.isUnmarked, Bool.true_and, Bool.and_true,
      Bool.and_eq_true]
    and_intros <;> exact isUnmarked_of_letters (by decide)
  state := .some fun _ => unmarked_stateRecord (by
    simp only [membersUnmarked, areUnmarked, Template.isUnmarked, unmarked_quote,
      Bool.and_true, Bool.and_eq_true]
    and_intros <;> exact isUnmarked_of_letters (by decide))
  setup := .none
  receivers := .some fun _ _ _ => by
    refine List.forall_mem_cons.mpr ⟨unmarked_receiver ?_, List.forall_mem_singleton.mpr (unmarked_receiver ?_)⟩
    all_goals
      simp only [areUnmarked, Template.isUnmarked, unmarked_msg, unmarked_isFloatMessage,
        unmarked_readFloat, unmarked_unsupported, Bool.true_and, Bool.and_true, Bool.and_eq_true]
      and_intros <;> exact isUnmarked_of_letters (by decide)
  dsp := .none

theorem unmarked_isCommand (command : String) : (isCommand command).isUnmarked node = true := by
  simp only [isCommand, areUnmarked, Template.isUnmarked, unmarked_msg, unmarked_quote, Bool.true_and,
    Bool.and_true, Bool.and_eq_true]
  and_intros <;> exact isUnmarked_of_letters (by decide)

theorem soundfiler_unmarked : soundfiler.Unmarked type where
  core := .none
  state := .some fun _ => unmarked_stateRecord (by
    simp only [Template.fn, List.map_cons, List.map_nil, membersUnmarked, areUnmarked, argsUnmarked,
      Template.isUnmarked, Bool.and_true, Bool.and_eq_true]
    and_intros <;> exact isUnmarked_of_letters (by decide))
  setup := .some fun _ => by
    simp only [Template.fn, List.map_cons, List.map_nil, areUnmarked, argsUnmarked, Template.isUnmarked,
      statusOk, unmarked_msg, Bool.true_and, Bool.and_true, Bool.and_eq_true]
    and_intros <;> exact isUnmarked_of_letters (by decide)
  receivers := .some fun _ _ _ => by
    refine List.forall_mem_singleton.mpr (unmarked_receiver ?_)
    simp only [areUnmarked, Template.isUnmarked, unmarked_msg, unmarked_isCommand, unmarked_unsupported,
      Bool.true_and, Bool.and_true, Bool.and_eq_true]
    and_intros <;> exact isUnmarked_of_letters (by decide)
  dsp := .none

end NodeType

namespace Program

theorem receiverAdapter_unmarked {type : String} : receiverAdapter.Unmarked type where
  core := .none
  state := .none
  setup := .none
  receivers := .none
  dsp := .none

theorem senderAdapter_unmarked : senderAdapter.Unmarked senderType where
  core := .none
  state := .none
  setup := .none
  receivers := .some fun site isSender forwards => by
    refine List.forall_mem_singleton.mpr (NodeType.unmarked_receiver ?_)
    simp only [areUnmarked, Template.isUnmarked, forwards isSender, Bool.true_and, Bool.and_true]
    decide
  dsp := .none

end Program

/-- All types of a catalog are unmarked at their nodes. -/
def Catalog.Unmarked (catalog : Catalog) : Prop :=
  ∀ type implementation, catalog.implementation? type = some implementation → implementation.Unmarked type

theorem Catalog.standard_unmarked : (Program.withAdapters standard).Unmarked :=
  fun _ _ => forall_standard (fun type implementation => implementation.Unmarked type)
    Program.receiverAdapter_unmarked Program.senderAdapter_unmarked (by
      simp only [List.mem_cons, List.not_mem_nil, or_false, forall_eq_or_imp, forall_eq]
      exact ⟨fun _ => NodeType.dac_unmarked, fun _ => NodeType.osc_unmarked, fun _ => NodeType.sig_unmarked,
        fun _ => NodeType.binaryOperator_unmarked (by decide),
        fun _ => NodeType.binaryOperator_unmarked (by decide), fun _ => NodeType.lop_unmarked,
        fun _ => NodeType.loadbang_unmarked, fun _ => NodeType.metro_unmarked,
        fun _ => NodeType.float_unmarked, fun _ => NodeType.message_unmarked,
        fun _ => NodeType.tabwrite_unmarked, fun _ => NodeType.send_unmarked,
        fun _ => NodeType.receive_unmarked, fun _ => NodeType.soundfiler_unmarked⟩)

end Patchbay
