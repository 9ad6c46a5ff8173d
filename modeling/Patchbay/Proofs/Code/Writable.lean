import Patchbay.Code.Render
import Patchbay.Proofs.Code.Declarations
import Patchbay.Proofs.Outcome

namespace Patchbay.Code

/-! Code that can be written.

Rendering refuses constants without a value and items that are neither texts nor code.  Sequences that
were put together by `code` and `lines` hold no such items, so only constants have to be looked at; a
template whose constants have a text in their value can be written however it is filled.
-/

variable {dialect : Dialect} {part : Part} {parts : List Part}

attribute [local simp] render renderAll renderArgs renderMembers

def Part.Writable (dialect : Dialect) (part : Part) : Prop :=
  ∃ text, render dialect part = .ok text

/-- Everything that a part contributes can be written. -/
def Part.Sound (dialect : Dialect) (part : Part) : Prop :=
  ∀ piece ∈ part.pieces, piece.Writable dialect

/-- Values that are given at all were put together from sound parts. -/
def SlotsSound (dialect : Dialect) (slots : List Slot) : Prop :=
  ∀ slot ∈ slots, ∀ value, slot.2 = some value →
    ∃ parts, value = code parts ∧ ∀ part ∈ parts, part.Sound dialect

theorem renderAll_yields (all : ∀ part ∈ parts, part.Writable dialect) :
    ∃ text, renderAll dialect parts = .ok text := by
  induction parts with
  | nil => exact ⟨"", by simp⟩
  | cons part rest ih =>
      obtain ⟨first, rendered⟩ := all part (List.mem_cons_self ..)
      obtain ⟨others, renderedLater⟩ := ih fun other member => all other (List.mem_cons_of_mem _ member)
      exact ⟨first ++ others, by rw [renderAll, rendered, renderedLater]; rfl⟩

/-! ## Sequences -/

theorem writable_text (value : String) : (Part.text value).Writable dialect :=
  ⟨value, by simp⟩

theorem mem_piecesOf_iff {piece : Part} :
    piece ∈ piecesOf parts ↔ ∃ part ∈ parts, piece ∈ part.pieces := by
  induction parts with
  | nil => simp [piecesOf]
  | cons part rest ih => simp [piecesOf, ih]

/-- What holds of all parts and of texts put together still holds once neighbouring texts are merged. -/
theorem forall_mergeTexts {holds : Part → Prop} (merged : ∀ {first second : String},
      holds (.text first) → holds (.text second) → holds (.text (first ++ second)))
    (all : ∀ part ∈ parts, holds part) : ∀ part ∈ mergeTexts parts, holds part := by
  induction parts with
  | nil => simp [mergeTexts]
  | cons first rest ih =>
      obtain ⟨own, others⟩ := List.forall_mem_cons.mp all
      have later := ih others
      cases first with
      | text value =>
          unfold mergeTexts
          split
          · exact later
          · unfold prependText
            split
            · next next others joined =>
              rw [joined] at later
              obtain ⟨second, last⟩ := List.forall_mem_cons.mp later
              exact List.forall_mem_cons.mpr ⟨merged own second, last⟩
            · exact List.forall_mem_cons.mpr ⟨own, later⟩
      | _ =>
          unfold mergeTexts
          exact List.forall_mem_cons.mpr ⟨own, later⟩

theorem writable_code (all : ∀ part ∈ parts, part.Sound dialect) :
    ∀ part ∈ code parts, part.Writable dialect := by
  refine forall_mergeTexts (fun _ _ => writable_text _) fun piece member => ?_
  obtain ⟨part, inParts, isPiece⟩ := mem_piecesOf_iff.mp member
  exact all part inParts piece isPiece

theorem mem_separate {marked : Part} :
    {parts : List Part} → marked ∈ separate parts → marked ∈ parts ∨ marked = .text "\n"
  | [], member => by cases member
  | [_], member => .inl member
  | first :: next :: rest, member => by
      rw [separate] at member
      · rcases List.mem_cons.mp member with rfl | later
        · exact .inl (List.mem_cons_self ..)
        · rcases List.mem_cons.mp later with rfl | inRest
          · exact .inr rfl
          · exact (mem_separate inRest).imp_left (List.mem_cons_of_mem _)
      · simp

theorem sound_text (value : String) : (Part.text value).Sound dialect := by
  intro piece member
  rw [List.mem_singleton.mp member]
  exact writable_text value

theorem sound_integer (value : Int) : (Part.integer value).Sound dialect := by
  simpa [Part.Sound, Part.pieces] using writable_text (Text.ofInt value)

theorem sound_number (value : Float) : (Part.number value).Sound dialect := by
  simpa [Part.Sound, Part.pieces] using writable_text (Number.toCode value)

theorem writable_lines (all : ∀ part ∈ parts, part.Sound dialect) :
    ∀ part ∈ lines parts, part.Writable dialect := by
  refine writable_code fun part member => ?_
  rcases mem_separate member with inParts | rfl
  · exact all part (List.mem_filter.mp inParts).1
  · exact sound_text "\n"

theorem sound_sequence_code (all : ∀ part ∈ parts, part.Sound dialect) :
    (Part.sequence (code parts)).Sound dialect := by
  intro piece member
  rw [Part.pieces, piecesOf_code] at member
  exact writable_code all piece member

theorem sound_sequence_lines (all : ∀ part ∈ parts, part.Sound dialect) :
    (Part.sequence (lines parts)).Sound dialect := by
  intro piece member
  rw [Part.pieces, show piecesOf (lines parts) = lines parts from piecesOf_code _] at member
  exact writable_lines all piece member

theorem sound_list {kind : ListKind} (all : ∀ part ∈ parts, part.Sound dialect) :
    (Part.list kind parts).Sound dialect := by
  intro piece member
  rw [Part.pieces] at member
  obtain ⟨part, inParts, isPiece⟩ := mem_piecesOf_iff.mp member
  exact all part inParts piece isPiece

theorem sound_toSequence (sound : part.Sound dialect) :
    (Part.sequence part.toSequence).Sound dialect := by
  have single : (Part.sequence (code [part])).Sound dialect :=
    sound_sequence_code (by simpa using sound)
  cases part with
  | sequence content => exact sound
  | _ => exact single

theorem sound_ofSequence? {sequence : Option Sequence}
    (all : ∀ content, sequence = some content → (Part.sequence content).Sound dialect) :
    (Part.ofSequence? sequence).Sound dialect := by
  cases sequence with
  | none => simp [Part.ofSequence?, Part.Sound, Part.pieces]
  | some content => exact all content rfl

/-! ## Declarations -/

/-- An argument or a member with its value rendered.  A fault in the value gets the context that the name
of the slot gives. -/
def renderSlot (dialect : Dialect) (context : TypedName → String) : Slot → Outcome (TypedName × String)
  | (declared, none) => pure (declared, "")
  | (declared, some value) => do
      let text ← Outcome.inContext (context declared) (renderAll dialect value)
      return (declared, text)

theorem renderArgs_eq_mapM (args : List Slot) : renderArgs dialect args =
    args.mapM (renderSlot dialect fun declared => s!"default of argument {declared.name}") := by
  induction args with
  | nil => rw [renderArgs]; rfl
  | cons slot rest ih =>
      obtain ⟨declared, given⟩ := slot
      cases given <;>
      · rw [renderArgs, List.mapM_cons, ih]
        simp [renderSlot]

theorem renderMembers_eq_mapM (record : String) (members : List Slot) :
    renderMembers dialect record members =
      members.mapM (renderSlot dialect fun declared => s!"member {declared.name} of {record}") := by
  induction members with
  | nil => rw [renderMembers]; rfl
  | cons slot rest ih =>
      obtain ⟨declared, given⟩ := slot
      cases given <;>
      · rw [renderMembers, List.mapM_cons, ih]
        simp [renderSlot]

theorem renderSlots_yields (context : TypedName → String) {slots : List Slot}
    (all : SlotsSound dialect slots) :
    ∃ rendered, slots.mapM (renderSlot dialect context) = .ok rendered := by
  have each : ∀ slot ∈ slots, Outcome.Yields (renderSlot dialect context slot) fun _ => True := by
    intro slot member
    obtain ⟨declared, given⟩ := slot
    cases given with
    | none => exact Outcome.yields_pure trivial
    | some value =>
        obtain ⟨parts, rfl, sound⟩ := all (declared, some value) member value rfl
        obtain ⟨text, rendered⟩ := renderAll_yields (writable_code sound)
        exact ⟨(declared, text), by rw [renderSlot, rendered]; rfl, trivial⟩
  have written : Outcome.Yields (slots.mapM (renderSlot dialect context))
      (List.Forall₂ (fun _ _ => True) slots) := Outcome.yields_mapM each
  obtain ⟨rendered, finished, _⟩ := written
  exact ⟨rendered, finished⟩

theorem renderArgs_yields {args : List Slot} (all : SlotsSound dialect args) :
    ∃ rendered, renderArgs dialect args = .ok rendered :=
  renderArgs_eq_mapM args ▸ renderSlots_yields _ all

theorem renderMembers_yields (record : String) {members : List Slot}
    (all : SlotsSound dialect members) :
    ∃ rendered, renderMembers dialect record members = .ok rendered :=
  renderMembers_eq_mapM record members ▸ renderSlots_yields _ all

theorem writable_var {declared : TypedName} {given : Option Sequence}
    (all : ∀ value, given = some value → ∀ part ∈ value, part.Writable dialect) :
    (Part.var declared given).Writable dialect := by
  cases given with
  | none => exact ⟨dialect.var declared "", by simp⟩
  | some value =>
      obtain ⟨text, rendered⟩ := renderAll_yields (all value rfl)
      exact ⟨dialect.var declared text, by rw [render, rendered]; rfl⟩

theorem writable_const {declared : TypedName} {value : Sequence} (given : value.isEmpty = false)
    (all : ∀ part ∈ value, part.Writable dialect) :
    (Part.const declared (some value)).Writable dialect := by
  obtain ⟨text, rendered⟩ := renderAll_yields all
  exact ⟨dialect.const declared text, by rw [render, rendered, given]; rfl⟩

theorem writable_func {name result : String} {args : List Slot} {body : Sequence}
    (allArgs : SlotsSound dialect args) (all : ∀ part ∈ body, part.Writable dialect) :
    (Part.func name args result body).Writable dialect := by
  obtain ⟨arguments, renderedArgs⟩ := renderArgs_yields allArgs
  obtain ⟨text, rendered⟩ := renderAll_yields all
  exact ⟨dialect.func name arguments result text, by rw [render, renderedArgs, rendered]; rfl⟩

theorem writable_record {name : String} {members : List Slot} (all : SlotsSound dialect members) :
    (Part.record name members).Writable dialect := by
  obtain ⟨rendered, renderedMembers⟩ := renderMembers_yields name all
  exact ⟨dialect.record name rendered, by rw [render, renderedMembers]; rfl⟩

/-! ## Values -/

theorem isEmptyText_text {value : String} : (Part.text value).isEmptyText = decide (value = "") := by
  by_cases same : value = ""
  · subst same
    rfl
  · rw [decide_eq_false same]
    unfold Part.isEmptyText
    split
    · next isEmpty =>
      cases isEmpty
      exact absurd rfl same
    · rfl

theorem isEmpty_mergeTexts :
    Sequence.isEmpty (mergeTexts parts) = parts.all Part.isEmptyText := by
  unfold Sequence.isEmpty
  induction parts with
  | nil => rfl
  | cons first rest ih =>
      cases first with
      | text value =>
          unfold mergeTexts
          split
          · next empty => simp [empty, isEmptyText_text, ih]
          · next given =>
            unfold prependText
            split <;> simp [isEmptyText_text, given]
      | _ =>
          unfold mergeTexts
          rw [List.all_cons, List.all_cons, ih]

/-- A part that never renders to nothing. -/
def Part.isSolid (part : Part) : Bool := part.pieces.any fun piece => !piece.isEmptyText

theorem isEmpty_code_of_solid (member : part ∈ parts) (solid : part.isSolid = true) :
    Sequence.isEmpty (code parts) = false := by
  unfold code
  rw [isEmpty_mergeTexts]
  obtain ⟨piece, isPiece, given⟩ := List.any_eq_true.mp solid
  refine List.all_eq_false.mpr ⟨piece, mem_piecesOf_iff.mpr ⟨part, member, isPiece⟩, ?_⟩
  simpa using given

theorem valueOf_of_solid (member : part ∈ parts) (solid : part.isSolid = true) :
    valueOf parts = some (code parts) := by
  simp [valueOf, isEmpty_code_of_solid member solid]

theorem eq_code_of_valueOf {value : Sequence} (given : valueOf parts = some value) :
    value = code parts := by
  unfold valueOf at given
  dsimp only at given
  split at given
  · cases given
  · exact (Option.some.inj given).symm

theorem sound_of_writable (flat : part.pieces = [part]) (writable : part.Writable dialect) :
    part.Sound dialect := by
  intro piece member
  rw [flat, List.mem_singleton] at member
  rw [member]
  exact writable

theorem sound_var (type name : String) (all : ∀ part ∈ parts, part.Sound dialect) :
    (Code.var type name parts).Sound dialect := by
  refine sound_of_writable rfl (writable_var fun value given => ?_)
  rw [eq_code_of_valueOf given]
  exact writable_code all

theorem sound_const (type name : String) (all : ∀ part ∈ parts, part.Sound dialect)
    (member : part ∈ parts) (solid : part.isSolid = true) :
    (Code.const type name parts).Sound dialect := by
  refine sound_of_writable rfl ?_
  unfold Code.const
  rw [valueOf_of_solid member solid]
  exact writable_const (isEmpty_code_of_solid member solid) (writable_code all)

theorem sound_func (name result : String) {args : List Slot} (allArgs : SlotsSound dialect args)
    (all : ∀ part ∈ parts, part.Sound dialect) :
    (Part.ofFunction (Code.func name args result parts)).Sound dialect :=
  sound_of_writable rfl (writable_func allArgs (writable_code all))

/-! ## Templates -/

/-- Whether a template renders to something, however it is filled. -/
def Template.isSolid : Template → Bool
  | .text value => value ≠ ""
  | .func .. => true
  | _ => false

mutual

/-- Whether all constants of a template have a value. -/
def Template.isWritable : Template → Bool
  | .list _ items => areWritable items
  | .code parts | .lines parts | .raw parts => areWritable parts
  | .var _ _ value => areWritable value
  | .const _ _ value => value.any Template.isSolid && areWritable value
  | .func _ args _ body => argsWritable args && areWritable body
  | .record _ members => membersWritable members
  | _ => true

def areWritable : List Template → Bool
  | [] => true
  | template :: rest => template.isWritable && areWritable rest

def argsWritable : List (Template × Template × Option (List Template)) → Bool
  | [] => true
  | (_, _, none) :: rest => argsWritable rest
  | (_, _, some value) :: rest => areWritable value && argsWritable rest

def membersWritable : List (Template × Template × List Template) → Bool
  | [] => true
  | (_, _, value) :: rest => areWritable value && membersWritable rest

end

variable {scope : Scope} {naming : Naming}

theorem isSolid_resolve {template : Template} (solid : template.isSolid = true) :
    (template.resolve scope naming).isSolid = true := by
  cases template with
  | text value =>
      have given : value ≠ "" := by simpa [Template.isSolid] using solid
      simp [Template.resolve, Part.isSolid, Part.pieces, isEmptyText_text, given]
  | func name args result body => rfl
  | _ => cases solid

theorem mem_resolveAll {template : Template} {templates : List Template}
    (member : template ∈ templates) :
    template.resolve scope naming ∈ resolveAll scope naming templates := by
  induction templates with
  | nil => cases member
  | cons first rest ih =>
      rw [resolveAll]
      rcases List.mem_cons.mp member with rfl | later
      · exact List.mem_cons_self ..
      · exact List.mem_cons_of_mem _ (ih later)

mutual

theorem Template.sound_resolve : (template : Template) → template.isWritable = true →
    (template.resolve scope naming).Sound dialect
  | .list _ items, writable => by
      rw [Template.isWritable] at writable
      rw [Template.resolve]
      exact sound_list (sound_resolveAll items writable)
  | .code parts, writable => by
      rw [Template.isWritable] at writable
      rw [Template.resolve]
      exact sound_sequence_code (sound_resolveAll parts writable)
  | .lines parts, writable => by
      rw [Template.isWritable] at writable
      rw [Template.resolve]
      exact sound_sequence_lines (sound_resolveAll parts writable)
  | .raw parts, writable => by
      rw [Template.isWritable] at writable
      intro piece member
      rw [Template.resolve, Part.pieces] at member
      obtain ⟨part, inParts, isPiece⟩ := mem_piecesOf_iff.mp member
      exact sound_resolveAll parts writable part inParts piece isPiece
  | .var _ _ value, writable => by
      rw [Template.isWritable] at writable
      rw [Template.resolve]
      exact sound_var _ _ (sound_resolveAll value writable)
  | .const _ _ value, writable => by
      rw [Template.isWritable, Bool.and_eq_true, List.any_eq_true] at writable
      obtain ⟨⟨solid, member, isSolid⟩, all⟩ := writable
      rw [Template.resolve]
      exact sound_const _ _ (sound_resolveAll value all) (mem_resolveAll member)
        (isSolid_resolve isSolid)
  | .func _ args _ body, writable => by
      rw [Template.isWritable, Bool.and_eq_true] at writable
      rw [Template.resolve]
      exact sound_func _ _ (slotsSound_resolveArgs args writable.1)
        (sound_resolveAll body writable.2)
  | .record _ members, writable => by
      rw [Template.isWritable] at writable
      rw [Template.resolve]
      exact sound_of_writable rfl (writable_record (slotsSound_resolveMembers members writable))
  | .text _, _ | .number _, _ | .single _, _ | .integer _, _ | .wide _, _ | .flag _, _
  | .portlet .., _ | .state, _ | .own _, _ | .shared .., _ | .floatArg .., _ | .textArg .., _ => by
      intro piece member
      rw [Template.resolve, Part.pieces, List.mem_singleton] at member
      rw [member]
      exact writable_text _
  | .absent, _ | .missing _, _ | .ahead _, _ => by
      simp [Template.resolve, Part.Sound, Part.pieces]

theorem sound_resolveAll : (templates : List Template) → areWritable templates = true →
    ∀ part ∈ resolveAll scope naming templates, part.Sound dialect
  | [], _ => by simp [resolveAll]
  | template :: rest, writable => by
      rw [areWritable, Bool.and_eq_true] at writable
      rw [resolveAll]
      exact List.forall_mem_cons.mpr
        ⟨template.sound_resolve writable.1, sound_resolveAll rest writable.2⟩

theorem slotsSound_resolveArgs :
    (args : List (Template × Template × Option (List Template))) → argsWritable args = true →
      SlotsSound dialect (resolveArgs scope naming args)
  | [], _ => by simp [resolveArgs, SlotsSound]
  | (_, _, none) :: rest, writable => by
      rw [argsWritable] at writable
      rw [resolveArgs]
      refine List.forall_mem_cons.mpr ⟨fun value given => ?_, slotsSound_resolveArgs rest writable⟩
      cases given
  | (_, _, some value) :: rest, writable => by
      rw [argsWritable, Bool.and_eq_true] at writable
      rw [resolveArgs]
      refine List.forall_mem_cons.mpr ⟨fun given isGiven => ?_,
        slotsSound_resolveArgs rest writable.2⟩
      cases isGiven
      exact ⟨_, rfl, sound_resolveAll value writable.1⟩

theorem slotsSound_resolveMembers :
    (members : List (Template × Template × List Template)) → membersWritable members = true →
      SlotsSound dialect (resolveMembers scope naming members)
  | [], _ => by simp [resolveMembers, SlotsSound]
  | (_, _, value) :: rest, writable => by
      rw [membersWritable, Bool.and_eq_true] at writable
      rw [resolveMembers]
      refine List.forall_mem_cons.mpr ⟨fun given isGiven => ?_,
        slotsSound_resolveMembers rest writable.2⟩
      exact ⟨_, eq_code_of_valueOf isGiven, sound_resolveAll value writable.1⟩

end

end Patchbay.Code
