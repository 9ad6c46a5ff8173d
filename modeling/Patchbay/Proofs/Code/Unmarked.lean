import Patchbay.Code.Dialect
import Patchbay.Proofs.Code.Writable
import Patchbay.Proofs.Outcome
import Patchbay.Proofs.Text.Unmarked

namespace Patchbay.Code

/-! Code without marker lines.

A part is unmarked when every text in it is, the names and types of declarations included.  Putting unmarked
parts together gives unmarked sequences, and both languages write an unmarked part as an unmarked text.  A
template is unmarked when its fixed texts are; what its holes are replaced by has to be unmarked too.
-/

open Outcome (Ensures)
open Text (isUnmarked isUnmarked_append)

variable {dialect : Dialect} {part : Part} {parts : List Part}

structure TypedName.Unmarked (declared : TypedName) : Prop where
  name : isUnmarked declared.name = true
  type : isUnmarked declared.type = true

mutual

/-- Every text of a part is unmarked. -/
def Part.Unmarked : Part → Prop
  | .text value => isUnmarked value = true
  | .list _ items => AllUnmarked items
  | .sequence content => AllUnmarked content
  | .var declared none | .const declared none => declared.Unmarked
  | .var declared (some value) | .const declared (some value) => declared.Unmarked ∧ AllUnmarked value
  | .func name args result body =>
      isUnmarked name = true ∧ SlotsUnmarked args ∧ isUnmarked result = true ∧ AllUnmarked body
  | .record name members => isUnmarked name = true ∧ SlotsUnmarked members
  | .absent | .number _ | .single _ | .integer _ | .wide _ | .flag _ | .missing _ => True

def AllUnmarked : List Part → Prop
  | [] => True
  | part :: rest => part.Unmarked ∧ AllUnmarked rest

def SlotsUnmarked : List (TypedName × Option (List Part)) → Prop
  | [] => True
  | (declared, none) :: rest => declared.Unmarked ∧ SlotsUnmarked rest
  | (declared, some value) :: rest => declared.Unmarked ∧ AllUnmarked value ∧ SlotsUnmarked rest

end

theorem AllUnmarked.nil : AllUnmarked [] := by
  rw [AllUnmarked]
  trivial

theorem AllUnmarked.cons (first : part.Unmarked) (rest : AllUnmarked parts) : AllUnmarked (part :: parts) := by
  rw [AllUnmarked]
  exact ⟨first, rest⟩

theorem AllUnmarked.single (unmarked : part.Unmarked) : AllUnmarked [part] := .cons unmarked .nil

theorem unmarked_text {text : String} (unmarked : isUnmarked text = true) : (Part.text text).Unmarked := by
  rwa [Part.Unmarked]

theorem unmarked_sequence_iff {content : Sequence} : (Part.sequence content).Unmarked ↔ AllUnmarked content := by
  rw [Part.Unmarked]

theorem allUnmarked_iff : AllUnmarked parts ↔ ∀ part ∈ parts, part.Unmarked := by
  induction parts with
  | nil => simp [AllUnmarked]
  | cons part rest ih => simp [AllUnmarked, ih]

/-- A slot of a function or a record. -/
def SlotUnmarked (slot : Slot) : Prop :=
  slot.1.Unmarked ∧ ∀ value, slot.2 = some value → AllUnmarked value

theorem slotsUnmarked_iff {slots : List Slot} : SlotsUnmarked slots ↔ ∀ slot ∈ slots, SlotUnmarked slot := by
  induction slots with
  | nil => simp [SlotsUnmarked]
  | cons slot rest ih =>
      obtain ⟨declared, given⟩ := slot
      cases given <;> simp [SlotsUnmarked, SlotUnmarked, ih, and_assoc]

/-! ## Sequences -/

theorem allUnmarked_append {front back : List Part} :
    AllUnmarked (front ++ back) ↔ AllUnmarked front ∧ AllUnmarked back := by
  simp only [allUnmarked_iff, List.forall_mem_append]

mutual

theorem Part.unmarked_pieces : (part : Part) → part.Unmarked → AllUnmarked part.pieces
  | .absent, _ | .missing _, _ => by simp [Part.pieces, AllUnmarked]
  | .text value, unmarked => by simpa [Part.pieces, AllUnmarked, Part.Unmarked] using unmarked
  | .number _, _ | .single _, _ | .integer _, _ | .wide _, _ => by
      simp [Part.pieces, AllUnmarked, Part.Unmarked]
  | .flag value, _ => by cases value <;> simp [Part.pieces, AllUnmarked, Part.Unmarked] <;> decide
  | .list _ items, unmarked => by
      rw [Part.Unmarked] at unmarked
      rw [Part.pieces]
      exact unmarked_piecesOf items unmarked
  | .sequence content, unmarked => by
      rw [Part.Unmarked] at unmarked
      rw [Part.pieces]
      exact unmarked_piecesOf content unmarked
  | .var .., unmarked | .const .., unmarked | .func .., unmarked | .record .., unmarked => by
      simpa [Part.pieces, AllUnmarked] using unmarked

theorem unmarked_piecesOf : (parts : List Part) → AllUnmarked parts → AllUnmarked (piecesOf parts)
  | [], _ => by simp [piecesOf, AllUnmarked]
  | part :: rest, unmarked => by
      rw [AllUnmarked] at unmarked
      rw [piecesOf, allUnmarked_append]
      exact ⟨part.unmarked_pieces unmarked.1, unmarked_piecesOf rest unmarked.2⟩

end

theorem unmarked_code (unmarked : AllUnmarked parts) : AllUnmarked (code parts) := by
  rw [allUnmarked_iff]
  refine forall_mergeTexts ?_ (allUnmarked_iff.mp (unmarked_piecesOf parts unmarked))
  intro first second one two
  rw [Part.Unmarked] at one two ⊢
  exact isUnmarked_append one two

theorem unmarked_lines (unmarked : AllUnmarked parts) : AllUnmarked (lines parts) := by
  rw [allUnmarked_iff] at unmarked
  refine unmarked_code (allUnmarked_iff.mpr fun part member => ?_)
  rcases mem_separate member with inParts | rfl
  · exact unmarked part (List.mem_filter.mp inParts).1
  · rw [Part.Unmarked]
    decide

theorem unmarked_valueOf {value : Sequence} (unmarked : AllUnmarked parts)
    (given : valueOf parts = some value) : AllUnmarked value :=
  eq_code_of_valueOf given ▸ unmarked_code unmarked

theorem unmarked_var {type name : String} (named : isUnmarked name = true) (typed : isUnmarked type = true)
    (unmarked : AllUnmarked parts) : (var type name parts).Unmarked := by
  unfold var
  cases given : valueOf parts with
  | none =>
      rw [Part.Unmarked]
      exact ⟨named, typed⟩
  | some value =>
      rw [Part.Unmarked]
      exact ⟨⟨named, typed⟩, unmarked_valueOf unmarked given⟩

theorem unmarked_const {type name : String} (named : isUnmarked name = true) (typed : isUnmarked type = true)
    (unmarked : AllUnmarked parts) : (const type name parts).Unmarked := by
  unfold const
  cases given : valueOf parts with
  | none =>
      rw [Part.Unmarked]
      exact ⟨named, typed⟩
  | some value =>
      rw [Part.Unmarked]
      exact ⟨⟨named, typed⟩, unmarked_valueOf unmarked given⟩

theorem unmarked_func {name result : String} {args : List Slot} (named : isUnmarked name = true)
    (slots : SlotsUnmarked args) (typed : isUnmarked result = true) (unmarked : AllUnmarked parts) :
    (Part.ofFunction (func name args result parts)).Unmarked := by
  change (Part.func name args result (code parts)).Unmarked
  rw [Part.Unmarked]
  exact ⟨named, slots, typed, unmarked_code unmarked⟩

theorem unmarked_plainText (unmarked : part.Unmarked) : isUnmarked part.plainText = true := by
  refine Text.isUnmarked_join (List.forall_mem_map.mpr fun piece member => ?_)
  have held := allUnmarked_iff.mp (part.unmarked_pieces unmarked) piece member
  cases piece with
  | text value => simpa [Part.Unmarked] using held
  | _ => rfl

theorem unmarked_toSequence (unmarked : part.Unmarked) : AllUnmarked part.toSequence := by
  have single : AllUnmarked (code [part]) := unmarked_code (by simpa [AllUnmarked] using unmarked)
  cases part with
  | sequence content =>
      rw [Part.Unmarked] at unmarked
      exact unmarked
  | _ => exact single

/-! ## Rendering -/

/-- A language that writes declarations of unmarked texts as unmarked texts. -/
structure Dialect.Unmarked (dialect : Dialect) : Prop where
  var : ∀ {declared value}, declared.Unmarked → isUnmarked value = true →
    isUnmarked (dialect.var declared value) = true
  const : ∀ {declared value}, declared.Unmarked → isUnmarked value = true →
    isUnmarked (dialect.const declared value) = true
  func : ∀ {name args result body}, isUnmarked name = true →
    (∀ arg ∈ args, arg.1.Unmarked ∧ isUnmarked arg.2 = true) → isUnmarked result = true →
    isUnmarked body = true → isUnmarked (dialect.func name args result body) = true
  record : ∀ {name members}, isUnmarked name = true →
    (∀ member ∈ members, member.1.Unmarked ∧ isUnmarked member.2 = true) →
    isUnmarked (dialect.record name members) = true

namespace Dialect

theorem unmarked_block {body : String} (unmarked : isUnmarked body = true) :
    isUnmarked (block body) = true := by
  unfold block
  split
  · decide
  · exact isUnmarked_append (isUnmarked_append (by decide) unmarked) (by decide)

theorem unmarked_typed {declared : TypedName} (unmarked : declared.Unmarked) :
    isUnmarked (typed declared) = true :=
  isUnmarked_append (isUnmarked_append unmarked.name (by decide)) unmarked.type

theorem unmarked_typedWithValue {slot : TypedName × String} (unmarked : slot.1.Unmarked)
    (value : isUnmarked slot.2 = true) : isUnmarked (typedWithValue slot) = true := by
  unfold typedWithValue
  split
  · exact unmarked_typed unmarked
  · exact isUnmarked_append (isUnmarked_append (unmarked_typed unmarked) (by decide)) value

theorem unmarked_signature {args : List String} {result : String}
    (all : ∀ arg ∈ args, isUnmarked arg = true) (unmarked : isUnmarked result = true) :
    isUnmarked (signature args result) = true :=
  isUnmarked_append (isUnmarked_append (isUnmarked_append (by decide)
    (Text.isUnmarked_intercalate (by decide) all)) (by decide)) unmarked

theorem javaScript_unmarked : javaScript.Unmarked where
  var {declared value} named given := by
    change isUnmarked (if value = "" then _ else _) = true
    have head : isUnmarked ("let " ++ declared.name) = true := isUnmarked_append (by decide) named.name
    split
    · exact head
    · exact isUnmarked_append (isUnmarked_append head (by decide)) given
  const named given :=
    isUnmarked_append (isUnmarked_append (isUnmarked_append (by decide) named.name) (by decide)) given
  func {name args result body} named slots _ written := by
    refine isUnmarked_append (isUnmarked_append (isUnmarked_append (isUnmarked_append (isUnmarked_append
      (by decide) named) (by decide)) (Text.isUnmarked_intercalate (by decide) ?_)) (by decide))
      (unmarked_block written)
    refine List.forall_mem_map.mpr fun arg member => ?_
    obtain ⟨declared, given⟩ := slots arg member
    unfold javaScriptArg
    split
    · exact declared.name
    · exact isUnmarked_append (isUnmarked_append declared.name (by decide)) given
  record _ _ := rfl

theorem assemblyScript_unmarked : assemblyScript.Unmarked where
  var named given := isUnmarked_append (by decide) (unmarked_typedWithValue named given)
  const named given := isUnmarked_append (isUnmarked_append (isUnmarked_append (by decide)
    (unmarked_typed named)) (by decide)) given
  func {name args result body} named slots typed written := by
    have head : isUnmarked (signature (args.map typedWithValue) result) = true :=
      unmarked_signature (List.forall_mem_map.mpr fun arg member =>
        unmarked_typedWithValue (slots arg member).1 (slots arg member).2) typed
    change isUnmarked (if name = "" then _ else _) = true
    split
    · exact isUnmarked_append (isUnmarked_append head (by decide)) (unmarked_block written)
    · exact isUnmarked_append (isUnmarked_append (isUnmarked_append (by decide) named) head)
        (unmarked_block written)
  record {name members} named slots := by
    have head : isUnmarked ("class " ++ name) = true := isUnmarked_append (by decide) named
    change isUnmarked (if members.isEmpty then _ else _) = true
    split
    · exact isUnmarked_append head (by decide)
    · refine isUnmarked_append (isUnmarked_append (isUnmarked_append head (by decide))
        (Text.isUnmarked_intercalate (by decide) ?_)) (by decide)
      exact List.forall_mem_map.mpr fun slot member =>
        unmarked_typedWithValue (slots slot member).1 (slots slot member).2

end Dialect

mutual

theorem render_unmarked (writes : dialect.Unmarked) : (part : Part) → part.Unmarked →
    Ensures (render dialect part) fun text => isUnmarked text = true
  | .text value, unmarked => by
      rw [Part.Unmarked] at unmarked
      rw [render]
      exact unmarked
  | .missing _, _ => by
      rw [render]
      exact rfl
  | .sequence content, unmarked => by
      rw [Part.Unmarked] at unmarked
      rw [render]
      exact renderAll_unmarked writes content unmarked
  | .var declared none, unmarked => by
      rw [Part.Unmarked] at unmarked
      rw [render]
      exact writes.var unmarked rfl
  | .var declared (some value), unmarked => by
      rw [Part.Unmarked] at unmarked
      rw [render]
      exact (renderAll_unmarked writes value unmarked.2).inContext.bind fun text _ written =>
        writes.var unmarked.1 written
  | .const declared none, _ => by
      rw [render]
      trivial
  | .const declared (some value), unmarked => by
      rw [Part.Unmarked] at unmarked
      rw [render]
      split
      · trivial
      · exact (renderAll_unmarked writes value unmarked.2).inContext.bind fun text _ written =>
          writes.const unmarked.1 written
  | .func name args result body, unmarked => by
      rw [Part.Unmarked] at unmarked
      obtain ⟨named, slots, typed, unmarked⟩ := unmarked
      rw [render]
      exact (renderArgs_unmarked writes args slots).bind fun arguments _ given =>
        (renderAll_unmarked writes body unmarked).inContext.bind fun text _ written =>
          writes.func named given typed written
  | .record name members, unmarked => by
      rw [Part.Unmarked] at unmarked
      rw [render]
      exact (renderMembers_unmarked writes name members unmarked.2).bind fun rendered _ given =>
        writes.record unmarked.1 given
  | .absent, _ | .number _, _ | .single _, _ | .integer _, _ | .wide _, _ | .flag _, _ | .list .., _ => by
      rw [render]
      trivial

theorem renderAll_unmarked (writes : dialect.Unmarked) : (parts : List Part) → AllUnmarked parts →
    Ensures (renderAll dialect parts) fun text => isUnmarked text = true
  | [], _ => by
      rw [renderAll]
      exact rfl
  | part :: rest, unmarked => by
      rw [AllUnmarked] at unmarked
      rw [renderAll]
      exact (render_unmarked writes part unmarked.1).bind fun first _ written =>
        (renderAll_unmarked writes rest unmarked.2).bind fun others _ later => isUnmarked_append written later

theorem renderArgs_unmarked (writes : dialect.Unmarked) : (args : List (TypedName × Option (List Part))) →
    SlotsUnmarked args → Ensures (renderArgs dialect args) fun rendered =>
      ∀ arg ∈ rendered, arg.1.Unmarked ∧ isUnmarked arg.2 = true
  | [], _ => by
      rw [renderArgs]
      exact fun _ member => absurd member List.not_mem_nil
  | (declared, none) :: rest, unmarked => by
      rw [SlotsUnmarked] at unmarked
      rw [renderArgs]
      exact (renderArgs_unmarked writes rest unmarked.2).bind fun others _ later =>
        List.forall_mem_cons.mpr ⟨⟨unmarked.1, rfl⟩, later⟩
  | (declared, some value) :: rest, unmarked => by
      rw [SlotsUnmarked] at unmarked
      rw [renderArgs]
      exact (renderAll_unmarked writes value unmarked.2.1).inContext.bind fun text _ written =>
        (renderArgs_unmarked writes rest unmarked.2.2).bind fun others _ later =>
          List.forall_mem_cons.mpr ⟨⟨unmarked.1, written⟩, later⟩

theorem renderMembers_unmarked (writes : dialect.Unmarked) (record : String) :
    (members : List (TypedName × Option (List Part))) → SlotsUnmarked members →
      Ensures (renderMembers dialect record members) fun rendered =>
        ∀ member ∈ rendered, member.1.Unmarked ∧ isUnmarked member.2 = true
  | [], _ => by
      rw [renderMembers]
      exact fun _ member => absurd member List.not_mem_nil
  | (declared, none) :: rest, unmarked => by
      rw [SlotsUnmarked] at unmarked
      rw [renderMembers]
      exact (renderMembers_unmarked writes record rest unmarked.2).bind fun others _ later =>
        List.forall_mem_cons.mpr ⟨⟨unmarked.1, rfl⟩, later⟩
  | (declared, some value) :: rest, unmarked => by
      rw [SlotsUnmarked] at unmarked
      rw [renderMembers]
      exact (renderAll_unmarked writes value unmarked.2.1).inContext.bind fun text _ written =>
        (renderMembers_unmarked writes record rest unmarked.2.2).bind fun others _ later =>
          List.forall_mem_cons.mpr ⟨⟨unmarked.1, written⟩, later⟩

end

/-! ## Templates -/

mutual

/-- Whether all fixed texts of a template are unmarked at a node. -/
def Template.isUnmarked (node : Node) : Template → Bool
  | .text value => Text.isUnmarked value
  | .textArg name fallback => Text.isUnmarked (node.textArg name fallback)
  | .list _ items => areUnmarked node items
  | .code parts | .lines parts | .raw parts => areUnmarked node parts
  | .var type name value | .const type name value =>
      type.isUnmarked node && (name.isUnmarked node && areUnmarked node value)
  | .func name args result body =>
      name.isUnmarked node && (argsUnmarked node args && (result.isUnmarked node && areUnmarked node body))
  | .record name members => name.isUnmarked node && membersUnmarked node members
  | .absent | .number _ | .single _ | .integer _ | .wide _ | .flag _ | .missing _ | .portlet .. | .state
  | .own _ | .shared .. | .ahead _ | .floatArg .. => true

def areUnmarked (node : Node) : List Template → Bool
  | [] => true
  | template :: rest => template.isUnmarked node && areUnmarked node rest

def argsUnmarked (node : Node) : List (Template × Template × Option (List Template)) → Bool
  | [] => true
  | (type, name, none) :: rest => type.isUnmarked node && (name.isUnmarked node && argsUnmarked node rest)
  | (type, name, some value) :: rest => type.isUnmarked node &&
      (name.isUnmarked node && (areUnmarked node value && argsUnmarked node rest))

def membersUnmarked (node : Node) : List (Template × Template × List Template) → Bool
  | [] => true
  | (type, name, value) :: rest => type.isUnmarked node &&
      (name.isUnmarked node && (areUnmarked node value && membersUnmarked node rest))

end

theorem areUnmarked_iff {node : Node} {templates : List Template} :
    areUnmarked node templates = true ↔ ∀ template ∈ templates, template.isUnmarked node = true := by
  induction templates with
  | nil => simp [areUnmarked]
  | cons template rest ih => simp [areUnmarked, ih]

/-- Everything that a scope puts in the place of a hole is unmarked. -/
structure Scope.Unmarked (scope : Scope) : Prop where
  state : isUnmarked scope.state = true
  portlets : ∀ wiring, (scope.portlets wiring).Every fun _ code => isUnmarked code = true

/-- Every name is unmarked. -/
def Naming.Unmarked (naming : Naming) : Prop := ∀ space key, isUnmarked (naming space key) = true

variable {scope : Scope} {naming : Naming}

mutual

theorem Template.unmarked_resolve (wired : scope.Unmarked) (named : naming.Unmarked) :
    (template : Template) → template.isUnmarked scope.node = true → (template.resolve scope naming).Unmarked
  | .text _, unmarked | .textArg .., unmarked => by
      rw [Template.isUnmarked] at unmarked
      rw [Template.resolve, Part.Unmarked]
      exact unmarked
  | .list _ items, unmarked => by
      rw [Template.isUnmarked] at unmarked
      rw [Template.resolve, Part.Unmarked]
      exact unmarked_resolveAll wired named items unmarked
  | .code parts, unmarked => by
      rw [Template.isUnmarked] at unmarked
      rw [Template.resolve, Part.Unmarked]
      exact unmarked_code (unmarked_resolveAll wired named parts unmarked)
  | .lines parts, unmarked => by
      rw [Template.isUnmarked] at unmarked
      rw [Template.resolve, Part.Unmarked]
      exact unmarked_lines (unmarked_resolveAll wired named parts unmarked)
  | .raw parts, unmarked => by
      rw [Template.isUnmarked] at unmarked
      rw [Template.resolve, Part.Unmarked]
      exact unmarked_resolveAll wired named parts unmarked
  | .var type name value, unmarked => by
      simp only [Template.isUnmarked, Bool.and_eq_true] at unmarked
      rw [Template.resolve]
      exact unmarked_var (unmarked_plainText (name.unmarked_resolve wired named unmarked.2.1))
        (unmarked_plainText (type.unmarked_resolve wired named unmarked.1))
        (unmarked_resolveAll wired named value unmarked.2.2)
  | .const type name value, unmarked => by
      simp only [Template.isUnmarked, Bool.and_eq_true] at unmarked
      rw [Template.resolve]
      exact unmarked_const (unmarked_plainText (name.unmarked_resolve wired named unmarked.2.1))
        (unmarked_plainText (type.unmarked_resolve wired named unmarked.1))
        (unmarked_resolveAll wired named value unmarked.2.2)
  | .func name args result body, unmarked => by
      simp only [Template.isUnmarked, Bool.and_eq_true] at unmarked
      rw [Template.resolve]
      exact unmarked_func (unmarked_plainText (name.unmarked_resolve wired named unmarked.1))
        (unmarked_resolveArgs wired named args unmarked.2.1)
        (unmarked_plainText (result.unmarked_resolve wired named unmarked.2.2.1))
        (unmarked_resolveAll wired named body unmarked.2.2.2)
  | .record name members, unmarked => by
      simp only [Template.isUnmarked, Bool.and_eq_true] at unmarked
      rw [Template.resolve, Part.Unmarked]
      exact ⟨unmarked_plainText (name.unmarked_resolve wired named unmarked.1),
        unmarked_resolveMembers wired named members unmarked.2⟩
  | .portlet wiring id, _ => by
      rw [Template.resolve, Part.Unmarked]
      exact (wired.portlets wiring).getD rfl
  | .state, _ => by
      rw [Template.resolve, Part.Unmarked]
      exact wired.state
  | .own _, _ | .shared .., _ => by
      rw [Template.resolve, Part.Unmarked]
      exact named _ _
  | .absent, _ | .number _, _ | .single _, _ | .integer _, _ | .wide _, _ | .flag _, _ | .missing _, _
  | .ahead _, _ | .floatArg .., _ => by
      rw [Template.resolve, Part.Unmarked]
      trivial

theorem unmarked_resolveAll (wired : scope.Unmarked) (named : naming.Unmarked) :
    (templates : List Template) → areUnmarked scope.node templates = true →
      AllUnmarked (resolveAll scope naming templates)
  | [], _ => by simp [resolveAll, AllUnmarked]
  | template :: rest, unmarked => by
      rw [areUnmarked, Bool.and_eq_true] at unmarked
      rw [resolveAll, AllUnmarked]
      exact ⟨template.unmarked_resolve wired named unmarked.1,
        unmarked_resolveAll wired named rest unmarked.2⟩

theorem unmarked_resolveArgs (wired : scope.Unmarked) (named : naming.Unmarked) :
    (args : List (Template × Template × Option (List Template))) →
      argsUnmarked scope.node args = true → SlotsUnmarked (resolveArgs scope naming args)
  | [], _ => by simp [resolveArgs, SlotsUnmarked]
  | (type, name, none) :: rest, unmarked => by
      simp only [argsUnmarked, Bool.and_eq_true] at unmarked
      rw [resolveArgs, arg, SlotsUnmarked]
      exact ⟨⟨unmarked_plainText (name.unmarked_resolve wired named unmarked.2.1),
        unmarked_plainText (type.unmarked_resolve wired named unmarked.1)⟩,
        unmarked_resolveArgs wired named rest unmarked.2.2⟩
  | (type, name, some value) :: rest, unmarked => by
      simp only [argsUnmarked, Bool.and_eq_true] at unmarked
      rw [resolveArgs, argWithDefault, SlotsUnmarked]
      exact ⟨⟨unmarked_plainText (name.unmarked_resolve wired named unmarked.2.1),
        unmarked_plainText (type.unmarked_resolve wired named unmarked.1)⟩,
        unmarked_code (unmarked_resolveAll wired named value unmarked.2.2.1),
        unmarked_resolveArgs wired named rest unmarked.2.2.2⟩

theorem unmarked_resolveMembers (wired : scope.Unmarked) (named : naming.Unmarked) :
    (members : List (Template × Template × List Template)) →
      membersUnmarked scope.node members = true → SlotsUnmarked (resolveMembers scope naming members)
  | [], _ => by simp [resolveMembers, SlotsUnmarked]
  | (type, name, value) :: rest, unmarked => by
      simp only [membersUnmarked, Bool.and_eq_true] at unmarked
      have declared : TypedName.Unmarked ⟨(name.resolve scope naming).plainText,
          (type.resolve scope naming).plainText⟩ :=
        ⟨unmarked_plainText (name.unmarked_resolve wired named unmarked.2.1),
          unmarked_plainText (type.unmarked_resolve wired named unmarked.1)⟩
      have later := unmarked_resolveMembers wired named rest unmarked.2.2.2
      rw [resolveMembers, member]
      cases given : valueOf (resolveAll scope naming value) with
      | none =>
          rw [SlotsUnmarked]
          exact ⟨declared, later⟩
      | some written =>
          rw [SlotsUnmarked]
          exact ⟨declared, unmarked_valueOf (unmarked_resolveAll wired named value unmarked.2.2.1) given,
            later⟩

end

/-- A template of a function with unmarked texts. -/
def FunctionTemplate.isUnmarked (node : Node) (template : FunctionTemplate) : Bool :=
  (Template.func template.name template.args template.result template.body).isUnmarked node

theorem FunctionTemplate.unmarked_resolve (wired : scope.Unmarked) (named : naming.Unmarked)
    {template : FunctionTemplate} (unmarked : template.isUnmarked scope.node = true) :
    (Part.ofFunction (template.resolve scope naming)).Unmarked := by
  have resolved := Template.unmarked_resolve wired named _ unmarked
  rw [Template.resolve] at resolved
  exact resolved

def RecordTemplate.isUnmarked (node : Node) (template : RecordTemplate) : Bool :=
  (Template.record template.name template.members).isUnmarked node

theorem RecordTemplate.unmarked_resolve (wired : scope.Unmarked) (named : naming.Unmarked)
    {template : RecordTemplate} (unmarked : template.isUnmarked scope.node = true) :
    (Part.ofRecord (template.resolve scope naming)).Unmarked := by
  have resolved := Template.unmarked_resolve wired named _ unmarked
  rw [Template.resolve] at resolved
  exact resolved

-- Without this the elaborator evaluates the code in a goal when it looks for arguments to introduce.
attribute [irreducible] Part.Unmarked AllUnmarked SlotsUnmarked

end Patchbay.Code
