import Patchbay.Code.Dialect
import Patchbay.Proofs.Code.NormalForm

namespace Patchbay

/-! Where rendering fails.

The only fault that code put together by `code`, `lines` and the declarations can have is a constant without
a value.  `Part.constants` lists the constants of a tree in the order in which rendering comes upon them, each
with the labels of the declarations that it stands in.  Rendering goes through that list, whatever the
language: it fails at the first constant without a value, and succeeds where there is none.
-/

/-- A fault in the contexts of these operations, the first of which is the outermost. -/
def Fault.under (contexts : List String) (cause : Fault) : Fault := contexts.foldr Fault.within cause

theorem Fault.message_within (context : String) (cause : Fault) :
    (Fault.within context cause).message = context ++ ": " ++ cause.message := rfl

theorem Fault.message_under (contexts : List String) (cause : Fault) :
    (Fault.under contexts cause).message = String.intercalate ": " (contexts ++ [cause.message]) := by
  induction contexts with
  | nil => simp [under]
  | cons context rest ih =>
      rw [List.cons_append, String.intercalate_cons_of_ne_nil (by simp), ← ih]
      exact message_within context (under rest cause)

namespace Code

variable {dialect : Dialect} {part : Part} {parts : List Part}

/-- A constant in a tree of code.  Every declaration around it gives one label, which says where in the
declaration it stands; the first label belongs to the outermost one. -/
structure PlacedConstant where
  labels : List String
  declared : TypedName
  value : Option Sequence

namespace PlacedConstant

def isBare (constant : PlacedConstant) : Bool := constant.value.all Sequence.isEmpty

def within (label : String) (constant : PlacedConstant) : PlacedConstant :=
  { constant with labels := label :: constant.labels }

def label (constant : PlacedConstant) : String := s!"constant {constant.declared.name}"

/-- The fault that rendering ends with at a constant without a value. -/
def fault (constant : PlacedConstant) : Fault :=
  Fault.under (constant.labels ++ [constant.label]) .missingInitializer

end PlacedConstant

mutual

/-- The constants of a tree, in the order in which they are rendered: a constant before those in its own
value, the arguments of a function before its body. -/
@[simp]
def Part.constants : Part → List PlacedConstant
  | .sequence content => constantsOf content
  | .var declared (some value) =>
      (constantsOf value).map (.within s!"variable {declared.name}")
  | .const declared none => [⟨[], declared, none⟩]
  | .const declared (some value) =>
      ⟨[], declared, some value⟩ :: (constantsOf value).map (.within s!"constant {declared.name}")
  | .func name args _ body =>
      constantsOfSlots (fun declared => s!"default of argument {declared.name}") args ++
        (constantsOf body).map (.within s!"function {functionLabel name}")
  | .record name members =>
      constantsOfSlots (fun declared => s!"member {declared.name} of {name}") members
  | _ => []

@[simp]
def constantsOf : List Part → List PlacedConstant
  | [] => []
  | part :: rest => part.constants ++ constantsOf rest

@[simp]
def constantsOfSlots (context : TypedName → String) :
    List (TypedName × Option (List Part)) → List PlacedConstant
  | [] => []
  | (_, none) :: rest => constantsOfSlots context rest
  | (declared, some value) :: rest =>
      (constantsOf value).map (.within (context declared)) ++ constantsOfSlots context rest

end

/-! ## Coming upon constants -/

/-- How an operation ends that comes upon these constants, one after the other. -/
inductive Meets : Outcome α → List PlacedConstant → Prop
  | finishes {constants : List PlacedConstant} (result : α)
      (given : constants.find? PlacedConstant.isBare = none) : Meets (.ok result) constants
  | fails {constants : List PlacedConstant} {constant : PlacedConstant}
      (found : constants.find? PlacedConstant.isBare = some constant) :
      Meets (.error constant.fault) constants

section Meets

variable {α β : Type} {first : Outcome α} {next : α → Outcome β} {outcome : Outcome α}
  {front back constants : List PlacedConstant}

theorem meets_pure (result : α) : Meets (pure result) [] := .finishes result rfl

theorem meets_bare (constant : PlacedConstant) (bare : constant.isBare = true) :
    Meets (.error constant.fault : Outcome α) (constant :: constants) :=
  .fails (List.find?_cons_of_pos bare)

/-- Only the first constant without a value matters. -/
theorem Meets.of_find? (ran : Meets outcome front)
    (same : back.find? PlacedConstant.isBare = front.find? PlacedConstant.isBare) : Meets outcome back := by
  cases ran with
  | finishes result given => exact .finishes result (same.trans given)
  | fails found => exact .fails (same.trans found)

theorem Meets.given {constant : PlacedConstant} (ran : Meets outcome constants)
    (given : constant.isBare = false) : Meets outcome (constant :: constants) :=
  ran.of_find? (List.find?_cons_of_neg (by simp [given]))

theorem Meets.bind (ran : Meets first front) (continued : ∀ value, Meets (next value) back) :
    Meets (first >>= next) (front ++ back) := by
  cases ran with
  | finishes value given =>
      exact (continued value).of_find? (by rw [List.find?_append, given, Option.none_or])
  | fails found => exact .fails (by rw [List.find?_append, found, Option.some_or])

/-- A last step that only puts the result together. -/
theorem Meets.map (ran : Meets first front) (result : α → β) :
    Meets (first >>= fun value => pure (result value)) front := by
  have ended := ran.bind fun value => meets_pure (result value)
  rwa [List.append_nil] at ended

theorem find?_map_within (label : String) : (constants.map (.within label)).find? PlacedConstant.isBare =
    (constants.find? PlacedConstant.isBare).map (.within label) :=
  List.find?_map ..

theorem Meets.inContext (label : String) (ran : Meets outcome constants) :
    Meets (outcome.inContext label) (constants.map (.within label)) := by
  cases ran with
  | finishes value given => exact .finishes value (by rw [find?_map_within, given, Option.map_none])
  | @fails _ constant found =>
      have placed : (constants.map (.within label)).find? PlacedConstant.isBare =
          some (constant.within label) := by
        rw [find?_map_within, found, Option.map_some]
      exact .fails placed

theorem Meets.error_iff (ran : Meets outcome constants) {fault : Fault} : outcome = .error fault ↔
    ∃ constant, constants.find? PlacedConstant.isBare = some constant ∧ fault = constant.fault := by
  cases ran with
  | finishes value given => simp [given]
  | fails found => simp [found, eq_comm]

end Meets

/-! ## Rendering -/

/-- Rendering a part ends as its constants say. -/
def Part.Accounted (dialect : Dialect) (part : Part) : Prop := Meets (render dialect part) part.constants

theorem accounted_sequence_iff {content : Sequence} : (Part.sequence content).Accounted dialect ↔
    Meets (renderAll dialect content) (constantsOf content) := by
  rw [Part.Accounted, render, Part.constants]

/-- The same for the values of arguments or members. -/
def SlotsAccounted (dialect : Dialect) (slots : List Slot) : Prop :=
  ∀ slot ∈ slots, ∀ value, slot.2 = some value → (Part.sequence value).Accounted dialect

theorem meets_renderAll (all : ∀ part ∈ parts, part.Accounted dialect) :
    Meets (renderAll dialect parts) (constantsOf parts) := by
  induction parts with
  | nil =>
      rw [renderAll, constantsOf]
      exact meets_pure ""
  | cons part rest ih =>
      obtain ⟨own, others⟩ := List.forall_mem_cons.mp all
      rw [renderAll, constantsOf]
      exact Meets.bind own fun first => (ih others).map (first ++ ·)

theorem meets_renderSlots (context : TypedName → String) {slots : List Slot}
    (all : SlotsAccounted dialect slots) :
    Meets (slots.mapM (renderSlot dialect context)) (constantsOfSlots context slots) := by
  induction slots with
  | nil =>
      rw [constantsOfSlots]
      exact meets_pure []
  | cons slot rest ih =>
      obtain ⟨own, others⟩ := List.forall_mem_cons.mp all
      obtain ⟨declared, given⟩ := slot
      cases given with
      | none =>
          rw [List.mapM_cons, renderSlot, constantsOfSlots, pure_bind]
          exact (ih others).map ((declared, "") :: ·)
      | some value =>
          have inside := (accounted_sequence_iff.mp (own value rfl)).inContext (context declared)
          rw [List.mapM_cons, renderSlot, constantsOfSlots]
          exact (inside.map (declared, ·)).bind fun first => (ih others).map (first :: ·)

theorem accounted_text (value : String) : (Part.text value).Accounted dialect := by
  rw [Part.Accounted, render, Part.constants]
  · exact meets_pure value
  all_goals simp

theorem accounted_sequence_code
    (all : ∀ declaration ∈ declarations (code parts), declaration.Accounted dialect) :
    (Part.sequence (code parts)).Accounted dialect := by
  refine accounted_sequence_iff.mpr (meets_renderAll ?_)
  refine forall_mergeTexts (fun _ _ => accounted_text _) fun piece member => ?_
  rcases content_piecesOf parts piece member with isText | isDeclaration
  · cases piece with
    | text value => exact accounted_text value
    | _ => cases isText
  · refine all piece ?_
    rw [code, declarations_mergeTexts]
    exact List.mem_filter.mpr ⟨member, isDeclaration⟩

theorem accounted_var {declared : TypedName} {given : Option Sequence}
    (inside : ∀ value, given = some value → (Part.sequence value).Accounted dialect) :
    (Part.var declared given).Accounted dialect := by
  cases given with
  | none =>
      rw [Part.Accounted, render, Part.constants]
      · exact meets_pure _
      all_goals simp
  | some value =>
      rw [Part.Accounted, render, Part.constants]
      exact ((accounted_sequence_iff.mp (inside value rfl)).inContext _).map _

theorem accounted_const {declared : TypedName} {given : Option Sequence}
    (inside : ∀ value, given = some value → (Part.sequence value).Accounted dialect) :
    (Part.const declared given).Accounted dialect := by
  cases given with
  | none =>
      rw [Part.Accounted, render, Part.constants]
      exact meets_bare ⟨[], declared, none⟩ rfl
  | some value =>
      rw [Part.Accounted, render, Part.constants]
      split
      · next isEmpty => exact meets_bare ⟨[], declared, some value⟩ isEmpty
      · next notEmpty =>
        refine Meets.given ?_ (by simpa [PlacedConstant.isBare] using notEmpty)
        exact ((accounted_sequence_iff.mp (inside value rfl)).inContext _).map _

theorem accounted_func {name result : String} {args : List Slot} {body : Sequence}
    (inArgs : SlotsAccounted dialect args) (inBody : (Part.sequence body).Accounted dialect) :
    (Part.func name args result body).Accounted dialect := by
  rw [Part.Accounted, render, Part.constants, renderArgs_eq_mapM]
  exact (meets_renderSlots _ inArgs).bind fun arguments =>
    ((accounted_sequence_iff.mp inBody).inContext _).map _

theorem accounted_record {name : String} {members : List Slot} (inMembers : SlotsAccounted dialect members) :
    (Part.record name members).Accounted dialect := by
  rw [Part.Accounted, render, Part.constants, renderMembers_eq_mapM]
  exact (meets_renderSlots _ inMembers).map _

/-! ## Code put together by the constructors -/

/-- Elements that were put together by `code`, `lines` and the declarations.  Texts, numbers, lists and
nested sequences may be given as they are; the declarations among them were put together in the same way. -/
inductive Part.Built : Part → Prop
  | code {parts : List Part}
      (all : ∀ declaration ∈ declarations (Code.code parts), declaration.Built) :
      Built (.sequence (Code.code parts))
  | lines {parts : List Part}
      (all : ∀ declaration ∈ declarations (Code.lines parts), declaration.Built) :
      Built (.sequence (Code.lines parts))
  | var (type name : String) {value : List Part}
      (all : ∀ declaration ∈ declarations (Code.code value), declaration.Built) :
      Built (Code.var type name value)
  | const (type name : String) {value : List Part}
      (all : ∀ declaration ∈ declarations (Code.code value), declaration.Built) :
      Built (Code.const type name value)
  | func (name result : String) {args : List Slot} {body : List Part}
      (inArgs : ∀ slot ∈ args, ∀ value, slot.2 = some value → (Part.sequence value).Built)
      (all : ∀ declaration ∈ declarations (Code.code body), declaration.Built) :
      Built (.ofFunction (Code.func name args result body))
  | record (name : String) {members : List Slot}
      (inMembers : ∀ slot ∈ members, ∀ value, slot.2 = some value → (Part.sequence value).Built) :
      Built (.record name members)

theorem Part.Built.accounted (built : part.Built) (dialect : Dialect) : part.Accounted dialect := by
  induction built with
  | code _ ih => exact accounted_sequence_code ih
  | lines _ ih => exact accounted_sequence_code ih
  | var type name _ ih =>
      refine accounted_var fun value given => ?_
      rw [eq_code_of_valueOf given]
      exact accounted_sequence_code ih
  | const type name _ ih =>
      refine accounted_const fun value given => ?_
      rw [eq_code_of_valueOf given]
      exact accounted_sequence_code ih
  | func name result _ _ inArgs ih => exact accounted_func inArgs (accounted_sequence_code ih)
  | record name _ inMembers => exact accounted_record inMembers

/-- Rendering ends alike in all languages.  It fails if and only if some constant of the tree has no value,
and the fault is that of the first one, in the contexts that the declarations around it give. -/
theorem rendering_fails_at_bare_constant (built : part.Built) :
    (∀ (first second : Dialect) (fault : Fault),
      render first part = .error fault ↔ render second part = .error fault) ∧
    ∀ dialect : Dialect,
      ((∃ fault, render dialect part = .error fault) ↔
        ∃ constant ∈ part.constants, constant.isBare = true) ∧
      ∀ fault, render dialect part = .error fault →
        ∃ constant, part.constants.find? PlacedConstant.isBare = some constant ∧
          fault = Fault.under (constant.labels ++ [constant.label]) .missingInitializer ∧
          fault.message = String.intercalate ": "
            (constant.labels ++ [constant.label, "constant declared without initializer"]) := by
  refine ⟨fun first second fault => ?_, fun dialect => ⟨?_, fun fault failed => ?_⟩⟩
  · exact (built.accounted first).error_iff.trans (built.accounted second).error_iff.symm
  · constructor
    · rintro ⟨fault, failed⟩
      obtain ⟨constant, found, _⟩ := (built.accounted dialect).error_iff.mp failed
      exact ⟨constant, List.mem_of_find?_eq_some found, List.find?_some found⟩
    · rintro ⟨constant, member, bare⟩
      obtain ⟨first, found⟩ :=
        Option.isSome_iff_exists.mp (List.find?_isSome.mpr ⟨constant, member, bare⟩)
      exact ⟨first.fault, (built.accounted dialect).error_iff.mpr ⟨first, found, rfl⟩⟩
  · obtain ⟨constant, found, rfl⟩ := (built.accounted dialect).error_iff.mp failed
    refine ⟨constant, found, rfl, ?_⟩
    rw [PlacedConstant.fault, Fault.message_under, List.append_assoc]
    rfl

/-- A function that returns a function, in which a constant has no value. -/
def returningBare : Part :=
  .ofFunction (func "f" [argWithDefault "Int" "n" ["1"]] "void"
    ["return ", .ofFunction (func "" [] "Int" [const "Int" "k"])])

theorem returningBare_built : returningBare.Built := by
  refine .func "f" "void" ?_ ?_
  · intro slot member value given
    cases List.mem_singleton.mp member
    cases given
    exact .code fun declaration member => absurd member List.not_mem_nil
  · refine List.forall_mem_singleton.mpr (.func "" "Int" (by simp) ?_)
    refine List.forall_mem_singleton.mpr (.const "Int" "k" ?_)
    exact fun declaration member => absurd member List.not_mem_nil

theorem returningBare_fails : returningBare.Built ∧ ∃ fault,
    render .javaScript returningBare = .error fault ∧
    render .assemblyScript returningBare = .error fault ∧
    fault.message =
      "function f: function <anonymous>: constant k: constant declared without initializer" := by
  obtain ⟨alike, ends⟩ := rendering_fails_at_bare_constant returningBare_built
  obtain ⟨fails, explained⟩ := ends .javaScript
  obtain ⟨fault, failed⟩ := fails.mpr ⟨_, List.mem_cons_self .., rfl⟩
  obtain ⟨constant, found, _, message⟩ := explained fault failed
  refine ⟨returningBare_built, fault, failed, (alike _ _ fault).mp failed, ?_⟩
  cases found
  exact message.trans (by decide)

end Code

end Patchbay
