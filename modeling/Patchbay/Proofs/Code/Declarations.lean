import Patchbay.Proofs.Code.Fill

namespace Patchbay.Code

/-! Declarations in code.

Concatenating parts merges and drops texts, but it keeps every declaration, in order.  What a filled
template declares can therefore be read off the template.
-/

variable {parts : List Part} {part : Part}

def Part.isDeclaration : Part → Bool
  | .var .. | .const .. | .func .. | .record .. => true
  | _ => false

/-- The declarations that stand at the top level of a sequence. -/
def declarations (sequence : Sequence) : List Part := sequence.filter Part.isDeclaration

@[simp]
theorem declarations_nil : declarations [] = [] := rfl

@[simp]
theorem declarations_append (first second : Sequence) :
    declarations (first ++ second) = declarations first ++ declarations second :=
  List.filter_append ..

@[simp]
theorem declarations_text (value : String) (rest : Sequence) :
    declarations (.text value :: rest) = declarations rest := rfl

theorem declarations_cons (part : Part) (rest : Sequence) :
    declarations (part :: rest) = declarations [part] ++ declarations rest :=
  declarations_append [part] rest

@[simp]
theorem declarations_prependText (value : String) (sequence : Sequence) :
    declarations (prependText value sequence) = declarations sequence := by
  unfold prependText
  split <;> rfl

@[simp]
theorem declarations_mergeTexts (parts : List Part) :
    declarations (mergeTexts parts) = declarations parts := by
  induction parts with
  | nil => rfl
  | cons part rest ih =>
      cases part with
      | text value =>
          unfold mergeTexts
          split
          · exact ih
          · rw [declarations_prependText, ih, declarations_text]
      | _ =>
          unfold mergeTexts
          rw [declarations_cons, ih, ← declarations_cons]

theorem declarations_piecesOf (parts : List Part) :
    declarations (piecesOf parts) = parts.flatMap fun part => declarations part.pieces := by
  induction parts with
  | nil => rfl
  | cons part rest ih => rw [piecesOf, declarations_append, ih, List.flatMap_cons]

theorem declarations_code (parts : List Part) :
    declarations (code parts) = parts.flatMap fun part => declarations part.pieces := by
  unfold code
  rw [declarations_mergeTexts, declarations_piecesOf]

theorem flatMap_separate (parts : List Part) :
    ((separate parts).flatMap fun part => declarations part.pieces) =
      parts.flatMap fun part => declarations part.pieces := by
  match parts with
  | [] => rfl
  | [part] => rfl
  | part :: next :: rest =>
      have ih := flatMap_separate (next :: rest)
      simp only [separate, List.flatMap_cons] at ih ⊢
      rw [ih]
      simp [Part.pieces]

theorem pieces_of_isAbsent (absent : part.isAbsent = true) : part.pieces = [] := by
  cases part <;> first | rfl | cases absent

theorem declarations_lines (parts : List Part) :
    declarations (lines parts) = parts.flatMap fun part => declarations part.pieces := by
  unfold lines
  rw [declarations_code, flatMap_separate]
  induction parts with
  | nil => rfl
  | cons part rest ih =>
      rw [List.filter_cons, List.flatMap_cons]
      cases absent : part.isAbsent with
      | true => simpa [pieces_of_isAbsent absent] using ih
      | false => simpa using ih

/-- Where all parts are declarations, these are the declarations. -/
theorem declarations_lines_of_all (all : ∀ part ∈ parts, part.isDeclaration = true) :
    declarations (lines parts) = parts := by
  rw [declarations_lines]
  induction parts with
  | nil => rfl
  | cons part rest ih =>
      have own : declarations part.pieces = [part] := by
        have isDeclaration := all part (List.mem_cons_self ..)
        cases part <;> first | rfl | cases isDeclaration
      rw [List.flatMap_cons, own, ih fun other member => all other (List.mem_cons_of_mem _ member)]
      rfl

/-! ## Sequences in sequences -/

mutual

/-- What a part contributes is not taken apart any further. -/
theorem Part.pieces_of_mem_pieces : (part : Part) → ∀ piece ∈ part.pieces, piece.pieces = [piece]
  | .absent | .missing _ => by simp [Part.pieces]
  | .text _ | .number _ | .single _ | .integer _ | .wide _ | .flag _ | .var .. | .const ..
  | .func .. | .record .. => by simp [Part.pieces]
  | .list _ items => by
      rw [Part.pieces]
      exact pieces_of_mem_piecesOf items
  | .sequence content => by
      rw [Part.pieces]
      exact pieces_of_mem_piecesOf content

theorem pieces_of_mem_piecesOf :
    (parts : List Part) → ∀ piece ∈ piecesOf parts, piece.pieces = [piece]
  | [] => by simp [piecesOf]
  | part :: rest => by
      intro piece member
      rw [piecesOf] at member
      exact (List.mem_append.mp member).elim (part.pieces_of_mem_pieces piece)
        (pieces_of_mem_piecesOf rest piece)

end

theorem pieces_of_mem_mergeTexts (flat : ∀ part ∈ parts, part.pieces = [part]) :
    ∀ part ∈ mergeTexts parts, part.pieces = [part] := by
  induction parts with
  | nil => simp [mergeTexts]
  | cons first rest ih =>
      have later := ih fun part member => flat part (List.mem_cons_of_mem _ member)
      cases first with
      | text value =>
          unfold mergeTexts
          split
          · exact later
          · intro part member
            unfold prependText at member
            split at member
            · next next others merged =>
              rcases List.mem_cons.mp member with rfl | inRest
              · rfl
              · exact later part (merged ▸ List.mem_cons_of_mem _ inRest)
            · rcases List.mem_cons.mp member with rfl | inRest
              · rfl
              · exact later part inRest
      | _ =>
          unfold mergeTexts
          intro part member
          rcases List.mem_cons.mp member with rfl | inRest
          · exact flat _ (List.mem_cons_self ..)
          · exact later part inRest

theorem piecesOf_eq_self (flat : ∀ part ∈ parts, part.pieces = [part]) : piecesOf parts = parts := by
  induction parts with
  | nil => rfl
  | cons part rest ih =>
      rw [piecesOf, flat part (List.mem_cons_self ..),
        ih fun other member => flat other (List.mem_cons_of_mem _ member)]
      rfl

@[simp]
theorem piecesOf_code (parts : List Part) : piecesOf (code parts) = code parts :=
  piecesOf_eq_self (pieces_of_mem_mergeTexts (pieces_of_mem_piecesOf parts))

theorem declarations_toSequence (part : Part) :
    declarations (piecesOf part.toSequence) = declarations part.pieces := by
  have single : declarations (piecesOf (code [part])) = declarations part.pieces := by
    rw [piecesOf_code, declarations_code, List.flatMap_singleton]
  cases part with
  | sequence content => rfl
  | _ => exact single

/-! ## Templates -/

def Part.declaredName : Part → String
  | .var declared _ | .const declared _ => declared.name
  | .func name .. | .record name _ => name
  | _ => ""

/-- The names that a sequence declares at its top level. -/
def declaredNames (sequence : Sequence) : List String :=
  (declarations sequence).map Part.declaredName

mutual

/-- The names of what a template declares at its top level. -/
def Template.declared : Template → List Template
  | .list _ items => declaredOf items
  | .code parts | .lines parts | .raw parts => declaredOf parts
  | .var _ name _ | .const _ name _ | .func name _ _ _ | .record name _ => [name]
  | _ => []

def declaredOf : List Template → List Template
  | [] => []
  | template :: rest => template.declared ++ declaredOf rest

end

variable (scope : Scope) (naming : Naming)

mutual

theorem Template.declaredNames_resolve : (template : Template) →
    declaredNames (template.resolve scope naming).pieces =
      template.declared.map fun name => (name.resolve scope naming).plainText
  | .list _ items => by
      simp only [Template.resolve, Part.pieces, Template.declared]
      exact declaredNames_resolveAll items
  | .code parts => by
      simp only [Template.resolve, Part.pieces, piecesOf_code, Template.declared]
      rw [← declaredNames_resolveAll parts, declaredNames, declaredNames, declarations_code,
        declarations_piecesOf]
  | .lines parts => by
      simp only [Template.resolve, Part.pieces, Template.declared]
      rw [show piecesOf (Code.lines _) = Code.lines _ from piecesOf_code _,
        ← declaredNames_resolveAll parts, declaredNames, declaredNames, declarations_lines,
        declarations_piecesOf]
  | .raw parts => by
      simp only [Template.resolve, Part.pieces, Template.declared]
      exact declaredNames_resolveAll parts
  | .var .. | .const .. | .func .. | .record .. => rfl
  | .absent | .text _ | .number _ | .single _ | .integer _ | .wide _ | .flag _ | .missing _
  | .state | .floatArg .. | .textArg .. | .portlet .. | .own _ | .shared .. | .ahead _ => rfl

theorem declaredNames_resolveAll : (templates : List Template) →
    declaredNames (piecesOf (resolveAll scope naming templates)) =
      (declaredOf templates).map fun name => (name.resolve scope naming).plainText
  | [] => rfl
  | template :: rest => by
      rw [resolveAll, piecesOf, declaredNames, declarations_append, List.map_append, declaredOf,
        List.map_append, ← template.declaredNames_resolve, ← declaredNames_resolveAll rest]
      rfl

end

/-- A template that declares names of its own name space. -/
theorem Template.declaredNames_own {template : Template} {keys : List String}
    (own : template.declared = keys.map .own) :
    declaredNames (piecesOf (template.resolve scope naming).toSequence) =
      keys.map (naming scope.space) := by
  have names := template.declaredNames_resolve scope naming
  rw [own, List.map_map] at names
  rw [declaredNames, declarations_toSequence]
  refine names.trans (List.map_congr_left fun key _ => ?_)
  simp [Template.resolve, Part.plainText, Part.pieces, String.join]

end Patchbay.Code
