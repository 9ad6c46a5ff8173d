import Mathlib.Data.List.Chain
import Patchbay.Proofs.Code.Writable

namespace Patchbay.Code

/-! The normal form of sequences.

A sequence that was put together from parts holds texts that are not empty and declarations, and never two
texts in a row.  Such a sequence is determined by its declarations and by the total text in front of,
between and behind them, so that the way in which its parts were nested leaves no trace.
-/

variable {part : Part} {parts : List Part} {sequence left right : Sequence} {value : String}

def Part.isText : Part → Bool
  | .text _ => true
  | _ => false

structure NormalForm (sequence : Sequence) : Prop where
  /-- Nothing but texts and declarations. -/
  content : ∀ part ∈ sequence, part.isText = true ∨ part.isDeclaration = true
  filled : ∀ part ∈ sequence, part.isEmptyText = false
  /-- No text follows a text. -/
  apart : sequence.IsChain fun first second => ¬ (first.isText = true ∧ second.isText = true)

theorem not_isText_of_isDeclaration (isDeclaration : part.isDeclaration = true) : part.isText = false := by
  cases part <;> first | rfl | cases isDeclaration

theorem not_isEmptyText_of_isDeclaration (isDeclaration : part.isDeclaration = true) :
    part.isEmptyText = false := by
  cases part <;> first | rfl | cases isDeclaration

/-! ## Putting sequences together -/

theorem normalForm_nil : NormalForm [] := ⟨by simp, by simp, .nil⟩

theorem NormalForm.tail (normal : NormalForm (part :: sequence)) : NormalForm sequence :=
  ⟨fun _ member => normal.content _ (List.mem_cons_of_mem _ member),
    fun _ member => normal.filled _ (List.mem_cons_of_mem _ member), normal.apart.tail⟩

/-- A declaration can stand in front of anything. -/
theorem NormalForm.declaration (normal : NormalForm sequence) (isDeclaration : part.isDeclaration = true) :
    NormalForm (part :: sequence) where
  content := List.forall_mem_cons.mpr ⟨.inr isDeclaration, normal.content⟩
  filled := List.forall_mem_cons.mpr ⟨not_isEmptyText_of_isDeclaration isDeclaration, normal.filled⟩
  apart := normal.apart.cons fun second _ both => by
    rw [not_isText_of_isDeclaration isDeclaration] at both
    cases both.1

/-- A text can stand in front of what does not start with a text. -/
theorem NormalForm.text (normal : NormalForm sequence) (given : value ≠ "")
    (noText : ∀ first ∈ sequence.head?, first.isText = false) : NormalForm (.text value :: sequence) where
  content := List.forall_mem_cons.mpr ⟨.inl rfl, normal.content⟩
  filled := List.forall_mem_cons.mpr ⟨by simp [isEmptyText_text, given], normal.filled⟩
  apart := normal.apart.cons fun second first both => by
    rw [noText second first] at both
    cases both.2

/-- Behind a text there is no text. -/
theorem NormalForm.not_isText_head? (normal : NormalForm (.text value :: sequence)) :
    ∀ first ∈ sequence.head?, first.isText = false := by
  intro first isFirst
  obtain ⟨rest, rfl⟩ := List.head?_eq_some_iff.mp isFirst
  have apart := (List.isChain_cons_cons.mp normal.apart).1
  simpa [Part.isText] using apart

theorem NormalForm.prependText (normal : NormalForm sequence) (given : value ≠ "") :
    NormalForm (prependText value sequence) := by
  unfold Code.prependText
  split
  · next next rest =>
    have joined : value ++ next ≠ "" := fun empty => given (String.append_eq_empty_iff.mp empty).1
    exact normal.tail.text joined normal.not_isText_head?
  · next noText =>
    refine normal.text given fun first isFirst => ?_
    obtain ⟨rest, rfl⟩ := List.head?_eq_some_iff.mp isFirst
    cases first with
    | text next => exact absurd rfl (noText next rest)
    | _ => rfl

theorem normalForm_mergeTexts (content : ∀ part ∈ parts, part.isText = true ∨ part.isDeclaration = true) :
    NormalForm (mergeTexts parts) := by
  induction parts with
  | nil => exact normalForm_nil
  | cons first rest ih =>
      obtain ⟨own, others⟩ := List.forall_mem_cons.mp content
      have later := ih others
      cases first with
      | text value =>
          unfold mergeTexts
          split
          · exact later
          · next given => exact later.prependText given
      | _ =>
          have isDeclaration := own.resolve_left (by simp [Part.isText])
          unfold mergeTexts
          exact later.declaration isDeclaration

mutual

/-- A part contributes nothing but texts and declarations. -/
theorem Part.content_pieces : (part : Part) →
    ∀ piece ∈ part.pieces, piece.isText = true ∨ piece.isDeclaration = true
  | .absent | .missing _ => by simp [Part.pieces]
  | .text _ | .number _ | .single _ | .integer _ | .wide _ | .flag _ | .var .. | .const .. | .func ..
  | .record .. => by simp [Part.pieces, Part.isText, Part.isDeclaration]
  | .list _ items => by
      rw [Part.pieces]
      exact content_piecesOf items
  | .sequence content => by
      rw [Part.pieces]
      exact content_piecesOf content

theorem content_piecesOf : (parts : List Part) →
    ∀ piece ∈ piecesOf parts, piece.isText = true ∨ piece.isDeclaration = true
  | [] => by simp [piecesOf]
  | part :: rest => by
      rw [piecesOf]
      exact List.forall_mem_append.mpr ⟨part.content_pieces, content_piecesOf rest⟩

end

theorem normalForm_code (parts : List Part) : NormalForm (code parts) :=
  normalForm_mergeTexts (content_piecesOf parts)

theorem normalForm_lines (parts : List Part) : NormalForm (lines parts) := normalForm_code _

/-! ## What determines a sequence -/

/-- The total text in front of the first declaration of a sequence, between any two that follow each
other, and behind the last one. -/
def textBetween (sequence : Sequence) : List String :=
  (sequence.splitOnP Part.isDeclaration).map fun run => String.join (run.map Part.plainText)

/-- A text as content of a sequence: an empty one is left out. -/
def textContent (text : String) : Sequence := if text = "" then [] else [.text text]

theorem splitOnP_declaration (isDeclaration : part.isDeclaration = true) :
    (part :: sequence).splitOnP Part.isDeclaration = [] :: sequence.splitOnP Part.isDeclaration := by
  rw [List.splitOnP_cons_eq_if_modifyHead, if_pos isDeclaration]

/-- Between two declarations a sequence in normal form holds the total text that stands there, and nothing
else. -/
theorem NormalForm.splitOnP_eq (normal : NormalForm sequence) :
    sequence.splitOnP Part.isDeclaration = (textBetween sequence).map textContent := by
  unfold textBetween
  induction sequence with
  | nil => rfl
  | cons first rest ih =>
      have later := ih normal.tail
      rcases normal.content first (List.mem_cons_self ..) with isText | isDeclaration
      · cases first with
        | text value =>
            have given : value ≠ "" := by
              simpa [isEmptyText_text] using normal.filled _ (List.mem_cons_self ..)
            rw [List.splitOnP_cons_eq_if_modifyHead, if_neg (by simp [Part.isDeclaration])]
            cases rest with
            | nil => simp [Part.plainText, Part.pieces, textContent, given]
            | cons next others =>
                have isDeclaration : next.isDeclaration = true :=
                  (normal.tail.content next (List.mem_cons_self ..)).resolve_left
                    (by simp [normal.not_isText_head? next rfl])
                rw [splitOnP_declaration isDeclaration] at later ⊢
                have others := (List.cons.inj later).2
                rw [List.modifyHead_cons, List.map_cons, List.map_cons, ← others]
                simp [Part.plainText, Part.pieces, textContent, given]
        | _ => cases isText
      · rw [splitOnP_declaration isDeclaration, List.map_cons, List.map_cons, ← later]
        rfl

/-- Whatever is put together from parts is in normal form, and the declarations of a sequence in normal form
and the text between them determine it. -/
theorem sequences_in_normalForm :
    (∀ parts : List Part, NormalForm (code parts) ∧ NormalForm (lines parts)) ∧
      ∀ left right : Sequence, NormalForm left → NormalForm right →
        declarations left = declarations right → textBetween left = textBetween right → left = right := by
  refine ⟨fun parts => ⟨normalForm_code parts, normalForm_lines parts⟩, ?_⟩
  intro left right leftNormal rightNormal sameDeclarations sameText
  have sameRuns : left.splitOnP Part.isDeclaration = right.splitOnP Part.isDeclaration := by
    rw [leftNormal.splitOnP_eq, rightNormal.splitOnP_eq, sameText]
  have leftSpelled := left.splitOnP_spec (p := Part.isDeclaration)
  have rightSpelled := right.splitOnP_spec (p := Part.isDeclaration)
  change List.filter Part.isDeclaration left = List.filter Part.isDeclaration right at sameDeclarations
  rw [sameRuns, sameDeclarations] at leftSpelled
  exact leftSpelled.symm.trans rightSpelled

/-- Two ways to nest the same code. -/
theorem nested_code_in_normalForm :
    NormalForm (code ["a", .list .texts ["", "b"], var "Int" "n" ["1"],
        .sequence (lines ["c", .missing .sequence, "d"])]) ∧
      NormalForm (code ["ab", .sequence [.absent, var "Int" "n" ["1"]], "c\nd"]) ∧
      code ["a", .list .texts ["", "b"], var "Int" "n" ["1"],
          .sequence (lines ["c", .missing .sequence, "d"])] =
        code ["ab", .sequence [.absent, var "Int" "n" ["1"]], "c\nd"] :=
  have first := (sequences_in_normalForm.1 _).1
  have second := (sequences_in_normalForm.1 _).1
  ⟨first, second, sequences_in_normalForm.2 _ _ first second rfl (by decide)⟩

end Patchbay.Code
