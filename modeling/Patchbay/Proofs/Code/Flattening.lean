import Patchbay.Code.Dialect
import Patchbay.Proofs.Code.NormalForm
import Patchbay.Proofs.Outcome

namespace Patchbay

/-! Flattening and merging leave the rendered text alone.

`Part.written` says what a part is written as where it stands, without regard to the sequence that it is put
into.  A sequence put together from parts is rendered as the parts one after another, and the first part that
cannot be written decides on the fault.  So it does not matter how the parts were nested.
-/

/-- The texts of two operations, one behind the other. -/
def Outcome.append (first second : Outcome String) : Outcome String := do
  let front ← first
  let back ← second
  return front ++ back

namespace Outcome

variable {first second third : Outcome String}

@[simp]
theorem ok_append (front : String) : append (.ok front) second = (front ++ ·) <$> second := by
  cases second <;> rfl

@[simp]
theorem error_append (fault : Fault) : append (.error fault) second = .error fault := rfl

theorem empty_append : append (.ok "") second = second := by
  cases second <;> simp

theorem append_empty : append first (.ok "") = first := by
  cases first <;> simp

theorem append_assoc : append (append first second) third = append first (append second third) := by
  cases first <;> cases second <;> cases third <;> simp [String.append_assoc]

end Outcome

namespace Code

open Outcome (append append_assoc append_empty empty_append)

variable {dialect : Dialect} {part : Part} {parts front back : List Part} {value : String}

mutual

/-- What a part is written as: nothing where it is not there, the items of a list or sequence one after
another, and a declaration as it is rendered. -/
def Part.written (dialect : Dialect) : Part → Outcome String
  | .absent | .missing _ => .ok ""
  | .text value => .ok value
  | .number value => .ok (Number.toCode value)
  | .single value => .ok (Number.toCode value.toFloat)
  | .integer value | .wide value => .ok (Text.ofInt value)
  | .flag value => .ok (if value then "true" else "false")
  | .list _ items => writtenAll dialect items
  | .sequence content => writtenAll dialect content
  | .var declared value => render dialect (.var declared value)
  | .const declared value => render dialect (.const declared value)
  | .func name args result body => render dialect (.func name args result body)
  | .record name members => render dialect (.record name members)

def writtenAll (dialect : Dialect) : List Part → Outcome String
  | [] => .ok ""
  | part :: rest => append (part.written dialect) (writtenAll dialect rest)

end

theorem renderAll_cons : renderAll dialect (part :: parts) =
    append (render dialect part) (renderAll dialect parts) := by
  rw [renderAll]
  rfl

theorem renderAll_append : renderAll dialect (front ++ back) =
    append (renderAll dialect front) (renderAll dialect back) := by
  induction front with
  | nil => rw [renderAll, empty_append, List.nil_append]
  | cons part rest ih => rw [List.cons_append, renderAll_cons, renderAll_cons, ih, append_assoc]

theorem renderAll_singleton : renderAll dialect [part] = render dialect part := by
  rw [renderAll_cons, renderAll, append_empty]

/-! ## Merging -/

theorem renderAll_prependText : renderAll dialect (prependText value parts) =
    append (.ok value) (renderAll dialect parts) := by
  unfold prependText
  split
  · rw [renderAll_cons, renderAll_cons, render, render, ← append_assoc]
    rfl
  · rw [renderAll_cons, render]

theorem renderAll_mergeTexts (parts : List Part) :
    renderAll dialect (mergeTexts parts) = renderAll dialect parts := by
  induction parts with
  | nil => rfl
  | cons part rest ih =>
      cases part with
      | text value =>
          unfold mergeTexts
          rw [renderAll_cons, render]
          split
          · next empty => rw [ih, empty, empty_append]
          · rw [renderAll_prependText, ih]
      | _ =>
          unfold mergeTexts
          rw [renderAll_cons, renderAll_cons, ih]

/-! ## Flattening -/

mutual

theorem Part.renderAll_pieces : (part : Part) →
    renderAll dialect part.pieces = part.written dialect
  | .absent | .missing _ => by rw [Part.pieces, Part.written, renderAll]
  | .text _ | .number _ | .single _ | .integer _ | .wide _ | .flag _ => by
      rw [Part.pieces, Part.written, renderAll_singleton, render]
  | .list _ items => by rw [Part.pieces, Part.written, renderAll_piecesOf items]
  | .sequence content => by rw [Part.pieces, Part.written, renderAll_piecesOf content]
  | .var .. | .const .. | .func .. | .record .. => by
      rw [Part.pieces, Part.written, renderAll_singleton]

theorem renderAll_piecesOf : (parts : List Part) →
    renderAll dialect (piecesOf parts) = writtenAll dialect parts
  | [] => by rw [piecesOf, writtenAll, renderAll]
  | part :: rest => by
      rw [piecesOf, writtenAll, renderAll_append, part.renderAll_pieces, renderAll_piecesOf rest]

end

theorem renderAll_code (parts : List Part) :
    renderAll dialect (code parts) = writtenAll dialect parts := by
  rw [code, renderAll_mergeTexts, renderAll_piecesOf]

/-! ## The texts of the parts -/

theorem writtenAll_eq_join (parts : List Part) :
    writtenAll dialect parts = String.join <$> parts.mapM (Part.written dialect) := by
  induction parts with
  | nil => rw [writtenAll]; rfl
  | cons part rest ih =>
      rw [writtenAll, List.mapM_cons, ih]
      simp [append]

/-- The parts one below the other. -/
theorem writtenAll_separate : (parts : List Part) →
    writtenAll dialect (separate parts) =
      String.intercalate "\n" <$> parts.mapM (Part.written dialect)
  | [] => by rw [separate, writtenAll]; rfl
  | [part] => by simp [separate, writtenAll, append_empty]
  | part :: next :: rest => by
      have later := writtenAll_separate (next :: rest)
      rw [separate, writtenAll, writtenAll, Part.written, later, Outcome.ok_append]
      · simp [append, List.mapM_cons, String.append_assoc]
      · exact List.cons_ne_nil next rest

/-! ## Sequences given as they are -/

mutual

/-- A text, a declaration, or a sequence of such parts. -/
def Part.isCode : Part → Bool
  | .text _ | .var .. | .const .. | .func .. | .record .. => true
  | .sequence content => areCode content
  | _ => false

def areCode : List Part → Bool
  | [] => true
  | part :: rest => part.isCode && areCode rest

end

mutual

theorem Part.written_eq_render : (part : Part) → part.isCode = true →
    part.written dialect = render dialect part
  | .text _, _ => by rw [Part.written, render]
  | .var .., _ | .const .., _ | .func .., _ | .record .., _ => by rw [Part.written]
  | .sequence content, isCode => by
      rw [Part.isCode] at isCode
      rw [Part.written, render, writtenAll_eq_renderAll content isCode]
  | .absent, isCode | .missing _, isCode | .number _, isCode | .single _, isCode | .integer _, isCode
  | .wide _, isCode | .flag _, isCode | .list .., isCode => by simp [Part.isCode] at isCode

theorem writtenAll_eq_renderAll : (parts : List Part) → areCode parts = true →
    writtenAll dialect parts = renderAll dialect parts
  | [], _ => by rw [writtenAll, renderAll]
  | part :: rest, areCode => by
      rw [Code.areCode, Bool.and_eq_true] at areCode
      rw [writtenAll, renderAll_cons, part.written_eq_render areCode.1,
        writtenAll_eq_renderAll rest areCode.2]

end

/-! ## Putting together what was put together -/

theorem prependText_prependText (value next : String) (content : Sequence) :
    prependText value (prependText next content) = prependText (value ++ next) content := by
  cases content with
  | nil => rfl
  | cons first rest =>
      cases first with
      | text last => simp [prependText, String.append_assoc]
      | _ => rfl

theorem mergeTexts_text (given : value ≠ "") :
    mergeTexts (.text value :: parts) = prependText value (mergeTexts parts) := by
  rw [mergeTexts, if_neg given]

theorem mergeTexts_cons (noText : part.isText = false) :
    mergeTexts (part :: parts) = part :: mergeTexts parts := by
  cases part <;> first | rfl | cases noText

theorem mergeTexts_prependText_append (given : value ≠ "") (front back : List Part) :
    mergeTexts (prependText value front ++ back) = prependText value (mergeTexts (front ++ back)) := by
  cases front with
  | nil => exact mergeTexts_text given
  | cons first rest =>
      cases first with
      | text next =>
          have joined : value ++ next ≠ "" := fun empty => given (String.append_eq_empty_iff.mp empty).1
          rw [prependText, List.cons_append, List.cons_append, mergeTexts_text joined, mergeTexts]
          split
          · next empty => rw [empty, String.append_empty]
          · rw [prependText_prependText]
      | _ => exact mergeTexts_text given

/-- Texts may be merged before more parts follow. -/
theorem mergeTexts_append_left (front back : List Part) :
    mergeTexts (mergeTexts front ++ back) = mergeTexts (front ++ back) := by
  induction front with
  | nil => rfl
  | cons first rest ih =>
      cases first with
      | text value =>
          rw [List.cons_append, mergeTexts]
          split
          · next empty => rw [ih, empty, mergeTexts, if_pos rfl]
          · next given => rw [mergeTexts_prependText_append given, ih, mergeTexts_text given]
      | _ =>
          rw [mergeTexts_cons rfl, List.cons_append, List.cons_append, mergeTexts_cons rfl,
            mergeTexts_cons rfl, ih]

theorem mergeTexts_mergeTexts (parts : List Part) : mergeTexts (mergeTexts parts) = mergeTexts parts := by
  simpa using mergeTexts_append_left parts []

/-- Texts may be merged before parts are put in front. -/
theorem mergeTexts_append_right (front back : List Part) :
    mergeTexts (front ++ mergeTexts back) = mergeTexts (front ++ back) := by
  induction front with
  | nil => exact mergeTexts_mergeTexts back
  | cons first rest ih =>
      cases first with
      | text value => rw [List.cons_append, List.cons_append, mergeTexts, mergeTexts, ih]
      | _ =>
          rw [List.cons_append, List.cons_append, mergeTexts_cons rfl, mergeTexts_cons rfl, ih]

theorem piecesOf_append (front back : List Part) :
    piecesOf (front ++ back) = piecesOf front ++ piecesOf back := by
  induction front with
  | nil => rfl
  | cons part rest ih => rw [List.cons_append, piecesOf, piecesOf, ih, List.append_assoc]

theorem code_code_append (front back : List Part) :
    code [.sequence (code front), .sequence (code back)] = code (front ++ back) := by
  have flat : piecesOf [.sequence (code front), .sequence (code back)] = code front ++ code back := by
    simp [piecesOf, Part.pieces]
  rw [code, flat, code, code, mergeTexts_append_left, mergeTexts_append_right, ← piecesOf_append]
  rfl

theorem code_code (parts : List Part) : code [.sequence (code parts)] = code parts := by
  have flat : piecesOf [.sequence (code parts)] = code parts := by simp [piecesOf, Part.pieces]
  rw [code, flat, code, mergeTexts_mergeTexts]

/-- A sequence put together from parts is rendered as the parts one after another, or one below the other,
and fails where the first of them does; so it does not matter what was put together before, nor whether
sequences were flattened at all. -/
theorem flattening_keeps_text (dialect : Dialect) :
    (∀ parts : List Part, render dialect (.sequence (code parts)) =
      String.join <$> parts.mapM (Part.written dialect)) ∧
    (∀ parts : List Part, render dialect (.sequence (lines parts)) =
      String.intercalate "\n" <$>
        (parts.filter fun part => !part.isAbsent).mapM (Part.written dialect)) ∧
    (∀ front back : List Part,
      code [.sequence (code front), .sequence (code back)] = code (front ++ back)) ∧
    (∀ parts : List Part, code [.sequence (code parts)] = code parts) ∧
    ∀ content : Sequence, areCode content = true →
      render dialect (.sequence content) = render dialect (.sequence (code [.sequence content])) := by
  refine ⟨fun parts => ?_, fun parts => ?_, code_code_append, code_code, fun content areCode => ?_⟩
  · rw [render, renderAll_code, writtenAll_eq_join]
  · rw [render, lines, renderAll_code, writtenAll_separate]
  · have alone : writtenAll dialect [.sequence content] = writtenAll dialect content := by
      rw [writtenAll, writtenAll, Part.written, append_empty]
    rw [render, render, renderAll_code, alone, writtenAll_eq_renderAll content areCode]

theorem nested_sequence_keeps_text :
    areCode ["a", .sequence ["b", .sequence [var "Int" "n"]], "c"] = true ∧
      render .javaScript (.sequence ["a", .sequence ["b", .sequence [var "Int" "n"]], "c"]) =
        render .javaScript (.sequence
          (code [.sequence ["a", .sequence ["b", .sequence [var "Int" "n"]], "c"]])) :=
  ⟨rfl, (flattening_keeps_text .javaScript).2.2.2.2 _ rfl⟩

end Code

end Patchbay
