import Mathlib.Data.List.Basic
import Patchbay.Text.Identifier

namespace Patchbay.Text

/-! Identifiers can be read back.

A character is written as itself or between two dollar signs, neither of which a plain character is,
and an underscore stands between parts only.  So two lists of parts with the same identifier are the
same list, unless one of them is empty.
-/

/-- The first mark tells where a list was cut. -/
theorem append_mark_inj {mark : Char} {front other back more : List Char} (free : mark ∉ front)
    (otherFree : mark ∉ other) (same : front ++ mark :: back = other ++ mark :: more) :
    front = other ∧ back = more := by
  induction front generalizing other with
  | nil =>
      cases other with
      | nil => exact ⟨rfl, List.tail_eq_of_cons_eq same⟩
      | cons c rest =>
          cases same
          simp at otherFree
  | cons c rest ih =>
      cases other with
      | nil =>
          cases same
          simp at free
      | cons d others =>
          rw [List.mem_cons, not_or] at free otherFree
          obtain ⟨rfl, sameRest⟩ := List.cons.inj same
          obtain ⟨rfl, sameBack⟩ := ih free.2 otherFree.2 sameRest
          exact ⟨rfl, sameBack⟩

/-- Texts are told apart by what they are written as when no written character starts another one. -/
theorem flatMap_injective {encode : Char → List Char} (filled : ∀ c, encode c ≠ [])
    (cut : ∀ {c d left right}, encode c ++ left = encode d ++ right → c = d ∧ left = right) :
    Function.Injective fun text : List Char => text.flatMap encode := by
  intro left
  induction left with
  | nil =>
      intro right same
      cases right with
      | nil => rfl
      | cons d rest => simp [filled d] at same
  | cons c rest ih =>
      intro right same
      cases right with
      | nil => simp [filled c] at same
      | cons d others =>
          obtain ⟨rfl, sameRest⟩ := cut same
          rw [ih sameRest]

/-! ## Code points -/

theorem toDigits_injective : Function.Injective (Nat.toDigits 16) := by
  intro left
  induction left using Nat.strongRecOn with
  | ind left ih =>
      intro right same
      have digit : ∀ first < 16, ∀ second < 16,
          Nat.digitChar first = Nat.digitChar second → first = second := by
        decide
      rw [Nat.toDigits_eq_if (by decide), Nat.toDigits_eq_if (n := right) (by decide)] at same
      split at same <;> split at same
      · next small otherSmall => exact digit _ small _ otherSmall (List.singleton_inj.mp same)
      · exact absurd (List.append_eq_singleton_iff.mp same.symm) (by simp [Nat.toDigits_ne_nil])
      · exact absurd (List.append_eq_singleton_iff.mp same) (by simp [Nat.toDigits_ne_nil])
      · next large otherLarge =>
        obtain ⟨front, last⟩ := List.append_singleton_inj.mp same
        have quotient := ih (left / 16) (by omega) front
        have rest := digit _ (Nat.mod_lt _ (by decide)) _ (Nat.mod_lt _ (by decide)) last
        omega

theorem isPlain_of_mem_toDigits {c : Char} {n : Nat} (member : c ∈ Nat.toDigits 16 n) :
    isPlain c = true := by
  induction n using Nat.strongRecOn with
  | ind n ih =>
      have digit : ∀ value < 16, isPlain (Nat.digitChar value) = true := by decide
      rw [Nat.toDigits_eq_if (by decide)] at member
      split at member
      · next small =>
        rw [List.mem_singleton.mp member]
        exact digit _ small
      · next large =>
        rcases List.mem_append.mp member with earlier | last
        · exact ih (n / 16) (by omega) earlier
        · rw [List.mem_singleton.mp last]
          exact digit _ (Nat.mod_lt _ (by decide))

theorem dollar_notMem_toDigits {n : Nat} : '$' ∉ Nat.toDigits 16 n := fun member =>
  absurd (isPlain_of_mem_toDigits member) (by decide)

/-! ## Parts -/

theorem underscore_notMem_encodePart {part : String} : '_' ∉ encodePart part := by
  unfold encodePart
  rw [List.mem_flatMap]
  rintro ⟨c, _, member⟩
  unfold encodeChar at member
  split at member
  · next plain =>
    rw [← List.mem_singleton.mp member] at plain
    exact absurd plain (by decide)
  · rcases List.mem_append.mp member with earlier | last
    · rcases List.mem_cons.mp earlier with same | digit
      · exact absurd same (by decide)
      · exact absurd (isPlain_of_mem_toDigits digit) (by decide)
    · exact absurd (List.mem_singleton.mp last) (by decide)

/-- What starts with the code of a character starts with that of no other character. -/
theorem encodeChar_append_inj {c d : Char} {left right : List Char}
    (same : encodeChar c ++ left = encodeChar d ++ right) : c = d ∧ left = right := by
  have plainApart : ∀ {plain : Char}, isPlain plain = true → plain ≠ '$' := by
    rintro _ isPlain rfl
    exact absurd isPlain (by decide)
  unfold encodeChar at same
  split at same <;> split at same
  · next plain otherPlain =>
    injection same with sameChar sameRest
    exact ⟨sameChar, sameRest⟩
  · next plain special =>
    injection same with sameChar _
    exact absurd sameChar (plainApart plain)
  · next special plain =>
    injection same with sameChar _
    exact absurd sameChar.symm (plainApart plain)
  · next special otherSpecial =>
    simp only [List.cons_append, List.append_assoc, List.nil_append, List.cons.injEq, true_and] at same
    obtain ⟨digits, rest⟩ := append_mark_inj dollar_notMem_toDigits dollar_notMem_toDigits same
    exact ⟨Char.toNat_inj.mp (toDigits_injective digits), rest⟩

theorem encodeChar_ne_nil {c : Char} : encodeChar c ≠ [] := by
  unfold encodeChar
  split <;> simp

theorem encodePart_injective : Function.Injective encodePart := fun _ _ same =>
  String.toList_injective (flatMap_injective (fun _ => encodeChar_ne_nil) encodeChar_append_inj same)

/-! ## Lists of parts -/

theorem joinParts_cons_cons (part next : String) (rest : List String) :
    joinParts (part :: next :: rest) = encodePart part ++ '_' :: joinParts (next :: rest) := rfl

/-- The characters of identifiers. -/
theorem cases_of_mem_joinParts {c : Char} {parts : List String} (member : c ∈ joinParts parts) :
    isPlain c = true ∨ c = '$' ∨ c = '_' := by
  have encoded : ∀ part : String, c ∈ encodePart part → isPlain c = true ∨ c = '$' := by
    intro part member
    obtain ⟨own, _, member⟩ := List.mem_flatMap.mp member
    unfold encodeChar at member
    split at member
    · next plain => exact .inl (List.mem_singleton.mp member ▸ plain)
    · rcases List.mem_append.mp member with earlier | last
      · rcases List.mem_cons.mp earlier with same | digit
        · exact .inr same
        · exact .inl (isPlain_of_mem_toDigits digit)
      · exact .inr (List.mem_singleton.mp last)
  match parts with
  | [] => cases member
  | [part] => exact (encoded part member).imp_right .inl
  | part :: next :: rest =>
      rw [joinParts_cons_cons] at member
      rcases List.mem_append.mp member with first | later
      · exact (encoded part first).imp_right .inl
      · rcases List.mem_cons.mp later with same | inRest
        · exact .inr (.inr same)
        · exact cases_of_mem_joinParts inRest

theorem joinParts_injective {left right : List String} (nonempty : left ≠ [])
    (otherNonempty : right ≠ []) (same : joinParts left = joinParts right) : left = right := by
  have single_ne : ∀ {part other next : String} {rest : List String},
      encodePart part ≠ joinParts (other :: next :: rest) := by
    intro part other next rest same
    have free : '_' ∉ encodePart part := underscore_notMem_encodePart
    rw [same, joinParts_cons_cons] at free
    simp at free
  induction left generalizing right with
  | nil => exact absurd rfl nonempty
  | cons part rest ih =>
      match rest, right, otherNonempty with
      | [], [other], _ => rw [encodePart_injective same]
      | [], other :: next :: others, _ => exact absurd same single_ne
      | next :: others, [other], _ => exact absurd same.symm single_ne
      | next :: others, other :: otherNext :: more, _ =>
          rw [joinParts_cons_cons, joinParts_cons_cons] at same
          obtain ⟨samePart, sameRest⟩ :=
            append_mark_inj underscore_notMem_encodePart underscore_notMem_encodePart same
          rw [encodePart_injective samePart, ih (by simp) (by simp) sameRest]

theorem join_injective {left right : List String} (nonempty : left ≠ [])
    (otherNonempty : right ≠ []) (same : join left = join right) : left = right :=
  joinParts_injective nonempty otherNonempty (String.ofList_injective same)

theorem isPlain_eq_isAlphanum (c : Char) : isPlain c = c.isAlphanum := by
  have upper : ('A' ≤ c && c ≤ 'Z') = c.isUpper := (Bool.decide_and ..).symm
  calc isPlain c = (c.isLower || c.isUpper || c.isDigit) := by rw [← upper]; rfl
    _ = c.isAlphanum := congrArg (· || c.isDigit) (Bool.or_comm ..)

/-- Lists of parts with one identifier are one list, and an identifier has no other characters than
ASCII letters, digits, the dollar sign and the underscore. -/
theorem identifiers_tell_parts (left right : List String) (nonempty : left ≠ [])
    (otherNonempty : right ≠ []) :
    (join left = join right ↔ left = right) ∧
    ∀ c ∈ (join left).toList, c.isAlphanum = true ∨ c = '$' ∨ c = '_' := by
  refine ⟨⟨join_injective nonempty otherNonempty, fun same => by rw [same]⟩, ?_⟩
  intro c member
  rw [join, String.toList_ofList] at member
  rw [← isPlain_eq_isAlphanum]
  exact cases_of_mem_joinParts member

/-- A part may be empty, and may look like a character that was written as its code point. -/
theorem identifiers_tell_lookalikes :
    (["a_", "b", ""] ≠ [] ∧ ["a$5f$", "b"] ≠ []) ∧
    (join ["a_", "b", ""] = "a$5f$_b_" ∧ join ["a$5f$", "b"] = "a$24$5f$24$_b") ∧
    join ["a_", "b", ""] ≠ join ["a$5f$", "b"] ∧
    ∀ c ∈ (join ["a_", "b", ""]).toList, c.isAlphanum = true ∨ c = '$' ∨ c = '_' := by
  obtain ⟨told, written⟩ :=
    identifiers_tell_parts ["a_", "b", ""] ["a$5f$", "b"] (by decide) (by decide)
  exact ⟨by decide, by decide, told.not.mpr (by decide), written⟩

/-! No part and one empty part have the same identifier. -/

example : join [] = join [""] := rfl

end Patchbay.Text
