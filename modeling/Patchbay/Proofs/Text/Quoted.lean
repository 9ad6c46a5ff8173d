import Mathlib.Data.Nat.Digits.Defs
import Patchbay.Format.Json
import Patchbay.Proofs.Text.Identifier
import Patchbay.Text.Quoted

namespace Patchbay

/-! Quoted texts tell what they quote.

Diagnostics and documents write a character as itself, as a letter behind a backslash, or by its code
point in as many hexadecimal digits as a mark behind the backslash says.  How a written character begins
decides how long it is, so a text can be cut into characters in one way only.
-/

namespace Text

/-! ## Digits -/

theorem hexDigits_one {value : Nat} (small : value < 16) : hexDigits 1 value = [Nat.digitChar value] := by
  unfold hexDigits
  rw [Nat.toDigits_of_lt_base small]
  rfl

theorem hexDigits_succ (width value : Nat) :
    hexDigits (width + 2) value = hexDigits (width + 1) (value / 16) ++ [Nat.digitChar (value % 16)] := by
  unfold hexDigits
  dsimp only
  rw [Nat.toDigits_eq_if (by decide)]
  split
  · next small =>
    rw [Nat.div_eq_of_lt small, Nat.mod_eq_of_lt small, Nat.toDigits_zero]
    simp [List.replicate_succ']
  · next large =>
    have filled : width + 2 - ((Nat.toDigits 16 (value / 16)).length + 1) =
        width + 1 - (Nat.toDigits 16 (value / 16)).length := by omega
    rw [List.length_append, List.length_singleton, filled, List.append_assoc]

theorem length_hexDigits {width value : Nat} (fits : value < 16 ^ (width + 1)) :
    (hexDigits (width + 1) value).length = width + 1 := by
  induction width generalizing value with
  | zero => rw [hexDigits_one (by simpa using fits), List.length_singleton]
  | succ width ih =>
      rw [hexDigits_succ, List.length_append, ih (by omega), List.length_singleton]

theorem digitChar_inj {left right : Nat} (small : left < 16) (smallToo : right < 16)
    (same : Nat.digitChar left = Nat.digitChar right) : left = right := by
  have digit : ∀ first < 16, ∀ second < 16,
      Nat.digitChar first = Nat.digitChar second → first = second := by
    decide
  exact digit left small right smallToo same

theorem hexDigits_inj {width left right : Nat} (fits : left < 16 ^ (width + 1))
    (fitsToo : right < 16 ^ (width + 1))
    (same : hexDigits (width + 1) left = hexDigits (width + 1) right) : left = right := by
  induction width generalizing left right with
  | zero =>
      rw [hexDigits_one (by simpa using fits), hexDigits_one (by simpa using fitsToo)] at same
      exact digitChar_inj (by simpa using fits) (by simpa using fitsToo) (List.singleton_inj.mp same)
  | succ width ih =>
      rw [hexDigits_succ, hexDigits_succ] at same
      obtain ⟨front, last⟩ := List.append_singleton_inj.mp same
      have quotient := ih (by omega) (by omega) front
      have rest := digitChar_inj (Nat.mod_lt _ (by decide)) (Nat.mod_lt _ (by decide)) last
      omega

/-! ## Escapes -/

/-- How characters are written: `meant` gives what a letter behind a backslash stands for, and `width` how
many digits follow a mark. -/
structure Escapes (encode : Char → List Char) (meant : Char → Char) (width : Char → Option Nat) : Prop where
  cases : ∀ c, (encode c = [c] ∧ c ≠ '\\') ∨
    (∃ letter, encode c = ['\\', letter] ∧ width letter = none ∧ meant letter = c) ∨
    ∃ mark count, encode c = '\\' :: mark :: hexDigits (count + 1) c.toNat ∧
      width mark = some (count + 1) ∧ c.toNat < 16 ^ (count + 1)

namespace Escapes

variable {encode : Char → List Char} {meant : Char → Char} {width : Char → Option Nat}
  (escapes : Escapes encode meant width)

include escapes

theorem filled (c : Char) : encode c ≠ [] := by
  rcases escapes.cases c with ⟨written, _⟩ | ⟨_, written, _⟩ | ⟨_, _, written, _⟩ <;> simp [written]

/-- What starts with a written character starts with no other one. -/
theorem cut {c d : Char} {left right : List Char} (same : encode c ++ left = encode d ++ right) :
    c = d ∧ left = right := by
  rcases escapes.cases c with ⟨written, plain⟩ | ⟨letter, written, noMark, isMeant⟩ |
    ⟨mark, count, written, isMark, fits⟩ <;>
  rcases escapes.cases d with ⟨writtenToo, plainToo⟩ | ⟨other, writtenToo, noMarkToo, isMeantToo⟩ |
    ⟨markToo, countToo, writtenToo, isMarkToo, fitsToo⟩ <;>
  rw [written, writtenToo] at same <;>
  simp only [List.cons_append, List.nil_append, List.cons.injEq] at same
  · exact same
  · exact absurd same.1 plain
  · exact absurd same.1 plain
  · exact absurd same.1.symm plainToo
  · obtain ⟨_, rfl, sameRest⟩ := same
    exact ⟨isMeant.symm.trans isMeantToo, sameRest⟩
  · obtain ⟨_, rfl, _⟩ := same
    cases noMark.symm.trans isMarkToo
  · exact absurd same.1.symm plainToo
  · obtain ⟨_, rfl, _⟩ := same
    cases noMarkToo.symm.trans isMark
  · obtain ⟨_, rfl, digits⟩ := same
    cases isMark.symm.trans isMarkToo
    have sameLength := (length_hexDigits fits).trans (length_hexDigits fitsToo).symm
    obtain ⟨sameDigits, sameRest⟩ := List.append_inj digits sameLength
    exact ⟨Char.toNat_inj.mp (hexDigits_inj fits fitsToo sameDigits), sameRest⟩

/-- A text is told by what stands between quotes. -/
theorem quoted_injective :
    Function.Injective fun text : String => String.ofList ('"' :: text.toList.flatMap encode ++ ['"']) := by
  intro left right same
  have written := String.ofList_injective same
  rw [List.cons_append, List.cons_append, List.cons_inj_right, List.append_left_inj] at written
  exact String.toList_injective (flatMap_injective escapes.filled escapes.cut written)

end Escapes

/-! ## Diagnostics -/

/-- The character that a letter behind a backslash stands for in a diagnostic. -/
def controlMeant : Char → Char
  | 'a' => '\x07'
  | 'b' => '\x08'
  | 'f' => '\x0c'
  | 'n' => '\n'
  | 'r' => '\r'
  | 't' => '\t'
  | 'v' => '\x0b'
  | c => c

def markWidth : Char → Option Nat
  | 'x' => some 2
  | 'u' => some 4
  | 'U' => some 8
  | _ => none

theorem escapeControl?_eq_some {c letter : Char} (escaped : escapeControl? c = some letter) :
    markWidth letter = none ∧ controlMeant letter = c := by
  unfold escapeControl? at escaped
  split at escaped <;> cases escaped <;> decide

theorem quoteChar_escapes : Escapes quoteChar controlMeant markWidth where
  cases c := by
    unfold quoteChar
    split
    · next special =>
      refine .inr (.inl ⟨c, rfl, ?_⟩)
      simp only [Bool.or_eq_true, decide_eq_true_eq] at special
      rcases special with rfl | rfl <;> decide
    · next ordinary =>
      split
      · exact .inl ⟨rfl, fun same => ordinary (by simp [same])⟩
      · split
        · next letter escaped => exact .inr (.inl ⟨letter, rfl, escapeControl?_eq_some escaped⟩)
        · refine .inr (.inr ?_)
          dsimp only
          split
          · next ascii =>
            simp only [Bool.or_eq_true, decide_eq_true_eq] at ascii
            exact ⟨'x', 1, rfl, rfl, by omega⟩
          · split
            · next basic => exact ⟨'u', 3, rfl, rfl, basic⟩
            · exact ⟨'U', 7, rfl, rfl, c.val.toNat_lt⟩

theorem quoted_injective : Function.Injective quoted := quoteChar_escapes.quoted_injective

end Text

/-! ## Documents -/

namespace Json

def letterMeant : Char → Char
  | 'b' => '\x08'
  | 'f' => '\x0c'
  | 'n' => '\n'
  | 'r' => '\r'
  | 't' => '\t'
  | c => c

def unitWidth : Char → Option Nat
  | 'u' => some 4
  | _ => none

theorem escapeChar_escapes : Text.Escapes escapeChar letterMeant unitWidth where
  cases c := by
    unfold escapeChar
    dsimp only
    split
    · next special =>
      refine .inr (.inl ⟨c, rfl, ?_⟩)
      simp only [Bool.or_eq_true, decide_eq_true_eq] at special
      rcases special with rfl | rfl <;> decide
    · next ordinary =>
      split
      · next feed => exact .inr (.inl ⟨'n', rfl, rfl, feed.symm⟩)
      split
      · next back => exact .inr (.inl ⟨'r', rfl, rfl, back.symm⟩)
      split
      · next tab => exact .inr (.inl ⟨'t', rfl, rfl, tab.symm⟩)
      split
      · next backspace => exact .inr (.inl ⟨'b', rfl, rfl, Char.toNat_inj.mp backspace.symm⟩)
      split
      · next page => exact .inr (.inl ⟨'f', rfl, rfl, Char.toNat_inj.mp page.symm⟩)
      split
      · next marked =>
        refine .inr (.inr ⟨'u', 3, rfl, rfl, ?_⟩)
        simp only [Bool.or_eq_true, decide_eq_true_eq, or_assoc] at marked
        rcases marked with control | rfl | rfl | rfl | line | paragraph
        · omega
        · decide
        · decide
        · decide
        · omega
        · omega
      · exact .inl ⟨rfl, fun same => ordinary (by simp [same])⟩

theorem quote_injective : Function.Injective quote := escapeChar_escapes.quoted_injective

end Json

end Patchbay
