import Patchbay.Number.Layout
import Patchbay.Proofs.Text.Identifier
import Patchbay.Text.Literal

namespace Patchbay

/-! Texts without marker lines.

In a text archive a line that starts with two hyphens can begin a file.  A text is unmarked when no line of
it starts so, nor ends the text after a single hyphen.  The second condition makes the texts closed under
concatenation, which is all that code generation does with them; what a user gives gets into such a text as
an identifier, a literal or a number, none of which can begin a line with two hyphens.
-/

namespace Text

/-- Whether a line that begins like this can turn out to start with two hyphens. -/
def opensMark : List Char → Bool
  | '-' :: rest => rest.head?.all (· = '-')
  | _ => false

def keepsUnmarked : List Char → Bool
  | [] => true
  | c :: rest => (c ≠ '\n' || !opensMark rest) && keepsUnmarked rest

def isUnmarked (text : String) : Bool := !opensMark text.toList && keepsUnmarked text.toList

/-- The same for the letters of a text, where a long text is checked faster. -/
theorem isUnmarked_of_letters {letters : List Char}
    (checked : (!opensMark letters && keepsUnmarked letters) = true) :
    isUnmarked (String.ofList letters) = true := by
  rw [isUnmarked, String.toList_ofList]
  exact checked

/-! ## Concatenation -/

theorem opensMark_append {front back : List Char} (first : opensMark front = false)
    (second : opensMark back = false) : opensMark (front ++ back) = false := by
  match front with
  | [] => exact second
  | c :: d :: rest =>
      by_cases hyphen : c = '-'
      · subst hyphen
        exact first
      · simp [opensMark, hyphen]
  | [c] =>
      by_cases hyphen : c = '-'
      · subst hyphen
        cases first
      · simp [opensMark, hyphen]

theorem keepsUnmarked_append {front back : List Char} (first : keepsUnmarked front = true)
    (second : opensMark back = false) (later : keepsUnmarked back = true) :
    keepsUnmarked (front ++ back) = true := by
  induction front with
  | nil => exact later
  | cons c rest ih =>
      simp only [keepsUnmarked, List.cons_append, Bool.and_eq_true, Bool.or_eq_true, decide_eq_true_eq,
        Bool.not_eq_true'] at first ⊢
      exact ⟨first.1.imp_right fun closed => opensMark_append closed second, ih first.2⟩

@[simp]
theorem isUnmarked_append {front back : String} (first : isUnmarked front = true)
    (second : isUnmarked back = true) : isUnmarked (front ++ back) = true := by
  simp only [isUnmarked, Bool.and_eq_true, Bool.not_eq_true', String.toList_append] at first second ⊢
  exact ⟨opensMark_append first.1 second.1, keepsUnmarked_append first.2 second.1 second.2⟩

theorem isUnmarked_join {texts : List String} (all : ∀ text ∈ texts, isUnmarked text = true) :
    isUnmarked (String.join texts) = true := by
  induction texts with
  | nil => rfl
  | cons text rest ih =>
      rw [String.join_cons]
      exact isUnmarked_append (all text (List.mem_cons_self ..))
        (ih fun other later => all other (List.mem_cons_of_mem _ later))

theorem isUnmarked_intercalate {between : String} {texts : List String} (mark : isUnmarked between = true)
    (all : ∀ text ∈ texts, isUnmarked text = true) :
    isUnmarked (String.intercalate between texts) = true := by
  match texts with
  | [] => rfl
  | [text] => simpa using all
  | text :: next :: rest =>
      rw [String.intercalate_cons_cons]
      obtain ⟨first, later⟩ := List.forall_mem_cons.mp all
      exact isUnmarked_append (isUnmarked_append first mark) (isUnmarked_intercalate mark later)

/-! ## Texts on one line -/

theorem keepsUnmarked_of_oneLine {text : List Char} (oneLine : '\n' ∉ text) : keepsUnmarked text = true := by
  induction text with
  | nil => rfl
  | cons c rest ih =>
      rw [List.mem_cons, not_or] at oneLine
      simp [keepsUnmarked, Ne.symm oneLine.1, ih oneLine.2]

theorem isUnmarked_of_oneLine {text : String} (oneLine : '\n' ∉ text.toList)
    (closed : opensMark text.toList = false) : isUnmarked text = true := by
  simp [isUnmarked, closed, keepsUnmarked_of_oneLine oneLine]

/-- Neither a hyphen nor a line end. -/
def isTame (c : Char) : Bool := c ≠ '-' && c ≠ '\n'

theorem isUnmarked_of_tame {text : List Char} (tame : ∀ c ∈ text, isTame c = true) :
    isUnmarked (String.ofList text) = true := by
  refine isUnmarked_of_oneLine (fun member => ?_) ?_
  · exact absurd (tame _ (by simpa using member)) (by decide)
  · rw [String.toList_ofList]
    match text with
    | [] => rfl
    | c :: rest =>
        have first : c ≠ '-' := by
          have held := tame c (List.mem_cons_self ..)
          simp only [isTame, Bool.and_eq_true, decide_eq_true_eq] at held
          exact held.1
        simp [opensMark, first]

/-- A sign in front of something. -/
theorem isUnmarked_of_signed {text : List Char} (given : text ≠ []) (tame : ∀ c ∈ text, isTame c = true) :
    isUnmarked (String.ofList ('-' :: text)) = true := by
  refine isUnmarked_of_oneLine (fun member => ?_) ?_
  · rw [String.toList_ofList, List.mem_cons] at member
    rcases member with sign | later
    · exact absurd sign (by decide)
    · exact absurd (tame _ later) (by decide)
  · rw [String.toList_ofList]
    obtain ⟨c, rest, rfl⟩ := List.exists_cons_of_ne_nil given
    have first := tame c (List.mem_cons_self ..)
    simp only [isTame, Bool.and_eq_true, decide_eq_true_eq] at first
    simp [opensMark, first.1]

/-! ## What a user gives -/

theorem isTame_of_isPlain {c : Char} (plain : isPlain c = true) : isTame c = true := by
  have apart : c ≠ '-' ∧ c ≠ '\n' := by
    constructor <;>
    · rintro rfl
      exact absurd plain (by decide)
  simp [isTame, apart]

theorem isTame_of_isDigit {c : Char} (digit : isDigit c = true) : isTame c = true :=
  isTame_of_isPlain (by simp [isPlain, digit])

theorem isTame_of_mem_joinParts {parts : List String} : ∀ c ∈ joinParts parts, isTame c = true := by
  intro c member
  rcases cases_of_mem_joinParts member with plain | rfl | rfl
  · exact isTame_of_isPlain plain
  · decide
  · decide

@[simp]
theorem isUnmarked_identifier (parts : List String) : isUnmarked (join parts) = true :=
  isUnmarked_of_tame isTame_of_mem_joinParts

theorem isDigit_of_mem_decimal {c : Char} {n : Nat} (member : c ∈ Nat.toDigits 10 n) : isDigit c = true := by
  have digit := Nat.isDigit_of_mem_toDigits (by decide) (by decide) member
  simp only [Char.isDigit, Bool.and_eq_true, decide_eq_true_eq] at digit
  simpa [isDigit, Char.le_def] using digit

theorem isTame_of_mem_decimal {c : Char} {n : Nat} (member : c ∈ Nat.toDigits 10 n) : isTame c = true :=
  isTame_of_isDigit (isDigit_of_mem_decimal member)

@[simp]
theorem isUnmarked_ofInt (value : Int) : isUnmarked (ofInt value) = true := by
  cases value with
  | ofNat magnitude => exact isUnmarked_of_tame fun c member => isTame_of_mem_decimal member
  | negSucc below => exact isUnmarked_of_signed Nat.toDigits_ne_nil fun c member => isTame_of_mem_decimal member

/-- A text between quotes. -/
theorem isUnmarked_quoted {text : List Char} (oneLine : '\n' ∉ text) :
    isUnmarked (String.ofList ('\'' :: text ++ ['\''])) = true := by
  refine isUnmarked_of_oneLine (by simp [oneLine]) ?_
  rw [String.toList_ofList]
  rfl

@[simp]
theorem isUnmarked_literal (text : String) : isUnmarked (literal text) = true := by
  refine isUnmarked_quoted fun member => ?_
  obtain ⟨c, _, member⟩ := List.mem_flatMap.mp member
  unfold escapeLiteral at member
  split at member
  · exact absurd member (by decide)
  · exact absurd member (by decide)
  · exact absurd member (by decide)
  · exact absurd member (by decide)
  · next noFeed _ => exact noFeed (List.mem_singleton.mp member).symm

theorem isUnmarked_embedded {text : String} (oneLine : '\n' ∉ text.toList) :
    isUnmarked (embedded text) = true := by
  have replaced : ∀ {target : Char} {replacement letters : List Char}, '\n' ∉ replacement →
      '\n' ∉ letters → '\n' ∉ replaceChar target replacement letters := by
    intro target replacement letters free clean member
    obtain ⟨c, own, member⟩ := List.mem_flatMap.mp member
    split at member
    · exact free member
    · exact clean (List.mem_singleton.mp member ▸ own)
  exact isUnmarked_quoted (replaced (by decide) (replaced (by decide) oneLine))

end Text

/-! ## Numbers -/

namespace Number

open Text (isTame isUnmarked)

/-- The digits of a decimal. -/
def Decimal.IsTame (decimal : Decimal) : Prop := ∀ c ∈ decimal.digits, isTame c = true

theorem Decimal.isDigit_ofSteps (count : Nat) (step : Int) :
    ∀ c ∈ (Decimal.ofSteps count step).digits, Text.isDigit c = true := by
  intro c member
  have stripped : c ∈ stripZeros (Nat.toDigits 10 count) := member
  unfold stripZeros at stripped
  have digit := (List.dropWhile_sublist _).subset (List.mem_reverse.mp stripped)
  exact Text.isDigit_of_mem_decimal (List.mem_reverse.mp digit)

theorem isDigit_shortest (format : Format) (significand : Nat) (exponent : Int) :
    ∀ c ∈ (shortest format significand exponent).digits, Text.isDigit c = true := by
  unfold shortest
  split
  · simp
  · dsimp only
    cases found : (List.range mostDigits).findSome? _ with
    | none => simp
    | some decimal =>
        obtain ⟨index, _, given⟩ := List.exists_of_findSome?_eq_some found
        obtain ⟨count, _, rfl⟩ := Option.map_eq_some_iff.mp given
        exact Decimal.isDigit_ofSteps _ _

theorem isTame_shortest (format : Format) (significand : Nat) (exponent : Int) :
    (shortest format significand exponent).IsTame := fun c member =>
  Text.isTame_of_isDigit (isDigit_shortest format significand exponent c member)

/-- Positional digits are those of the decimal, with zeros and a point. -/
theorem Decimal.positional_all {decimal : Decimal} {allowed : Char → Prop} (zero : allowed '0')
    (point : allowed '.') (digits : ∀ c ∈ decimal.digits, allowed c) :
    decimal.positional ≠ [] ∧ ∀ c ∈ decimal.positional, allowed c := by
  have zeros : ∀ count, ∀ c ∈ List.replicate count '0', allowed c := by
    intro count c member
    rw [(List.mem_replicate.mp member).2]
    exact zero
  unfold positional
  dsimp only
  split
  · exact ⟨List.cons_ne_nil _ _, List.forall_mem_singleton.mpr zero⟩
  · next given =>
    split
    · refine ⟨by simp, ?_⟩
      simp only [List.cons_append, List.mem_cons, List.mem_append, forall_eq_or_imp]
      exact ⟨zero, point, fun c member => member.elim (zeros _ c) (digits c)⟩
    · split
      · refine ⟨fun same => given (by simp [(List.append_eq_nil_iff.mp same).1]), fun c member => ?_⟩
        exact (List.mem_append.mp member).elim (digits c) (zeros _ c)
      · refine ⟨by simp, fun c member => ?_⟩
        rcases List.mem_append.mp member with front | back
        · exact digits c (List.mem_of_mem_take front)
        · rcases List.mem_cons.mp back with rfl | later
          · exact point
          · exact digits c (List.mem_of_mem_drop later)

theorem Decimal.positional_tame {decimal : Decimal} (tame : decimal.IsTame) :
    decimal.positional ≠ [] ∧ ∀ c ∈ decimal.positional, isTame c = true :=
  positional_all (by decide) (by decide) tame

@[simp]
theorem isUnmarked_toCode (value : Float) : isUnmarked (toCode value) = true := by
  unfold toCode writeBinary
  split
  · decide
  · split <;> decide
  · next negative significand exponent _ =>
    obtain ⟨given, tame⟩ := Decimal.positional_tame (isTame_shortest .double significand exponent)
    have written : (shortest .double significand exponent).write .code =
        (shortest .double significand exponent).positional := rfl
    dsimp only
    rw [written]
    cases negative with
    | false => exact Text.isUnmarked_of_tame tame
    | true => exact Text.isUnmarked_of_signed given tame

end Number

end Patchbay
