import Mathlib.Data.List.TakeWhile
import Patchbay.Graph.Basic
import Patchbay.Proofs.Code.Expression

namespace Patchbay.Number

/-! Numbers of generated code as literals of both languages.

A finite number is written as a decimal literal: digits that do not start with a superfluous zero, and
perhaps a point with digits on both sides.  For the leading digit it matters that the digits counted on some
grid are never zero, since zero does not round to a positive number.  What is not a number has its word in
both languages.  The two infinities have none of the words that the languages know.
-/

open Text (isDigit)

/-! ## The grammar of literals -/

/-- Digits with no superfluous zero in front. -/
def isWhole (digits : List Char) : Bool :=
  digits = ['0'] || (digits.head?.any (· ≠ '0') && digits.all isDigit)

/-- Digits with an optional fraction. -/
def isDecimal (text : List Char) : Bool :=
  isWhole (text.takeWhile isDigit) &&
    match text.dropWhile isDigit with
    | [] => true
    | mark :: fraction => mark = '.' && !fraction.isEmpty && fraction.all isDigit

/-- What both languages read as a number, with an optional sign where it has one. -/
def isLiteral (text : String) : Bool :=
  let unsigned := (Text.splitSign text.toList).2
  text = "NaN" || unsigned = "Infinity".toList || isDecimal unsigned

def IsInfinite (value : Float) : Prop := ∃ negative, ofDouble value = .infinite negative

variable {digits whole fraction : List Char} {decimal : Decimal}

theorem isDecimal_of_isWhole (given : isWhole digits = true) (all : ∀ c ∈ digits, isDigit c = true) :
    isDecimal digits = true := by
  have taken : digits.takeWhile isDigit = digits := List.takeWhile_eq_self_iff.mpr all
  have dropped : digits.dropWhile isDigit = [] := List.dropWhile_eq_nil_iff.mpr all
  simp [isDecimal, taken, dropped, given]

theorem isDecimal_of_fraction (given : isWhole whole = true) (all : ∀ c ∈ whole, isDigit c = true)
    (nonempty : fraction ≠ []) (fractional : ∀ c ∈ fraction, isDigit c = true) :
    isDecimal (whole ++ '.' :: fraction) = true := by
  have point : isDigit '.' = false := by decide
  have taken : (whole ++ '.' :: fraction).takeWhile isDigit = whole := by
    rw [List.takeWhile_append_of_pos all, List.takeWhile_cons, point]
    simp
  have dropped : (whole ++ '.' :: fraction).dropWhile isDigit = '.' :: fraction := by
    rw [List.dropWhile_append_of_pos all, List.dropWhile_cons, point]
    simp
  rw [isDecimal, taken, dropped, given]
  simpa [nonempty] using fractional

/-! ## Digits of a positive count -/

theorem head?_toDigits {count : Nat} (positive : 0 < count) :
    (Nat.toDigits 10 count).head? ≠ some '0' := by
  induction count using Nat.strongRecOn with
  | ind count ih =>
      rw [Nat.toDigits_eq_if (by decide)]
      split
      · next small =>
        have apart : ∀ digit < 10, 0 < digit → Nat.digitChar digit ≠ '0' := by decide
        simpa using apart count small positive
      · next large =>
        rw [List.head?_append_of_ne_nil _ Nat.toDigits_ne_nil]
        exact ih (count / 10) (by omega) (by omega)

theorem stripZeros_prefix (digits : List Char) : stripZeros digits <+: digits := by
  have suffix : digits.reverse.dropWhile (· == '0') <:+ digits.reverse := List.dropWhile_suffix _
  simpa [stripZeros] using List.reverse_prefix.mpr suffix

theorem Decimal.head?_ofSteps {count : Nat} (positive : 0 < count) (step : Int) :
    (Decimal.ofSteps count step).digits.head? ≠ some '0' := by
  obtain ⟨rest, whole⟩ := stripZeros_prefix (Nat.toDigits 10 count)
  have leading := head?_toDigits positive
  intro zero
  change (stripZeros (Nat.toDigits 10 count)).head? = some '0' at zero
  rw [← whole, List.head?_append, zero] at leading
  exact leading rfl

namespace Neighbourhood

/-- Zero does not round to a number whose interval is above it. -/
theorem not_admits_zero {area : Neighbourhood} (above : 0 < area.low) : area.admits 0 = false := by
  unfold admits
  split
  · simp [Nat.ne_of_gt above]
  · simp

theorem pick?_pos {area : Neighbourhood} {count : Nat} (above : 0 < area.low)
    (picked : area.pick? = some count) : 0 < count := by
  have admitted : ∀ candidate, area.admits candidate = true → 0 < candidate := by
    intro candidate isAdmitted
    refine Nat.pos_of_ne_zero fun zero => ?_
    rw [zero, not_admits_zero above] at isAdmitted
    cases isAdmitted
  unfold pick? at picked
  dsimp only at picked
  split at picked
  · next below _ =>
    cases picked
    unfold roundDiv
    have := admitted _ below
    dsimp only
    split <;> omega
  · next below _ =>
    cases picked
    exact admitted _ below
  · cases picked
    exact Nat.succ_pos _
  · cases picked

theorem low_onGrid {area : Neighbourhood} (above : 0 < area.low) (step : Int) :
    0 < (area.onGrid step).low := by
  have scaled : 0 < (scale 10 (-step) 1 1).1 := by
    unfold scale
    split
    · exact Nat.mul_pos Nat.one_pos (Nat.pow_pos (by decide))
    · exact Nat.one_pos
  exact Nat.mul_pos above scaled

end Neighbourhood

theorem low_neighbourhood (format : Format) {significand : Nat} (positive : 0 < significand)
    (exponent : Int) : 0 < (neighbourhood format significand exponent).low := by
  have scaled : 0 < (scale 2 exponent 1 4).1 := by
    unfold scale
    split
    · exact Nat.mul_pos Nat.one_pos (Nat.pow_pos (by decide))
    · exact Nat.one_pos
  refine Nat.mul_pos ?_ scaled
  split <;> omega

/-- The shortest digits do not start with a zero. -/
theorem head?_shortest (format : Format) (significand : Nat) (exponent : Int) :
    (shortest format significand exponent).digits.head? ≠ some '0' := by
  unfold shortest
  split
  · simp
  · next given =>
    dsimp only
    cases found : (List.range mostDigits).findSome? _ with
    | none => simp
    | some decimal =>
        obtain ⟨index, _, taken⟩ := List.exists_of_findSome?_eq_some found
        obtain ⟨count, picked, rfl⟩ := Option.map_eq_some_iff.mp taken
        have above := low_neighbourhood format (Nat.pos_of_ne_zero given) exponent
        exact Decimal.head?_ofSteps
          (Neighbourhood.pick?_pos (Neighbourhood.low_onGrid above _) picked) _

/-! ## Positional digits -/

theorem isWhole_of_leading {first : Char} (leading : first ≠ '0')
    (all : ∀ c ∈ first :: digits, isDigit c = true) : isWhole (first :: digits) = true := by
  have every : (first :: digits).all isDigit = true := List.all_eq_true.mpr all
  simp [isWhole, leading, every]

theorem isDecimal_positional (digits : ∀ c ∈ decimal.digits, isDigit c = true)
    (leading : decimal.digits.head? ≠ some '0') : isDecimal decimal.positional = true := by
  have zeros : ∀ count, ∀ c ∈ List.replicate count '0', isDigit c = true := by
    intro count c member
    rw [(List.mem_replicate.mp member).2]
    rfl
  unfold Decimal.positional
  dsimp only
  split
  · rfl
  · next given =>
    have nonempty : decimal.digits ≠ [] := fun empty => given (by rw [empty]; rfl)
    split
    · refine @isDecimal_of_fraction ['0'] _ rfl (List.forall_mem_singleton.mpr rfl) (by simp [nonempty]) ?_
      exact List.forall_mem_append.mpr ⟨zeros _, digits⟩
    · next above =>
      obtain ⟨first, rest, isDigits⟩ := List.exists_cons_of_ne_nil nonempty
      rw [isDigits] at digits leading ⊢
      have apart : first ≠ '0' := fun same => leading (by rw [same]; rfl)
      split
      · have all : ∀ c ∈ first :: (rest ++ List.replicate
            (decimal.point.toNat - (first :: rest).length) '0'), isDigit c = true := by
          rw [← List.cons_append]
          exact List.forall_mem_append.mpr ⟨digits, zeros _⟩
        exact isDecimal_of_isWhole (isWhole_of_leading apart all) all
      · next short =>
        obtain ⟨size, isSize⟩ : ∃ size, decimal.point.toNat = size + 1 :=
          Nat.exists_eq_succ_of_ne_zero (by omega)
        rw [isSize] at short ⊢
        have all : ∀ c ∈ first :: rest.take size, isDigit c = true := fun c member =>
          digits c (List.mem_of_mem_take (List.take_succ_cons ▸ member))
        refine isDecimal_of_fraction (isWhole_of_leading apart all) all ?_ ?_
        · refine List.ne_nil_of_length_pos ?_
          rw [List.length_drop]
          omega
        · exact fun c member => digits c (List.mem_of_mem_drop member)

/-! ## Numbers -/

theorem splitSign_of_isDigit {first : Char} (digit : isDigit first = true) (rest : List Char) :
    Text.splitSign (first :: rest) = (false, first :: rest) := by
  unfold Text.splitSign
  split
  · next same =>
    cases same
    cases digit
  · next same =>
    cases same
    cases digit
  · rfl

theorem isLiteral_of_isDecimal {text : String} (negative : Bool) {unsigned : List Char}
    (split : Text.splitSign text.toList = (negative, unsigned)) (decimal : isDecimal unsigned = true) :
    isLiteral text = true := by
  simp only [isLiteral, split, decimal, Bool.or_true]

/-- The digits of a finite number are a decimal literal behind the sign. -/
theorem isLiteral_finite {value : Float} (finite : IsFinite value) : isLiteral (toCode value) = true := by
  obtain ⟨negative, significand, exponent, decoded⟩ := finite
  have digits := isDigit_shortest .double significand exponent
  have decimal := isDecimal_positional digits (head?_shortest .double significand exponent)
  obtain ⟨first, rest, isPositional, digit⟩ := Decimal.head_positional digits
  rw [isPositional] at decimal
  have written : (toCode value).toList =
      if negative then '-' :: first :: rest else first :: rest := by
    unfold toCode writeBinary
    rw [decoded]
    dsimp only
    rw [String.toList_ofList, ← isPositional]
    rfl
  refine isLiteral_of_isDecimal negative ?_ decimal
  rw [written]
  cases negative with
  | false => exact splitSign_of_isDigit digit rest
  | true => rfl

/-- A number is written as a literal unless it is infinite. -/
theorem isLiteral_toCode_iff (value : Float) : isLiteral (toCode value) = true ↔ ¬ IsInfinite value := by
  cases decoded : ofDouble value with
  | notANumber =>
      have written : toCode value = "NaN" := by rw [toCode, decoded, writeBinary]
      rw [written]
      simp [IsInfinite, decoded, isLiteral]
  | infinite negative =>
      have written : toCode value = if negative then "-Inf" else "+Inf" := by
        rw [toCode, decoded, writeBinary]
      rw [written]
      simp only [IsInfinite, decoded, Binary.infinite.injEq, exists_eq', not_true_eq_false, iff_false]
      cases negative <;> decide
  | finite negative significand exponent =>
      simp [IsInfinite, decoded, isLiteral_finite ⟨negative, significand, exponent, decoded⟩]

theorem isDecimal_toDigits (count : Nat) : isDecimal (Nat.toDigits 10 count) = true := by
  have digits : ∀ c ∈ Nat.toDigits 10 count, isDigit c = true := fun _ => Text.isDigit_of_mem_decimal
  refine isDecimal_of_isWhole ?_ digits
  rcases Nat.eq_zero_or_pos count with rfl | positive
  · rfl
  · have leading := head?_toDigits positive
    obtain ⟨first, rest, isDigits⟩ := List.exists_cons_of_ne_nil (Nat.toDigits_ne_nil (n := count) (b := 10))
    rw [isDigits] at digits leading ⊢
    exact isWhole_of_leading (fun same => leading (by rw [same]; rfl)) digits

/-- Integers are always literals. -/
theorem isLiteral_ofInt (value : Int) : isLiteral (Text.ofInt value) = true := by
  cases value with
  | ofNat magnitude =>
      refine isLiteral_of_isDecimal false ?_ (isDecimal_toDigits magnitude)
      obtain ⟨first, rest, isDigits⟩ :=
        List.exists_cons_of_ne_nil (Nat.toDigits_ne_nil (n := magnitude) (b := 10))
      have digit : isDigit first = true :=
        Text.isDigit_of_mem_decimal (n := magnitude) (isDigits ▸ List.mem_cons_self ..)
      rw [Text.ofInt, String.toList_ofList, isDigits]
      exact splitSign_of_isDigit digit rest
  | negSucc below =>
      refine isLiteral_of_isDecimal true ?_ (isDecimal_toDigits (below + 1))
      rw [Text.ofInt, String.toList_ofList]
      rfl

/-! ## Infinite arguments -/

theorem isInfinite_infinityOf (negative : Bool) : IsInfinite (infinityOf negative) :=
  ⟨negative, by cases negative <;> decide⟩

/-- An argument that spells infinity, in any of the ways that are read, is written as no literal. -/
theorem isLiteral_floatArg_of_infinity {node : Node} {name spelling : String} {negative : Bool}
    {unsigned : List Char} (given : node.arg? name = some (.text spelling))
    (split : Text.splitSign spelling.toList = (negative, unsigned))
    (word : unsigned.map Text.asciiLower = "inf".toList ∨
      unsigned.map Text.asciiLower = "infinity".toList)
    (fallback : Float) : isLiteral (toCode (node.floatArg name fallback)) = false := by
  have isRead : read spelling = .number (infinityOf negative) := by
    simp only [read, split, Bool.or_eq_true, decide_eq_true_eq, if_pos word]
  have isArg : node.floatArg name fallback = infinityOf negative := by
    rw [Node.floatArg, given, Option.bind_some, Value.toNumber?, read?, isRead, Option.getD_some]
  rw [isArg, ← Bool.not_eq_true, isLiteral_toCode_iff, not_not]
  exact isInfinite_infinityOf negative

end Patchbay.Number
