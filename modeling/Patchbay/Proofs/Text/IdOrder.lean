import Mathlib.Data.Nat.Digits.Defs
import Mathlib.Data.List.Induction
import Mathlib.Data.String.Basic
import Mathlib.Tactic.SplitIfs
import Patchbay.Proofs.Text.NaturalOrder

namespace Patchbay.Text

/-! The natural order as a key to sort by.

The order is told without the reader of integers: a text spells an integer when it is a sign and digits,
and texts that spell none are compared by their bytes.  Ids that do not precede each other are tied.  There
is exactly one stable sorted arrangement of a list, and sorting gives it.
-/

variable {text left right id : String} {value : Int} {ids others result : List String}
  {characters digits : List Char}

/-! ## Bytes

Texts are compared character by character.  UTF-8 writes a larger character as bytes that are larger at the
first place where they differ, and it never writes one character as the beginning of another.  Comparing
the bytes of two texts therefore gives the order of the texts.
-/

section Bytes

variable {rest others : List UInt8}

/-- The bytes of a text in UTF-8. -/
def bytes (text : String) : List UInt8 := text.toByteArray.data.toList

theorem bytes_eq (text : String) : bytes text = text.toList.flatMap String.utf8EncodeChar := by
  unfold bytes
  rw [← String.utf8Encode_toList]
  exact List.toList_data_toByteArray

theorem append_lt_append_iff {shared : List UInt8} : shared ++ rest < shared ++ others ↔ rest < others := by
  induction shared with
  | nil => rfl
  | cons byte later ih => simp [ih]

/-- A larger character has larger bytes, whatever follows. -/
theorem utf8EncodeChar_lt {lesser greater : Char} (less : lesser < greater) :
    String.utf8EncodeChar lesser ++ rest < String.utf8EncodeChar greater ++ others := by
  have ordered : lesser.val.toNat < greater.val.toNat := less
  have bounded : greater.val.toNat < 1114112 := by
    rcases greater.valid with low | high <;> omega
  clear less
  unfold String.utf8EncodeChar
  dsimp only
  generalize lesser.val.toNat = low at *
  generalize greater.val.toNat = high at *
  -- Characters of one length differ first in some six bits, read from the front.
  have third : low / 64 < high / 64 ∨ low / 64 = high / 64 ∧ low % 64 < high % 64 := by omega
  have second : low / 64 < high / 64 →
      low / 4096 < high / 4096 ∨ low / 4096 = high / 4096 ∧ low / 64 % 64 < high / 64 % 64 := by omega
  have first : low / 4096 < high / 4096 → low / 262144 < high / 262144 ∨
      low / 262144 = high / 262144 ∧ low / 4096 % 64 < high / 4096 % 64 := by omega
  split_ifs <;>
    simp only [List.cons_append, List.nil_append, List.cons_lt_cons_iff, UInt8.lt_iff_toNat_lt,
      ← UInt8.toNat_inj, UInt8.toNat_ofNat'] <;>
    simp (disch := omega) only [Nat.mod_eq_of_lt] <;>
    omega

theorem encoded_lt_iff {characters charactersToo : List Char} :
    characters.flatMap String.utf8EncodeChar < charactersToo.flatMap String.utf8EncodeChar ↔
      characters < charactersToo := by
  induction characters generalizing charactersToo with
  | nil =>
      cases charactersToo with
      | nil => simp
      | cons second later =>
          have filled : String.utf8EncodeChar second ≠ [] := String.utf8EncodeChar_ne_nil
          obtain ⟨byte, more, encoded⟩ := List.exists_cons_of_ne_nil filled
          simp [encoded]
  | cons first earlier ih =>
      cases charactersToo with
      | nil => simp
      | cons second later =>
          rw [List.flatMap_cons, List.flatMap_cons, List.cons_lt_cons_iff]
          rcases lt_trichotomy first second with less | same | greater
          · simp [less, utf8EncodeChar_lt less]
          · subst same
            rw [append_lt_append_iff, ih]
            simp
          · simp [greater.not_gt, greater.ne', List.lt_asymm (utf8EncodeChar_lt greater)]

/-- Comparing texts is comparing their bytes. -/
theorem lt_iff_bytes_lt : left < right ↔ bytes left < bytes right := by
  rw [bytes_eq, bytes_eq, encoded_lt_iff, String.lt_iff_toList_lt]

end Bytes

/-! ## Spelled integers -/

/-- The value of a row of decimal digits. -/
def magnitude (digits : List Char) : Nat := Nat.ofDigits 10 (digits.reverse.map digitValue)

/-- An integer of 64 bits written in decimal digits behind an optional sign.  Zeros may lead. -/
structure Spells (text : String) (value : Int) : Prop where
  written : ∃ digits, digits ≠ [] ∧ (∀ digit ∈ digits, isDigit digit = true) ∧
    (text.toList = digits ∧ value = magnitude digits ∨
      text.toList = '+' :: digits ∧ value = magnitude digits ∨
      text.toList = '-' :: digits ∧ value = -magnitude digits)
  low : -2 ^ 63 ≤ value
  high : value < 2 ^ 63

theorem natOfDigits_eq (digits : List Char) : natOfDigits digits = magnitude digits := by
  unfold magnitude
  induction digits using List.reverseRecOn with
  | nil => rfl
  | append_singleton earlier last ih =>
      rw [List.reverse_append, List.reverse_singleton, List.singleton_append, List.map_cons,
        Nat.ofDigits_cons, ← ih]
      unfold natOfDigits
      rw [List.foldl_append, List.foldl_cons, List.foldl_nil]
      omega

theorem natOfDigits?_eq_some_iff {total : Nat} : natOfDigits? digits = some total ↔
    (digits ≠ [] ∧ ∀ digit ∈ digits, isDigit digit = true) ∧ total = magnitude digits := by
  have read : (digits.isEmpty || !digits.all isDigit) = false ↔
      digits ≠ [] ∧ ∀ digit ∈ digits, isDigit digit = true := by
    rw [Bool.or_eq_false_iff, Bool.not_eq_false', List.all_eq_true, List.isEmpty_eq_false_iff]
  unfold natOfDigits?
  rw [← read, ← natOfDigits_eq]
  cases digits.isEmpty || !digits.all isDigit <;> simp [eq_comm]

theorem fitsWord_iff : fitsWord value = true ↔ -2 ^ 63 ≤ value ∧ value < 2 ^ 63 := by
  unfold fitsWord wordLimit
  rw [Bool.and_eq_true, decide_eq_true_eq, decide_eq_true_eq]
  omega

theorem splitSign_digits (isDigits : ∀ digit ∈ digits, isDigit digit = true) :
    splitSign digits = (false, digits) := by
  unfold splitSign
  split
  · exact absurd (isDigits '-' (List.mem_cons_self ..)) (by decide)
  · exact absurd (isDigits '+' (List.mem_cons_self ..)) (by decide)
  · rfl

theorem eq_of_splitSign {negative : Bool} (parted : splitSign characters = (negative, digits)) :
    characters = digits ∧ negative = false ∨ characters = '+' :: digits ∧ negative = false ∨
      characters = '-' :: digits ∧ negative = true := by
  unfold splitSign at parted
  split at parted <;> cases parted <;> simp

/-- What is read behind a sign that was split off. -/
theorem integer?_of_splitSign {negative : Bool} (parted : splitSign text.toList = (negative, digits)) :
    integer? text = some value ↔ (digits ≠ [] ∧ ∀ digit ∈ digits, isDigit digit = true) ∧
      value = (if negative then -(magnitude digits : Int) else magnitude digits) ∧
      -2 ^ 63 ≤ value ∧ value < 2 ^ 63 := by
  have checked : integer? text = (natOfDigits? digits).bind fun total =>
      let value : Int := if negative then -(total : Int) else total
      if fitsWord value then some value else none := by
    unfold integer?
    rw [parted]
    rfl
  simp only [checked, Option.bind_eq_some_iff, natOfDigits?_eq_some_iff, Option.ite_none_right_eq_some,
    Option.some.injEq]
  constructor
  · rintro ⟨_, ⟨isNumber, rfl⟩, fits, rfl⟩
    exact ⟨isNumber, rfl, fitsWord_iff.mp fits⟩
  · rintro ⟨isNumber, rfl, fits⟩
    exact ⟨_, ⟨isNumber, rfl⟩, fitsWord_iff.mpr fits, rfl⟩

theorem integer?_eq_some_iff : integer? text = some value ↔ Spells text value := by
  constructor
  · intro read
    cases parted : splitSign text.toList with
    | mk negative digits =>
      obtain ⟨⟨filled, isDigits⟩, rfl, low, high⟩ := (integer?_of_splitSign parted).mp read
      refine ⟨⟨digits, filled, isDigits, ?_⟩, low, high⟩
      rcases eq_of_splitSign parted with ⟨written, rfl⟩ | ⟨written, rfl⟩ | ⟨written, rfl⟩ <;> simp [written]
  · rintro ⟨⟨digits, filled, isDigits, written⟩, low, high⟩
    rcases written with ⟨written, isValue⟩ | ⟨written, isValue⟩ | ⟨written, isValue⟩
    · have parted : splitSign text.toList = (false, digits) := by rw [written, splitSign_digits isDigits]
      exact (integer?_of_splitSign parted).mpr ⟨⟨filled, isDigits⟩, isValue, low, high⟩
    · have parted : splitSign text.toList = (false, digits) := by rw [written]; rfl
      exact (integer?_of_splitSign parted).mpr ⟨⟨filled, isDigits⟩, isValue, low, high⟩
    · have parted : splitSign text.toList = (true, digits) := by rw [written]; rfl
      exact (integer?_of_splitSign parted).mpr ⟨⟨filled, isDigits⟩, isValue, low, high⟩

/-! ## The order -/

/-- Integers precede by value and stand in front of all other texts, which precede by their bytes. -/
theorem precedes_iff_spelled : precedes left right = true ↔
    (∃ a b, Spells left a ∧ Spells right b ∧ a < b) ∨
      (∃ a, Spells left a) ∧ (∀ b, ¬ Spells right b) ∨
        (∀ a, ¬ Spells left a) ∧ (∀ b, ¬ Spells right b) ∧ bytes left < bytes right := by
  simp only [← integer?_eq_some_iff, ← lt_iff_bytes_lt]
  unfold precedes
  cases integer? left <;> cases integer? right <;> simp

theorem precedes_strictWeakOrder : IsStrictWeakOrder String fun left right => precedes left right = true where
  irrefl id := by simp [precedes_iff]
  trans left between right := by
    rw [precedes_iff, precedes_iff, precedes_iff]
    exact lt_trans
  incomp_trans left between right := by
    simp only [precedes_iff, not_lt]
    exact fun first second => ⟨second.1.trans first.1, first.2.trans second.2⟩

/-- Neither of two ids precedes the other. -/
def Tied (left right : String) : Prop := ¬ precedes left right = true ∧ ¬ precedes right left = true

instance (left right : String) : Decidable (Tied left right) :=
  inferInstanceAs (Decidable (_ ∧ _))

theorem tied_iff : Tied left right ↔ rank right = rank left := by
  unfold Tied
  rw [precedes_iff, precedes_iff, not_lt, not_lt]
  exact ⟨fun both => le_antisymm both.1 both.2, fun same => ⟨same.le, same.ge⟩⟩

/-- Ids are tied when they are the same or spell the same integer. -/
theorem tied_iff_spelled :
    Tied left right ↔ left = right ∨ ∃ value, Spells left value ∧ Spells right value := by
  simp only [tied_iff, eq_comm (a := rank right), rank_eq_iff, integer?_eq_some_iff]

/-! ## Arrangements -/

/-- The ids of a list in order, tied ones as they were. -/
structure Arranges (ids result : List String) : Prop where
  perm : result.Perm ids
  ordered : result.Pairwise fun left right => ¬ precedes right left = true
  stable : ∀ id, result.filter (Tied id ·) = ids.filter (Tied id ·)

theorem ofRank_rank (id : String) (ids : List String) : ofRank (rank id) ids = ids.filter (Tied id ·) := by
  simp only [ofRank, tied_iff]

theorem sortIds_arranges (ids : List String) : Arranges ids (sortIds ids) where
  perm := List.mergeSort_perm ids _
  ordered := by
    refine (sorted_sortIds ids).imp fun {left right} ordered => ?_
    rwa [precedes_iff, not_lt]
  stable id := by rw [← ofRank_rank, ← ofRank_rank, sameOrder_sortIds ids]

theorem Arranges.sameOrder (arranges : Arranges ids result) : SameOrder result ids := by
  intro value
  by_cases held : ∃ id, rank id = value
  · obtain ⟨id, rfl⟩ := held
    rw [ofRank_rank, ofRank_rank, arranges.stable]
  · simp only [not_exists] at held
    simp [ofRank, held]

/-- A list has one arrangement, and that is what sorting gives. -/
theorem arranges_iff : Arranges ids result ↔ result = sortIds ids := by
  constructor
  · intro arranges
    have sorted : Sorted result := arranges.ordered.imp fun {left right} ordered => by
      rwa [precedes_iff, not_lt] at ordered
    refine sorted.eq_of_sameOrder (sorted_sortIds ids) fun value => ?_
    rw [arranges.sameOrder, sameOrder_sortIds ids]
  · rintro rfl
    exact sortIds_arranges ids

/-- The natural order is one to sort by.  Sorting gives the only stable arrangement of a list, and sorting
again changes nothing.  Where no two different ids spell one integer, the order in which they are given does
not matter. -/
theorem natural_order_decides_sorting :
    IsStrictWeakOrder String (fun left right => precedes left right = true) ∧
    (∀ left right, precedes left right = true ↔
      (∃ a b, Spells left a ∧ Spells right b ∧ a < b) ∨
        (∃ a, Spells left a) ∧ (∀ b, ¬ Spells right b) ∨
          (∀ a, ¬ Spells left a) ∧ (∀ b, ¬ Spells right b) ∧ bytes left < bytes right) ∧
    (∀ ids result, Arranges ids result ↔ result = sortIds ids) ∧
    (∀ ids, sortIds (sortIds ids) = sortIds ids) ∧
    ∀ ids others, ids.Perm others →
      (∀ left ∈ ids, ∀ right ∈ ids, ∀ value, Spells left value → Spells right value → left = right) →
      sortIds ids = sortIds others := by
  refine ⟨precedes_strictWeakOrder, fun _ _ => precedes_iff_spelled, fun _ _ => arranges_iff, ?_, ?_⟩
  · exact fun ids => sortIds_congr (sameOrder_sortIds ids)
  · intro ids others perm distinct
    simp only [← integer?_eq_some_iff] at distinct
    exact sortIds_congr (sameOrder_of_perm distinct perm)

/-! Ids at the limits of an integer: the last one that fits, the next one, and a sign in front of zeros. -/

def mixedIds : List String := ["b", "+007", "10", "9223372036854775808", "a", "9223372036854775807", "-1"]

def arrangedIds : List String := ["-1", "+007", "10", "9223372036854775807", "9223372036854775808", "a", "b"]

theorem natural_order_decides_sorting_mixed :
    mixedIds.Perm arrangedIds ∧
    (∀ left ∈ mixedIds, ∀ right ∈ mixedIds, ∀ value, Spells left value → Spells right value → left = right) ∧
    sortIds mixedIds = arrangedIds := by
  obtain ⟨_, _, arranged, _, unmoved⟩ := natural_order_decides_sorting
  have perm : mixedIds.Perm arrangedIds := by decide
  have apart : ∀ left ∈ mixedIds, ∀ right ∈ mixedIds,
      integer? left = integer? right → integer? left = none ∨ left = right := by decide +kernel
  have distinct : ∀ left ∈ mixedIds, ∀ right ∈ mixedIds, ∀ value,
      Spells left value → Spells right value → left = right := by
    intro left isLeft right isRight value ofLeft ofRight
    rw [← integer?_eq_some_iff] at ofLeft ofRight
    refine (apart left isLeft right isRight (ofLeft.trans ofRight.symm)).resolve_left ?_
    simp [ofLeft]
  have inOrder : arrangedIds.Pairwise fun left right => ¬ precedes right left = true := by decide +kernel
  refine ⟨perm, distinct, (unmoved _ _ perm distinct).trans ?_⟩
  exact ((arranged arrangedIds arrangedIds).mp ⟨.refl _, inOrder, fun _ => rfl⟩).symm

end Patchbay.Text
